/-! Errors of the runtime and their user-visible classes. -/

set_option autoImplicit false

namespace OpsCodex

inductive ConnectorClass where
  | auth
  | rateLimit
  | timeout
  | unavailable
  | invalidQuery
  | malformedData
  | policy
  deriving DecidableEq, Repr

namespace ConnectorClass

def asStr : ConnectorClass → String
  | .auth => "auth"
  | .rateLimit => "rate_limit"
  | .timeout => "timeout"
  | .unavailable => "unavailable"
  | .invalidQuery => "invalid_query"
  | .malformedData => "malformed_data"
  | .policy => "policy"

def retryable : ConnectorClass → Bool
  | .rateLimit | .timeout | .unavailable => true
  | _ => false

end ConnectorClass

inductive OpsCodexError where
  | model (message : String)
  | tool (message : String)
  | policy (message : String)
  | storage (message : String)
  | protocol (message : String)
  | cancelled
  | maxStepsExceeded
  | turnAlreadyRunning
  | needsReconciliation (message : String)
  | notFound (message : String)
  | timeout (message : String)
  | connector (kind : ConnectorClass) (message : String)
  deriving DecidableEq, Repr

namespace OpsCodexError

def toString : OpsCodexError → String
  | .model message => s!"model error: {message}"
  | .tool message => s!"tool error: {message}"
  | .policy message => s!"policy error: {message}"
  | .storage message => s!"storage error: {message}"
  | .protocol message => s!"protocol error: {message}"
  | .cancelled => "turn cancelled"
  | .maxStepsExceeded => "maximum agent steps exceeded"
  | .turnAlreadyRunning => "thread already has an active turn"
  | .needsReconciliation message => s!"needs reconciliation: {message}"
  | .notFound message => s!"resource not found: {message}"
  | .timeout message => s!"operation timed out: {message}"
  | .connector kind message => s!"{kind.asStr}: {message}"

instance : ToString OpsCodexError := ⟨OpsCodexError.toString⟩

def connectorClass : OpsCodexError → ConnectorClass
  | .timeout _ => .timeout
  | .policy _ => .policy
  | .connector kind _ => kind
  | _ => .unavailable

end OpsCodexError

/-- Outcome of code that cannot suspend. -/
abbrev Result (Value : Type) : Type := Except OpsCodexError Value

end OpsCodex
