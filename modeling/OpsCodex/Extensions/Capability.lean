import OpsCodex.Error
import OpsCodex.Evidence

/-! Capability descriptors of registered tools. -/

set_option autoImplicit false

namespace OpsCodex.Extensions

open OpsCodex.Json OpsCodex.Evidence

inductive CapabilitySource where
  | builtin
  | mcp
  | custom
  deriving DecidableEq, Repr

inductive CapabilityEffect where
  | observe
  | changeReversible
  | changeIrreversible
  | externalSideEffect
  deriving DecidableEq, Repr

namespace CapabilityEffect

def asStr : CapabilityEffect → String
  | .observe => "observe"
  | .changeReversible => "change_reversible"
  | .changeIrreversible => "change_irreversible"
  | .externalSideEffect => "external_side_effect"

def parse (value : String) : Result CapabilityEffect :=
  if value = "observe" then .ok .observe
  else if value = "change_reversible" then .ok .changeReversible
  else if value = "change_irreversible" then .ok .changeIrreversible
  else if value = "external_side_effect" then .ok .externalSideEffect
  else .error (.protocol s!"unsupported capability effect `{value}`")

theorem parse_asStr (effect : CapabilityEffect) : parse effect.asStr = .ok effect := by
  cases effect <;> rfl

end CapabilityEffect

inductive RecoveryMode where
  | noneNeeded
  | idempotent
  | needsReconciliation
  deriving DecidableEq, Repr

namespace RecoveryMode

/-- The text written for a recovery mode in a pending operation. -/
def asStr : RecoveryMode → String
  | .noneNeeded => "none_needed"
  | .idempotent => "idempotent"
  | .needsReconciliation => "needs_reconciliation"

def parse (value : String) : Result RecoveryMode :=
  if value = "none_needed" ∨ value = "none" then .ok .noneNeeded
  else if value = "idempotent" then .ok .idempotent
  else if value = "needs_reconciliation" then .ok .needsReconciliation
  else .error (.protocol s!"unsupported recovery mode `{value}`")

theorem parse_asStr (mode : RecoveryMode) : parse mode.asStr = .ok mode := by
  cases mode <;> rfl

end RecoveryMode

structure Provenance where
  source : CapabilitySource
  version : String
  schemaHash : String
  binaryHash : Option String
  origin : Option String
  deriving DecidableEq, Repr

structure CapabilityDescriptor where
  id : String
  source : CapabilitySource
  name : String
  description : String
  inputSchema : Value
  outputSchema : Option Value
  effect : CapabilityEffect
  targetRequirements : List String
  timeoutSeconds : UInt64
  maxOutputBytes : Nat
  recovery : Option RecoveryMode
  provenance : Provenance
  contentSensitivity : Sensitivity
  enabled : Bool
  trustedLocal : Bool

structure ToolSchema where
  name : String
  description : String
  parameters : Value

end OpsCodex.Extensions
