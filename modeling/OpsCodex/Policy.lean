import OpsCodex.Extensions.Capability

/-! Policy decisions about capabilities, and approval requests to the user. -/

set_option autoImplicit false

namespace OpsCodex.Policy

open OpsCodex.Json OpsCodex.Runtime OpsCodex.Extensions

inductive PolicyDecision where
  | allow
  | ask
  | deny
  deriving DecidableEq, Repr

/-- An approval the user is asked for; the broker holds it until it is decided. -/
structure PendingApproval where
  id : ApprovalId
  tool : String
  arguments : Value
  schemaHash : Option String

def evaluateCapability (descriptor : CapabilityDescriptor) : PolicyDecision :=
  if !descriptor.enabled then .deny
  else
    match descriptor.effect with
    | .observe => .allow
    | .changeReversible | .changeIrreversible => .deny
    | .externalSideEffect =>
        if (descriptor.source = .builtin ∧ descriptor.name = "exec") ∨
            descriptor.trustedLocal = true then .ask
        else .deny

end OpsCodex.Policy
