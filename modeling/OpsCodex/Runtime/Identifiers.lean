import Mathlib.Algebra.Group.Int.Defs
import Mathlib.Algebra.GroupWithZero.Nat

/-! Identifiers and clock readings. A generated identifier is a time-ordered
UUID that is never generated twice; the model numbers them. -/

set_option autoImplicit false

namespace OpsCodex.Runtime

abbrev Uuid := Nat

structure ThreadId where
  uuid : Uuid
  deriving DecidableEq, Repr

structure TurnId where
  uuid : Uuid
  deriving DecidableEq, Repr

structure ApprovalId where
  uuid : Uuid
  deriving DecidableEq, Repr

structure EventId where
  uuid : Uuid
  deriving DecidableEq, Repr

structure ItemId where
  uuid : Uuid
  deriving DecidableEq, Repr

structure EvidenceId where
  uuid : Uuid
  deriving DecidableEq, Repr

structure ClaimId where
  uuid : Uuid
  deriving DecidableEq, Repr

structure PlanId where
  uuid : Uuid
  deriving DecidableEq, Repr

structure ActionId where
  uuid : Uuid
  deriving DecidableEq, Repr

instance : ToString ThreadId := ⟨fun id => toString id.uuid⟩
instance : ToString TurnId := ⟨fun id => toString id.uuid⟩
instance : ToString ApprovalId := ⟨fun id => toString id.uuid⟩
instance : ToString EventId := ⟨fun id => toString id.uuid⟩
instance : ToString EvidenceId := ⟨fun id => toString id.uuid⟩
instance : ToString PlanId := ⟨fun id => toString id.uuid⟩
instance : ToString ActionId := ⟨fun id => toString id.uuid⟩

/-- A workspace identifier is chosen by the configuration. -/
structure WorkspaceId where
  asStr : String
  deriving DecidableEq, Repr

def WorkspaceId.default : WorkspaceId := ⟨"default"⟩

/-- Nanoseconds since the epoch. -/
abbrev DateTime := Int

/-- A configured length of time in nanoseconds. -/
abbrev Duration := Nat

/-- The longest duration that can be added to a clock reading. -/
def maxChronoDuration : Nat := (2 ^ 63 - 1) * 1000000

def seconds (count : Nat) : Int := count * 1000000000

/-- A configured duration as an offset, or the fallback when it is too long. -/
def fromStd (ttl : Duration) (fallback : Int) : Int :=
  if ttl ≤ maxChronoDuration then ttl else fallback

end OpsCodex.Runtime
