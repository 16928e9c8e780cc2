import OpsCodex.Action
import OpsCodex.Extensions.Capability
import OpsCodex.Strings

/-! What a capability descriptor must satisfy before its tool is enabled. -/

set_option autoImplicit false

namespace OpsCodex.Tools

inductive ToolRisk where
  | safe
  | ask
  | forbidden
  deriving DecidableEq, Repr

end OpsCodex.Tools

namespace OpsCodex.Extensions

open OpsCodex.Json OpsCodex.Action OpsCodex.Tools
open OpsCodex.Strings (splitOnce trim)

namespace CapabilityEffect

def rank : CapabilityEffect → Nat
  | .observe => 0
  | .changeReversible => 1
  | .changeIrreversible => 2
  | .externalSideEffect => 3

/-- The effect of the highest rank, the strictest one when there is none. -/
def strictest (effects : List CapabilityEffect) : CapabilityEffect :=
  (effects.foldl
    (fun best effect =>
      match best with
      | some chosen => if effect.rank < chosen.rank then some chosen else some effect
      | none => some effect)
    none).getD .externalSideEffect

theorem rank_le_externalSideEffect (effect : CapabilityEffect) :
    effect.rank ≤ externalSideEffect.rank := by
  cases effect <;> decide

end CapabilityEffect

def CapabilitySource.asStr : CapabilitySource → String
  | .builtin => "builtin"
  | .mcp => "mcp"
  | .custom => "custom"

def builtinNamespace : String := "builtin"

def builtinVersion : String := "1.0.0"

def maxOutputBytes : Nat := 64 * 1024

def capabilityId (qualifier name version : String) : String := s!"{qualifier}/{name}@{version}"

/-- The parts of a text before and after the last separator. -/
def rsplitOnce (separator : Char) (value : List Char) : Option (List Char × List Char) :=
  (splitOnce [separator] value.reverse).map fun parts => (parts.2.reverse, parts.1.reverse)

def parseCapabilityId (id : String) : Result (String × String × String) :=
  let malformed : Result (String × String × String) :=
    .error (.protocol s!"capability id `{id}` must be namespace/name@version")
  match rsplitOnce '@' id.toList with
  | none => malformed
  | some (qualified, version) =>
      match splitOnce ['/'] qualified with
      | none => malformed
      | some (qualifier, name) =>
          if trim qualifier = [] ∨ trim name = [] ∨ trim version = [] then malformed
          else if qualifier = builtinNamespace.toList ∧ '/' ∈ name then
            .error (.protocol "builtin capability names cannot contain additional namespaces")
          else .ok (String.ofList qualifier, String.ofList name, String.ofList version)

def hashSchema (codec : Codec) (schema : Value) : String :=
  codec.sha256Hex (codec.toVec schema)

structure CapabilitySummary where
  id : String
  name : String
  source : CapabilitySource
  version : String
  effect : CapabilityEffect
  schemaHash : String
  enabled : Bool
  trustedLocal : Bool
  deriving DecidableEq, Repr

namespace CapabilityDescriptor

def builtin (codec : Codec) (name description : String) (inputSchema : Value)
    (risk : ToolRisk) : CapabilityDescriptor where
  id := capabilityId builtinNamespace name builtinVersion
  source := .builtin
  name := name
  description := description
  inputSchema := inputSchema
  outputSchema := none
  effect :=
    match risk with
    | .safe => .observe
    | .ask | .forbidden => .externalSideEffect
  targetRequirements := []
  timeoutSeconds := 30
  maxOutputBytes := Extensions.maxOutputBytes
  recovery := some .noneNeeded
  provenance :=
    { source := .builtin
      version := builtinVersion
      schemaHash := hashSchema codec inputSchema
      binaryHash := none
      origin := some "compiled" }
  contentSensitivity := .internal
  enabled := true
  trustedLocal := false

def applyStrictest (descriptor : CapabilityDescriptor)
    (workspace localEffect : Option CapabilityEffect) : CapabilityDescriptor :=
  { descriptor with
    effect := .strictest ([some descriptor.effect, workspace, localEffect].reduceOption) }

def requiresRecoveryMetadata (descriptor : CapabilityDescriptor) : Bool :=
  decide (descriptor.source ≠ .builtin)

def validateForEnablement (descriptor : CapabilityDescriptor) : Result Unit :=
  match parseCapabilityId descriptor.id with
  | .error error => .error error
  | .ok _ =>
      if trim descriptor.name.toList = [] then
        .error (.protocol "capability name cannot be empty")
      else if descriptor.requiresRecoveryMetadata && descriptor.recovery.isNone then
        .error (.policy s!"capability `{descriptor.id}` is missing recovery metadata")
      else if descriptor.timeoutSeconds = 0 ∨ descriptor.maxOutputBytes = 0 then
        .error (.protocol s!"capability `{descriptor.id}` budgets must be greater than zero")
      else .ok ()

def summary (descriptor : CapabilityDescriptor) : CapabilitySummary where
  id := descriptor.id
  name := descriptor.name
  source := descriptor.source
  version := descriptor.provenance.version
  effect := descriptor.effect
  schemaHash := descriptor.provenance.schemaHash
  enabled := descriptor.enabled
  trustedLocal := descriptor.trustedLocal

end CapabilityDescriptor

def enforceWorkspaceCeiling (descriptor : CapabilityDescriptor)
    (workspaceMax : Option CapabilityEffect) : Result Unit :=
  match workspaceMax with
  | some ceiling =>
      if ceiling.rank < descriptor.effect.rank then
        .error (.policy (s!"capability `{descriptor.id}` effect `{descriptor.effect.asStr}` " ++
          s!"exceeds workspace max `{ceiling.asStr}`"))
      else .ok ()
  | none => .ok ()

theorem rank_le_of_enforced {descriptor : CapabilityDescriptor} {ceiling : CapabilityEffect}
    (enforced : enforceWorkspaceCeiling descriptor (some ceiling) = .ok ()) :
    descriptor.effect.rank ≤ ceiling.rank := by
  simp only [enforceWorkspaceCeiling] at enforced
  split at enforced
  · cases enforced
  · rename_i within
    exact Nat.le_of_not_lt within

end OpsCodex.Extensions
