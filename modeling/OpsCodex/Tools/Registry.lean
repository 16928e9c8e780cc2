import OpsCodex.Extensions.Enablement

/-! The registry of the tools that a turn can call. -/

set_option autoImplicit false

namespace OpsCodex.Tools

open OpsCodex.Json OpsCodex.Action OpsCodex.Extensions
open OpsCodex.Strings (trim)

structure Tool where
  name : String
  description : String
  schema : Value
  risk : ToolRisk
  descriptor : CapabilityDescriptor

structure ToolRegistry where
  tools : List (String × Tool)
  ids : List (String × String)

namespace ToolRegistry

def empty : ToolRegistry where
  tools := []
  ids := []

def register (registry : ToolRegistry) (tool : Tool) : Result ToolRegistry :=
  let name := tool.name
  if trim name.toList = [] then .error (.tool "tool name cannot be empty")
  else if name.toList ≠ trim name.toList then
    .error (.tool s!"tool name `{name}` cannot have surrounding whitespace")
  else if (registry.tools.lookup name).isSome then
    .error (.tool s!"tool `{name}` is already registered")
  else
    match tool.descriptor.validateForEnablement with
    | .error error => .error error
    | .ok () =>
        if (registry.ids.lookup tool.descriptor.id).isSome then
          .error (.tool s!"capability `{tool.descriptor.id}` is already registered")
        else
          .ok { tools := (name, tool) :: registry.tools
                ids := (tool.descriptor.id, name) :: registry.ids }

/-- Every tool of the registry satisfies the property. -/
def All (property : Tool → Prop) (registry : ToolRegistry) : Prop :=
  ∀ entry ∈ registry.tools, property entry.2

/-- A registry has the tools of another one, and more of them before. -/
def Extends (before after : ToolRegistry) : Prop := before.tools <:+ after.tools

variable {registry after : ToolRegistry} {tool : Tool}

/-- A tool that is registered is the newest one, over the tools there were. -/
theorem register_tools (registered : registry.register tool = .ok after) :
    after.tools = (tool.name, tool) :: registry.tools := by
  unfold register at registered
  dsimp only at registered
  split at registered
  · cases registered
  · split at registered
    · cases registered
    · split at registered
      · cases registered
      · split at registered
        · cases registered
        · split at registered
          · cases registered
          · cases registered
            rfl

theorem extends_of_register (registered : registry.register tool = .ok after) :
    registry.Extends after := by
  rw [Extends, register_tools registered]
  exact List.suffix_cons _ _

theorem ne_of_register {last : ToolRegistry} (registered : registry.register tool = .ok after)
    (later : after.Extends last) : last ≠ registry := by
  rintro rfl
  have shorter := later.length_le
  rw [register_tools registered] at shorter
  exact absurd shorter (Nat.not_succ_le_self _)

theorem All.register {property : Tool → Prop} (all : registry.All property)
    (new : property tool) (registered : registry.register tool = .ok after) :
    after.All property := by
  intro entry member
  rw [register_tools registered] at member
  obtain rfl | member := List.mem_cons.mp member
  · exact new
  · exact all entry member

end ToolRegistry

end OpsCodex.Tools
