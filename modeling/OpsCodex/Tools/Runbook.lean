import OpsCodex.Runbook
import OpsCodex.Tools.Output

/-! The tools that find and read runbooks. -/

set_option autoImplicit false

namespace OpsCodex.Tools

open OpsCodex.Json OpsCodex.Evidence OpsCodex.Runtime Offsets

def RunbookMeta.toValue (info : RunbookMeta) : Value :=
  .object [
    ("hash", .string info.hash),
    ("id", .string info.id),
    ("services", .ofStrings info.services),
    ("signals", .ofStrings info.signals),
    ("tags", .ofStrings info.tags),
    ("title", .string info.title),
    ("version", .number (.posInt info.version.toUInt64))]

namespace RunbookSearchTool

structure SearchArguments where
  query : String
  service : Option String

/-- A call; arguments that cannot be read search for nothing in particular. -/
def execute (catalog : RunbookCatalog) (cancelled : Bool)
    (arguments : Except String SearchArguments) (observed stamped : DateTime) :
    Result ToolOutput :=
  if cancelled then .error .cancelled
  else
    let arguments := arguments.toOption.getD { query := "", service := none }
    let found := catalog.search arguments.query arguments.service
    .ok {
      content := .object [("matches", .array (found.map RunbookMeta.toValue))]
      evidence := {
        (EvidenceMeta.new "runbook" observed stamped).withQuery s!"search {arguments.query}" with
        summary := s!"{found.length} runbooks matched" } }

end RunbookSearchTool

namespace RunbookReadTool

structure ReadArguments where
  id : String
  version : Option UInt32

def maxBodyBytes : Nat := 8 * 1024

/-- The body that is shown, or none where the slice panics. -/
def shown (body : List Char) : Option (List Char) :=
  if maxBodyBytes < width Char.utf8Size body then
    (sliceTo Char.utf8Size body maxBodyBytes).map (· ++ ['…'])
  else some body

def output (runbook : Runbook) (observed stamped : DateTime) (body : List Char) : ToolOutput where
  content := .object [
    ("body", .string (String.ofList body)),
    ("hash", .string runbook.info.hash),
    ("id", .string runbook.info.id),
    ("note", .string "Runbook commands are not executed automatically."),
    ("title", .string runbook.info.title),
    ("version", .number (.posInt runbook.info.version.toUInt64))]
  evidence := {
    (EvidenceMeta.new "runbook" observed stamped).withQuery
      s!"{runbook.info.id}@{runbook.info.version}" with
    summary := s!"{runbook.info.title} ({runbook.info.hash})" }

/-- A call; it has no result where the slice panics. -/
def execute (catalog : RunbookCatalog) (cancelled : Bool)
    (arguments : Except String ReadArguments) (observed stamped : DateTime) :
    Option (Result ToolOutput) :=
  if cancelled then some (.error .cancelled)
  else
    match arguments with
    | .error error => some (.error (.protocol error))
    | .ok arguments =>
        match catalog.read arguments.id arguments.version with
        | .error error => some (.error error)
        | .ok runbook =>
            (shown runbook.body).map fun body => .ok (output runbook observed stamped body)

/-- The body fits, or its bytes up to the limit end between two characters. -/
def Fits (body : List Char) : Prop :=
  width Char.utf8Size body ≤ maxBodyBytes ∨
    isBoundary Char.utf8Size body maxBodyBytes = true

/-- The whole body, or as much of it as the limit allows and an ellipsis. -/
def Shows (body text : List Char) : Prop :=
  text = body ∧ width Char.utf8Size body ≤ maxBodyBytes ∨
    ∃ kept, kept <+: body ∧ width Char.utf8Size kept = maxBodyBytes ∧ text = kept ++ ['…']

theorem shown_isSome_iff {body : List Char} : (shown body).isSome = true ↔ Fits body := by
  rw [shown, Fits]
  split
  · rename_i long
    rw [Option.isSome_map, sliceTo, Option.isSome_map]
    exact ⟨.inr, fun fits => fits.resolve_left (Nat.not_le_of_lt long)⟩
  · rename_i short
    exact ⟨fun _ => .inl (Nat.le_of_not_lt short), fun _ => rfl⟩

theorem shown_shows {body text : List Char} (cut : shown body = some text) :
    Shows body text := by
  rw [shown] at cut
  split at cut
  · obtain ⟨kept, sliced, rfl⟩ := Option.map_eq_some_iff.mp cut
    obtain ⟨shorter, wide⟩ := sliceTo_eq_some sliced
    exact .inr ⟨kept, shorter, wide, rfl⟩
  · rename_i short
    cases cut
    exact .inl ⟨rfl, Nat.le_of_not_lt short⟩

section

variable {catalog : RunbookCatalog} {runbook : Runbook} {observed stamped : DateTime}

theorem execute_read (arguments : ReadArguments)
    (reads : catalog.read arguments.id arguments.version = .ok runbook) :
    execute catalog false (.ok arguments) observed stamped =
      (shown runbook.body).map fun body => .ok (output runbook observed stamped body) := by
  simp only [execute, reads, Bool.false_eq_true, if_false]

end

/-- The tool answers every call if and only if each runbook that can be read fits, and an
answer shows the body of the runbook that was asked for. -/
theorem answers_iff (catalog : RunbookCatalog) (observed stamped : DateTime) :
    ((∀ cancelled arguments,
      (execute catalog cancelled arguments observed stamped).isSome = true) ↔
        ∀ runbook ∈ catalog.runbooks,
          Runbook.hasPathSegments runbook.info.id = false → Fits runbook.body) ∧
      ∀ cancelled arguments answer,
        execute catalog cancelled (.ok arguments) observed stamped = some (.ok answer) →
          ∃ runbook text, catalog.read arguments.id arguments.version = .ok runbook ∧
            Shows runbook.body text ∧ answer = output runbook observed stamped text := by
  refine ⟨⟨fun answers runbook known single => ?_, fun fits cancelled arguments => ?_⟩,
    fun cancelled arguments answer ran => ?_⟩
  · have answered := answers false (.ok ⟨runbook.info.id, some runbook.info.version⟩)
    rw [execute_read ⟨runbook.info.id, some runbook.info.version⟩
      (RunbookCatalog.read_own known single), Option.isSome_map] at answered
    exact shown_isSome_iff.mp answered
  · cases cancelled with
    | true => rfl
    | false =>
        cases arguments with
        | error error => rfl
        | ok arguments =>
            cases reads : catalog.read arguments.id arguments.version with
            | error error => simp only [execute, reads, Bool.false_eq_true, if_false,
                Option.isSome_some]
            | ok runbook =>
                obtain ⟨single, chosen⟩ := RunbookCatalog.read_ok reads
                obtain ⟨known, sameId, _⟩ := RunbookCatalog.mem_candidates.mp chosen
                rw [execute_read arguments reads, Option.isSome_map]
                exact shown_isSome_iff.mpr (fits runbook known (sameId ▸ single))
  · cases cancelled with
    | true => cases ran
    | false =>
        cases reads : catalog.read arguments.id arguments.version with
        | error error =>
            simp only [execute, reads, Bool.false_eq_true, if_false] at ran
            cases ran
        | ok runbook =>
            rw [execute_read arguments reads] at ran
            obtain ⟨text, cut, same⟩ := Option.map_eq_some_iff.mp ran
            cases same
            exact ⟨runbook, text, rfl, shown_shows cut, rfl⟩

end RunbookReadTool

end OpsCodex.Tools
