import OpsCodex.Store.Continuity

/-! The items of the model context that a thread's log projects to. -/

set_option autoImplicit false

namespace OpsCodex.Store

open OpsCodex.Json OpsCodex.Runtime

/-- The sequence numbers that a compaction covers. -/
def compactedRange : RuntimeEvent → Option (Nat × Nat)
  | .contextCompacted _ coversSeqStart coversSeqEnd _ _ _ _ _ _ _ =>
      some (coversSeqStart, coversSeqEnd)
  | _ => none

def compactedRanges (events : List EventEnvelope) : List (Nat × Nat) :=
  events.filterMap fun envelope => compactedRange envelope.event

def isCovered (seq : Nat) (ranges : List (Nat × Nat)) : Bool :=
  ranges.any fun range => range.1 ≤ seq && seq ≤ range.2

section

variable (promptBlock : IncidentContext → String) (range : Nat → Nat → String)

/-- The item that an event becomes. A summary's header prints the range it covers. -/
def eventItem : RuntimeEvent → Option ModelItem
  | .userMessage content (some context) =>
      some (.userMessage s!"{promptBlock context}\n\n{content}")
  | .userMessage content none => some (.userMessage content)
  | .assistantCompleted content _ => some (.assistantMessage content)
  | .toolStarted callId tool arguments | .toolProposed callId tool arguments =>
      some (.toolCall callId tool arguments)
  | .toolCompleted callId _ output _ _ => some (.toolResult callId output)
  | .contextCompacted _ coversSeqStart coversSeqEnd _ sourceEvidenceIds _ _ _ _ summary =>
      let covers := range coversSeqStart coversSeqEnd
      let evidence := String.intercalate ", " sourceEvidenceIds
      some (.userMessage s!"[compacted context seq {covers}; evidence: {evidence}]\n{summary}")
  | _ => none

/-- An event under a compacted range becomes no item, unless it is a compaction. -/
def visibleItem (covered : List (Nat × Nat)) (envelope : EventEnvelope) : Option ModelItem :=
  if isCovered envelope.seq covered && (compactedRange envelope.event).isNone then none
  else eventItem promptBlock range envelope.event

def modelItemsWith (events : List EventEnvelope) : List ModelItem :=
  events.filterMap (visibleItem promptBlock range (compactedRanges events))

end

def modelItemsFromEvents (promptBlock : IncidentContext → String)
    (events : List EventEnvelope) : List ModelItem :=
  modelItemsWith promptBlock (fun start stop => s!"{start}-{stop}") events

section

variable {promptBlock : IncidentContext → String} {range : Nat → Nat → String}

theorem eventItem_isSome (promptBlock : IncidentContext → String) (range : Nat → Nat → String)
    (event : RuntimeEvent) :
    (eventItem promptBlock range event).isSome =
      (event.contributes || (compactedRange event).isSome) := by
  cases event with
  | userMessage content context => cases context <;> rfl
  | _ => rfl

theorem compactedRange_of_contributes {event : RuntimeEvent}
    (contributes : event.contributes = true) : compactedRange event = none := by
  cases event <;> first | rfl | cases contributes

theorem eventItem_eq_none {event : RuntimeEvent} (silent : event.contributes = false)
    (plain : compactedRange event = none) : eventItem promptBlock range event = none := by
  have absent : (eventItem promptBlock range event).isSome = false := by
    rw [eventItem_isSome, silent, plain]
    rfl
  simpa using absent

/-- Only the cover of events that carry items matters. -/
theorem visibleItem_congr {covered : List (Nat × Nat)} {left right : EventEnvelope}
    (event : left.event = right.event)
    (aligned : right.event.contributes = true →
      isCovered left.seq covered = isCovered right.seq covered) :
    visibleItem promptBlock range covered left = visibleItem promptBlock range covered right := by
  unfold visibleItem
  rw [event]
  cases contributes : right.event.contributes with
  | true => rw [aligned contributes]
  | false =>
      cases plain : compactedRange right.event with
      | none => simp [eventItem_eq_none contributes plain]
      | some compacted => simp

end

end OpsCodex.Store
