import OpsCodex.Sequence.Transcript
import OpsCodex.Store.EvidenceIndex
import OpsCodex.Store.Items
import OpsCodex.Store.Jsonl
import OpsCodex.Store.ModelContext
import OpsCodex.Store.ModelItems

/-! What an event store does, whatever it keeps its events in: the reads that both stores
share, and a store that is only the list of its records. -/

set_option autoImplicit false

namespace OpsCodex.Store

open OpsCodex.Json OpsCodex.Runtime OpsCodex.Action OpsCodex.Evidence

inductive StoreQuery where
  | eventsAfter (afterSeq : UInt64)
  | lastSeq
  | getThread
  | modelContext (budget : ContextBudget)
  | getEvidence (evidenceId : EvidenceId)

/-- The calls of an event store that the JSONL and the SQLite store both have. -/
inductive StoreCall where
  | createThread (threadId : ThreadId) (workspaceId : WorkspaceId)
  | appendEvent (command : AppendEvent)
  | query (threadId : ThreadId) (query : StoreQuery)

inductive StoreAnswer where
  | event (envelope : EventEnvelope)
  | events (envelopes : List EventEnvelope)
  | seq (seq : Nat)
  | thread (view : ThreadView)
  | items (items : List ModelItem)
  | evidence (evidence : EvidenceMeta)

/-- What a store makes up for a call by itself. -/
structure Stamp where
  clock : DateTime
  fresh : Uuid

/-- Text that the reads put together. -/
structure Projections where
  promptBlock : IncidentContext → String
  itemBytes : ModelItem → Nat
  synthesize : ThreadId → Nat → String → EvidenceId

section

variable (projections : Projections)

def Projections.modelContext (events : List EventEnvelope) (budget : ContextBudget) :
    List ModelItem :=
  buildModelContext id projections.itemBytes budget
    (modelItemsFromEvents projections.promptBlock events)

/-- The evidence of a successful result that has an identifier, its own or the one
derived from its place. -/
def Projections.findEvidence (threadId : ThreadId) (evidenceId : EvidenceId) :
    List EventEnvelope → Result EvidenceMeta
  | [] => .error (.notFound s!"evidence {evidenceId}")
  | envelope :: envelopes =>
      match envelope.event with
      | .toolCompleted _ _ _ evidence true =>
          let id := evidenceIdOrSynthesize projections.synthesize evidence threadId envelope.seq
          if id = evidenceId then .ok { evidence with evidenceId := some id }
          else Projections.findEvidence threadId evidenceId envelopes
      | _ => Projections.findEvidence threadId evidenceId envelopes

/-- The reads of a store over how it loads the events of a thread and finds the last
sequence number. -/
def Projections.answer (threadId : ThreadId)
    (eventsAfter : Nat → Result (List EventEnvelope)) (lastSeq : Result Nat) :
    StoreQuery → Result StoreAnswer
  | .eventsAfter afterSeq => do return .events (← eventsAfter afterSeq.toNat)
  | .lastSeq => do return .seq (← lastSeq)
  | .getThread => do return .thread (← viewThread threadId (← eventsAfter 0))
  | .modelContext budget => do return .items (projections.modelContext (← eventsAfter 0) budget)
  | .getEvidence evidenceId => do
      return .evidence (← projections.findEvidence threadId evidenceId (← eventsAfter 0))

end

/-- The cursor that a read loads the events of its thread from. -/
def StoreQuery.cursor : StoreQuery → Nat
  | .eventsAfter afterSeq => afterSeq.toNat
  | _ => 0

section Blank

/-- A record without what its store made up for it. -/
def blankEnvelope (envelope : EventEnvelope) : EventEnvelope :=
  { envelope with eventId := ⟨0⟩, timestamp := 0 }

def ThreadView.blank (view : ThreadView) : ThreadView :=
  { view with createdAt := 0, updatedAt := 0 }

def StoreAnswer.blank : StoreAnswer → StoreAnswer
  | .event envelope => .event (blankEnvelope envelope)
  | .events envelopes => .events (envelopes.map blankEnvelope)
  | .thread view => .thread view.blank
  | answer => answer

/-- What two stores have to agree on: whether a call succeeds, and with what answer up to
what each made up. -/
def comparable (answer : Result StoreAnswer) : Option StoreAnswer :=
  answer.toOption.map StoreAnswer.blank

theorem map_event_blank (events : List EventEnvelope) :
    (events.map blankEnvelope).map EventEnvelope.event = events.map EventEnvelope.event := by
  rw [List.map_map]
  rfl

theorem viewThread_blank {left right : List EventEnvelope}
    (same : left.map blankEnvelope = right.map blankEnvelope) (threadId : ThreadId) :
    (viewThread threadId left).toOption.map ThreadView.blank =
      (viewThread threadId right).toOption.map ThreadView.blank := by
  cases left with
  | nil =>
      cases right with
      | nil => rfl
      | cons first rest => simp at same
  | cons first rest =>
      cases right with
      | nil => simp at same
      | cons other others =>
          have events : (first :: rest).map EventEnvelope.event =
              (other :: others).map EventEnvelope.event := by
            rw [← map_event_blank, same, map_event_blank]
          have head : first.event = other.event := (List.cons.inj events).1
          have heads := (List.cons.inj same).1
          have workspace := congrArg EventEnvelope.workspaceId heads
          simp only [blankEnvelope] at workspace
          simp only [viewThread, foldl_applyEvent, events, head, workspace]
          cases other.event <;> rfl

section

variable (projections : Projections)

theorem modelItems_blank {left right : List EventEnvelope}
    (same : left.map blankEnvelope = right.map blankEnvelope) (budget : ContextBudget) :
    projections.modelContext left budget = projections.modelContext right budget := by
  have erased (events : List EventEnvelope) :
      modelItemsFromEvents projections.promptBlock (events.map blankEnvelope) =
        modelItemsFromEvents projections.promptBlock events := by
    simp only [modelItemsFromEvents, modelItemsWith, compactedRanges, List.filterMap_map]
    rfl
  rw [Projections.modelContext, ← erased left, same, erased right]
  rfl

theorem findEvidence_blank (threadId : ThreadId) (evidenceId : EvidenceId)
    {left right : List EventEnvelope}
    (same : left.map blankEnvelope = right.map blankEnvelope) :
    projections.findEvidence threadId evidenceId left =
      projections.findEvidence threadId evidenceId right := by
  have erased (events : List EventEnvelope) :
      projections.findEvidence threadId evidenceId (events.map blankEnvelope) =
        projections.findEvidence threadId evidenceId events := by
    induction events with
    | nil => rfl
    | cons envelope events ih =>
        rw [List.map_cons, Projections.findEvidence, Projections.findEvidence, ih]
        rfl
  rw [← erased left, same, erased right]

/-- Two stores that load the same events, up to what each made up, answer a read alike. -/
theorem comparable_answer {threadId : ThreadId}
    {left right : Nat → Result (List EventEnvelope)} {leftSeq rightSeq : Result Nat}
    {query : StoreQuery}
    (events : (left query.cursor).toOption.map (List.map blankEnvelope) =
      (right query.cursor).toOption.map (List.map blankEnvelope))
    (last : leftSeq.toOption = rightSeq.toOption) :
    comparable (projections.answer threadId left leftSeq query) =
      comparable (projections.answer threadId right rightSeq query) := by
  have loaded : (∃ error error', left query.cursor = .error error ∧
      right query.cursor = .error error') ∨ ∃ events events', left query.cursor = .ok events ∧
        right query.cursor = .ok events' ∧
        events.map blankEnvelope = events'.map blankEnvelope := by
    cases leftRead : left query.cursor <;> cases rightRead : right query.cursor <;>
      simp [leftRead, rightRead, Except.toOption] at events
    · exact .inl ⟨_, _, rfl, rfl⟩
    · exact .inr ⟨_, _, rfl, rfl, events⟩
  cases query with
  | lastSeq =>
      cases leftSeq <;> cases rightSeq <;> simp [Except.toOption] at last
      · rfl
      · subst last
        rfl
  | eventsAfter afterSeq =>
      simp only [StoreQuery.cursor] at loaded
      obtain ⟨_, _, leftRead, rightRead⟩ | ⟨_, _, leftRead, rightRead, same⟩ := loaded
      · simp only [Projections.answer, leftRead, rightRead]
        rfl
      · simp only [Projections.answer, leftRead, rightRead]
        exact congrArg (fun events => some (StoreAnswer.events events)) same
  | getThread =>
      simp only [StoreQuery.cursor] at loaded
      obtain ⟨_, _, leftRead, rightRead⟩ | ⟨events, events', leftRead, rightRead, same⟩ := loaded
      · simp only [Projections.answer, leftRead, rightRead]
        rfl
      · have views := viewThread_blank same threadId
        simp only [Projections.answer, leftRead, rightRead]
        cases leftView : viewThread threadId events <;>
          cases rightView : viewThread threadId events' <;>
          simp [leftView, rightView, Except.toOption] at views
        · simp only [bind, Except.bind, leftView, rightView]
          rfl
        · simp only [bind, Except.bind, leftView, rightView]
          exact congrArg (fun view => some (StoreAnswer.thread view)) views
  | modelContext budget =>
      simp only [StoreQuery.cursor] at loaded
      obtain ⟨_, _, leftRead, rightRead⟩ | ⟨_, _, leftRead, rightRead, same⟩ := loaded
      · simp only [Projections.answer, leftRead, rightRead]
        rfl
      · simp only [Projections.answer, leftRead, rightRead, bind, Except.bind,
          modelItems_blank projections same]
  | getEvidence evidenceId =>
      simp only [StoreQuery.cursor] at loaded
      obtain ⟨_, _, leftRead, rightRead⟩ | ⟨_, _, leftRead, rightRead, same⟩ := loaded
      · simp only [Projections.answer, leftRead, rightRead]
        rfl
      · simp only [Projections.answer, leftRead, rightRead, bind, Except.bind,
          findEvidence_blank projections threadId evidenceId same]

theorem answer_ne_event (threadId : ThreadId) (eventsAfter : Nat → Result (List EventEnvelope))
    (lastSeq : Result Nat) (query : StoreQuery) (envelope : EventEnvelope) :
    projections.answer threadId eventsAfter lastSeq query ≠ .ok (.event envelope) := by
  intro answered
  cases query with
  | eventsAfter afterSeq =>
      cases loaded : eventsAfter afterSeq.toNat <;>
        simp only [Projections.answer, loaded] at answered <;> cases answered
  | lastSeq => cases lastSeq <;> cases answered
  | getThread =>
      cases loaded : eventsAfter 0 with
      | error error =>
          simp only [Projections.answer, loaded] at answered
          cases answered
      | ok events =>
          cases view : viewThread threadId events <;>
            simp only [Projections.answer, loaded, view, bind, Except.bind] at answered <;>
            cases answered
  | modelContext budget =>
      cases loaded : eventsAfter 0 <;>
        simp only [Projections.answer, loaded] at answered <;> cases answered
  | getEvidence evidenceId =>
      cases loaded : eventsAfter 0 with
      | error error =>
          simp only [Projections.answer, loaded] at answered
          cases answered
      | ok events =>
          cases found : projections.findEvidence threadId evidenceId events <;>
            simp only [Projections.answer, loaded, found, bind, Except.bind] at answered <;>
            cases answered

theorem comparable_eventsAfter (threadId : ThreadId)
    (eventsAfter : Nat → Result (List EventEnvelope)) (lastSeq : Result Nat)
    (afterSeq : UInt64) :
    comparable (projections.answer threadId eventsAfter lastSeq (.eventsAfter afterSeq)) =
      ((eventsAfter afterSeq.toNat).toOption.map (List.map blankEnvelope)).map .events := by
  cases loaded : eventsAfter afterSeq.toNat <;>
    simp only [Projections.answer, loaded] <;> rfl

end

end Blank

/-- The records of a store in the order in which it has acknowledged them, without what it
made up for them. -/
abbrev Ledger := List EventEnvelope

namespace Ledger

def records (ledger : Ledger) (threadId : ThreadId) : List EventEnvelope :=
  ledger.filter fun envelope => decide (envelope.threadId = threadId)

/-- The events that a read of an existing thread loads. -/
def eventsAfter (number : Number → Number) (ledger : Ledger) (threadId : ThreadId)
    (afterSeq : Nat) : Result (List EventEnvelope) :=
  match ledger.records threadId with
  | [] => .error (.notFound s!"thread {threadId}")
  | first :: rest =>
      .ok (((first :: rest).map (EventEnvelope.restored number)).filter fun envelope =>
        decide (afterSeq < envelope.seq))

def lastSeq (ledger : Ledger) (threadId : ThreadId) : Result Nat :=
  match ledger.records threadId with
  | [] => .error (.notFound s!"thread {threadId}")
  | first :: rest => .ok (first :: rest).length

/-- A call of the store that keeps nothing but records. -/
def perform (number : Number → Number) (projections : Projections) (ledger : Ledger) :
    StoreCall → Option StoreAnswer × Ledger
  | .createThread threadId workspaceId =>
      match workspaceId.validate, ledger.records threadId with
      | .ok (), [] =>
          let envelope := Jsonl.createdEnvelope threadId workspaceId 0 0
          (some (.event envelope), ledger ++ [envelope])
      | _, _ => (none, ledger)
  | .appendEvent command =>
      match ledger.records command.threadId with
      | [] => (none, ledger)
      | first :: rest =>
          let envelope := Jsonl.appendedEnvelope command 0 0 (first :: rest)
            ((first :: rest).length + 1)
          (some (.event envelope), ledger ++ [envelope])
  | .query threadId query =>
      (comparable (projections.answer threadId (ledger.eventsAfter number threadId)
        (ledger.lastSeq threadId) query), ledger)

/-- A cursor that the signed parameter of the SQLite query holds, or a thread without
events. -/
def Signed (ledger : Ledger) : StoreCall → Prop
  | .query threadId query => query.cursor < 2 ^ 63 ∨ ledger.records threadId = []
  | _ => True

end Ledger

end OpsCodex.Store
