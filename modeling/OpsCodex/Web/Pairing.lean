import OpsCodex.Runtime.EventText
import OpsCodex.Store.ModelContext
import OpsCodex.Web.Timeline

/-! Which proposals the view attaches the results of a log to, beside the pairing of calls
and results in the model context. -/

set_option autoImplicit false

namespace OpsCodex.Web

open OpsCodex.Json OpsCodex.Runtime OpsCodex.Store Matching

def eventType : RuntimeEvent → RuntimeEventType
  | .threadCreated => .threadCreated
  | .userMessage .. => .userMessage
  | .turnStarted => .turnStarted
  | .assistantDelta .. => .assistantDelta
  | .assistantCompleted .. => .assistantCompleted
  | .toolStarted .. => .toolStarted
  | .toolProposed .. => .toolProposed
  | .toolAuthorized .. => .toolAuthorized
  | .toolExecutionStarted .. => .toolExecutionStarted
  | .toolCompleted .. => .toolCompleted
  | .approvalRequired .. => .approvalRequired
  | .approvalResolved .. => .approvalResolved
  | .turnCompleted => .turnCompleted
  | .turnFailed .. => .turnFailed
  | .turnCancelled => .turnCancelled
  | .contextCompacted .. => .contextCompacted
  | .actionUpdated .. => .actionUpdated

/-- What `normalizeEventEnvelope` reads from the JSON of an envelope: the fields of its nested
event besides the type, which is one that the client knows. -/
def normalized (format : Format) (envelope : EventEnvelope) : NormalizedEvent where
  seq := envelope.seq
  threadId := format.uuidText envelope.threadId.uuid
  turnId := envelope.turnId.map fun id => format.uuidText id.uuid
  timestamp := some (format.timeText envelope.timestamp)
  type := eventType envelope.event
  data := (envelope.event.slots format).filterMap fun slot =>
    slot.2.map fun value => (slot.1, value)

def initialState : OpsState where
  threads := []
  activeThreadId := none
  activeTurnId := none
  items := []
  turnStatus := .idle
  lastSeq := 0
  error := none
  clientUpgradeHint := none

/-- The view of a log. -/
def folded (format : Format) (log : List EventEnvelope) : OpsState :=
  (log.map (normalized format)).foldl applyRuntimeEvent initialState

/-- How an event takes part in the pairing of tool calls and results. -/
def callMark : RuntimeEvent → Mark String
  | .toolStarted callId _ _ | .toolProposed callId _ _ => .opens callId
  | .toolCompleted callId _ _ _ _ => .closes callId
  | _ => .other

def callMarks (log : List EventEnvelope) : List (Mark String) :=
  log.map fun envelope => callMark envelope.event

/-- The positions of each call and the result that it is paired with. -/
def callPairs (log : List EventEnvelope) : List (Nat × Nat) := pairs (callMarks log)

section

variable (format : Format)

/-- The index of the item that the event at a position adds. -/
def place (log : List EventEnvelope) (position : Nat) : Nat :=
  (folded format (log.take position)).items.length

/-- The view attaches a result to the item of a proposal before it. -/
structure Attaches (log : List EventEnvelope) (proposal result : Nat) : Prop where
  before : proposal < result
  proposed : ∃ callId, (callMarks log)[proposal]? = some (.opens callId)
  attached : ∃ envelope, log[result]? = some envelope ∧
    eventType envelope.event = .toolCompleted ∧
    attachment (folded format (log.take result)).items (normalized format envelope) =
      some (place format log proposal)

/-- An item that has its result keeps its status and its output at every later event. -/
def Kept (log : List EventEnvelope) : Prop :=
  ∀ position < log.length, ∀ index item,
    toolAt (folded format (log.take position)).items index = some item →
    item.evidence.isSome = true →
    ∃ later, toolAt (folded format (log.take (position + 1))).items index = some later ∧
      later.status = item.status ∧ later.output = item.output

/-- The view and the model context pair alike, and results stay as they are. -/
structure PairsAlike (log : List EventEnvelope) : Prop where
  attaches : ∀ proposal result,
    Attaches format log proposal result ↔ (proposal, result) ∈ callPairs log
  kept : Kept format log

/-- The first item of a call has no result when one comes, or there is no item of the call and
no open one of the tool; and no item of a call has its result when its execution starts. -/
def InOrder (items : List TimelineItem) : RuntimeEvent → Prop
  | .toolCompleted callId tool _ _ _ =>
      (∃ index item, toolAt items index = some item ∧ item.callId = callId ∧
        item.evidence = none ∧ ∀ earlier < index, ∀ other,
          toolAt items earlier = some other → other.callId ≠ callId) ∨
      ∀ item ∈ items, hasCallId callId item = false ∧ isOpenNamed tool item = false
  | .toolExecutionStarted callId _ => ∀ index item, toolAt items index = some item →
      item.callId = callId → item.evidence = none
  | _ => True

/-- Every event of a log is in order for the view of the events before it. -/
def Orderly (log : List EventEnvelope) : Prop :=
  ∀ position envelope, log[position]? = some envelope →
    InOrder (folded format (log.take position)).items envelope.event

end

section

variable {format : Format} {log : List EventEnvelope} {envelope : EventEnvelope}

/-- The call of an event that the view applies to tool items. -/
def callOf : RuntimeEvent → Option String
  | .toolStarted callId _ _ | .toolProposed callId _ _ | .toolAuthorized callId _ _ |
    .toolExecutionStarted callId _ | .toolCompleted callId _ _ _ _ => some callId
  | _ => none

theorem toolCallId_normalized {callId : String} (calls : callOf envelope.event = some callId) :
    toolCallId (normalized format envelope) = callId := by
  unfold toolCallId normalized
  cases event : envelope.event with
  | toolStarted | toolProposed | toolAuthorized | toolExecutionStarted | toolCompleted =>
      rw [event] at calls
      cases calls
      simp [RuntimeEvent.slots, List.lookup_cons, stringValue]
  | _ =>
      rw [event] at calls
      cases calls

theorem toolName_normalized {callId tool : String} {output : Value}
    {evidence : Evidence.EvidenceMeta} {success : Bool}
    (completed : envelope.event = .toolCompleted callId tool output evidence success) :
    toolName (normalized format envelope).data = tool := by
  unfold toolName normalized
  rw [completed]
  simp [RuntimeEvent.slots, List.lookup_cons, stringValue]

theorem folded_append (format : Format) (log : List EventEnvelope) (envelope : EventEnvelope) :
    folded format (log ++ [envelope]) =
      applyRuntimeEvent (folded format log) (normalized format envelope) := by
  rw [folded, List.map_append, List.foldl_append]
  rfl

theorem lastSeq_folded_le {bound : Nat} (bounded : ∀ envelope ∈ log, envelope.seq ≤ bound) :
    (folded format log).lastSeq ≤ bound := by
  induction log using List.reverseRecOn with
  | nil => exact Nat.zero_le _
  | append_singleton log envelope ih =>
      rw [folded_append, lastSeq_applyRuntimeEvent]
      refine Nat.max_le.mpr ⟨ih fun other member => ?_, ?_⟩
      · exact bounded other (List.mem_append_left _ member)
      · exact bounded envelope (List.mem_append_right _ (List.mem_singleton_self _))

/-- The numbers of a log increase. -/
def Numbered (log : List EventEnvelope) : Prop :=
  log.Pairwise fun earlier later => earlier.seq < later.seq

theorem Numbered.init (numbered : Numbered (log ++ [envelope])) : Numbered log :=
  (List.pairwise_append.mp numbered).1

/-- No event of a numbered log is dropped. -/
theorem folded_snoc (numbered : Numbered (log ++ [envelope])) :
    folded format (log ++ [envelope]) =
      reduceEvent (baseOf (folded format log) (normalized format envelope))
        (normalized format envelope) := by
  rw [folded_append]
  refine if_neg fun dropped => ?_
  simp only [isDropped, Bool.and_eq_true, decide_eq_true_eq] at dropped
  obtain ⟨positive, passed⟩ := dropped
  have behind : (folded format log).lastSeq ≤ envelope.seq - 1 := by
    refine lastSeq_folded_le fun other member => ?_
    exact Nat.le_sub_one_of_lt
      ((List.pairwise_append.mp numbered).2.2 other member envelope (List.mem_singleton_self _))
  have shown : (normalized format envelope).seq = envelope.seq := rfl
  omega

theorem attachment_first {items : List TimelineItem} {event : NormalizedEvent} {index : Nat}
    {item : ToolItem} (found : toolAt items index = some item)
    (calls : item.callId = toolCallId event)
    (first : ∀ earlier < index, ∀ other,
      toolAt items earlier = some other → other.callId ≠ toolCallId event) :
    attachment items event = some index := by
  obtain ⟨entry, at', tool⟩ := Option.bind_eq_some_iff.mp found
  obtain ⟨inside, same⟩ := List.getElem?_eq_some_iff.mp at'
  have finds : items.findIdx? (hasCallId (toolCallId event)) = some index := by
    refine List.findIdx?_eq_some_iff_getElem.mpr ⟨inside, ?_, fun earlier less => ?_⟩
    · rw [same]
      cases entry with
      | tool own =>
          cases tool
          exact decide_eq_true calls
      | _ => cases tool
    · have below : earlier < items.length := Nat.lt_trans less inside
      cases other : items[earlier] with
      | tool own =>
          have shown : toolAt items earlier = some own := by
            rw [toolAt, List.getElem?_eq_getElem below, other]
            rfl
          simpa [hasCallId] using first earlier less own shown
      | _ => simp [hasCallId]
  rw [attachment, finds]
  rfl

theorem attachment_none {items : List TimelineItem} {event : NormalizedEvent}
    (absent : ∀ item ∈ items, hasCallId (toolCallId event) item = false ∧
      isOpenNamed (toolName event.data) item = false) : attachment items event = none := by
  have unfound : items.findIdx? (hasCallId (toolCallId event)) = none :=
    List.findIdx?_eq_none_iff.mpr fun item member => (absent item member).1
  have closed : items.reverse.findIdx? (isOpenNamed (toolName event.data)) = none :=
    List.findIdx?_eq_none_iff.mpr fun item member =>
      (absent item (List.mem_reverse.mp member)).2
  rw [attachment, unfound, lastIndex, closed]
  rfl

/-- An item stays of its call, and an answered one keeps its status and its output. -/
structure Changes (item later : ToolItem) : Prop where
  callId : later.callId = item.callId
  evidence : later.evidence = item.evidence
  kept : item.evidence.isSome = true → later.status = item.status ∧ later.output = item.output

theorem Changes.refl (item : ToolItem) : Changes item item := ⟨rfl, rfl, fun _ => ⟨rfl, rfl⟩⟩

/-- Every tool item but the one that is touched stays. -/
structure Evolves (items later : List TimelineItem) (touched : Option Nat) : Prop where
  forward : ∀ index item, toolAt items index = some item → touched ≠ some index →
    ∃ item', toolAt later index = some item' ∧ Changes item item'
  backward : ∀ index item', toolAt later index = some item' → touched ≠ some index →
    ∃ item, toolAt items index = some item ∧ Changes item item'

theorem Evolves.same {items later : List TimelineItem} {touched : Option Nat}
    (same : ∀ index, touched ≠ some index → toolAt later index = toolAt items index) :
    Evolves items later touched := by
  constructor
  case forward =>
    intro index item found untouched
    exact ⟨item, by rw [same index untouched, found], .refl item⟩
  case backward =>
    intro index item found untouched
    exact ⟨item, by rw [← same index untouched, found], .refl item⟩

theorem Evolves.map {items later : List TimelineItem} {change : ToolItem → ToolItem}
    (mapped : ∀ index, toolAt later index = (toolAt items index).map change)
    (changes : ∀ index item, toolAt items index = some item → Changes item (change item)) :
    Evolves items later none := by
  constructor
  case forward =>
    intro index item found _
    exact ⟨change item, by rw [mapped, found, Option.map_some], changes index item found⟩
  case backward =>
    intro index item' found _
    rw [mapped] at found
    obtain ⟨item, own, rfl⟩ := Option.map_eq_some_iff.mp found
    exact ⟨item, own, changes index item own⟩

/-- What an event that is in order makes of the tool items. -/
inductive Stepped (format : Format) (envelope : EventEnvelope) (items later : List TimelineItem) :
    Prop where
  | quiet (mark : callMark envelope.event = .other) (length_le : items.length ≤ later.length)
      (evolves : Evolves items later none)
  | opens {callId : String} {item : ToolItem} (mark : callMark envelope.event = .opens callId)
      (length : later.length = items.length + 1)
      (evolves : Evolves items later (some items.length))
      (added : toolAt later items.length = some item) (calls : item.callId = callId)
      (unanswered : item.evidence = none)
  | closes {callId : String} {index : Nat} {item item' : ToolItem}
      (mark : callMark envelope.event = .closes callId)
      (type : eventType envelope.event = .toolCompleted)
      (attached : attachment items (normalized format envelope) = some index)
      (found : toolAt items index = some item) (calls : item.callId = callId)
      (unanswered : item.evidence = none)
      (first : ∀ earlier < index, ∀ other,
        toolAt items earlier = some other → other.callId ≠ callId)
      (length : later.length = items.length) (evolves : Evolves items later (some index))
      (changed : toolAt later index = some item') (same : item'.callId = callId)
      (answered : Answered item')
  | alone {callId : String} {item : ToolItem} (mark : callMark envelope.event = .closes callId)
      (unattached : attachment items (normalized format envelope) = none)
      (absent : ∀ index other, toolAt items index = some other → other.callId ≠ callId)
      (length : later.length = items.length + 1)
      (evolves : Evolves items later (some items.length))
      (added : toolAt later items.length = some item) (answered : Answered item)

/-- Answered items say that they are completed or failed. -/
def Settled (items : List TimelineItem) : Prop :=
  ∀ index item, toolAt items index = some item → item.evidence.isSome = true →
    item.status = .completed ∨ item.status = .failed

section

variable {base : OpsState}

theorem stepped_other (other : (eventType envelope.event).isTool = false)
    (mark : callMark envelope.event = .other) :
    Stepped format envelope base.items (reduceEvent base (normalized format envelope)).items := by
  have same : SameTools base.items (reduceEvent base (normalized format envelope)).items :=
    sameTools_reduceEvent other
  exact .quiet mark same.length_le (.same fun index _ => congrFun same.tools index)

theorem stepped_added {callId : String} (status : ToolStatus)
    (mark : callMark envelope.event = .opens callId)
    (calls : callOf envelope.event = some callId) :
    Stepped format envelope base.items
      (toolAdded base (normalized format envelope) status).items := by
  obtain ⟨item, added, shown⟩ := toolAt_toolAdded base (normalized format envelope) status
  refine .opens mark (length_toolAdded status) (.same fun index untouched => ?_) ?_
    (added.callId.trans (toolCallId_normalized calls)) added.evidence
  · rw [shown, if_neg fun same => untouched (congrArg some same.symm)]
  · rw [shown, if_pos rfl]

theorem stepped_authorized (settled : Settled base.items)
    (mark : callMark envelope.event = .other) :
    Stepped format envelope base.items
      (toolAuthorized base (normalized format envelope)).items := by
  refine .quiet mark (by simp [toolAuthorized]) (.map toolAt_toolAuthorized ?_)
  intro index item found
  split
  · split
    · exact .refl item
    · rename_i unsettled
      exact ⟨rfl, rfl, fun answered => absurd (settled index item found answered) unsettled⟩
  · exact .refl item

theorem stepped_executionStarted {callId : String}
    (calls : callOf envelope.event = some callId) (mark : callMark envelope.event = .other)
    (inOrder : ∀ index item, toolAt base.items index = some item →
      item.callId = callId → item.evidence = none) :
    Stepped format envelope base.items
      (toolExecutionStarted base (normalized format envelope)).items := by
  refine .quiet mark (by simp [toolExecutionStarted]) (.map toolAt_toolExecutionStarted ?_)
  intro index item found
  split
  · rename_i own
    rw [toolCallId_normalized calls] at own
    refine ⟨rfl, rfl, fun answered => ?_⟩
    rw [inOrder index item found own] at answered
    cases answered
  · exact .refl item

theorem stepped_completed {callId tool : String} {output : Value}
    {evidence : Evidence.EvidenceMeta} {success : Bool}
    (completed : envelope.event = .toolCompleted callId tool output evidence success)
    (inOrder : InOrder base.items envelope.event) :
    Stepped format envelope base.items
      (toolCompleted base (normalized format envelope)).items := by
  have calls : toolCallId (normalized format envelope) = callId :=
    toolCallId_normalized (by rw [completed]; rfl)
  have named : toolName (normalized format envelope).data = tool := toolName_normalized completed
  have mark : callMark envelope.event = .closes callId := by rw [completed]; rfl
  rw [completed] at inOrder
  obtain ⟨index, item, found, own, unanswered, first⟩ | absent := inOrder
  · have attached : attachment base.items (normalized format envelope) = some index :=
      attachment_first found (own.trans calls.symm) (by rw [calls]; exact first)
    obtain ⟨change, changes, length, shown⟩ := toolAt_toolCompleted_attached attached
    refine .closes mark (by rw [completed]; rfl) attached found own
      unanswered first length (.same fun other untouched => ?_) ?_
      ((changes item).1.trans own) (changes item).2
    · rw [shown, if_neg fun same => untouched (congrArg some same.symm)]
    · rw [shown, if_pos rfl, found, Option.map_some]
  · have unattached : attachment base.items (normalized format envelope) = none :=
      attachment_none (by rw [calls, named]; exact absent)
    obtain ⟨item, -, answered, length, shown⟩ := toolAt_toolCompleted_unattached unattached
    refine .alone mark unattached ?_ length (.same fun other untouched => ?_) ?_ answered
    · intro index other found
      obtain ⟨entry, at', isTool⟩ := Option.bind_eq_some_iff.mp found
      have plain := (absent entry (List.mem_of_getElem? at')).1
      cases entry with
      | tool own =>
          cases isTool
          exact of_decide_eq_false plain
      | _ => cases isTool
    · rw [shown, if_neg fun same => untouched (congrArg some same.symm)]
    · rw [shown, if_pos rfl]

/-- An event that is in order makes one of these steps. -/
theorem stepped (base : OpsState) (settled : Settled base.items)
    (inOrder : InOrder base.items envelope.event) :
    Stepped format envelope base.items
      (reduceEvent base (normalized format envelope)).items := by
  cases event : envelope.event with
  | toolStarted =>
      have type : (normalized format envelope).type = .toolStarted := by
        rw [normalized, event]
        rfl
      rw [reduceEvent, type]
      exact stepped_added .running (by rw [event]; rfl) (by rw [event]; rfl)
  | toolProposed =>
      have type : (normalized format envelope).type = .toolProposed := by
        rw [normalized, event]
        rfl
      rw [reduceEvent, type]
      exact stepped_added .proposed (by rw [event]; rfl) (by rw [event]; rfl)
  | toolAuthorized =>
      have type : (normalized format envelope).type = .toolAuthorized := by
        rw [normalized, event]
        rfl
      rw [reduceEvent, type]
      exact stepped_authorized settled (by rw [event]; rfl)
  | toolExecutionStarted =>
      have type : (normalized format envelope).type = .toolExecutionStarted := by
        rw [normalized, event]
        rfl
      rw [reduceEvent, type]
      rw [event] at inOrder
      exact stepped_executionStarted (by rw [event]; rfl) (by rw [event]; rfl) inOrder
  | toolCompleted =>
      have type : (normalized format envelope).type = .toolCompleted := by
        rw [normalized, event]
        rfl
      rw [reduceEvent, type]
      exact stepped_completed event inOrder
  | _ =>
      refine stepped_other ?_ ?_
      · rw [event]
        rfl
      · rw [event]
        rfl

end

/-- The view of a log has an item for each call, with its result if the call is paired. -/
structure Mirrors (format : Format) (log : List EventEnvelope) : Prop where
  settled : Settled (folded format log).items
  called : ∀ position callId, (callMarks log)[position]? = some (.opens callId) →
    ∃ item, toolAt (folded format log).items (place format log position) = some item ∧
      item.callId = callId ∧
      (item.evidence = none ↔ ∀ pair ∈ callPairs log, pair.1 ≠ position)
  proposed : ∀ index item, toolAt (folded format log).items index = some item →
    item.evidence = none → ∃ position callId,
      (callMarks log)[position]? = some (.opens callId) ∧ place format log position = index
  increasing : ∀ earlier later callId callId',
    (callMarks log)[earlier]? = some (.opens callId) →
    (callMarks log)[later]? = some (.opens callId') → earlier < later →
    place format log earlier < place format log later

theorem callMarks_append (log : List EventEnvelope) (envelope : EventEnvelope) :
    callMarks (log ++ [envelope]) = callMarks log ++ [callMark envelope.event] := by
  simp [callMarks]

theorem length_callMarks (log : List EventEnvelope) : (callMarks log).length = log.length := by
  simp [callMarks]

theorem place_append {position : Nat} (within : position ≤ log.length) :
    place format (log ++ [envelope]) position = place format log position := by
  rw [place, List.take_append_of_le_length within]
  rfl

theorem place_length : place format log log.length = (folded format log).items.length := by
  rw [place, List.take_length]

theorem callPairs_append (log : List EventEnvelope) (envelope : EventEnvelope) :
    callPairs (log ++ [envelope]) =
      ((State.initial.run (callMarks log)).step (callMark envelope.event)).pairs := by
  rw [callPairs, callMarks_append, pairs_snoc]

theorem lt_of_called {position : Nat} {mark : Mark String}
    (at' : (callMarks log)[position]? = some mark) : position < log.length := by
  rw [← length_callMarks]
  exact (List.getElem?_eq_some_iff.mp at').1

/-- A call of a longer log is one of the log before, or is the last event. -/
theorem called_append {position : Nat} {callId : String}
    (at' : (callMarks (log ++ [envelope]))[position]? = some (.opens callId)) :
    (callMarks log)[position]? = some (.opens callId) ∨
      position = log.length ∧ callMark envelope.event = .opens callId := by
  rw [callMarks_append] at at'
  obtain before | ⟨last, same⟩ := getElem?_snoc at'
  · exact .inl before
  · rw [length_callMarks] at last
    exact .inr ⟨last, same.symm⟩

section

variable (mirrors : Mirrors format log)
include mirrors

theorem Mirrors.place_lt {position : Nat} {callId : String}
    (at' : (callMarks log)[position]? = some (.opens callId)) :
    place format log position < (folded format log).items.length := by
  obtain ⟨item, found, -⟩ := mirrors.called position callId at'
  exact toolAt_lt found

theorem Mirrors.place_injective {first second : Nat} {callId callId' : String}
    (first' : (callMarks log)[first]? = some (.opens callId))
    (second' : (callMarks log)[second]? = some (.opens callId'))
    (same : place format log first = place format log second) : first = second := by
  obtain less | equal | more := Nat.lt_trichotomy first second
  · have increasing := mirrors.increasing first second callId callId' first' second' less
    omega
  · exact equal
  · have increasing := mirrors.increasing second first callId' callId second' first' more
    omega

/-- The pairing takes the call of the first item, when this has no result. -/
theorem Mirrors.paired_first {callId : String} {index : Nat} {item : ToolItem}
    (mark : callMark envelope.event = .closes callId)
    (found : toolAt (folded format log).items index = some item) (calls : item.callId = callId)
    (unanswered : item.evidence = none)
    (first : ∀ earlier < index, ∀ other,
      toolAt (folded format log).items earlier = some other → other.callId ≠ callId) :
    ∃ position, (callMarks log)[position]? = some (.opens callId) ∧
      place format log position = index ∧
      callPairs (log ++ [envelope]) = callPairs log ++ [(position, log.length)] := by
  obtain ⟨position, callId', opening, placed⟩ := mirrors.proposed index item found unanswered
  obtain ⟨own, shown, ownCalls, unpaired⟩ := mirrors.called position callId' opening
  rw [placed, found] at shown
  cases shown
  have same : callId' = callId := ownCalls.symm.trans calls
  subst same
  have waits := find?_waiting_first opening (unpaired.mp unanswered) fun earlier less opens => by
    obtain ⟨other, shown, otherCalls, -⟩ := mirrors.called earlier callId' opens
    have before := mirrors.increasing earlier position callId' callId' opens opening less
    rw [placed] at before
    exact first _ before other shown otherCalls
  refine ⟨position, opening, placed, ?_⟩
  rw [callPairs_append, mark]
  simp only [State.step, waits]
  rw [(reads (callMarks log)).next, length_callMarks]
  rfl

theorem Mirrors.unpaired_alone {callId : String}
    (mark : callMark envelope.event = .closes callId)
    (absent : ∀ index other, toolAt (folded format log).items index = some other →
      other.callId ≠ callId) : callPairs (log ++ [envelope]) = callPairs log := by
  have waits := find?_waiting_none (callMarks log) callId fun position opens => by
      obtain ⟨item, shown, calls, -⟩ := mirrors.called position callId opens
      exact absent _ item shown calls
  rw [callPairs_append, mark]
  simp only [State.step, waits]
  rfl

end

theorem Settled.step {items later : List TimelineItem} {touched : Option Nat}
    (settled : Settled items) (evolves : Evolves items later touched)
    (own : ∀ index item, touched = some index → toolAt later index = some item →
      item.evidence.isSome = true → item.status = .completed ∨ item.status = .failed) :
    Settled later := by
  intro index item found answered
  by_cases same : touched = some index
  · exact own index item same found answered
  · obtain ⟨before, shown, changes⟩ := evolves.backward index item found same
    rw [changes.evidence] at answered
    rw [(changes.kept answered).1]
    exact settled index before shown answered

theorem lt_of_mem_callPairs {pair : Nat × Nat} (member : pair ∈ callPairs log) :
    pair.1 < pair.2 ∧ pair.2 < log.length := by
  obtain ⟨order, below, -⟩ := (reads (callMarks log)).pairs pair member
  rw [length_callMarks] at below
  exact ⟨order, below⟩

/-- The calls of the log before stay where they are. -/
theorem place_called {position : Nat} {callId : String}
    (opening : (callMarks log)[position]? = some (.opens callId)) :
    place format (log ++ [envelope]) position = place format log position :=
  place_append (Nat.le_of_lt (lt_of_called opening))

section

variable (mirrors : Mirrors format log) {touched : Option Nat}
  (evolves : Evolves (folded format log).items (folded format (log ++ [envelope])).items touched)
include mirrors

theorem Mirrors.increasing_append (envelope : EventEnvelope) (earlier later : Nat)
    (callId callId' : String)
    (first : (callMarks (log ++ [envelope]))[earlier]? = some (.opens callId))
    (second : (callMarks (log ++ [envelope]))[later]? = some (.opens callId'))
    (less : earlier < later) :
    place format (log ++ [envelope]) earlier < place format (log ++ [envelope]) later := by
  obtain before | ⟨rfl, -⟩ := called_append first
  · rw [place_called before]
    obtain before' | ⟨rfl, -⟩ := called_append second
    · rw [place_called before']
      exact mirrors.increasing earlier later callId callId' before before' less
    · rw [place_append (Nat.le_refl _), place_length]
      exact mirrors.place_lt before
  · obtain before' | ⟨rfl, -⟩ := called_append second
    · exact absurd (lt_of_called before') (Nat.not_lt_of_lt less)
    · exact absurd less (Nat.lt_irrefl _)

include evolves

theorem Mirrors.called_untouched {position : Nat} {callId : String}
    (opening : (callMarks log)[position]? = some (.opens callId))
    (untouched : touched ≠ some (place format log position))
    (unpaired : (∀ pair ∈ callPairs (log ++ [envelope]), pair.1 ≠ position) ↔
      ∀ pair ∈ callPairs log, pair.1 ≠ position) :
    ∃ item, toolAt (folded format (log ++ [envelope])).items
        (place format (log ++ [envelope]) position) = some item ∧ item.callId = callId ∧
      (item.evidence = none ↔ ∀ pair ∈ callPairs (log ++ [envelope]), pair.1 ≠ position) := by
  obtain ⟨item, found, calls, answered⟩ := mirrors.called position callId opening
  obtain ⟨item', shown, changes⟩ := evolves.forward _ item found untouched
  refine ⟨item', by rw [place_called opening, shown], changes.callId.trans calls, ?_⟩
  rw [changes.evidence, answered, unpaired]

theorem Mirrors.proposed_untouched {index : Nat} {item : ToolItem}
    (found : toolAt (folded format (log ++ [envelope])).items index = some item)
    (unanswered : item.evidence = none) (untouched : touched ≠ some index) :
    ∃ position callId, (callMarks (log ++ [envelope]))[position]? = some (.opens callId) ∧
      place format (log ++ [envelope]) position = index := by
  obtain ⟨before, shown, changes⟩ := evolves.backward index item found untouched
  rw [changes.evidence] at unanswered
  obtain ⟨position, callId, opening, placed⟩ := mirrors.proposed index before shown unanswered
  refine ⟨position, callId, ?_, by rw [place_called opening, placed]⟩
  rw [callMarks_append, List.getElem?_append_left, opening]
  rw [length_callMarks]
  exact lt_of_called opening

end

theorem Mirrors.step (mirrors : Mirrors format log)
    (step : Stepped format envelope (folded format log).items
      (folded format (log ++ [envelope])).items) : Mirrors format (log ++ [envelope]) := by
  have increasing := mirrors.increasing_append envelope
  cases step with
  | quiet mark length_le evolves =>
      have same : callPairs (log ++ [envelope]) = callPairs log := by
        rw [callPairs_append, mark]
        rfl
      refine ⟨mirrors.settled.step evolves ?_, ?_, ?_, increasing⟩
      · intro index item touched
        cases touched
      · intro position callId at'
        obtain before | ⟨-, other⟩ := called_append at'
        · refine mirrors.called_untouched evolves before (fun touched => ?_) (by rw [same])
          cases touched
        · rw [mark] at other
          cases other
      · intro index item found unanswered
        exact mirrors.proposed_untouched evolves found unanswered fun touched => by cases touched
  | @opens callId item mark length evolves added calls unanswered =>
      have same : callPairs (log ++ [envelope]) = callPairs log := by
        rw [callPairs_append, mark]
        rfl
      have last : place format (log ++ [envelope]) log.length =
          (folded format log).items.length := by
        rw [place_append (Nat.le_refl _), place_length]
      refine ⟨mirrors.settled.step evolves ?_, ?_, ?_, increasing⟩
      · intro index item' touched found answered
        cases touched
        rw [added] at found
        cases found
        rw [unanswered] at answered
        cases answered
      · intro position callId' at'
        obtain before | ⟨rfl, other⟩ := called_append at'
        · refine mirrors.called_untouched evolves before (fun touched => ?_) (by rw [same])
          exact Nat.ne_of_gt (mirrors.place_lt before) (Option.some.inj touched)
        · rw [mark] at other
          cases other
          refine ⟨item, by rw [last, added], calls, iff_of_true unanswered ?_⟩
          rw [same]
          intro pair member
          have below := lt_of_mem_callPairs member
          omega
      · intro index item' found unanswered'
        by_cases touched : index = (folded format log).items.length
        · subst touched
          refine ⟨log.length, callId, ?_, last⟩
          rw [callMarks_append, ← length_callMarks log, List.getElem?_concat_length, mark]
        · exact mirrors.proposed_untouched evolves found unanswered' fun same =>
            touched (Option.some.inj same).symm
  | @closes callId index item item' mark type attached found calls unanswered first length evolves
      changed same answered =>
      obtain ⟨own, opening, placed, paired⟩ :=
        mirrors.paired_first mark found calls unanswered first
      refine ⟨mirrors.settled.step evolves ?_, ?_, ?_, increasing⟩
      · intro other item'' touched found' _
        cases touched
        rw [changed] at found'
        cases found'
        exact answered.status
      · intro position callId' at'
        obtain before | ⟨-, other⟩ := called_append at'
        · by_cases touched : position = own
          · subst touched
            refine ⟨item', by rw [place_called before, placed, changed], ?_, iff_of_false ?_ ?_⟩
            · rw [same]
              rw [opening] at before
              cases before
              rfl
            · intro none'
              have evidence := answered.evidence
              rw [none'] at evidence
              cases evidence
            · intro unpaired
              refine unpaired (position, log.length) ?_ rfl
              rw [paired]
              exact List.mem_append_right _ (List.mem_singleton_self _)
          · refine mirrors.called_untouched evolves before (fun touched' => ?_) ?_
            · exact touched (mirrors.place_injective before opening
                ((Option.some.inj touched').symm.trans placed.symm))
            · rw [paired]
              simp only [List.mem_append, List.mem_singleton, or_imp, forall_and, forall_eq]
              exact and_iff_left (Ne.symm touched)
        · rw [mark] at other
          cases other
      · intro other item'' found' unanswered'
        refine mirrors.proposed_untouched evolves found' unanswered' fun touched => ?_
        cases touched
        rw [changed] at found'
        cases found'
        have evidence := answered.evidence
        rw [unanswered'] at evidence
        cases evidence
  | @alone callId item mark unattached absent length evolves added answered =>
      have same := mirrors.unpaired_alone mark absent
      refine ⟨mirrors.settled.step evolves ?_, ?_, ?_, increasing⟩
      · intro index item' touched found _
        cases touched
        rw [added] at found
        cases found
        exact answered.status
      · intro position callId' at'
        obtain before | ⟨-, other⟩ := called_append at'
        · refine mirrors.called_untouched evolves before (fun touched => ?_) (by rw [same])
          exact Nat.ne_of_gt (mirrors.place_lt before) (Option.some.inj touched)
        · rw [mark] at other
          cases other
      · intro index item' found unanswered
        refine mirrors.proposed_untouched evolves found unanswered fun touched => ?_
        cases touched
        rw [added] at found
        cases found
        have evidence := answered.evidence
        rw [unanswered] at evidence
        cases evidence

theorem attaches_append {proposal result : Nat} (early : result < log.length) :
    Attaches format (log ++ [envelope]) proposal result ↔ Attaches format log proposal result := by
  have marked {position : Nat} (within : position < log.length) :
      (callMarks (log ++ [envelope]))[position]? = (callMarks log)[position]? := by
    rw [callMarks_append, List.getElem?_append_left]
    rw [length_callMarks]
    exact within
  have shown : (log ++ [envelope])[result]? = log[result]? := List.getElem?_append_left early
  have taken : (log ++ [envelope]).take result = log.take result :=
    List.take_append_of_le_length (Nat.le_of_lt early)
  constructor
  · rintro ⟨before, proposed, attached⟩
    have within := Nat.lt_trans before early
    rw [marked within] at proposed
    rw [shown, taken, place_append (Nat.le_of_lt within)] at attached
    exact ⟨before, proposed, attached⟩
  · rintro ⟨before, proposed, attached⟩
    have within := Nat.lt_trans before early
    refine ⟨before, ?_, ?_⟩
    · rw [marked within]
      exact proposed
    · rw [shown, taken, place_append (Nat.le_of_lt within)]
      exact attached

/-- What the view attaches the last result of a log to. -/
theorem attaches_last {proposal : Nat} :
    Attaches format (log ++ [envelope]) proposal log.length ↔
      (∃ callId, (callMarks log)[proposal]? = some (.opens callId)) ∧
        eventType envelope.event = .toolCompleted ∧
        attachment (folded format log).items (normalized format envelope) =
          some (place format log proposal) := by
  have shown : (log ++ [envelope])[log.length]? = some envelope := List.getElem?_concat_length ..
  have taken : (log ++ [envelope]).take log.length = log := by
    rw [List.take_append_of_le_length (Nat.le_refl _), List.take_length]
  constructor
  · rintro ⟨before, ⟨callId, opening⟩, own, at', type, attached⟩
    rw [shown] at at'
    cases at'
    rw [taken, place_append (Nat.le_of_lt before)] at attached
    obtain opening | ⟨last, -⟩ := called_append opening
    · exact ⟨⟨callId, opening⟩, type, attached⟩
    · exact absurd before (by rw [last]; exact Nat.lt_irrefl _)
  · rintro ⟨⟨callId, opening⟩, type, attached⟩
    have before := lt_of_called opening
    refine ⟨before, ⟨callId, ?_⟩, envelope, shown, type, ?_⟩
    · rw [callMarks_append, List.getElem?_append_left, opening]
      rw [length_callMarks]
      exact before
    · rw [taken, place_append (Nat.le_of_lt before)]
      exact attached

theorem closes_of_type (type : eventType envelope.event = .toolCompleted) :
    ∃ callId, callMark envelope.event = .closes callId := by
  cases event : envelope.event with
  | toolCompleted callId => exact ⟨callId, rfl⟩
  | _ =>
      rw [event] at type
      cases type

theorem Mirrors.attaches_last (mirrors : Mirrors format log)
    (step : Stepped format envelope (folded format log).items
      (folded format (log ++ [envelope])).items) (proposal : Nat) :
    Attaches format (log ++ [envelope]) proposal log.length ↔
      (proposal, log.length) ∈ callPairs (log ++ [envelope]) := by
  have unpaired : (proposal, log.length) ∉ callPairs log := fun member =>
    Nat.lt_irrefl _ (lt_of_mem_callPairs member).2
  rw [Web.attaches_last]
  cases step with
  | quiet mark =>
      refine iff_of_false ?_ ?_
      · rintro ⟨-, type, -⟩
        obtain ⟨callId, closes⟩ := closes_of_type type
        rw [mark] at closes
        cases closes
      · rw [callPairs_append, mark]
        exact unpaired
  | opens mark =>
      refine iff_of_false ?_ ?_
      · rintro ⟨-, type, -⟩
        obtain ⟨callId, closes⟩ := closes_of_type type
        rw [mark] at closes
        cases closes
      · rw [callPairs_append, mark]
        exact unpaired
  | closes mark type attached found calls unanswered first =>
      obtain ⟨own, opening, placed, paired⟩ :=
        mirrors.paired_first mark found calls unanswered first
      rw [paired, attached]
      constructor
      · rintro ⟨⟨callId, opening'⟩, -, same⟩
        rw [mirrors.place_injective opening' opening
          ((Option.some.inj same).symm.trans placed.symm)]
        exact List.mem_append_right _ (List.mem_singleton_self _)
      · intro member
        obtain before | last := List.mem_append.mp member
        · exact absurd before unpaired
        · cases List.mem_singleton.mp last
          exact ⟨⟨_, opening⟩, type, by rw [placed]⟩
  | alone mark unattached absent =>
      rw [mirrors.unpaired_alone mark absent, unattached]
      exact iff_of_false (fun ⟨_, _, attached⟩ => by cases attached) unpaired

theorem Stepped.kept {items later : List TimelineItem}
    (step : Stepped format envelope items later) {index : Nat} {item : ToolItem}
    (found : toolAt items index = some item) (answered : item.evidence.isSome = true) :
    ∃ item', toolAt later index = some item' ∧ item'.status = item.status ∧
      item'.output = item.output := by
  have keeps {touched : Option Nat} (evolves : Evolves items later touched)
      (untouched : touched ≠ some index) : ∃ item', toolAt later index = some item' ∧
        item'.status = item.status ∧ item'.output = item.output := by
    obtain ⟨item', shown, changes⟩ := evolves.forward index item found untouched
    exact ⟨item', shown, changes.kept answered⟩
  have inside := toolAt_lt found
  cases step with
  | quiet mark length_le evolves => exact keeps evolves (Option.some_ne_none index).symm
  | opens mark length evolves =>
      exact keeps evolves fun same => Nat.ne_of_gt inside (Option.some.inj same)
  | closes mark type attached target calls unanswered first length evolves =>
      refine keeps evolves fun same => ?_
      cases same
      rw [found] at target
      cases target
      rw [unanswered] at answered
      cases answered
  | alone mark unattached absent length evolves =>
      exact keeps evolves fun same => Nat.ne_of_gt inside (Option.some.inj same)

theorem Orderly.init (orderly : Orderly format (log ++ [envelope])) : Orderly format log := by
  intro position own at'
  have inside := (List.getElem?_eq_some_iff.mp at').1
  have shown : (log ++ [envelope])[position]? = some own := by
    rw [List.getElem?_append_left inside, at']
  have inOrder := orderly position own shown
  rwa [List.take_append_of_le_length (Nat.le_of_lt inside)] at inOrder

theorem Orderly.last (orderly : Orderly format (log ++ [envelope])) :
    InOrder (folded format log).items envelope.event := by
  have inOrder := orderly log.length envelope (List.getElem?_concat_length ..)
  rwa [List.take_append_of_le_length (Nat.le_refl _), List.take_length] at inOrder

/-- The items and the pairs of every orderly log. -/
theorem mirrors_pairsAlike (numbered : Numbered log) (orderly : Orderly format log) :
    Mirrors format log ∧ PairsAlike format log := by
  induction log using List.reverseRecOn with
  | nil =>
      refine ⟨⟨?_, ?_, ?_, ?_⟩, ?_, ?_⟩
      · intro index item found
        cases found
      · intro position callId at'
        cases at'
      · intro index item found
        cases found
      · intro earlier later callId callId' at'
        cases at'
      · intro proposal result
        refine iff_of_false ?_ ?_
        · rintro ⟨-, ⟨callId, at'⟩, -⟩
          cases at'
        · intro member
          cases member
      · intro position inside
        cases inside
  | append_singleton log envelope ih =>
      obtain ⟨mirrors, alike⟩ := ih numbered.init orderly.init
      have step : Stepped format envelope (folded format log).items
          (folded format (log ++ [envelope])).items := by
        rw [folded_snoc numbered]
        exact stepped (baseOf (folded format log) (normalized format envelope)) mirrors.settled
          orderly.last
      refine ⟨mirrors.step step, ?_, ?_⟩
      · intro proposal result
        obtain early | rfl | late := Nat.lt_trichotomy result log.length
        · rw [attaches_append early, alike.attaches, callPairs_append]
          obtain ⟨added, all, last⟩ :=
            State.step_pairs (State.initial.run (callMarks log)) (callMark envelope.event)
          rw [all]
          refine ⟨List.mem_append_left _, fun member => ?_⟩
          obtain before | new := List.mem_append.mp member
          · exact before
          · have at' := last _ new
            rw [(reads (callMarks log)).next, length_callMarks] at at'
            exact absurd at' (Nat.ne_of_lt early)
        · exact mirrors.attaches_last step proposal
        · refine iff_of_false ?_ ?_
          · rintro ⟨-, -, own, at', -⟩
            have inside := (List.getElem?_eq_some_iff.mp at').1
            rw [List.length_append, List.length_singleton] at inside
            omega
          · intro member
            have below := (lt_of_mem_callPairs member).2
            rw [List.length_append, List.length_singleton] at below
            dsimp only at below
            omega
      · intro position inside index item found answered
        rw [List.length_append, List.length_singleton] at inside
        by_cases early : position < log.length
        · rw [List.take_append_of_le_length (Nat.le_of_lt early)] at found
          rw [List.take_append_of_le_length early]
          exact alike.kept position early index item found answered
        · have last : position = log.length := by omega
          subst last
          rw [List.take_append_of_le_length (Nat.le_refl _), List.take_length] at found
          have whole : (log ++ [envelope]).take (log.length + 1) = log ++ [envelope] :=
            List.take_of_length_le (by simp)
          rw [whole]
          exact step.kept found answered

end

/-- The view attaches every result of an orderly log to the call that the model context pairs
it with, and leaves it as it is. -/
theorem pairsAlike_of_orderly (format : Format) (log : List EventEnvelope)
    (numbered : Numbered log) (orderly : Orderly format log) : PairsAlike format log :=
  (mirrors_pairsAlike numbered orderly).2

namespace Pairing

open Demo.EventText

def call (seq : Nat) : EventEnvelope := envelope seq (.toolProposed "call_0" "exec" .null)

def result (seq : Nat) : EventEnvelope :=
  envelope seq (.toolCompleted "call_0" "exec" (.string "ok") (.new "exec" 0 0) true)

/-- The item of the first proposal. -/
def item : ToolItem where
  id := "tool:call_0"
  callId := "call_0"
  name := "exec"
  arguments := []
  status := .proposed
  output := none
  evidence := none
  durationMs := none
  error := none
  turnId := none
  timestamp := some epoch

theorem toolAt_call : toolAt (folded format [call 1]).items 0 = some item := by
  simp only [folded, List.map_cons, List.map_nil, List.foldl_cons, List.foldl_nil]
  rfl

theorem orderly_call : Orderly format [call 1, result 2] := by
  intro position own at'
  obtain _ | _ | position := position
  · cases at'
    exact trivial
  · cases at'
    exact .inl ⟨0, item, toolAt_call, rfl, rfl, fun earlier less => by omega⟩
  · cases at'

end Pairing

open Pairing Demo.EventText in
theorem pairsAlike_of_orderly_completed : PairsAlike format [call 1, result 2] :=
  pairsAlike_of_orderly format _ (by simp [Numbered, call, result, envelope])
    orderly_call

open Pairing Demo.EventText in
/-- The result of a call whose identifier is in use again is attached to the earlier call. -/
theorem not_pairsAlike :
    ¬ PairsAlike format [call 1, result 2, call 3, result 4] := by
  intro alike
  have member := (alike.attaches 0 3).mp ⟨by decide, ⟨"call_0", rfl⟩, result 4, rfl, rfl,
    by decide +kernel⟩
  revert member
  decide

end OpsCodex.Web
