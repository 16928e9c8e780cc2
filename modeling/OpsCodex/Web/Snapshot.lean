import OpsCodex.Web.Timeline

/-! A loaded thread and a stream that repeats events give the view of the whole log. -/

set_option autoImplicit false

namespace OpsCodex.Web

structure ThreadDetail where
  id : String
  status : String
  title : Option (List UInt16)
  events : List NormalizedEvent

def ThreadDetail.summary (detail : ThreadDetail) : ThreadSummary where
  id := detail.id
  status := detail.status
  title := detail.title

def loadedTurnStatus (status : String) : TurnStatus :=
  if status = "running" then .running
  else if status = "interrupted" then .interrupted
  else if status = "needs_reconciliation" then .needsReconciliation
  else .idle

def emptyThread (state : OpsState) (detail : ThreadDetail) : OpsState :=
  { state with
    activeThreadId := some detail.id
    activeTurnId := none
    items := []
    turnStatus := loadedTurnStatus detail.status
    lastSeq := 0
    error := none
    clientUpgradeHint := none }

def replayThread (state : OpsState) (detail : ThreadDetail) : OpsState :=
  let replayed := detail.events.foldl applyRuntimeEvent (emptyThread state detail)
  if detail.status = "interrupted" ∨ detail.status = "needs_reconciliation" then
    { replayed with
      turnStatus := loadedTurnStatus detail.status
      activeTurnId := detail.events.reverse.findSome? fun event =>
        event.turnId.filter fun turnId => turnId ≠ "" }
  else replayed

/-- The listed threads with the loaded one brought up to date, or put in front. -/
def withLoaded (threads : List ThreadSummary) (detail : ThreadDetail) : List ThreadSummary :=
  if threads.any fun thread => thread.id = detail.id then
    threads.map fun thread =>
      if thread.id = detail.id then
        { thread with status := detail.status, title := detail.title <|> thread.title }
      else thread
  else detail.summary :: threads

/-- The action `thread/loaded`. -/
def threadLoaded (state : OpsState) (detail : ThreadDetail) : OpsState :=
  replayThread { state with threads := withLoaded state.threads detail } detail

/-- The actions `event/received` of a stream, one after the other. -/
def receive (state : OpsState) (stream : List NormalizedEvent) : OpsState :=
  stream.foldl applyRuntimeEvent state

/-- A stream that brings `remaining` in order and may bring again what was applied before. -/
inductive Delivers : List NormalizedEvent → List NormalizedEvent → List NormalizedEvent → Prop
  | done (applied : List NormalizedEvent) : Delivers applied [] []
  | first {applied remaining stream : List NormalizedEvent} (event : NormalizedEvent)
      (rest : Delivers (applied ++ [event]) remaining stream) :
      Delivers applied (event :: remaining) (event :: stream)
  | again {applied remaining stream : List NormalizedEvent} (event : NormalizedEvent)
      (seen : event ∈ applied) (rest : Delivers applied remaining stream) :
      Delivers applied remaining (event :: stream)

/-- Two views with the same timeline, up to the same number. -/
structure SameTimeline (first second : OpsState) : Prop where
  items : first.items = second.items
  lastSeq : first.lastSeq = second.lastSeq

section Timeline

variable {first second state : OpsState} {event : NormalizedEvent}

theorem items_actionUpdated (same : first.items = second.items) :
    (actionUpdated first event).items = (actionUpdated second event).items := by
  unfold actionUpdated
  dsimp only
  rw [same]
  split
  · rw [items_withThreadStatus, items_withThreadStatus]
  · split
    · rw [items_withThreadStatus, items_withThreadStatus]
    · rfl

/-- The timeline after an event depends on nothing but the timeline before it. -/
theorem items_reduceEvent (same : first.items = second.items) :
    (reduceEvent first event).items = (reduceEvent second event).items := by
  unfold reduceEvent
  cases event.type with
  | threadCreated => exact same
  | userMessage => simp only [userMessage, items_withTitle, same]
  | turnStarted => simpa only [items_withThreadStatus] using same
  | assistantDelta => simp only [assistantDelta, same]
  | assistantCompleted => simp only [assistantCompleted, same]
  | toolStarted => simp only [toolAdded, same]
  | toolProposed => simp only [toolAdded, same]
  | toolAuthorized => simp only [toolAuthorized, same]
  | toolExecutionStarted => simp only [toolExecutionStarted, same]
  | toolCompleted => simp only [toolCompleted, same]
  | approvalRequired => simp only [approvalRequired, same]
  | approvalResolved => simp only [approvalResolved, same]
  | turnCompleted => simp only [items_withThreadStatus, same]
  | turnFailed => simpa only [items_withThreadStatus] using same
  | turnCancelled => simpa only [items_withThreadStatus] using same
  | contextCompacted => simp only [contextCompacted, same]
  | actionUpdated => exact items_actionUpdated same
  | unknown => exact same

theorem SameTimeline.apply (same : SameTimeline first second) (event : NormalizedEvent) :
    SameTimeline (applyRuntimeEvent first event) (applyRuntimeEvent second event) := by
  have dropped : isDropped first event = isDropped second event := by
    rw [isDropped, isDropped, same.lastSeq]
  refine ⟨?_, by rw [lastSeq_applyRuntimeEvent, lastSeq_applyRuntimeEvent, same.lastSeq]⟩
  unfold applyRuntimeEvent
  rw [dropped]
  split
  · exact same.items
  · exact items_reduceEvent same.items

theorem SameTimeline.receive (same : SameTimeline first second)
    (events : List NormalizedEvent) :
    SameTimeline (receive first events) (receive second events) := by
  induction events generalizing first second with
  | nil => exact same
  | cons event events ih => exact ih (same.apply event)

theorem receive_append (events later : List NormalizedEvent) :
    receive state (events ++ later) = receive (receive state events) later :=
  List.foldl_append

/-- Loading a thread forgets the view before it. -/
theorem threadLoaded_sameTimeline {empty : OpsState} (noItems : empty.items = [])
    (unnumbered : empty.lastSeq = 0) (prior : OpsState) (detail : ThreadDetail) :
    SameTimeline (threadLoaded prior detail) (receive empty detail.events) := by
  have start : SameTimeline
      (emptyThread { prior with threads := withLoaded prior.threads detail } detail) empty :=
    ⟨noItems.symm, unnumbered.symm⟩
  have folded := start.receive detail.events
  unfold threadLoaded replayThread
  dsimp only
  split
  · exact ⟨folded.items, folded.lastSeq⟩
  · exact folded

end Timeline

section Stream

variable {state : OpsState}

theorem lastSeq_receive_mono (stream : List NormalizedEvent) :
    state.lastSeq ≤ (receive state stream).lastSeq := by
  induction stream generalizing state with
  | nil => exact Nat.le_refl _
  | cons event stream ih =>
      have first : state.lastSeq ≤ (applyRuntimeEvent state event).lastSeq := by
        rw [lastSeq_applyRuntimeEvent]
        exact Nat.le_max_left _ _
      exact Nat.le_trans first ih

/-- What was applied is not above the number that the view has passed. -/
theorem seq_le_lastSeq_receive {events : List NormalizedEvent} {event : NormalizedEvent}
    (member : event ∈ events) : event.seq ≤ (receive state events).lastSeq := by
  obtain ⟨before, after, rfl⟩ := List.append_of_mem member
  rw [receive_append]
  have passed : event.seq ≤ (applyRuntimeEvent (receive state before) event).lastSeq := by
    rw [lastSeq_applyRuntimeEvent]
    exact Nat.le_max_right _ _
  exact Nat.le_trans passed (lastSeq_receive_mono after)

/-- A stream with repetitions does what the remaining events do once. -/
theorem Delivers.receive_eq {applied remaining stream : List NormalizedEvent}
    (delivers : Delivers applied remaining stream)
    (positive : ∀ event ∈ applied ++ remaining, 0 < event.seq)
    (passed : ∀ event ∈ applied, event.seq ≤ state.lastSeq) :
    receive state stream = receive state remaining := by
  induction delivers generalizing state with
  | done applied => rfl
  | first event rest ih =>
      change receive (applyRuntimeEvent state event) _ = receive (applyRuntimeEvent state event) _
      refine ih ?_ ?_
      · intro other member
        rw [List.append_assoc] at member
        exact positive other member
      · intro other member
        rw [lastSeq_applyRuntimeEvent]
        rcases List.mem_append.mp member with member | member
        · exact Nat.le_trans (passed other member) (Nat.le_max_left _ _)
        · rw [List.mem_singleton.mp member]
          exact Nat.le_max_right _ _
  | again event seen rest ih =>
      have dropped : isDropped state event = true := by
        simp only [isDropped, Bool.and_eq_true, decide_eq_true_eq]
        exact ⟨positive event (List.mem_append_left _ seen), passed event seen⟩
      rw [receive, List.foldl_cons, applyRuntimeEvent_dropped dropped, ← receive]
      exact ih positive passed

/-- Loading any prefix of a log and receiving the rest, with repetitions of what was already
applied, gives the timeline of the log, and the number only grows. -/
theorem snapshot_stream {log before rest stream : List NormalizedEvent} {detail : ThreadDetail}
    {empty : OpsState} (noItems : empty.items = []) (unnumbered : empty.lastSeq = 0)
    (positive : ∀ event ∈ log, 0 < event.seq)
    (split : log = before ++ rest) (loaded : detail.events = before)
    (delivers : Delivers before rest stream) (prior : OpsState) :
    (receive (threadLoaded prior detail) stream).items = (receive empty log).items ∧
      (receive (threadLoaded prior detail) stream).lastSeq = (receive empty log).lastSeq ∧
      ∀ count, (receive (threadLoaded prior detail) (stream.take count)).lastSeq ≤
        (receive (threadLoaded prior detail) (stream.take (count + 1))).lastSeq := by
  subst split loaded
  have start := threadLoaded_sameTimeline noItems unnumbered prior detail
  have once : receive (threadLoaded prior detail) stream =
      receive (threadLoaded prior detail) rest := by
    refine delivers.receive_eq positive ?_
    intro event member
    rw [start.lastSeq]
    exact seq_le_lastSeq_receive member
  have final := start.receive rest
  rw [← receive_append] at final
  refine ⟨once ▸ final.items, once ▸ final.lastSeq, ?_⟩
  intro count
  rw [List.take_add, receive_append]
  exact lastSeq_receive_mono _

namespace Demo.Snapshot

def empty : OpsState where
  threads := []
  activeThreadId := none
  activeTurnId := none
  items := []
  turnStatus := .idle
  lastSeq := 0
  error := none
  clientUpgradeHint := none

def asked : NormalizedEvent where
  seq := 1
  threadId := "thread"
  turnId := some "turn"
  timestamp := none
  type := .userMessage
  data := [("content", .string "why is it slow?")]

def answered : NormalizedEvent where
  seq := 2
  threadId := "thread"
  turnId := some "turn"
  timestamp := none
  type := .assistantDelta
  data := [("delta", .string "because")]

def detail : ThreadDetail where
  id := "thread"
  status := "running"
  title := none
  events := [asked]

end Demo.Snapshot

open Demo.Snapshot in
theorem snapshot_stream_repeated :
    (receive (threadLoaded empty detail) [asked, answered, asked, answered]).items =
        (receive empty [asked, answered]).items ∧
      (receive (threadLoaded empty detail) [asked, answered, asked, answered]).lastSeq =
        (receive empty [asked, answered]).lastSeq ∧
      ∀ count, (receive (threadLoaded empty detail)
          ([asked, answered, asked, answered].take count)).lastSeq ≤
        (receive (threadLoaded empty detail)
          ([asked, answered, asked, answered].take (count + 1))).lastSeq :=
  snapshot_stream rfl rfl (by simp [asked, answered])
    (show [asked, answered] = [asked] ++ [answered] from rfl) rfl
    (.again asked (by simp) (.first answered (.again asked (by simp)
      (.again answered (by simp) (.done _))))) empty

end Stream

end OpsCodex.Web
