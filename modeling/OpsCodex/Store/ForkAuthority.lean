import OpsCodex.Store.Fork
import OpsCodex.Store.Items

/-! A fork inherits no active turn, approval or action exactly if every action of the
part that it inherits is over and the last one needs no reconciliation. -/

set_option autoImplicit false

namespace OpsCodex.Store

open OpsCodex.Json OpsCodex.Runtime OpsCodex.Action

/-- A status text of an action that nothing can happen to any more. -/
def concluded (status : String) : Bool :=
  match ActionStatus.parse status with
  | .ok status => status.isTerminal
  | .error _ => false

/-- A thread without active authority. -/
structure Inactive (view : ThreadView) : Prop where
  status : view.status = .idle
  approvals : ∀ id approved, Item.approval id approved ∈ view.items → approved ≠ none
  actions : ∀ id status tool requestHash review,
    Item.action id status tool requestHash review ∈ view.items → concluded status = true

/-- The status of the last action event of a log. -/
def latestAfter (latest : Option String) : RuntimeEvent → Option String
  | .actionUpdated _ _ status _ _ _ => some status
  | _ => latest

def latestAction (events : List RuntimeEvent) : Option String :=
  events.foldl latestAfter none

/-- Every action of a log is over, and the last one needs no reconciliation. -/
structure Dormant (events : List RuntimeEvent) : Prop where
  concluded : ∀ id status, recordedStatus events id = some status → concluded status = true
  reconciled : latestAction events ≠ some ActionStatus.needsReconciliation.asStr

section

variable {events : List RuntimeEvent}

/-- Only action events are behind what is recorded of actions. -/
theorem after_not_action {event : RuntimeEvent}
    (other : ∀ id planId status tool requestHash review,
      event ≠ .actionUpdated id planId status tool requestHash review)
    (recorded : ActionId → Option String) (latest : Option String) :
    recordedAfter recorded event = recorded ∧ latestAfter latest event = latest := by
  cases event with
  | actionUpdated id planId status tool requestHash review =>
      exact absurd rfl (other id planId status tool requestHash review)
  | _ => exact ⟨rfl, rfl⟩

/-- The events that a fork drops record nothing of actions. -/
theorem foldl_inheritable (events : List RuntimeEvent) (recorded : ActionId → Option String)
    (latest : Option String) :
    (events.filter inheritable).foldl recordedAfter recorded =
        events.foldl recordedAfter recorded ∧
      (events.filter inheritable).foldl latestAfter latest = events.foldl latestAfter latest := by
  induction events generalizing recorded latest with
  | nil => exact ⟨rfl, rfl⟩
  | cons event events ih =>
      cases kept : inheritable event with
      | true =>
          rw [List.filter_cons_of_pos kept]
          exact ih (recordedAfter recorded event) (latestAfter latest event)
      | false =>
          have other : ∀ id planId status tool requestHash review,
              event ≠ .actionUpdated id planId status tool requestHash review := by
            intro id planId status tool requestHash review same
            subst same
            cases kept
          have plain := after_not_action other recorded latest
          rw [List.filter_cons_of_neg (by simp [kept]), List.foldl_cons, List.foldl_cons,
            plain.1, plain.2]
          exact ih recorded latest

/-- Inherited events leave a thread that has no other events without approvals. -/
theorem approvals_foldl (items : List Item)
    (none : ∀ item ∈ items, ∀ id approved, item ≠ .approval id approved)
    (inherited : ∀ event ∈ events, inheritable event = true) :
    ∀ item ∈ events.foldl itemsAfter items, ∀ id approved, item ≠ .approval id approved := by
  induction events generalizing items with
  | nil => exact none
  | cons event events ih =>
      refine ih _ ?_ fun later member => inherited later (List.mem_cons_of_mem event member)
      have kept := inherited event List.mem_cons_self
      have pushed (pushed : Item) (plain : ∀ id approved, pushed ≠ .approval id approved) :
          ∀ item ∈ items ++ [pushed], ∀ id approved, item ≠ .approval id approved := by
        intro item member
        obtain old | new := List.mem_append.mp member
        · exact none item old
        · rw [List.mem_singleton.mp new]
          exact plain
      cases event with
      | approvalRequired | approvalResolved | assistantDelta | turnStarted | turnCompleted
      | turnCancelled | turnFailed | toolAuthorized | toolExecutionStarted => cases kept
      | threadCreated => exact none
      | userMessage | assistantCompleted | toolStarted | toolProposed | toolCompleted
      | contextCompacted => exact pushed _ fun _ _ same => by cases same
      | actionUpdated actionId planId status tool requestHash review =>
          simp only [itemsAfter]
          cases changed : modifyLast (Item.isAction actionId)
              (Item.update status requestHash review) items with
          | none => exact pushed _ fun _ _ same => by cases same
          | some items' =>
              obtain ⟨before, item, after, rfl, selected, rfl⟩ := modifyLast_eq_some changed
              intro other member
              obtain left | right := List.mem_append.mp member
              · exact none other (List.mem_append_left _ left)
              · obtain rfl | right := List.mem_cons.mp right
                · cases item <;> first | cases selected | exact fun _ _ same => by cases same
                · exact none other (List.mem_append_right _ (List.mem_cons_of_mem _ right))

/-- What the last action event and the status of a thread say of each other, while only
inherited events come. -/
structure Follows (recorded : ActionId → Option String) (latest : Option String)
    (status : ThreadStatus) : Prop where
  recorded : ∀ text, latest = some text → ∃ id, recorded id = some text
  idle : latest = none → status = .idle
  ended : ∀ text, latest = some text → concluded text = true →
    (status = .idle ↔ text ≠ ActionStatus.needsReconciliation.asStr)

theorem statusAfter_of_concluded {text : String} (concluded' : concluded text = true)
    (status : ThreadStatus) (id : ActionId) (planId : PlanId) (tool requestHash : String)
    (review : Value) :
    statusAfter status (.actionUpdated id planId text tool requestHash review) = .idle ↔
      text ≠ ActionStatus.needsReconciliation.asStr := by
  unfold concluded at concluded'
  cases parsed : ActionStatus.parse text with
  | error error => simp [parsed] at concluded'
  | ok known =>
      rw [parsed] at concluded'
      have printed : known.asStr = text := by
        simp only [ActionStatus.parse] at parsed
        split at parsed
        · rename_i found
          cases parsed
          simpa using List.find?_some found
        · cases parsed
      rw [← printed]
      cases known <;> cases concluded'
      all_goals simp only [statusAfter, ActionStatus.parse_asStr]
      all_goals decide

theorem Follows.after {recorded : ActionId → Option String} {latest : Option String}
    {status : ThreadStatus} (follows : Follows recorded latest status) {event : RuntimeEvent}
    (kept : inheritable event = true) :
    Follows (recordedAfter recorded event) (latestAfter latest event)
      (statusAfter status event) := by
  cases event with
  | approvalRequired | approvalResolved | assistantDelta | turnStarted | turnCompleted
  | turnCancelled | turnFailed | toolAuthorized | toolExecutionStarted => cases kept
  | threadCreated | userMessage | assistantCompleted | toolStarted | toolProposed
  | toolCompleted | contextCompacted => exact follows
  | actionUpdated id planId text tool requestHash review =>
      constructor
      · intro text' same
        cases same
        exact ⟨id, by simp [recordedAfter]⟩
      · intro none
        cases none
      · intro text' same concluded'
        cases same
        exact statusAfter_of_concluded concluded' status id planId tool requestHash review

theorem follows_foldl {recorded : ActionId → Option String} {latest : Option String}
    {status : ThreadStatus} (follows : Follows recorded latest status)
    (inherited : ∀ event ∈ events, inheritable event = true) :
    Follows (events.foldl recordedAfter recorded) (events.foldl latestAfter latest)
      (events.foldl statusAfter status) := by
  induction events generalizing recorded latest status with
  | nil => exact follows
  | cons event events ih =>
      exact ih (follows.after (inherited event List.mem_cons_self)) fun later member =>
        inherited later (List.mem_cons_of_mem event member)

/-- A thread of inherited events is inactive exactly if its log is dormant. -/
theorem inactive_iff {threadId : ThreadId} {log : List EventEnvelope} {view : ThreadView}
    (viewed : viewThread threadId log = .ok view)
    (inherited : ∀ envelope ∈ log, inheritable envelope.event = true) :
    Inactive view ↔ Dormant (log.map EventEnvelope.event) := by
  have shape : view.items = (log.map EventEnvelope.event).foldl itemsAfter [] ∧
      view.status = (log.map EventEnvelope.event).foldl statusAfter .idle := by
    cases log with
    | nil => cases viewed
    | cons first rest =>
        simp only [viewThread] at viewed
        split at viewed
        · cases viewed
          simp only [foldl_applyEvent, and_self]
        · cases viewed
  have every : ∀ event ∈ log.map EventEnvelope.event, inheritable event = true := by
    intro event member
    obtain ⟨envelope, found, rfl⟩ := List.mem_map.mp member
    exact inherited envelope found
  generalize log.map EventEnvelope.event = events at shape every
  have shows := showsActions events
  have free := approvals_foldl [] (by simp) every
  have follows : Follows (recordedStatus events) (latestAction events)
      (events.foldl statusAfter .idle) := by
    apply follows_foldl _ every
    constructor
    · intro text none
      cases none
    · exact fun _ => rfl
    · intro text none
      cases none
  rw [← shape.1] at shows free
  rw [← shape.2] at follows
  constructor
  · intro inactive
    have ended : ∀ id status, recordedStatus events id = some status →
        concluded status = true := by
      intro id status recorded
      obtain ⟨item, member, shown⟩ :=
        List.mem_filterMap.mp ((shows.shown id status).mpr recorded)
      cases item <;> cases shown
      exact inactive.actions _ _ _ _ _ member
    refine ⟨ended, fun latest => ?_⟩
    obtain ⟨id, recorded⟩ := follows.recorded _ latest
    exact (follows.ended _ latest (ended id _ recorded)).mp inactive.status rfl
  · intro dormant
    constructor
    · cases latest : latestAction events with
      | none => exact follows.idle latest
      | some text =>
          obtain ⟨id, recorded⟩ := follows.recorded text latest
          refine (follows.ended text latest (dormant.concluded id text recorded)).mpr ?_
          intro same
          exact dormant.reconciled (same ▸ latest)
    · intro id approved member
      exact absurd rfl (free _ member id approved)
    · intro id status tool requestHash review member
      exact dormant.concluded id status ((shows.shown id status).mp
        (List.mem_filterMap.mpr ⟨_, member, rfl⟩))

end

section

variable {db : Database} {threadId newThreadId : ThreadId} {events : List EventEnvelope}
  {atSeq : Nat}

/-- A fork records of actions what the part of the log that it inherits records. -/
theorem dormant_fork {workspaceId : WorkspaceId} {stamp : Nat → DateTime × Uuid}
    (log : ThreadLog events) (positive : 1 ≤ atSeq) :
    Dormant ((Database.forkCreated newThreadId workspaceId stamp ::
        Database.forkInherited newThreadId workspaceId stamp 1
          ((inherited events atSeq).drop 1)).map EventEnvelope.event) ↔
      Dormant ((events.filter fun envelope => decide (envelope.seq ≤ atSeq)).map
        EventEnvelope.event) := by
  obtain ⟨first, rest, sources, created⟩ := inherited_cons log positive
  have copied : (Database.forkCreated newThreadId workspaceId stamp ::
        Database.forkInherited newThreadId workspaceId stamp 1
          ((inherited events atSeq).drop 1)).map EventEnvelope.event =
      (((events.filter fun envelope => decide (envelope.seq ≤ atSeq)).map
        EventEnvelope.event).filter inheritable) := by
    have parts : ((events.filter fun envelope => decide (envelope.seq ≤ atSeq)).filter
        (inheritable ∘ EventEnvelope.event)) = inherited events atSeq :=
      (inherited_eq events atSeq).symm
    rw [List.filter_map, List.map_cons, map_event_forkInherited, parts, sources, List.map_cons,
      created]
    rfl
  have same := foldl_inheritable
    ((events.filter fun envelope => decide (envelope.seq ≤ atSeq)).map EventEnvelope.event)
    (fun _ => none) none
  rw [copied]
  constructor
  · intro dormant
    refine ⟨fun id status recorded => dormant.concluded id status ?_, fun latest => ?_⟩
    · rw [recordedStatus, same.1]
      exact recorded
    · apply dormant.reconciled
      rw [latestAction, same.2]
      exact latest
  · intro dormant
    refine ⟨fun id status recorded => dormant.concluded id status ?_, fun latest => ?_⟩
    · rw [recordedStatus, same.1] at recorded
      exact recorded
    · apply dormant.reconciled
      rw [latestAction, same.2] at latest
      exact latest

theorem inheritable_of_fork {workspaceId : WorkspaceId} {stamp : Nat → DateTime × Uuid}
    {envelope : EventEnvelope}
    (member : envelope ∈ Database.forkCreated newThreadId workspaceId stamp ::
      Database.forkInherited newThreadId workspaceId stamp 1 ((inherited events atSeq).drop 1)) :
    inheritable envelope.event = true := by
  obtain rfl | member := List.mem_cons.mp member
  · rfl
  · have event : envelope.event ∈ ((inherited events atSeq).drop 1).map EventEnvelope.event := by
      rw [← map_event_forkInherited]
      exact List.mem_map_of_mem member
    obtain ⟨source, found, same⟩ := List.mem_map.mp event
    rw [← same]
    have kept := (List.mem_filter.mp (List.mem_of_mem_drop found)).2
    exact (Bool.and_eq_true_iff.mp kept).2

/-- A fork is inactive exactly if the part of the log that it inherits is dormant. -/
theorem forkThread_inactive_iff (title : Option String) (stamp : Nat → DateTime × Uuid)
    (updatedAt : DateTime) (loaded : db.loadEvents threadId 0 = .ok events)
    (log : ThreadLog events) (positive : 1 ≤ atSeq) (within : atSeq ≤ events.length)
    (absent : db.thread newThreadId = none) (unused : db.threadEvents newThreadId = []) :
    ∃ created after copies view,
      db.forkThread threadId atSeq newThreadId title stamp updatedAt = (.ok created, after) ∧
      after.loadEvents newThreadId 0 = .ok copies ∧
      viewThread newThreadId copies = .ok view ∧
      (Inactive view ↔ Dormant
        ((events.filter fun envelope => decide (envelope.seq ≤ atSeq)).map
          EventEnvelope.event)) := by
  obtain ⟨workspaceId, created, after, rfl, forked, copied⟩ :=
    forkThread_spec title stamp updatedAt loaded log positive within absent unused
  refine ⟨_, after, _, _, forked, copied, rfl, ?_⟩
  rw [← dormant_fork log positive]
  exact inactive_iff rfl fun _ => inheritable_of_fork

end

namespace Demo.Fork

/-- A parent whose only action waits for its approval. -/
def waiting : List EventEnvelope := [
  envelope 1 .threadCreated,
  envelope 2 (.actionUpdated ⟨0⟩ ⟨0⟩ ActionStatus.awaitingApproval.asStr "k8s_scale" "hash" .null)]

/-- A parent whose only action has asked for its approval and was rejected. -/
def concluded : List EventEnvelope := waiting ++ [
  envelope 3 (.actionUpdated ⟨0⟩ ⟨0⟩ ActionStatus.rejected.asStr "k8s_scale" "hash" .null)]

def concludedDatabase : Database := { database with events := concluded }

theorem threadLog_concluded : ThreadLog concluded where
  created := ⟨_, _, rfl, rfl⟩
  numbered := by decide
  stored := by decide

theorem dormant_concluded : Dormant ((concluded.filter fun envelope =>
    decide (envelope.seq ≤ 3)).map EventEnvelope.event) := by
  refine ⟨fun id status recorded => ?_, by decide⟩
  have last : (if (⟨0⟩ : ActionId) = id then some ActionStatus.rejected.asStr
      else if (⟨0⟩ : ActionId) = id then some ActionStatus.awaitingApproval.asStr else none) =
        some status := recorded
  split at last
  · cases last
    decide
  · cases last

end Demo.Fork

/-- A fork behind an action that is over is inactive. -/
theorem forkThread_inactive_iff_concluded :
    ∃ created after copies view,
      Demo.Fork.concludedDatabase.forkThread Demo.Fork.parent 3 Demo.Fork.child none
        Demo.Fork.stamp 0 = (.ok created, after) ∧
      after.loadEvents Demo.Fork.child 0 = .ok copies ∧
      viewThread Demo.Fork.child copies = .ok view ∧ Inactive view := by
  obtain ⟨created, after, copies, view, forked, copied, viewed, inactive⟩ :=
    forkThread_inactive_iff none Demo.Fork.stamp 0
      (rfl : Demo.Fork.concludedDatabase.loadEvents Demo.Fork.parent 0 = .ok Demo.Fork.concluded)
      Demo.Fork.threadLog_concluded (by decide : 1 ≤ 3) (by decide)
      (rfl : Demo.Fork.concludedDatabase.thread Demo.Fork.child = none) rfl
  exact ⟨created, after, copies, view, forked, copied, viewed,
    inactive.mpr Demo.Fork.dormant_concluded⟩

/-- A fork after an action has asked for its approval shows the action as waiting. -/
theorem not_forkThread_inactive :
    ∃ created after copies view,
      { Demo.Fork.database with events := Demo.Fork.waiting }.loadEvents Demo.Fork.parent 0 =
        .ok Demo.Fork.waiting ∧
      { Demo.Fork.database with events := Demo.Fork.waiting }.forkThread Demo.Fork.parent 2
          Demo.Fork.child none Demo.Fork.stamp 0 = (.ok created, after) ∧
      after.loadEvents Demo.Fork.child 0 = .ok copies ∧
      viewThread Demo.Fork.child copies = .ok view ∧
      ¬ Inactive view := by
  refine ⟨_, _, _, _, rfl, rfl, rfl, rfl, fun inactive => ?_⟩
  have idle := inactive.status
  revert idle
  decide

end OpsCodex.Store
