import OpsCodex.Runtime.AuditTrail
import OpsCodex.Turn.StartedOnce

/-! Every start of a tool in the log is authorized there, over any number of crashes
and resumes, as long as a resume runs a waiting call only if the log allows it. -/

set_option autoImplicit false

namespace OpsCodex.Turn

open Effect OpsCodex.Action OpsCodex.Extensions OpsCodex.Store OpsCodex.Runtime

namespace AuthorizationTrace

variable {deployment : Deployment}

open StartedOnce (Resumes)

/-- Sequential runs with increasing checkpoint timestamps, in which call ids are
distinct within their turn. -/
structure Rounds (pool : Pool deployment) (label : Label (system deployment)) : Prop where
  sequential : Sequential pool label
  timestamps : Increasing pool label
  callIds : ∀ caller choice command turnId callId, label = .perform caller choice →
    pool.awaits caller = some (.command (.appendEvent command)) →
    command.turnId = some turnId → command.event.proposedCall = some callId →
    ¬ Proposed ⟨turnId, callId⟩ pool.state.db

/-- A resume that reads the approval of its waiting call does not have to ask again,
and finds it approved only if the log allows the call. -/
def Settled (pool : Pool deployment) : Label (system deployment) → Prop
  | .perform caller _ => ∀ turnId stored checkpoint operation,
      pool.awaits caller = some (.query (.approvalForTurn turnId)) →
      pool.state.db.approvalForTurn turnId = some stored →
      pool.state.db.lastCheckpoint turnId = some checkpoint →
      checkpoint.pendingOperation = some operation →
      stored.status ≠ .pending ∧ (stored.status = .approved →
        Allowed turnId operation.callId (pool.state.db.threadEvents checkpoint.threadId))
  | _ => True

structure Guarded (pool : Pool deployment) (label : Label (system deployment)) : Prop
    extends Rounds pool label where
  settled : Settled pool label

/-- The conditions on a round, as a check. -/
def rounds (pool : Pool deployment) (label : Label (system deployment)) : Bool :=
  sequential pool label && increasing pool label &&
    match label with
    | .perform caller _ =>
        match pool.awaits caller with
        | some (.command (.appendEvent command)) =>
            pool.state.db.events.all fun envelope =>
              decide (command.turnId.isSome ∧ command.event.proposedCall.isSome →
                ¬ (envelope.turnId = command.turnId ∧
                  envelope.event.proposedCall = command.event.proposedCall))
        | _ => true
    | _ => true

theorem rounds_sound (pool : Pool deployment) (label : Label (system deployment))
    (checked : rounds pool label = true) : Rounds pool label := by
  simp only [rounds, Bool.and_eq_true] at checked
  obtain ⟨⟨ordered, later⟩, labelled⟩ := checked
  refine ⟨sequential_sound pool label ordered, increasing_sound pool label later, ?_⟩
  intro caller choice command turnId callId same awaited turn call proposed
  subst same
  obtain ⟨envelope, member, own⟩ := proposed
  simp only [awaited, List.all_eq_true, decide_eq_true_eq, turn, call] at labelled
  exact labelled envelope member ⟨rfl, rfl⟩ own

/-- The condition on a resume, as a check. -/
def settled (pool : Pool deployment) : Label (system deployment) → Bool
  | .perform caller _ =>
      match pool.awaits caller with
      | some (.query (.approvalForTurn turnId)) =>
          (pool.state.db.approvalForTurn turnId).all fun stored =>
            (pool.state.db.lastCheckpoint turnId).all fun checkpoint =>
              checkpoint.pendingOperation.all fun operation =>
                decide (stored.status ≠ .pending ∧ (stored.status = .approved →
                  Allowed turnId operation.callId
                    (pool.state.db.threadEvents checkpoint.threadId)))
      | _ => true
  | _ => true

theorem settled_sound (pool : Pool deployment) (label : Label (system deployment))
    (checked : settled pool label = true) : Settled pool label := by
  cases label with
  | perform caller choice =>
      intro turnId stored checkpoint operation awaited found last pending
      simp only [settled, awaited, found, last, pending, Option.all_some,
        decide_eq_true_eq] at checked
      exact checked
  | spawn job => trivial
  | crash startup => trivial

def guarded (pool : Pool deployment) (label : Label (system deployment)) : Bool :=
  rounds pool label && settled pool label

theorem guarded_sound (pool : Pool deployment) (label : Label (system deployment))
    (checked : guarded pool label = true) : Guarded pool label := by
  obtain ⟨inOrder, resumed⟩ := Bool.and_eq_true_iff.mp checked
  exact ⟨rounds_sound pool label inOrder, settled_sound pool label resumed⟩

/-- A runtime that has just started, over a store in which no turn has run. -/
def Boots (pool : Pool deployment) : Prop :=
  ∃ world : World, world.db.checkpoints = [] ∧
    (∀ envelope ∈ world.db.events, envelope.turnId = none) ∧ pool = Pool.boot world

/-- A proposed call that nothing was said of yet. -/
structure Untouched (log : List EventEnvelope) (turnId : TurnId) (callId : String) : Prop where
  last : lastProposed turnId log = some callId
  unallowed : ¬ Allowed turnId callId log
  undenied : ¬ Denied turnId callId log
  unasked : ∀ id, ¬ Asked turnId callId id log

/-- A call whose approval is the only one asked for it, and is asked for it only. -/
structure Awaited (log : List EventEnvelope) (turnId : TurnId) (callId : String)
    (id : ApprovalId) : Prop where
  asked : Asked turnId callId id log
  unallowed : ¬ Allowed turnId callId log
  undenied : ¬ Denied turnId callId log
  only : ∀ other, Asked turnId callId other log → other = id
  own : ∀ other, Asked turnId other id log → other = callId
  unrefused : ¬ Resolved turnId id false log

/-- What a stage of a drive knows from the log of its thread. -/
def Staged (world : World) (threadId : ThreadId) (turnId : TurnId) : Stage → Prop
  | .proposed call => Untouched (world.db.threadEvents threadId) turnId call.callId
  | .named call id | .asking call id | .asked call id | .parked call id =>
      Untouched (world.db.threadEvents threadId) turnId call.callId ∧
        id.uuid < world.nextId ∧
        ∀ callId, ¬ Asked turnId callId id (world.db.threadEvents threadId)
  | .announced call id | .decided call id _ | .settling call id _ _ =>
      Awaited (world.db.threadEvents threadId) turnId call.callId id
  | .resolved call id approved =>
      Asked turnId call.callId id (world.db.threadEvents threadId) ∧
        ¬ Allowed turnId call.callId (world.db.threadEvents threadId) ∧
        (approved = true → ¬ Denied turnId call.callId (world.db.threadEvents threadId) ∧
          ∀ other, Asked turnId call.callId other (world.db.threadEvents threadId) →
            Resolved turnId other true (world.db.threadEvents threadId) ∧
            ¬ Resolved turnId other false (world.db.threadEvents threadId))
  | .allowed call _ | .granted call _ | .readied call _ | .begun call _ =>
      Allowed turnId call.callId (world.db.threadEvents threadId)
  | .authorizing call => ∃ checkpoint operation,
      world.db.lastCheckpoint turnId = some checkpoint ∧ checkpoint.threadId = threadId ∧
        checkpoint.pendingOperation = some operation ∧ operation.callId = call.callId
  | .selected _ stored => stored.status ≠ .pending
  | _ => True

def Point (world : World) : Control → Prop
  | .reporting turnId _ checkpoint => world.db.lastCheckpoint turnId = some checkpoint
  | .waiting drive | .guarded drive | .leased drive | .entered drive | .situated drive _ =>
      Resumes world.db drive
  | .within session stage => Staged world session.threadId session.turnId stage
  | _ => True

/-- What holds of the store, whoever is running. -/
structure Facts (world : World) : Prop where
  trails : ∀ threadId, Trail (world.db.threadEvents threadId)
  asked : ∀ threadId turnId callId id,
    Asked turnId callId id (world.db.threadEvents threadId) → id.uuid < world.nextId
  running : ∀ turnId checkpoint operation, world.db.lastCheckpoint turnId = some checkpoint →
    checkpoint.pendingOperation = some operation → checkpoint.phase = .toolRunning →
    Allowed turnId operation.callId (world.db.threadEvents checkpoint.threadId)

structure Holds (pool : Pool deployment) (controls : Nat → Option Control) : Prop where
  alone : Alone pool controls
  facts : Facts pool.state
  points : ∀ caller control, controls caller = some control → Point pool.state control

/-- A step that adds nothing that the audit reads. -/
structure Still (before after : World) : Prop where
  events : ∀ threadId, after.db.threadEvents threadId = before.db.threadEvents threadId ∨
    ∃ added, after.db.threadEvents threadId = before.db.threadEvents threadId ++ [added] ∧
      added.event.audited = false ∧ added.event.proposedCall = none
  nextId : before.nextId ≤ after.nextId

section

variable {before after : World} {threadId : ThreadId} {turnId : TurnId}

theorem Still.logged (still : Still before after) {tells : RuntimeEvent → Prop}
    (decides : ∀ event, tells event → event.audited = true) :
    Logged turnId tells (after.db.threadEvents threadId) ↔
      Logged turnId tells (before.db.threadEvents threadId) := by
  obtain same | ⟨added, grown, unaudited, -⟩ := still.events threadId
  · rw [same]
  · rw [grown]
    exact logged_append_unaudited decides unaudited

theorem Still.authorized (still : Still before after) {callId decision : String} :
    Logged turnId (RuntimeEvent.Authorizes callId decision) (after.db.threadEvents threadId) ↔
      Logged turnId (RuntimeEvent.Authorizes callId decision)
        (before.db.threadEvents threadId) := by
  refine still.logged fun event authorizes => ?_
  obtain ⟨tool, rfl⟩ := authorizes
  rfl

theorem Still.resolved (still : Still before after) {id : ApprovalId} {approved : Bool} :
    Resolved turnId id approved (after.db.threadEvents threadId) ↔
      Resolved turnId id approved (before.db.threadEvents threadId) := by
  refine still.logged fun event resolves => ?_
  obtain rfl := resolves
  rfl

theorem Still.asked (still : Still before after) {callId : String} {id : ApprovalId} :
    Asked turnId callId id (after.db.threadEvents threadId) ↔
      Asked turnId callId id (before.db.threadEvents threadId) := by
  obtain same | ⟨added, grown, unaudited, -⟩ := still.events threadId
  · rw [same]
  · rw [grown]
    exact asked_append_unaudited unaudited

theorem Still.lastProposed (still : Still before after) :
    lastProposed turnId (after.db.threadEvents threadId) =
      lastProposed turnId (before.db.threadEvents threadId) := by
  obtain same | ⟨added, grown, -, unproposed⟩ := still.events threadId
  · rw [same]
  · rw [grown, lastProposed_append, unproposed]
    simp

theorem Still.untouched (still : Still before after) {callId : String}
    (untouched : Untouched (before.db.threadEvents threadId) turnId callId) :
    Untouched (after.db.threadEvents threadId) turnId callId := by
  constructor
  · rw [still.lastProposed, untouched.last]
  · exact mt still.authorized.mp untouched.unallowed
  · exact mt still.authorized.mp untouched.undenied
  · intro id
    rw [still.asked]
    exact untouched.unasked id

theorem Still.awaited (still : Still before after) {callId : String} {id : ApprovalId}
    (awaited : Awaited (before.db.threadEvents threadId) turnId callId id) :
    Awaited (after.db.threadEvents threadId) turnId callId id := by
  constructor
  · rw [still.asked]
    exact awaited.asked
  · exact mt still.authorized.mp awaited.unallowed
  · exact mt still.authorized.mp awaited.undenied
  · intro other
    rw [still.asked]
    exact awaited.only other
  · intro other
    rw [still.asked]
    exact awaited.own other
  · rw [still.resolved]
    exact awaited.unrefused

theorem Still.staged (still : Still before after) {stage : Stage}
    (checkpoints : ∀ turnId, after.db.lastCheckpoint turnId = before.db.lastCheckpoint turnId)
    (staged : Staged before threadId turnId stage) : Staged after threadId turnId stage := by
  cases stage with
  | driving | answered | running | denied => trivial
  | proposed => exact still.untouched staged
  | named | asking | asked | parked =>
      obtain ⟨untouched, older, unasked⟩ := staged
      refine ⟨still.untouched untouched, older.trans_le still.nextId, fun callId => ?_⟩
      rw [still.asked]
      exact unasked callId
  | announced | decided | settling => exact still.awaited staged
  | resolved =>
      simp only [Staged, still.asked, still.authorized, still.resolved] at staged ⊢
      exact staged
  | allowed | granted | readied | begun =>
      simp only [Staged, still.authorized] at staged ⊢
      exact staged
  | authorizing =>
      simp only [Staged, checkpoints] at staged ⊢
      exact staged
  | selected => exact staged

/-- What is known of a call outlives the steps of the others. -/
theorem Still.point (still : Still before after) {control : Control}
    (checkpoints : ∀ turnId, after.db.lastCheckpoint turnId = before.db.lastCheckpoint turnId)
    (point : Point before control) : Point after control := by
  cases control with
  | reporting => exact (checkpoints _).trans point
  | waiting drive | guarded drive | leased drive | entered drive | situated drive =>
      obtain ⟨threadId, turnId, origin⟩ := drive
      cases origin with
      | fresh => trivial
      | resumed checkpoint events => exact ⟨(checkpoints _).trans point.1, point.2⟩
  | within => exact still.staged checkpoints point
  | _ => trivial

/-- Facts outlive a step, if its checkpoints are accounted for. -/
theorem Still.facts (still : Still before after) (facts : Facts before)
    (running : ∀ turnId checkpoint operation, after.db.lastCheckpoint turnId = some checkpoint →
      checkpoint.pendingOperation = some operation → checkpoint.phase = .toolRunning →
      before.db.lastCheckpoint turnId = some checkpoint ∨
        Allowed turnId operation.callId (before.db.threadEvents checkpoint.threadId)) :
    Facts after := by
  constructor
  · intro threadId
    obtain same | ⟨added, grown, unaudited, -⟩ := still.events threadId
    · rw [same]
      exact facts.trails threadId
    · rw [grown]
      exact (facts.trails threadId).append fun _ _ => sound_of_unaudited unaudited
  · intro threadId turnId callId id asked
    rw [still.asked] at asked
    exact (facts.asked threadId turnId callId id asked).trans_le still.nextId
  · intro turnId checkpoint operation last pending phase
    refine still.authorized.mpr ?_
    obtain old | new := running turnId checkpoint operation last pending phase
    · exact facts.running turnId checkpoint operation old pending phase
    · exact new

theorem point_of_not_drives {control : Control} (idle : control.drives = false) :
    Point before control := by
  cases control <;> trivial

/-- A log that has grown by one event. -/
theorem threadEvents_append {added : EventEnvelope} {after before : Database}
    (grown : after.events = before.events ++ [added]) : after.threadEvents threadId =
      if added.threadId = threadId then before.threadEvents threadId ++ [added]
      else before.threadEvents threadId := by
  by_cases own : added.threadId = threadId <;>
    simp [Database.threadEvents, grown, own]

end

section

variable {pool : Pool deployment} {controls : Nat → Option Control} {caller : Nat} {job : Job}
  {op : Op} {before after : Control} {choice : Choice} {answer : op.Answer} {state : World}

/-- A request that appends nothing that the audit reads. -/
theorem still_perform (silent : ∀ command, op = .command (.appendEvent command) →
      command.event.audited = false ∧ command.event.proposedCall = none)
    (performed : World.perform deployment.content deployment.codec op choice pool.state =
      some (answer, state)) : Still pool.state state := by
  refine ⟨fun threadId => ?_, World.perform_nextId performed⟩
  by_cases append : ∃ command, op = .command (.appendEvent command)
  · obtain ⟨command, rfl⟩ := append
    obtain ⟨unaudited, unproposed⟩ := silent command rfl
    obtain ⟨envelope, -, grown, -, -, -, event⟩ | ⟨_, -, same⟩ := World.perform_append performed
    · rw [threadEvents_append grown]
      by_cases own : envelope.threadId = threadId
      · rw [if_pos own]
        exact .inr ⟨envelope, rfl, event ▸ unaudited, event ▸ unproposed⟩
      · exact .inl (if_neg own)
    · exact .inl (by rw [Database.threadEvents, same, Database.threadEvents])
  · have same : state.db.events = pool.state.db.events := by
      refine (World.perform_keeps performed).events ?_
      unfold World.writes
      split <;> simp_all
    exact .inl (by rw [Database.threadEvents, same, Database.threadEvents])

/-- An event that no authorization is lost by, at the end of a thread's log. -/
theorem facts_of_sound {command : AppendEvent} {envelope : EventEnvelope} {turnId : TurnId}
    (facts : Facts pool.state) (turn : command.turnId = some turnId)
    (sound : Sound (pool.state.db.threadEvents command.threadId) turnId command.event)
    (ids : ∀ id, command.event.Requires id → id.uuid < pool.state.nextId)
    (performed : World.perform deployment.content deployment.codec
      (.command (.appendEvent command)) choice pool.state = some (.ok envelope, state)) :
    Facts state ∧ state.db.threadEvents command.threadId =
      pool.state.db.threadEvents command.threadId ++ [envelope] ∧
      envelope.turnId = some turnId ∧ envelope.event = command.event := by
  obtain ⟨_, same, grown, -, thread', turn', event⟩ | ⟨_, failed, -⟩ :=
    World.perform_append performed
  · cases same
    have nextId := World.perform_nextId performed
    have checkpoints (other : TurnId) :
        state.db.lastCheckpoint other = pool.state.db.lastCheckpoint other :=
      Database.lastCheckpoint_congr
        (perform_checkpoints (fun _ same => by cases same) performed) other
    refine ⟨⟨?_, ?_, ?_⟩, ?_, turn'.trans turn, event⟩
    · intro threadId
      rw [threadEvents_append grown]
      split
      · rename_i own
        refine (facts.trails threadId).append fun other tagged => ?_
        rw [turn', turn] at tagged
        cases tagged
        rw [← own, thread', event]
        exact sound
      · exact facts.trails threadId
    · intro threadId other callId id asked
      rw [threadEvents_append grown] at asked
      split at asked
      · obtain old | ⟨-, requires, -⟩ := asked_append.mp asked
        · exact (facts.asked threadId other callId id old).trans_le nextId
        · rw [event] at requires
          exact (ids id requires).trans_le nextId
      · exact (facts.asked threadId other callId id asked).trans_le nextId
    · intro other checkpoint operation last pending phase
      rw [checkpoints] at last
      have allowed := facts.running other checkpoint operation last pending phase
      rw [threadEvents_append grown]
      split
      · exact allowed.grow _
      · exact allowed
    · rw [threadEvents_append grown, if_pos thread']
  · cases failed

theorem audited_of_completed {event : RuntimeEvent} {callId : String}
    (completed : event.completedCall = some callId) :
    event.audited = false ∧ event.proposedCall = none := by
  cases event <;> first | exact ⟨rfl, rfl⟩ | cases completed

/-- The events of a drive lose no authorization. -/
theorem sound_of_appends {session : Session} {stage stage' : Stage} {command : AppendEvent}
    (staged : Staged pool.state session.threadId session.turnId stage)
    (appends : Appends session stage command stage') :
    Sound (pool.state.db.threadEvents session.threadId) session.turnId command.event ∧
      ∀ id, command.event.Requires id → id.uuid < pool.state.nextId := by
  cases appends with
  | propose _ _ event =>
      rw [event]
      refine ⟨sound_of_unaudited rfl, fun id requires => ?_⟩
      obtain ⟨_, _, same⟩ := requires
      cases same
  | complete _ _ _ result =>
      have unaudited := (audited_of_completed result).1
      refine ⟨sound_of_unaudited unaudited, fun id requires => ?_⟩
      obtain ⟨_, _, same⟩ := requires
      rw [same] at unaudited
      cases unaudited
  | announce _ _ event =>
      obtain ⟨untouched, older, -⟩ := staged
      rw [event]
      refine ⟨sound_of_required fun callId last => ?_, fun id requires => ?_⟩
      · rw [untouched.last] at last
        cases last
        exact untouched.unallowed
      · obtain ⟨_, _, same⟩ := requires
        cases same
        exact older
  | resolve _ _ event =>
      rw [event]
      refine ⟨sound_of_resolved fun _ => ⟨⟨_, staged.asked⟩, fun callId asked => ?_⟩,
        fun id requires => by obtain ⟨_, _, same⟩ := requires; cases same⟩
      rw [staged.own callId asked]
      exact staged.unallowed
  | allow _ _ event =>
      rw [event]
      refine ⟨sound_of_authorized (logged_of_lastProposed staged.last)
        (fun _ => ⟨staged.undenied, fun id asked => absurd asked (staged.unasked id)⟩)
        (fun denies => by simp at denies),
        fun id requires => by obtain ⟨_, _, same⟩ := requires; cases same⟩
  | deny _ _ event =>
      rw [event]
      exact ⟨sound_of_authorized (logged_of_lastProposed staged.last)
        (fun allows => by simp at allows) (fun _ => staged.unallowed),
        fun id requires => by obtain ⟨_, _, same⟩ := requires; cases same⟩
  | allowApproved _ _ event =>
      obtain ⟨asked, -, cleared⟩ := staged
      rw [event]
      exact ⟨sound_of_authorized asked.proposed (fun _ => cleared rfl)
        (fun denies => by simp at denies),
        fun id requires => by obtain ⟨_, _, same⟩ := requires; cases same⟩
  | denyRefused _ _ event =>
      obtain ⟨asked, unallowed, -⟩ := staged
      rw [event]
      exact ⟨sound_of_authorized asked.proposed (fun allows => by simp at allows)
        (fun _ => unallowed),
        fun id requires => by obtain ⟨_, _, same⟩ := requires; cases same⟩
  | begin _ _ event =>
      rw [event]
      exact ⟨sound_of_started staged,
        fun id requires => by obtain ⟨_, _, same⟩ := requires; cases same⟩

/-- What a drive knows from the log that it has added an event to. -/
theorem staged_of_appends {session : Session} {stage stage' : Stage} {command : AppendEvent}
    {added : EventEnvelope} (facts : Facts pool.state)
    (staged : Staged pool.state session.threadId session.turnId stage)
    (appends : Appends session stage command stage')
    (unproposed : ∀ callId, command.event.proposedCall = some callId →
      ¬ Proposed ⟨session.turnId, callId⟩ pool.state.db)
    (grown : state.db.threadEvents session.threadId =
      pool.state.db.threadEvents session.threadId ++ [added])
    (turn : added.turnId = some session.turnId) (same : added.event = command.event) :
    Staged state session.threadId session.turnId stage' := by
  have trail := facts.trails session.threadId
  cases appends with
  | @propose call _ _ _ event =>
      rw [event] at same unproposed
      have fresh (logged : Logged session.turnId (RuntimeEvent.Proposes call.callId)
          (pool.state.db.threadEvents session.threadId)) : False := by
        obtain ⟨envelope, member, own, proposes⟩ := logged
        exact unproposed call.callId rfl
          ⟨envelope, (List.mem_filter.mp member).1, own, proposes⟩
      have unaudited : added.event.audited = false := by rw [same]; rfl
      constructor
      · rw [grown, lastProposed_append, if_pos turn, same]
        rfl
      · rw [grown]
        intro allowed
        obtain old | ⟨-, _, event⟩ := logged_append.mp allowed
        · exact fresh (trail.authorized _ _ _ old)
        · rw [event] at unaudited
          cases unaudited
      · rw [grown]
        intro denied
        obtain old | ⟨-, _, event⟩ := logged_append.mp denied
        · exact fresh (trail.authorized _ _ _ old)
        · rw [event] at unaudited
          cases unaudited
      · intro id
        rw [grown, asked_append_unaudited unaudited]
        exact fun asked => fresh asked.proposed
  | complete => trivial
  | @announce call id _ _ _ event =>
      obtain ⟨untouched, -, unasked⟩ := staged
      rw [event] at same
      have unauthorized (decision : String) :
          ¬ added.event.Authorizes call.callId decision := by
        rintro ⟨_, event⟩
        rw [same] at event
        cases event
      constructor
      · rw [grown]
        exact asked_append.mpr (.inr ⟨turn, ⟨_, _, same⟩, untouched.last⟩)
      · rw [grown]
        exact mt (logged_append_other (unauthorized _)).mp untouched.unallowed
      · rw [grown]
        exact mt (logged_append_other (unauthorized _)).mp untouched.undenied
      · intro other asked
        rw [grown] at asked
        obtain old | ⟨-, ⟨_, _, required⟩, -⟩ := asked_append.mp asked
        · exact absurd old (untouched.unasked other)
        · rw [same] at required
          cases required
          rfl
      · intro other asked
        rw [grown] at asked
        obtain old | ⟨-, -, last⟩ := asked_append.mp asked
        · exact absurd old (unasked other)
        · rw [untouched.last] at last
          cases last
          rfl
      · intro refused
        rw [grown] at refused
        obtain old | ⟨-, resolves⟩ := logged_append.mp refused
        · obtain ⟨callId, asked⟩ := trail.refused _ _ old
          exact unasked callId asked
        · rw [RuntimeEvent.Resolves, same] at resolves
          cases resolves
  | @resolve call id approved _ _ _ event =>
      rw [event] at same
      have unauthorized (decision : String) :
          ¬ added.event.Authorizes call.callId decision := by
        rintro ⟨_, event⟩
        rw [same] at event
        cases event
      have unrequired (other : ApprovalId) : ¬ added.event.Requires other := by
        rintro ⟨_, _, event⟩
        rw [same] at event
        cases event
      refine ⟨?_, ?_, fun granted => ⟨?_, fun other asked => ?_⟩⟩
      · rw [grown]
        exact asked_append.mpr (.inl staged.asked)
      · rw [grown]
        exact mt (logged_append_other (unauthorized _)).mp staged.unallowed
      · rw [grown]
        exact mt (logged_append_other (unauthorized _)).mp staged.undenied
      · rw [grown, asked_append_other (unrequired other)] at asked
        obtain rfl := staged.only other asked
        subst granted
        refine ⟨?_, fun refused => ?_⟩
        · rw [grown]
          exact logged_append.mpr (.inr ⟨turn, same⟩)
        · rw [grown] at refused
          obtain old | ⟨-, resolves⟩ := logged_append.mp refused
          · exact staged.unrefused old
          · rw [RuntimeEvent.Resolves, same] at resolves
            cases resolves
  | allow _ _ event | allowApproved _ _ event =>
      rw [event] at same
      change Allowed _ _ (state.db.threadEvents session.threadId)
      rw [grown]
      exact logged_append.mpr (.inr ⟨turn, _, same⟩)
  | deny => trivial
  | denyRefused => trivial
  | begin =>
      change Allowed _ _ (state.db.threadEvents session.threadId)
      rw [grown]
      exact Logged.grow staged _

/-- A resumed drive knows that the call it repeats was allowed. -/
theorem staged_opening {session : Session} (facts : Facts state)
    (resumes : Resumes state.db session.toDrive) :
    Staged state session.threadId session.turnId session.toDrive.opening := by
  obtain ⟨⟨threadId, turnId, origin⟩, workspaceId, tools⟩ := session
  cases origin with
  | fresh => trivial
  | resumed checkpoint events =>
      obtain ⟨last, thread⟩ := resumes
      cases pending : checkpoint.pendingOperation with
      | none =>
          rw [Drive.opening_free (by simp [pending])]
          trivial
      | some operation =>
          by_cases retry : (classifyCheckpoint checkpoint events).resumePolicy = .retryObserve
          · obtain ⟨phase, -⟩ := classifyCheckpoint_retryObserve retry
            have opening : Drive.opening ⟨threadId, turnId, .resumed checkpoint events⟩ =
                .granted (.ofOperation operation) none := by
              simp [Drive.opening, pending, retry]
            rw [opening]
            have allowed := facts.running turnId checkpoint operation last pending phase
            rw [thread] at allowed
            exact allowed
          · by_cases wait : (classifyCheckpoint checkpoint events).resumePolicy = .waitApproval
            · have opening : Drive.opening ⟨threadId, turnId, .resumed checkpoint events⟩ =
                  .authorizing (.ofOperation operation) := by
                simp [Drive.opening, pending, wait]
              rw [opening]
              exact ⟨checkpoint, operation, last, thread, pending, rfl⟩
            · rw [Drive.opening_free fun _ _ => ⟨retry, wait⟩]
              trivial

/-- What a drive may start is allowed. -/
theorem Staged.startable {world : World} {threadId : ThreadId} {turnId : TurnId} {stage : Stage}
    {call : Call} {grant : Option ApprovalId} (startable : stage.startable = some (call, grant))
    (staged : Staged world threadId turnId stage) :
    Allowed turnId call.callId (world.db.threadEvents threadId) := by
  cases stage <;> cases startable <;> exact staged

/-- Where a step that adds nothing to the audit leads. -/
theorem point_of_advance (still : Still pool.state state) (facts : Facts pool.state)
    (settled : ∀ turnId stored checkpoint operation, op = .query (.approvalForTurn turnId) →
      pool.state.db.approvalForTurn turnId = some stored →
      pool.state.db.lastCheckpoint turnId = some checkpoint →
      checkpoint.pendingOperation = some operation →
      stored.status ≠ .pending ∧ (stored.status = .approved →
        Allowed turnId operation.callId (pool.state.db.threadEvents checkpoint.threadId)))
    (advance : Advance deployment.codec before op answer after)
    (performed : World.perform deployment.content deployment.codec op choice pool.state =
      some (answer, state))
    (checkpoints : ∀ turnId,
      state.db.lastCheckpoint turnId = pool.state.db.lastCheckpoint turnId)
    (puts : ∀ checkpoint, op ≠ .command (.putCheckpoint checkpoint))
    (silent : ∀ command, op = .command (.appendEvent command) →
      command.event.audited = false ∧ command.event.proposedCall = none)
    (point : Point pool.state before) : Point state after := by
  have kept : Point state before := still.point checkpoints point
  cases advance with
  | quiet => exact kept
  | report =>
      obtain ⟨rfl, read | ⟨_, fault⟩⟩ := World.perform_query performed
      · exact (Except.ok.inj read).symm
      · cases fault
  | classify => exact ⟨kept, rfl⟩
  | enter | lease | leaseResumed | unleased | begin | situate => exact kept
  | @equip drive workspaceId _ tools =>
      have resumes : Resumes state.db (⟨drive, workspaceId, tools⟩ : Session).toDrive := kept
      exact staged_opening (still.facts facts fun turnId _ _ last _ _ =>
        .inl ((checkpoints turnId).symm.trans last)) resumes
  | checkpoint => exact absurd rfl (puts _)
  | checkpointFailed => exact absurd rfl (puts _)
  | append appends =>
      obtain ⟨unaudited, unproposed⟩ := silent _ rfl
      cases appends with
      | complete => trivial
      | propose _ _ event => rw [event] at unproposed; cases unproposed
      | announce _ _ event => rw [event] at unaudited; cases unaudited
      | resolve _ _ event => rw [event] at unaudited; cases unaudited
      | allow _ _ event => rw [event] at unaudited; cases unaudited
      | deny _ _ event => rw [event] at unaudited; cases unaudited
      | allowApproved _ _ event => rw [event] at unaudited; cases unaudited
      | denyRefused _ _ event => rw [event] at unaudited; cases unaudited
      | begin _ _ event => rw [event] at unaudited; cases unaudited
  | note => exact kept
  | @identify session call fresh =>
      obtain ⟨answered, grown⟩ : fresh = pool.state.nextId ∧
          state = { pool.state with nextId := pool.state.nextId + 1 } := by
        cases choice <;> cases performed
        exact ⟨rfl, rfl⟩
      refine ⟨kept, ?_, fun callId asked => ?_⟩
      · rw [answered, grown]
        exact Nat.lt_succ_self _
      · rw [still.asked] at asked
        have older := facts.asked _ _ _ _ asked
        rw [answered] at older
        exact absurd older (Nat.lt_irrefl _)
  | ask | file | answer | elapse | reread | settle | settleMissing | restore | wait | refuse =>
      exact kept
  | select =>
      obtain ⟨checkpoint, operation, last, -, pending, -⟩ := point
      obtain ⟨rfl, read | ⟨_, fault⟩⟩ := World.perform_query performed
      · exact (settled _ _ checkpoint operation rfl (Except.ok.inj read).symm last pending).1
      · cases fault
  | trust approved =>
      obtain ⟨checkpoint, operation, last, thread, pending, own⟩ := point
      obtain ⟨rfl, read | ⟨_, fault⟩⟩ := World.perform_query performed
      · have allowed := (settled _ _ checkpoint operation rfl (Except.ok.inj read).symm last
          pending).2 approved
        rw [thread, own] at allowed
        exact allowed
      · cases fault
  | grant pending => exact absurd pending point
  | start => trivial
  | _ => trivial

/-- A checkpoint that is newer than the others of its turn. -/
theorem facts_of_puts {session : Session} {stage stage' : Stage} {checkpoint : CheckpointRecord}
    {answer : Result Unit} (facts : Facts pool.state)
    (staged : Staged pool.state session.threadId session.turnId stage)
    (puts : Puts session stage checkpoint stage')
    (later : ∀ row ∈ pool.state.db.turnCheckpoints checkpoint.turnId,
      row.createdAt < checkpoint.createdAt)
    (performed : World.perform deployment.content deployment.codec
      (.command (.putCheckpoint checkpoint)) choice pool.state = some (answer, state)) :
    Facts state ∧ Staged state session.threadId session.turnId stage' := by
  have still : Still pool.state state := still_perform (fun _ same => by cases same) performed
  refine ⟨still.facts facts ?_, ?_⟩
  · intro turnId other operation last pending phase
    obtain inserted | ⟨same, -⟩ := perform_putCheckpoint performed
    · have grown : state.db.lastCheckpoint turnId =
          (pool.state.db.insertCheckpoint checkpoint).lastCheckpoint turnId :=
        Database.lastCheckpoint_congr inserted turnId
      rw [grown] at last
      by_cases own : checkpoint.turnId = turnId
      · subst own
        rw [Database.lastCheckpoint_insert_same later] at last
        cases last
        right
        cases puts with
        | plain between plain =>
            rw [plain.free] at pending
            cases pending
        | park marks =>
            rw [marks.phase] at phase
            cases phase
        | ready startable marks =>
            obtain ⟨turn, thread, -, descriptor, -, recorded⟩ := marks
            rw [recorded] at pending
            cases pending
            rw [turn, thread]
            exact staged.startable startable
      · rw [Database.lastCheckpoint_insert_other own] at last
        exact .inl last
    · rw [Database.lastCheckpoint_congr same] at last
      exact .inl last
  · cases puts with
    | plain => trivial
    | park =>
        obtain ⟨untouched, older, unasked⟩ := staged
        refine ⟨still.untouched untouched, older.trans_le still.nextId, fun callId => ?_⟩
        rw [still.asked]
        exact unasked callId
    | ready startable => exact still.authorized.mpr (staged.startable startable)

/-- Only a drive writes events that the audit reads, and proposals. -/
theorem appends_of_advance {command : AppendEvent} {answer : Result EventEnvelope}
    (advance : Advance deployment.codec before (.command (.appendEvent command)) answer after)
    (spoken : ¬ (command.event.audited = false ∧ command.event.proposedCall = none)) :
    ∃ session stage, before = .within session stage ∧
      command.threadId = session.threadId ∧ command.turnId = some session.turnId ∧
      ((∃ stage', Appends session stage command stage' ∧
          (after = .within session stage' ∧ (∃ envelope, answer = .ok envelope) ∨
            after = .failing session.toDrive ∧ ∃ error, answer = .error error)) ∨
        (Notes session stage command ∧ after = .within session stage)) := by
  have place {session : Session} {stage stage' : Stage}
      (appends : Appends session stage command stage') :
      command.threadId = session.threadId ∧ command.turnId = some session.turnId := by
    cases appends <;> exact ⟨by assumption, by assumption⟩
  cases advance with
  | quiet quiet =>
      change command.event.decisive = false at quiet
      refine absurd ?_ spoken
      cases same : command.event <;> first
        | exact ⟨rfl, rfl⟩
        | (rw [same] at quiet; cases quiet)
  | @append session stage _ stage' envelope appends =>
      exact ⟨session, stage, rfl, (place appends).1, (place appends).2,
        .inl ⟨stage', appends, .inl ⟨rfl, envelope, rfl⟩⟩⟩
  | @appendFailed session stage _ stage' error appends =>
      exact ⟨session, stage, rfl, (place appends).1, (place appends).2,
        .inl ⟨stage', appends, .inr ⟨rfl, error, rfl⟩⟩⟩
  | @note session stage _ _ notes =>
      refine ⟨session, stage, rfl, ?_, ?_, .inr ⟨notes, rfl⟩⟩
      · cases notes <;> assumption
      · cases notes <;> assumption

/-- A step of the only driving call. -/
theorem Holds.driven {rest : Program serviceInterface (Result Returned)}
    (holds : Holds pool controls) (held : controls caller = some before)
    (drives : before.drives = true)
    (alone : Alone (pool.record caller job op answer rest state)
      (assign controls caller (some after)))
    (facts : Facts state) (own : Point state after) :
    Holds (pool.record caller job op answer rest state)
      (assign controls caller (some after)) := by
  refine ⟨alone, facts, fun other control found => ?_⟩
  obtain ⟨-, equal⟩ | ⟨different, old⟩ := assign_eq_some found
  · cases equal
    exact own
  · exact point_of_not_drives (holds.alone.others held drives different old)

/-- An event of a drive that the audit reads. -/
theorem facts_of_spoken {command : AppendEvent} {answer : Result EventEnvelope}
    (facts : Facts pool.state) (point : Point pool.state before)
    (callIds : ∀ turnId callId, command.turnId = some turnId →
      command.event.proposedCall = some callId → ¬ Proposed ⟨turnId, callId⟩ pool.state.db)
    (spoken : ¬ (command.event.audited = false ∧ command.event.proposedCall = none))
    (advance : Advance deployment.codec before (.command (.appendEvent command)) answer after)
    (performed : World.perform deployment.content deployment.codec
      (.command (.appendEvent command)) choice pool.state = some (answer, state)) :
    before.drives = true ∧ Facts state ∧ Point state after := by
  have lost (same : state.db.events = pool.state.db.events) : Still pool.state state :=
    ⟨fun threadId => .inl (by rw [Database.threadEvents, same, Database.threadEvents]),
      World.perform_nextId performed⟩
  have checkpoints (turnId : TurnId) :
      state.db.lastCheckpoint turnId = pool.state.db.lastCheckpoint turnId :=
    Database.lastCheckpoint_congr (perform_checkpoints (fun _ same => by cases same) performed)
      turnId
  have kept (still : Still pool.state state) : Facts state :=
    still.facts facts fun turnId _ _ last _ _ => .inl ((checkpoints turnId).symm.trans last)
  obtain ⟨session, stage, rfl, thread, turn, written⟩ := appends_of_advance advance spoken
  refine ⟨rfl, ?_⟩
  obtain ⟨stage', appends, ⟨rfl, envelope, rfl⟩ | ⟨rfl, error, rfl⟩⟩ | ⟨notes, rfl⟩ := written
  · obtain ⟨sound, ids⟩ := sound_of_appends point appends
    rw [← thread] at sound
    obtain ⟨facts', grown, tagged, same⟩ := facts_of_sound facts turn sound ids performed
    rw [thread] at grown
    exact ⟨facts', staged_of_appends facts point appends
      (fun callId => callIds session.turnId callId turn) grown tagged same⟩
  · obtain ⟨_, ok, -⟩ | ⟨_, -, same⟩ := World.perform_append performed
    · cases ok
    · exact ⟨kept (lost same), trivial⟩
  · cases notes with
    | selected pending => exact absurd pending point
    | @granted call id _ _ _ event =>
        obtain ⟨envelope, rfl, -⟩ | ⟨_, -, same⟩ := World.perform_append performed
        · have sound : Sound (pool.state.db.threadEvents command.threadId) session.turnId
              command.event := by
            rw [event]
            exact sound_of_resolved fun refused => by cases refused
          have ids (other : ApprovalId) (requires : command.event.Requires other) :
              other.uuid < pool.state.nextId := by
            obtain ⟨_, _, same⟩ := requires
            rw [event] at same
            cases same
          obtain ⟨facts', grown, -⟩ := facts_of_sound facts turn sound ids performed
          rw [thread] at grown
          refine ⟨facts', ?_⟩
          change Allowed _ _ (state.db.threadEvents session.threadId)
          rw [grown]
          exact Logged.grow point _
        · have still := lost same
          exact ⟨kept still, still.point checkpoints point⟩

theorem Holds.perform {pool : Pool deployment} {controls : Nat → Option Control} {caller : Nat}
    {job : Job} {op : Op} {next : op.Answer → Program serviceInterface (Result Returned)}
    {before after : Control} {choice : Choice} {answer : op.Answer} {state : World}
    (holds : Holds pool controls) (admitted : Guarded pool (.perform caller choice))
    (found : pool.calls caller = some (job, .request op next))
    (held : controls caller = some before)
    (advance : Advance deployment.codec before op answer after)
    (performed : World.perform deployment.content deployment.codec op choice pool.state =
      some (answer, state)) :
    Holds (pool.record caller job op answer (next answer) state)
      (assign controls caller (some after)) := by
  have awaited : pool.awaits caller = some op := by
    simp only [Pool.awaits, found]
    rfl
  have alone : Alone (pool.record caller job op answer (next answer) state)
      (assign controls caller (some after)) := holds.alone.perform found held advance
  have point := holds.points caller before held
  by_cases puts : ∃ checkpoint, op = .command (.putCheckpoint checkpoint)
  · obtain ⟨checkpoint, rfl⟩ := puts
    have later := admitted.timestamps checkpoint awaited
    cases advance with
    | quiet quiet => exact quiet.elim
    | checkpoint puts =>
        obtain ⟨facts, own⟩ := facts_of_puts holds.facts point puts later performed
        exact holds.driven held rfl alone facts own
    | checkpointFailed puts =>
        obtain ⟨facts, -⟩ := facts_of_puts holds.facts point puts later performed
        exact holds.driven held rfl alone facts trivial
  by_cases spoken : ∃ command, op = .command (.appendEvent command) ∧
      ¬ (command.event.audited = false ∧ command.event.proposedCall = none)
  · obtain ⟨command, rfl, spoken⟩ := spoken
    have callIds (turnId : TurnId) (callId : String) :=
      admitted.callIds caller choice command turnId callId rfl awaited
    obtain ⟨drives, facts, own⟩ :=
      facts_of_spoken holds.facts point callIds spoken advance performed
    exact holds.driven held drives alone facts own
  have silent (command : AppendEvent) (same : op = .command (.appendEvent command)) :
      command.event.audited = false ∧ command.event.proposedCall = none :=
    Decidable.byContradiction fun speaks => spoken ⟨command, same, speaks⟩
  have unput (checkpoint : CheckpointRecord) : op ≠ .command (.putCheckpoint checkpoint) :=
    fun same => puts ⟨checkpoint, same⟩
  have still : Still pool.state state := still_perform silent performed
  have checkpoints (turnId : TurnId) :
      state.db.lastCheckpoint turnId = pool.state.db.lastCheckpoint turnId :=
    Database.lastCheckpoint_congr (perform_checkpoints unput performed) turnId
  have settled (turnId : TurnId) (stored : DurableApproval) (checkpoint : CheckpointRecord)
      (operation : PendingOperation) (reads : op = .query (.approvalForTurn turnId)) :=
    admitted.settled turnId stored checkpoint operation (reads ▸ awaited)
  refine ⟨alone, still.facts holds.facts fun turnId _ _ last _ _ =>
    .inl ((checkpoints turnId).symm.trans last), fun other control held' => ?_⟩
  obtain ⟨-, equal⟩ | ⟨-, old⟩ := assign_eq_some held'
  · cases equal
    exact point_of_advance still holds.facts settled advance performed checkpoints unput silent
      point
  · exact still.point checkpoints (holds.points other control old)

theorem Holds.spawn
    {post : (system deployment).Job → (system deployment).Result → Control → Prop} (job : Job)
    (tracks : Tracks (protocol deployment.codec) post pool controls)
    (admitted : Guarded pool (.spawn job)) (holds : Holds pool controls) :
    Holds (Pool.spawn pool job) (assign controls pool.spawned (some (begins job))) := by
  refine ⟨holds.alone.spawn tracks job admitted.sequential, holds.facts, ?_⟩
  intro caller control found
  obtain ⟨-, equal⟩ | ⟨-, old⟩ := assign_eq_some found
  · cases equal
    cases job <;> trivial
  · exact holds.points caller control old

theorem Holds.finish (holds : Holds pool controls) :
    Holds pool (assign controls caller none) := by
  refine ⟨holds.alone.finish, holds.facts, fun other control found => ?_⟩
  obtain ⟨-, equal⟩ | ⟨-, old⟩ := assign_eq_some found
  · cases equal
  · exact holds.points other control old

theorem Holds.crash (startup : Catalog) (holds : Holds pool controls) :
    Holds (Pool.crash pool startup) fun _ => none := by
  have facts := holds.facts
  exact ⟨Alone.none _, ⟨facts.trails, facts.asked, facts.running⟩, fun _ _ found => by cases found⟩

/-- The invariant of the guarded pool. -/
theorem invariant : Invariant (system deployment) (protocol deployment.codec) begins ends
    Guarded Holds where
  spawn job tracks admitted holds := holds.spawn job tracks admitted
  perform := by
    intro pool controls caller job op next before after choice answer state _ admitted found
      held advance performed holds
    exact @Holds.perform deployment pool controls caller job op next before after choice
      answer state holds admitted found held advance performed
  finish _ _ _ holds := holds.finish
  crash startup _ _ holds := holds.crash startup

theorem holds_of_boots {pool : Pool deployment} (boots : Boots pool) :
    (∀ caller, pool.calls caller = none) ∧ Holds pool fun _ => none := by
  obtain ⟨world, checkpoints, untagged, rfl⟩ := boots
  have trails (threadId : ThreadId) : Trail (world.db.threadEvents threadId) :=
    trail_of_untagged fun envelope member => untagged envelope (List.mem_filter.mp member).1
  refine ⟨fun _ => rfl, Alone.none _, ⟨trails, ?_, ?_⟩, fun _ _ found => by cases found⟩
  · intro threadId turnId callId id asked
    obtain ⟨envelope, member, turn, -⟩ := asked.proposed
    rw [untagged envelope (List.mem_filter.mp member).1] at turn
    cases turn
  · intro turnId checkpoint operation last
    have member := Database.lastCheckpoint_mem last
    simp [Pool.boot, Database.turnCheckpoints, checkpoints] at member

end

end AuthorizationTrace

open AuthorizationTrace in
/-- Every start of a tool in the log of a thread is authorized there. -/
theorem authorizedStarts_of_settled (deployment : Deployment) (pool : Pool deployment)
    (reached : Pool.Reachable Guarded Boots pool) (threadId : ThreadId) :
    AuthorizedStarts (pool.state.db.threadEvents threadId) := by
  obtain ⟨controls, tracks, holds⟩ :=
    Invariant.reachable invariant (fun _ => holds_of_boots) (conforms deployment) reached
  exact (holds.facts.trails threadId).authorizedStarts

namespace AuthorizationTrace

open Demo

/-- The user approves a command, and its process dies a number of steps later. -/
def approval (count : Nat) : List Demo.Step :=
  run ++ settle 0 24 ++ model 0 [call "c" "exec"] ++ settle 0 12 ++
    spawn (.resolveApproval ⟨12⟩ true) ++ settle 1 4 ++ settle 0 count ++ crash

/-- The turn is recovered, and resumed until the command is started. -/
def resumption : List Demo.Step := spawn .recover ++ settle 2 9 ++ resume ++ settle 3 18

theorem boots_demo : Boots Demo.pool := by
  refine ⟨Demo.world, rfl, fun envelope member => ?_, rfl⟩
  obtain rfl := List.mem_singleton.mp member
  rfl

end AuthorizationTrace

open AuthorizationTrace

theorem authorizedStarts_of_settled_approval :
    ∃ pool : Pool Demo.deployment, Pool.Reachable Guarded Boots pool ∧
      Logged Demo.turn (RuntimeEvent.Starts "c") (pool.state.db.threadEvents Demo.thread) ∧
      AuthorizedStarts (pool.state.db.threadEvents Demo.thread) := by
  have ran : (Pool.runChecked guarded (Demo.labels 0 (approval 5 ++ resumption))
      Demo.pool).map (fun pool => decide (Logged Demo.turn (RuntimeEvent.Starts "c")
        (pool.state.db.threadEvents Demo.thread))) = some true := by
    decide +kernel
  obtain ⟨pool, final, started⟩ := Option.map_eq_some_iff.mp ran
  have reached : Pool.Reachable Guarded Boots pool :=
    .of_runChecked guarded_sound (.start boots_demo) final
  exact ⟨pool, reached, of_decide_eq_true started,
    authorizedStarts_of_settled Demo.deployment pool reached Demo.thread⟩

/-- A command that was approved before its process died is started without a
`ToolAuthorized` event. -/
theorem not_authorizedStarts_of_resumed_approval :
    ¬ ∀ (deployment : Deployment) (pool : Pool deployment), Pool.Reachable Rounds Boots pool →
      ∀ threadId, AuthorizedStarts (pool.state.db.threadEvents threadId) := by
  intro claimed
  have ran : (Pool.runChecked rounds (Demo.labels 0 (approval 0 ++ resumption))
      Demo.pool).map (fun pool => (decide (Logged Demo.turn (RuntimeEvent.Starts "c")
        (pool.state.db.threadEvents Demo.thread)), decide (Allowed Demo.turn "c"
        (pool.state.db.threadEvents Demo.thread)))) = some (true, false) := by
    decide +kernel
  obtain ⟨pool, final, logged⟩ := Option.map_eq_some_iff.mp ran
  obtain ⟨started, unallowed⟩ := Prod.mk.inj logged
  obtain ⟨envelope, member, turn, starts⟩ := of_decide_eq_true started
  obtain ⟨before, after, split⟩ := List.append_of_mem member
  have reached : Pool.Reachable Rounds Boots pool :=
    .of_runChecked rounds_sound (.start boots_demo) final
  obtain ⟨allowed, -⟩ := claimed Demo.deployment pool reached Demo.thread before envelope after
    Demo.turn "c" split turn starts
  refine absurd ?_ (of_decide_eq_false unallowed)
  rw [split]
  exact allowed.grow _

end OpsCodex.Turn
