import OpsCodex.Turn.Conformance
import OpsCodex.Turn.Sequential

/-! A tool call has at most one result in the log, over any number of crashes and
resumes, as long as no turn is resumed to wait for a call that has its result. -/

set_option autoImplicit false

namespace OpsCodex.Turn

open Effect OpsCodex.Action OpsCodex.Extensions OpsCodex.Store OpsCodex.Runtime

/-- The results of a call that the log holds. -/
def completions (site : CallSite) (db : Database) : Nat :=
  db.events.countP fun envelope =>
    decide (envelope.turnId = some site.turnId ∧ envelope.event.completedCall = some site.callId)

namespace CompletedOnce

variable {deployment : Deployment}

/-- Crashes and resumes of turns, one driving call at a time. Checkpoint timestamps
increase, each run of a turn has a turn id of its own, call ids are distinct within
their turn and sequence numbers fit their column. -/
structure Rounds (pool : Pool deployment) (label : Label (system deployment)) : Prop where
  sequential : Sequential pool label
  timestamps : Increasing pool label
  turnIds : ∀ threadId turnId input, label = .spawn (.runTurn threadId turnId input) →
    pool.state.db.getTurn turnId = none
  callIds : ∀ caller choice command turnId callId, label = .perform caller choice →
    pool.awaits caller = some (.command (.appendEvent command)) →
    command.turnId = some turnId → command.event.proposedCall = some callId →
    ¬ Proposed ⟨turnId, callId⟩ pool.state.db
  room : ∀ caller choice command, label = .perform caller choice →
    pool.awaits caller = some (.command (.appendEvent command)) →
    pool.state.db.lastSeq command.threadId + 1 < 2 ^ 63

/-- A turn whose last checkpoint waits for an approval is only resumed while the
waiting call has no result. -/
def Unfinished (pool : Pool deployment) : Label (system deployment) → Prop
  | .perform caller _ => ∀ resumed key turnId checkpoint operation,
      pool.running caller = some (.resumeTurn resumed key) →
      pool.awaits caller = some (.query (.lastCheckpoint turnId)) →
      pool.state.db.lastCheckpoint turnId = some checkpoint →
      checkpoint.phase = .waitingApproval → checkpoint.pendingOperation = some operation →
      completions ⟨turnId, operation.callId⟩ pool.state.db = 0
  | _ => True

structure Guarded (pool : Pool deployment) (label : Label (system deployment)) : Prop
    extends Rounds pool label where
  unfinished : Unfinished pool label

/-- The conditions on a round, as a check. -/
def rounds (pool : Pool deployment) (label : Label (system deployment)) : Bool :=
  sequential pool label && increasing pool label &&
    match label with
    | .spawn (.runTurn _ turnId _) => (pool.state.db.getTurn turnId).isNone
    | .perform caller _ =>
        match pool.awaits caller with
        | some (.command (.appendEvent command)) =>
            decide (pool.state.db.lastSeq command.threadId + 1 < 2 ^ 63) &&
            pool.state.db.events.all fun envelope =>
              decide (command.turnId.isSome ∧ command.event.proposedCall.isSome →
                ¬ (envelope.turnId = command.turnId ∧
                  envelope.event.proposedCall = command.event.proposedCall))
        | _ => true
    | _ => true

theorem rounds_sound (pool : Pool deployment) (label : Label (system deployment))
    (checked : rounds pool label = true) : Rounds pool label := by
  simp only [rounds, Bool.and_eq_true] at checked
  obtain ⟨⟨ordered, later⟩, labelled⟩ := checked
  refine ⟨sequential_sound pool label ordered, increasing_sound pool label later, ?_, ?_, ?_⟩
  · intro threadId turnId input same
    subst same
    simpa using labelled
  · intro caller choice command turnId callId same awaited turn call proposed
    subst same
    obtain ⟨envelope, member, own⟩ := proposed
    simp only [awaited, Bool.and_eq_true, List.all_eq_true, decide_eq_true_eq, turn,
      call] at labelled
    exact labelled.2 envelope member ⟨rfl, rfl⟩ own
  · intro caller choice command same awaited
    subst same
    simp only [awaited, Bool.and_eq_true, decide_eq_true_eq] at labelled
    exact labelled.1

/-- The condition on a resume, as a check. -/
def unfinished (pool : Pool deployment) : Label (system deployment) → Bool
  | .perform caller _ =>
      match pool.running caller, pool.awaits caller with
      | some (.resumeTurn _ _), some (.query (.lastCheckpoint turnId)) =>
          (pool.state.db.lastCheckpoint turnId).all fun checkpoint =>
            decide (checkpoint.phase = .waitingApproval) →
              checkpoint.pendingOperation.all fun operation =>
                decide (completions ⟨turnId, operation.callId⟩ pool.state.db = 0)
      | _, _ => true
  | _ => true

theorem unfinished_sound (pool : Pool deployment) (label : Label (system deployment))
    (checked : unfinished pool label = true) : Unfinished pool label := by
  cases label with
  | perform caller choice =>
      intro resumed key turnId checkpoint operation running awaited last phase pending
      simpa [unfinished, running, awaited, last, phase, pending] using checked
  | spawn job => trivial
  | crash startup => trivial

def guarded (pool : Pool deployment) (label : Label (system deployment)) : Bool :=
  rounds pool label && unfinished pool label

theorem guarded_sound (pool : Pool deployment) (label : Label (system deployment))
    (checked : guarded pool label = true) : Guarded pool label := by
  obtain ⟨inOrder, open'⟩ := Bool.and_eq_true_iff.mp checked
  exact ⟨rounds_sound pool label inOrder, unfinished_sound pool label open'⟩

/-- A runtime that has just started, over a store in which no turn has run. -/
def Boots (pool : Pool deployment) : Prop :=
  ∃ world : World, world.db.turns = [] ∧ world.db.checkpoints = [] ∧
    (∀ envelope ∈ world.db.events, envelope.turnId = none ∧ 0 < envelope.seq ∧
      envelope.seq < 2 ^ 63) ∧ pool = Pool.boot world

/-- The call that a stage has proposed and not completed. -/
def openCall : Stage → Option Call
  | .driving | .answered => none
  | .proposed call | .named call _ | .asking call _ | .asked call _ | .parked call _
  | .announced call _ | .decided call _ _ | .settling call _ _ _ | .resolved call _ _
  | .allowed call _ | .denied call | .authorizing call | .selected call _ | .granted call _
  | .readied call _ | .begun call _ | .running call => some call

theorem openCall_of_startable {stage : Stage} {call : Call} {grant : Option ApprovalId}
    (startable : stage.startable = some (call, grant)) : openCall stage = some call := by
  cases stage <;> cases startable <;> rfl

theorem openCall_of_completable {stage : Stage} {call : Call}
    (completable : stage.completable = some call) : openCall stage = some call := by
  cases stage <;> cases completable <;> rfl

/-- The open call of a stage is in the log without a result. -/
def Open (db : Database) (turnId : TurnId) (stage : Stage) : Prop :=
  ∀ call, openCall stage = some call →
    Proposed ⟨turnId, call.callId⟩ db ∧ completions ⟨turnId, call.callId⟩ db = 0

/-- A drive that has not written the record of its turn yet. -/
def Ready (db : Database) (drive : Drive) : Prop :=
  match drive.origin with
  | .fresh => db.getTurn drive.turnId = none
  | .resumed _ _ => db.Owns drive.turnId drive.threadId ∧ Open db drive.turnId drive.opening

def Point (db : Database) : Control → Prop
  | .tracing turnId threadId => db.Owns turnId threadId
  | .reporting turnId threadId checkpoint =>
      db.Owns turnId threadId ∧ db.lastCheckpoint turnId = some checkpoint ∧
        (checkpoint.phase = .waitingApproval → ∀ operation,
          checkpoint.pendingOperation = some operation →
          completions ⟨turnId, operation.callId⟩ db = 0)
  | .waiting drive | .guarded drive => Ready db drive
  | .leased drive => drive.origin = .fresh ∧ db.getTurn drive.turnId = none
  | .entered drive | .situated drive _ =>
      db.Owns drive.turnId drive.threadId ∧ Open db drive.turnId drive.opening
  | .within session stage =>
      db.Owns session.turnId session.threadId ∧ Open db session.turnId stage
  | _ => True

/-- What holds of the store, whoever is running. -/
structure Facts (db : Database) : Prop where
  once : ∀ site, completions site db ≤ 1
  proposed : ∀ site, completions site db ≠ 0 → Proposed site db
  numbered : ∀ envelope ∈ db.events, 0 < envelope.seq ∧ envelope.seq < 2 ^ 63
  owned : ∀ envelope ∈ db.events, ∀ turnId, envelope.turnId = some turnId →
    envelope.event.completedCall ≠ none → db.Owns turnId envelope.threadId
  recorded : ∀ turnId checkpoint, db.lastCheckpoint turnId = some checkpoint →
    db.Owns turnId checkpoint.threadId ∧ ∀ operation,
      checkpoint.pendingOperation = some operation → Proposed ⟨turnId, operation.callId⟩ db

structure Holds (pool : Pool deployment) (controls : Nat → Option Control) : Prop where
  alone : Alone pool controls
  facts : Facts pool.state.db
  points : ∀ caller control, controls caller = some control → Point pool.state.db control

/-- A step that writes no result, no checkpoint and no record of a turn. -/
structure Still (before after : Database) : Prop where
  completions : ∀ site, completions site after = completions site before
  proposed : ∀ site, Proposed site before → Proposed site after
  events : after.events = before.events ∨ ∃ added, after.events = before.events ++ [added] ∧
    added.event.completedCall = none ∧ 0 < added.seq ∧ added.seq < 2 ^ 63
  owns : ∀ turnId threadId, before.Owns turnId threadId → after.Owns turnId threadId

section

variable {before after : Database}

theorem Still.opens (still : Still before after) {turnId : TurnId} {stage : Stage}
    (opens : Open before turnId stage) : Open after turnId stage := by
  intro call own
  obtain ⟨proposed, uncompleted⟩ := opens call own
  exact ⟨still.proposed _ proposed, by rw [still.completions, uncompleted]⟩

/-- Facts outlive a step without a result, if its checkpoints are accounted for. -/
theorem Still.facts (still : Still before after) (facts : Facts before)
    (recorded : ∀ turnId checkpoint, after.lastCheckpoint turnId = some checkpoint →
      before.lastCheckpoint turnId = some checkpoint ∨
        (after.Owns turnId checkpoint.threadId ∧ ∀ operation,
          checkpoint.pendingOperation = some operation →
          Proposed ⟨turnId, operation.callId⟩ after)) : Facts after := by
  constructor
  · intro site
    rw [still.completions]
    exact facts.once site
  · intro site completed
    rw [still.completions] at completed
    exact still.proposed site (facts.proposed site completed)
  · intro envelope member
    obtain same | ⟨added, grown, -, positive, small⟩ := still.events
    · rw [same] at member
      exact facts.numbered envelope member
    · rw [grown, List.mem_append, List.mem_singleton] at member
      obtain old | rfl := member
      · exact facts.numbered envelope old
      · exact ⟨positive, small⟩
  · intro envelope member turnId turn completed
    have old : envelope ∈ before.events := by
      obtain same | ⟨added, grown, uncompleted, -⟩ := still.events
      · rwa [same] at member
      · rw [grown, List.mem_append, List.mem_singleton] at member
        obtain old | rfl := member
        · exact old
        · exact absurd uncompleted completed
    exact still.owns _ _ (facts.owned envelope old turnId turn completed)
  · intro turnId checkpoint last
    obtain old | new := recorded turnId checkpoint last
    · obtain ⟨owns, pending⟩ := facts.recorded turnId checkpoint old
      exact ⟨still.owns _ _ owns, fun operation same =>
        still.proposed _ (pending operation same)⟩
    · exact new

/-- What is known of a call outlives the steps of the others. -/
theorem Still.point (still : Still before after) {control : Control}
    (absent : ∀ turnId, before.getTurn turnId = none → after.getTurn turnId = none)
    (checkpoints : ∀ turnId, after.lastCheckpoint turnId = before.lastCheckpoint turnId)
    (point : Point before control) : Point after control := by
  cases control with
  | tracing => exact still.owns _ _ point
  | reporting =>
      obtain ⟨owns, last, waiting⟩ := point
      refine ⟨still.owns _ _ owns, (checkpoints _).trans last, fun phase operation pending => ?_⟩
      rw [still.completions]
      exact waiting phase operation pending
  | waiting drive | guarded drive =>
      obtain ⟨threadId, turnId, origin⟩ := drive
      cases origin with
      | fresh => exact absent _ point
      | resumed => exact ⟨still.owns _ _ point.1, still.opens point.2⟩
  | leased => exact ⟨point.1, absent _ point.2⟩
  | entered | situated => exact ⟨still.owns _ _ point.1, still.opens point.2⟩
  | within => exact ⟨still.owns _ _ point.1, still.opens point.2⟩
  | _ => trivial

theorem point_of_not_drives {db : Database} {control : Control} (idle : control.drives = false) :
    Point db control := by
  cases control <;> trivial

theorem completions_append {site : CallSite} {added : EventEnvelope}
    (grown : after.events = before.events ++ [added]) :
    completions site after = completions site before +
      if added.turnId = some site.turnId ∧ added.event.completedCall = some site.callId then 1
      else 0 := by
  simp [completions, grown, List.countP_append, List.countP_singleton]

end

section

variable {pool : Pool deployment} {controls : Nat → Option Control} {caller : Nat} {job : Job}
  {op : Op} {next : op.Answer → Program serviceInterface (Result Returned)}
  {before after : Control} {choice : Choice} {answer : op.Answer} {state : World}

theorem still_of_events
    (events : state.db.events = pool.state.db.events ∨ ∃ added,
      state.db.events = pool.state.db.events ++ [added] ∧
      added.event.completedCall = none ∧ 0 < added.seq ∧ added.seq < 2 ^ 63)
    (performed : World.perform deployment.content deployment.codec op choice pool.state =
      some (answer, state)) : Still pool.state.db state.db := by
  constructor
  · intro site
    obtain same | ⟨added, grown, silent, -⟩ := events
    · simp only [completions, same]
    · rw [completions_append grown, silent]
      simp
  · intro site proposed
    exact proposed.perform performed
  · exact events
  · intro turnId threadId owns
    exact perform_owns performed owns

/-- A request that appends no result. -/
theorem still_perform (uncompleted : ∀ command, op = .command (.appendEvent command) →
      command.event.completedCall = none ∧ pool.state.db.lastSeq command.threadId + 1 < 2 ^ 63)
    (performed : World.perform deployment.content deployment.codec op choice pool.state =
      some (answer, state)) : Still pool.state.db state.db := by
  refine still_of_events ?_ performed
  by_cases append : ∃ command, op = .command (.appendEvent command)
  · obtain ⟨command, rfl⟩ := append
    obtain ⟨silent, room⟩ := uncompleted command rfl
    obtain ⟨envelope, rfl, grown, later, thread, turn, event⟩ | ⟨error, rfl, same⟩ :=
      World.perform_append performed
    · have number := perform_append_seq performed
      exact .inr ⟨envelope, grown, event ▸ silent, by omega, by omega⟩
    · exact .inl same
  · refine .inl ((World.perform_keeps performed).events ?_)
    unfold World.writes
    split <;> simp_all

/-- A step of the only driving call. -/
theorem Holds.driven {rest : Program serviceInterface (Result Returned)}
    (holds : Holds pool controls) (held : controls caller = some before)
    (drives : before.drives = true)
    (alone : Alone (pool.record caller job op answer rest state)
      (assign controls caller (some after)))
    (facts : Facts state.db) (own : Point state.db after) :
    Holds (pool.record caller job op answer rest state)
      (assign controls caller (some after)) := by
  refine ⟨alone, facts, fun other control found => ?_⟩
  obtain ⟨-, equal⟩ | ⟨different, old⟩ := assign_eq_some found
  · cases equal
    exact own
  · exact point_of_not_drives (holds.alone.others held drives different old)

/-- The opening stage of a resumed drive repeats a call without a result. -/
theorem open_of_classify {db : Database} {turnId : TurnId} {threadId : ThreadId}
    {checkpoint : CheckpointRecord} {events : List EventEnvelope} (facts : Facts db)
    (owns : db.Owns turnId threadId) (last : db.lastCheckpoint turnId = some checkpoint)
    (waiting : checkpoint.phase = .waitingApproval → ∀ operation,
      checkpoint.pendingOperation = some operation →
      completions ⟨turnId, operation.callId⟩ db = 0)
    (loaded : db.loadEvents threadId 0 = .ok events) :
    Open db turnId (Drive.opening ⟨checkpoint.threadId, turnId, .resumed checkpoint events⟩) := by
  intro call own
  obtain ⟨-, recorded⟩ := facts.recorded turnId checkpoint last
  cases pending : checkpoint.pendingOperation with
  | none =>
      rw [Drive.opening_free (by simp [pending])] at own
      cases own
  | some operation =>
      by_cases retry : (classifyCheckpoint checkpoint events).resumePolicy = .retryObserve
      · obtain ⟨-, _, pending', -, uncompleted⟩ := classifyCheckpoint_retryObserve retry
        rw [pending] at pending'
        cases pending'
        have opening : Drive.opening ⟨checkpoint.threadId, turnId, .resumed checkpoint events⟩ =
            .granted (.ofOperation operation) none := by
          simp [Drive.opening, pending, retry]
        rw [opening] at own
        cases own
        refine ⟨recorded operation pending, ?_⟩
        rw [completions, List.countP_eq_zero]
        intro envelope member completed
        obtain ⟨turn, completes⟩ := of_decide_eq_true completed
        have thread : envelope.threadId = threadId :=
          (facts.owned envelope member turnId turn (by rw [completes]; simp)).unique owns
        obtain ⟨positive, small⟩ := facts.numbered envelope member
        refine uncompleted (mem_completedTools.mpr ⟨envelope, ?_, completes⟩)
        refine (Database.mem_of_loadEvents loaded).mpr ⟨member, thread, ?_⟩
        rw [Database.asI64_of_lt small, Database.asI64_of_lt (by decide)]
        omega
      · by_cases wait : (classifyCheckpoint checkpoint events).resumePolicy = .waitApproval
        · have opening : Drive.opening ⟨checkpoint.threadId, turnId, .resumed checkpoint events⟩ =
              .authorizing (.ofOperation operation) := by
            simp [Drive.opening, pending, wait]
          rw [opening] at own
          cases own
          exact ⟨recorded operation pending,
            waiting (classifyCheckpoint_waitApproval.mp wait) operation pending⟩
        · rw [Drive.opening_free fun _ _ => ⟨retry, wait⟩] at own
          cases own

/-- Where a step that writes no result, no checkpoint and no record of a turn leads. -/
theorem point_of_advance (still : Still pool.state.db state.db) (facts : Facts pool.state.db)
    (unfinished : ∀ turnId threadId checkpoint operation, before = .tracing turnId threadId →
      op = .query (.lastCheckpoint turnId) →
      pool.state.db.lastCheckpoint turnId = some checkpoint →
      checkpoint.phase = .waitingApproval → checkpoint.pendingOperation = some operation →
      completions ⟨turnId, operation.callId⟩ pool.state.db = 0)
    (callIds : ∀ command turnId callId, op = .command (.appendEvent command) →
      command.turnId = some turnId → command.event.proposedCall = some callId →
      ¬ Proposed ⟨turnId, callId⟩ pool.state.db)
    (advance : Advance deployment.codec before op answer after)
    (performed : World.perform deployment.content deployment.codec op choice pool.state =
      some (answer, state))
    (absent : ∀ turnId, pool.state.db.getTurn turnId = none → state.db.getTurn turnId = none)
    (checkpoints : ∀ turnId,
      state.db.lastCheckpoint turnId = pool.state.db.lastCheckpoint turnId)
    (upserts : ∀ record, op ≠ .command (.upsertTurn record))
    (puts : ∀ checkpoint, op ≠ .command (.putCheckpoint checkpoint))
    (uncompleted : ∀ command, op = .command (.appendEvent command) →
      command.event.completedCall = none)
    (point : Point pool.state.db before) : Point state.db after := by
  have kept : Point state.db before := still.point absent checkpoints point
  cases advance with
  | quiet => exact kept
  | trace =>
      obtain ⟨rfl, read | ⟨_, fault⟩⟩ := World.perform_query performed
      · exact ⟨_, (Except.ok.inj read).symm, rfl⟩
      · cases fault
  | @report turnId threadId checkpoint =>
      obtain ⟨rfl, read | ⟨_, fault⟩⟩ := World.perform_query performed
      · have last := (Except.ok.inj read).symm
        exact ⟨point, last, fun phase operation pending =>
          unfinished turnId threadId checkpoint operation rfl rfl last phase pending⟩
      · cases fault
  | @classify turnId threadId checkpoint events =>
      obtain ⟨owns, last, waiting⟩ := point
      obtain ⟨rfl, read | ⟨_, fault⟩⟩ := World.perform_query performed
      · have thread : checkpoint.threadId = threadId :=
          (facts.recorded turnId checkpoint last).1.unique owns
        refine ⟨thread ▸ owns, ?_⟩
        exact open_of_classify facts owns last waiting read.symm
      · cases fault
  | enter => exact kept
  | @lease drive _ _ _ fresh =>
      obtain ⟨threadId, turnId, origin⟩ := drive
      obtain rfl : origin = .fresh := fresh
      exact ⟨rfl, kept⟩
  | leaseResumed => exact kept
  | unleased => exact kept
  | begin => exact absurd rfl (upserts _)
  | beginFailed => exact absurd rfl (upserts _)
  | situate => exact kept
  | equip => exact kept
  | checkpoint => exact absurd rfl (puts _)
  | checkpointFailed => exact absurd rfl (puts _)
  | append appends =>
      refine ⟨kept.1, ?_⟩
      cases appends with
      | complete _ _ _ result =>
          rw [uncompleted _ rfl] at result
          cases result
      | @propose call command _ turn event =>
          intro other own
          cases own
          obtain ⟨envelope, -, grown, -, -, turn', event'⟩ | ⟨_, lost, -⟩ :=
            World.perform_append performed
          · have fresh : ¬ Proposed ⟨_, call.callId⟩ pool.state.db :=
              callIds _ _ call.callId rfl turn (by rw [event]; rfl)
            refine ⟨⟨envelope, ?_, turn'.trans turn, by rw [event', event]; rfl⟩, ?_⟩
            · rw [grown]
              exact List.mem_append_right _ (List.mem_singleton.mpr rfl)
            · rw [still.completions]
              by_contra completed
              exact fresh (facts.proposed _ completed)
          · cases lost
      | announce | resolve | allow | deny | allowApproved | denyRefused | begin => exact kept.2
  | note => exact kept
  | identify | ask | file | answer | elapse | reread | settle | settleMissing | select | trust
  | restore | wait | refuse | grant | start => exact kept
  | _ => trivial

/-- The first record of a turn, and the last one of a drive. -/
theorem point_of_upsert {record : TurnRecord} {answer : Result Unit}
    (advance : Advance deployment.codec before (.command (.upsertTurn record)) answer after)
    (performed : World.perform deployment.content deployment.codec
      (.command (.upsertTurn record)) choice pool.state = some (answer, state))
    (point : Point pool.state.db before) : Point state.db after ∧ before.drives = true := by
  cases advance with
  | quiet quiet => exact quiet.elim
  | @begin drive _ turn thread =>
      obtain ⟨threadId, turnId, origin⟩ := drive
      obtain ⟨rfl, absent⟩ := point
      refine ⟨⟨?_, fun call own => by cases own⟩, rfl⟩
      obtain turns | ⟨-, _, failed⟩ := perform_upsertTurn performed
      · rw [show turnId = record.id from turn.symm] at absent ⊢
        rw [show threadId = record.threadId from thread.symm]
        exact Database.owns_upsert_absent absent turns
      · cases failed
  | beginFailed => exact ⟨trivial, rfl⟩
  | close closable =>
      have leavable := Control.leavable_of_closable closable
      exact ⟨trivial, Control.drives_of_guards (Control.guards_of_leavable leavable)⟩
  | mark => exact ⟨trivial, rfl⟩
  | markFailed => exact ⟨trivial, rfl⟩

/-- A checkpoint that is newer than the others of its turn. -/
theorem facts_of_puts {session : Session} {stage stage' : Stage} {checkpoint : CheckpointRecord}
    {answer : Result Unit} (facts : Facts pool.state.db)
    (point : Point pool.state.db (.within session stage))
    (puts : Puts session stage checkpoint stage')
    (later : ∀ row ∈ pool.state.db.turnCheckpoints checkpoint.turnId,
      row.createdAt < checkpoint.createdAt)
    (performed : World.perform deployment.content deployment.codec
      (.command (.putCheckpoint checkpoint)) choice pool.state = some (answer, state)) :
    Facts state.db ∧ Point state.db (.within session stage') := by
  have still : Still pool.state.db state.db := still_perform (fun _ same => by cases same) performed
  have owns := still.owns _ _ point.1
  have opens : Open state.db session.turnId stage := still.opens point.2
  refine ⟨still.facts facts ?_, owns, ?_⟩
  · intro turnId other last
    obtain inserted | ⟨same, -⟩ := perform_putCheckpoint performed
    · have grown : state.db.lastCheckpoint turnId =
          (pool.state.db.insertCheckpoint checkpoint).lastCheckpoint turnId :=
        Database.lastCheckpoint_congr inserted turnId
      rw [grown] at last
      by_cases own : checkpoint.turnId = turnId
      · subst own
        rw [Database.lastCheckpoint_insert_same later] at last
        cases last
        right
        cases puts with
        | plain between plain =>
            rw [plain.turn, plain.thread]
            exact ⟨owns, fun operation pending => by rw [plain.free] at pending; cases pending⟩
        | park marks =>
            obtain ⟨turn, thread, -, descriptor, -, recorded⟩ := marks
            rw [turn, thread, recorded]
            exact ⟨owns, fun operation same => by cases same; exact (opens _ rfl).1⟩
        | ready startable marks =>
            obtain ⟨turn, thread, -, descriptor, -, recorded⟩ := marks
            rw [turn, thread, recorded]
            refine ⟨owns, fun operation same => ?_⟩
            cases same
            exact (opens _ (openCall_of_startable startable)).1
      · rw [Database.lastCheckpoint_insert_other own] at last
        exact .inl last
    · rw [Database.lastCheckpoint_congr same] at last
      exact .inl last
  · cases puts with
    | plain => exact fun call own => by cases own
    | park => exact opens
    | ready startable =>
        intro other own
        cases own
        exact opens _ (openCall_of_startable startable)

/-- The result of a call that has none. -/
theorem facts_of_completes {session : Session} {stage : Stage} {call : Call}
    {command : AppendEvent} {answer : Result EventEnvelope} (facts : Facts pool.state.db)
    (point : Point pool.state.db (.within session stage))
    (completable : stage.completable = some call) (thread : command.threadId = session.threadId)
    (turn : command.turnId = some session.turnId)
    (result : command.event.completedCall = some call.callId)
    (room : pool.state.db.lastSeq command.threadId + 1 < 2 ^ 63)
    (performed : World.perform deployment.content deployment.codec
      (.command (.appendEvent command)) choice pool.state = some (answer, state)) :
    Facts state.db := by
  obtain ⟨owns, opens⟩ := point
  obtain ⟨proposed, uncompleted⟩ := opens call (openCall_of_completable completable)
  have checkpoints (turnId : TurnId) :
      state.db.lastCheckpoint turnId = pool.state.db.lastCheckpoint turnId :=
    Database.lastCheckpoint_congr (perform_checkpoints (fun _ same => by cases same) performed) _
  obtain ⟨envelope, rfl, grown, later, thread', turn', event⟩ | ⟨_, -, same⟩ :=
    World.perform_append performed
  · have own (site : CallSite) : completions site state.db = completions site pool.state.db +
        if (⟨session.turnId, call.callId⟩ : CallSite) = site then 1 else 0 := by
      rw [completions_append grown, turn', turn, event, result]
      obtain ⟨turnId, callId⟩ := site
      simp
    constructor
    · intro site
      rw [own]
      by_cases same : (⟨session.turnId, call.callId⟩ : CallSite) = site
      · subst same
        rw [uncompleted]
        simp
      · rw [if_neg same]
        exact facts.once site
    · intro site completed
      by_cases same : (⟨session.turnId, call.callId⟩ : CallSite) = site
      · exact same ▸ proposed.perform performed
      · rw [own, if_neg same] at completed
        exact (facts.proposed site completed).perform performed
    · intro other member
      rw [grown, List.mem_append, List.mem_singleton] at member
      obtain old | rfl := member
      · exact facts.numbered other old
      · have number := perform_append_seq performed
        exact ⟨by omega, by omega⟩
    · intro other member turnId tagged completed
      rw [grown, List.mem_append, List.mem_singleton] at member
      obtain old | rfl := member
      · exact perform_owns performed (facts.owned other old turnId tagged completed)
      · rw [turn', turn] at tagged
        cases tagged
        rw [thread', thread]
        exact perform_owns performed owns
    · intro turnId checkpoint last
      rw [checkpoints] at last
      obtain ⟨owner, pending⟩ := facts.recorded turnId checkpoint last
      exact ⟨perform_owns performed owner, fun operation same =>
        (pending operation same).perform performed⟩
  · have still : Still pool.state.db state.db := still_of_events (.inl same) performed
    exact still.facts facts fun turnId checkpoint last =>
      .inl ((checkpoints turnId).symm.trans last)

/-- Only a drive with an open call writes a result. -/
theorem completes_of_advance {command : AppendEvent} {answer : Result EventEnvelope}
    (advance : Advance deployment.codec before (.command (.appendEvent command)) answer after)
    (completes : command.event.completedCall ≠ none) :
    ∃ session stage call, before = .within session stage ∧ stage.completable = some call ∧
      command.threadId = session.threadId ∧ command.turnId = some session.turnId ∧
      command.event.completedCall = some call.callId ∧
      (after = .within session .answered ∨ after = .failing session.toDrive) := by
  have silent (event : RuntimeEvent) (same : command.event = event)
      (nothing : event.completedCall = none) : False := completes (same ▸ nothing)
  have appended {session : Session} {stage stage' : Stage}
      (appends : Appends session stage command stage') : stage' = .answered ∧
      ∃ call, stage.completable = some call ∧ command.threadId = session.threadId ∧
        command.turnId = some session.turnId ∧
        command.event.completedCall = some call.callId := by
    cases appends with
    | complete completable thread turn result =>
        exact ⟨rfl, _, completable, thread, turn, result⟩
    | propose _ _ event => exact (silent _ event rfl).elim
    | announce _ _ event => exact (silent _ event rfl).elim
    | resolve _ _ event => exact (silent _ event rfl).elim
    | allow _ _ event => exact (silent _ event rfl).elim
    | deny _ _ event => exact (silent _ event rfl).elim
    | allowApproved _ _ event => exact (silent _ event rfl).elim
    | denyRefused _ _ event => exact (silent _ event rfl).elim
    | begin _ _ event => exact (silent _ event rfl).elim
  cases advance with
  | quiet quiet =>
      change command.event.decisive = false at quiet
      refine absurd ?_ completes
      cases same : command.event with
      | toolCompleted => rw [same] at quiet; cases quiet
      | _ => rfl
  | @append session stage _ _ _ appends =>
      obtain ⟨rfl, call, rest⟩ := appended appends
      obtain ⟨completable, thread, turn, result⟩ := rest
      exact ⟨session, stage, call, rfl, completable, thread, turn, result, .inl rfl⟩
  | @appendFailed session stage _ _ _ appends =>
      obtain ⟨-, call, completable, thread, turn, result⟩ := appended appends
      exact ⟨session, stage, call, rfl, completable, thread, turn, result, .inr rfl⟩
  | note notes =>
      cases notes with
      | selected _ _ _ event => exact (silent _ event rfl).elim
      | granted _ _ event => exact (silent _ event rfl).elim

theorem Holds.perform {pool : Pool deployment} {controls : Nat → Option Control} {caller : Nat}
    {job : Job} {op : Op} {next : op.Answer → Program serviceInterface (Result Returned)}
    {before after : Control} {choice : Choice} {answer : op.Answer} {state : World}
    (holds : Holds pool controls) (admitted : Guarded pool (.perform caller choice))
    (found : pool.calls caller = some (job, .request op next))
    (held : controls caller = some before)
    (advance : Advance deployment.codec before op answer after)
    (performed : World.perform deployment.content deployment.codec op choice pool.state =
      some (answer, state)) :
    Holds (pool.record caller job op answer (next answer) state)
      (assign controls caller (some after)) := by
  have awaited : pool.awaits caller = some op := by
    simp only [Pool.awaits, found]
    rfl
  have alone : Alone (pool.record caller job op answer (next answer) state)
      (assign controls caller (some after)) := holds.alone.perform found held advance
  have point := holds.points caller before held
  by_cases puts : ∃ checkpoint, op = .command (.putCheckpoint checkpoint)
  · obtain ⟨checkpoint, rfl⟩ := puts
    have later := admitted.timestamps checkpoint awaited
    cases advance with
    | quiet quiet => exact quiet.elim
    | checkpoint puts =>
        obtain ⟨facts, own⟩ := facts_of_puts holds.facts point puts later performed
        exact holds.driven held rfl alone facts own
    | checkpointFailed puts =>
        obtain ⟨facts, -⟩ := facts_of_puts holds.facts point puts later performed
        exact holds.driven held rfl alone facts trivial
  have unput (checkpoint : CheckpointRecord) : op ≠ .command (.putCheckpoint checkpoint) :=
    fun same => puts ⟨checkpoint, same⟩
  by_cases completes : ∃ command, op = .command (.appendEvent command) ∧
      command.event.completedCall ≠ none
  · obtain ⟨command, rfl, completes⟩ := completes
    have room := admitted.room caller choice command rfl awaited
    obtain ⟨session, stage, call, rfl, completable, thread, turn, result, next⟩ :=
      completes_of_advance advance completes
    have facts :=
      facts_of_completes holds.facts point completable thread turn result room performed
    refine holds.driven held rfl alone facts ?_
    obtain rfl | rfl := next
    · exact ⟨perform_owns performed point.1, fun call own => by cases own⟩
    · trivial
  have silent (command : AppendEvent) (same : op = .command (.appendEvent command)) :
      command.event.completedCall = none :=
    Decidable.byContradiction fun completed => completes ⟨command, same, completed⟩
  have still : Still pool.state.db state.db := still_perform
    (fun command same => ⟨silent command same,
      admitted.room caller choice command rfl (same ▸ awaited)⟩) performed
  have checkpoints (turnId : TurnId) :
      state.db.lastCheckpoint turnId = pool.state.db.lastCheckpoint turnId :=
    Database.lastCheckpoint_congr (perform_checkpoints unput performed) turnId
  have facts : Facts state.db := still.facts holds.facts fun turnId _ last =>
    .inl ((checkpoints turnId).symm.trans last)
  by_cases upserts : ∃ record, op = .command (.upsertTurn record)
  · obtain ⟨record, rfl⟩ := upserts
    obtain ⟨own, drives⟩ := point_of_upsert advance performed point
    exact holds.driven held drives alone facts own
  have unwritten (record : TurnRecord) : op ≠ .command (.upsertTurn record) :=
    fun same => upserts ⟨record, same⟩
  have absent (turnId : TurnId) (missing : pool.state.db.getTurn turnId = none) :
      state.db.getTurn turnId = none := perform_getTurn_none performed unwritten missing
  have unfinished (turnId : TurnId) (threadId : ThreadId) (checkpoint : CheckpointRecord)
      (operation : PendingOperation) (tracing : before = .tracing turnId threadId)
      (reads : op = .query (.lastCheckpoint turnId))
      (last : pool.state.db.lastCheckpoint turnId = some checkpoint)
      (phase : checkpoint.phase = .waitingApproval)
      (pending : checkpoint.pendingOperation = some operation) :
      completions ⟨turnId, operation.callId⟩ pool.state.db = 0 := by
    obtain ⟨resumed, key, program, called⟩ := holds.alone.resumes caller before held (by
      rw [tracing]; rfl)
    rw [found] at called
    cases called
    have running : pool.running caller = some (.resumeTurn resumed key) := by
      simp only [Pool.running, found]
    exact admitted.unfinished resumed key turnId checkpoint operation running (reads ▸ awaited)
      last phase pending
  have callIds (command : AppendEvent) (turnId : TurnId) (callId : String)
      (same : op = .command (.appendEvent command)) :=
    admitted.callIds caller choice command turnId callId rfl (same ▸ awaited)
  refine ⟨alone, facts, fun other control held' => ?_⟩
  obtain ⟨-, equal⟩ | ⟨-, old⟩ := assign_eq_some held'
  · cases equal
    exact point_of_advance still holds.facts unfinished callIds advance performed absent
      checkpoints unwritten unput silent point
  · exact still.point absent checkpoints (holds.points other control old)

theorem Holds.spawn
    {post : (system deployment).Job → (system deployment).Result → Control → Prop} (job : Job)
    (tracks : Tracks (protocol deployment.codec) post pool controls)
    (admitted : Guarded pool (.spawn job)) (holds : Holds pool controls) :
    Holds (Pool.spawn pool job) (assign controls pool.spawned (some (begins job))) := by
  refine ⟨holds.alone.spawn tracks job admitted.sequential, holds.facts, ?_⟩
  intro caller control found
  obtain ⟨-, equal⟩ | ⟨-, old⟩ := assign_eq_some found
  · cases equal
    cases job with
    | runTurn threadId turnId input => exact admitted.turnIds threadId turnId input rfl
    | _ => trivial
  · exact holds.points caller control old

theorem Holds.finish (holds : Holds pool controls) :
    Holds pool (assign controls caller none) := by
  refine ⟨holds.alone.finish, holds.facts, fun other control found => ?_⟩
  obtain ⟨-, equal⟩ | ⟨-, old⟩ := assign_eq_some found
  · cases equal
  · exact holds.points other control old

theorem Holds.crash (startup : Catalog) (holds : Holds pool controls) :
    Holds (Pool.crash pool startup) fun _ => none :=
  ⟨Alone.none _, holds.facts, fun _ _ found => by cases found⟩

/-- The invariant of the guarded pool. -/
theorem invariant : Invariant (system deployment) (protocol deployment.codec) begins ends
    Guarded Holds where
  spawn job tracks admitted holds := holds.spawn job tracks admitted
  perform := by
    intro pool controls caller job op next before after choice answer state _ admitted found
      held advance performed holds
    exact @Holds.perform deployment pool controls caller job op next before after choice
      answer state holds admitted found held advance performed
  finish _ _ _ holds := holds.finish
  crash startup _ _ holds := holds.crash startup

theorem holds_of_boots {pool : Pool deployment} (boots : Boots pool) :
    (∀ caller, pool.calls caller = none) ∧ Holds pool fun _ => none := by
  obtain ⟨world, turns, checkpoints, events, rfl⟩ := boots
  have none (site : CallSite) : completions site world.db = 0 := by
    rw [completions, List.countP_eq_zero]
    intro envelope member completed
    obtain ⟨untagged, -⟩ := events envelope member
    rw [untagged] at completed
    simp at completed
  refine ⟨fun _ => rfl, Alone.none _, ⟨?_, ?_, ?_, ?_, ?_⟩, fun _ _ found => by cases found⟩
  · intro site
    exact (none site).trans_le (Nat.zero_le 1)
  · intro site completed
    exact absurd (none site) completed
  · intro envelope member
    exact (events envelope member).2
  · intro envelope member turnId turn
    rw [(events envelope member).1] at turn
    cases turn
  · intro turnId checkpoint last
    have member := Database.lastCheckpoint_mem last
    simp [Pool.boot, Database.turnCheckpoints, checkpoints] at member

end

end CompletedOnce

open CompletedOnce in
/-- A tool call has at most one result in the log. -/
theorem completions_le_one (deployment : Deployment) (pool : Pool deployment)
    (reached : Pool.Reachable Guarded Boots pool) (site : CallSite) :
    completions site pool.state.db ≤ 1 := by
  obtain ⟨controls, tracks, holds⟩ :=
    Invariant.reachable invariant (fun _ => holds_of_boots) (conforms deployment) reached
  exact holds.facts.once site

namespace CompletedOnce

open Demo

/-- The user rejects a command and its call is answered, up to a number of steps. -/
def rejection (count : Nat) : List Demo.Step :=
  run ++ settle 0 24 ++ model 0 [call "c" "exec"] ++ settle 0 12 ++
    spawn (.resolveApproval ⟨12⟩ false) ++ settle 1 4 ++ settle 0 count

/-- The process dies, and the turn is recovered and resumed. -/
def resumption : List Demo.Step := crash ++ spawn .recover ++ settle 2 9 ++ resume ++ settle 3 14

theorem boots_demo : Boots Demo.pool := by
  refine ⟨Demo.world, rfl, rfl, fun envelope member => ?_, rfl⟩
  obtain rfl := List.mem_singleton.mp member
  exact ⟨rfl, by decide, by decide⟩

end CompletedOnce

open CompletedOnce

theorem completions_le_one_rejection :
    ∃ pool : Pool Demo.deployment, Pool.Reachable Guarded Boots pool ∧
      completions ⟨Demo.turn, "c"⟩ pool.state.db = 1 ∧
      completions ⟨Demo.turn, "c"⟩ pool.state.db ≤ 1 := by
  have ran : (Pool.runChecked guarded (Demo.labels 0 (rejection 7 ++ resumption))
      Demo.pool).map (fun pool => completions ⟨Demo.turn, "c"⟩ pool.state.db) = some 1 := by
    decide +kernel
  obtain ⟨pool, final, completed⟩ := Option.map_eq_some_iff.mp ran
  have reached : Pool.Reachable Guarded Boots pool :=
    .of_runChecked guarded_sound (.start boots_demo) final
  exact ⟨pool, reached, completed,
    completions_le_one Demo.deployment pool reached ⟨Demo.turn, "c"⟩⟩

/-- A rejection whose checkpoint is lost is answered again by the resumed turn. -/
theorem completions_two_of_resumed_rejection :
    ¬ ∀ (deployment : Deployment) (pool : Pool deployment),
      Pool.Reachable Rounds Boots pool → ∀ site, completions site pool.state.db ≤ 1 := by
  intro claimed
  have ran : (Pool.runChecked rounds (Demo.labels 0 (rejection 8 ++ resumption))
      Demo.pool).map (fun pool => completions ⟨Demo.turn, "c"⟩ pool.state.db) = some 2 := by
    decide +kernel
  obtain ⟨pool, final, completed⟩ := Option.map_eq_some_iff.mp ran
  have once := claimed Demo.deployment pool
    (.of_runChecked rounds_sound (.start boots_demo) final) ⟨Demo.turn, "c"⟩
  rw [completed] at once
  exact absurd once (by decide)

end OpsCodex.Turn
