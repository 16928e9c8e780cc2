import OpsCodex.Turn.Conformance
import OpsCodex.Turn.Sequential

/-! A tool that may not be run again is started at most once for a call, over any
number of crashes and resumes. -/

set_option autoImplicit false

namespace OpsCodex.Turn

open Effect OpsCodex.Action OpsCodex.Extensions OpsCodex.Store OpsCodex.Runtime

namespace StartedOnce

variable {deployment : Deployment}

/-- The tools of each workspace, in every process life. -/
abbrev Registry := WorkspaceId → Result ToolRegistry

/-- A sequential run with one tool registry, increasing checkpoint timestamps and
call ids that are distinct within their turn. -/
structure Guarded (registry : Registry) (pool : Pool deployment)
    (label : Label (system deployment)) : Prop where
  sequential : Sequential pool label
  registry : ∀ startup, label = .crash startup → Catalog.toolsFor startup = registry
  timestamps : Increasing pool label
  callIds : ∀ caller choice command turnId callId, label = .perform caller choice →
    pool.awaits caller = some (.command (.appendEvent command)) →
    command.turnId = some turnId → command.event.proposedCall = some callId →
    ¬ Proposed ⟨turnId, callId⟩ pool.state.db

/-- The guard of a step that is no crash, as a check. -/
def guarded (pool : Pool deployment) (label : Label (system deployment)) : Bool :=
  sequential pool label && increasing pool label &&
    match label with
    | .crash _ => false
    | .spawn _ => true
    | .perform caller _ =>
        match pool.awaits caller with
        | some (.command (.appendEvent command)) =>
            pool.state.db.events.all fun envelope =>
              decide (command.turnId.isSome ∧ command.event.proposedCall.isSome →
                ¬ (envelope.turnId = command.turnId ∧
                  envelope.event.proposedCall = command.event.proposedCall))
        | _ => true

theorem guarded_sound (registry : Registry) (pool : Pool deployment)
    (label : Label (system deployment)) (checked : guarded pool label = true) :
    Guarded registry pool label := by
  simp only [guarded, Bool.and_eq_true] at checked
  obtain ⟨⟨ordered, later⟩, labelled⟩ := checked
  refine ⟨sequential_sound pool label ordered, ?_, increasing_sound pool label later, ?_⟩
  · rintro startup rfl
    cases labelled
  · rintro caller choice command turnId callId rfl awaited turn call ⟨envelope, member, own⟩
    simp only [awaited, List.all_eq_true, decide_eq_true_eq, turn, call] at labelled
    exact labelled envelope member ⟨rfl, rfl⟩ own

/-- A runtime that has just started, over a store without checkpoints. -/
def Boots (registry : Registry) (pool : Pool deployment) : Prop :=
  ∃ world : World, world.process.catalog.toolsFor = registry ∧ world.db.checkpoints = [] ∧
    pool = Pool.boot world

/-- The workspace of a thread. -/
def Located (db : Database) (threadId : ThreadId) (workspaceId : WorkspaceId) : Prop :=
  ∃ thread, db.getThread threadId = .ok thread ∧ thread.workspaceId = workspaceId

/-- A recorded operation repeats what the registry says of its tool. -/
def Registered (registry : Registry) (db : Database) (threadId : ThreadId)
    (operation : PendingOperation) : Prop :=
  ∃ workspaceId tools descriptor, Located db threadId workspaceId ∧
    registry workspaceId = .ok tools ∧ tools.descriptor operation.tool = .ok descriptor ∧
    operation.effect = descriptor.effect.asStr ∧
    operation.recovery = descriptor.recovery.map RecoveryMode.asStr

theorem Registered.descriptor {registry : Registry} {db : Database} {threadId : ThreadId}
    {operation : PendingOperation} {workspaceId : WorkspaceId} {tools : ToolRegistry}
    {descriptor : CapabilityDescriptor} (registered : Registered registry db threadId operation)
    (located : Located db threadId workspaceId) (equipped : registry workspaceId = .ok tools)
    (found : tools.descriptor operation.tool = .ok descriptor) :
    operation.effect = descriptor.effect.asStr ∧
      operation.recovery = descriptor.recovery.map RecoveryMode.asStr := by
  obtain ⟨_, _, _, ⟨thread, read, rfl⟩, equipped', found', recorded⟩ := registered
  obtain ⟨thread', read', rfl⟩ := located
  rw [read] at read'
  cases read'
  rw [equipped] at equipped'
  cases equipped'
  rw [found] at found'
  cases found'
  exact recorded

/-- What the last checkpoint of a turn says of the starts of its call. -/
structure Recorded (registry : Registry) (pool : Pool deployment) (checkpoint : CheckpointRecord)
    (operation : PendingOperation) : Prop where
  proposed : Proposed ⟨checkpoint.turnId, operation.callId⟩ pool.state.db
  registered : Registered registry pool.state.db checkpoint.threadId operation
  waiting : checkpoint.phase = .waitingApproval →
    starts ⟨checkpoint.turnId, operation.callId⟩ pool.trace = 0
  running : checkpoint.phase = .toolRunning → operationRetryable operation = true →
    ¬ Changed ⟨checkpoint.turnId, operation.callId⟩ pool.trace

/-- A call that has not been started, or only with a tool that may be run again. -/
def Repeatable (pool : Pool deployment) (session : Session) (call : Call) : Prop :=
  starts ⟨session.turnId, call.callId⟩ pool.trace = 0 ∨
    (¬ Changed ⟨session.turnId, call.callId⟩ pool.trace ∧
      ∀ descriptor, session.tools.descriptor call.tool = .ok descriptor →
        toolIsRetryable descriptor.effect descriptor.recovery = true)

def Staged (pool : Pool deployment) (session : Session) : Stage → Prop
  | .proposed call | .named call _ | .asking call _ | .asked call _ | .parked call _
  | .announced call _ | .decided call _ _ | .settling call _ _ _ | .resolved call _ _
  | .allowed call _ | .denied call =>
      Proposed ⟨session.turnId, call.callId⟩ pool.state.db ∧
        starts ⟨session.turnId, call.callId⟩ pool.trace = 0
  | .authorizing call | .selected call _ | .granted call _ =>
      Proposed ⟨session.turnId, call.callId⟩ pool.state.db ∧ Repeatable pool session call
  | .readied call _ | .begun call _ =>
      Proposed ⟨session.turnId, call.callId⟩ pool.state.db ∧ Repeatable pool session call ∧
        ∃ checkpoint, pool.state.db.lastCheckpoint session.turnId = some checkpoint ∧
          Marks session call .toolRunning checkpoint
  | _ => True

/-- A resumed drive starts from the last checkpoint of its turn. -/
def Resumes (db : Database) (drive : Drive) : Prop :=
  match drive.origin with
  | .fresh => True
  | .resumed checkpoint _ =>
      db.lastCheckpoint drive.turnId = some checkpoint ∧ checkpoint.threadId = drive.threadId

def Point (registry : Registry) (pool : Pool deployment) : Control → Prop
  | .reporting turnId _ checkpoint => pool.state.db.lastCheckpoint turnId = some checkpoint
  | .waiting drive | .guarded drive | .leased drive | .entered drive =>
      Resumes pool.state.db drive
  | .situated drive workspaceId =>
      Resumes pool.state.db drive ∧ Located pool.state.db drive.threadId workspaceId
  | .within session stage =>
      Located pool.state.db session.threadId session.workspaceId ∧
        registry session.workspaceId = .ok session.tools ∧ Staged pool session stage
  | _ => True

/-- What holds of the store and the trace, whoever is running. -/
structure Facts (registry : Registry) (pool : Pool deployment) : Prop where
  catalog : pool.state.process.catalog.toolsFor = registry
  proposed : ∀ site, starts site pool.trace ≠ 0 → Proposed site pool.state.db
  once : ∀ site, Changed site pool.trace → starts site pool.trace ≤ 1
  recorded : ∀ turnId checkpoint operation,
    pool.state.db.lastCheckpoint turnId = some checkpoint →
    checkpoint.pendingOperation = some operation → Recorded registry pool checkpoint operation

structure Holds (registry : Registry) (pool : Pool deployment)
    (controls : Nat → Option Control) : Prop where
  alone : Alone pool controls
  facts : Facts registry pool
  points : ∀ caller control, controls caller = some control → Point registry pool control

/-- A step that starts nothing. -/
structure Unstarted (pool next : Pool deployment) : Prop where
  catalog : next.state.process.catalog.toolsFor = pool.state.process.catalog.toolsFor
  proposed : ∀ site, Proposed site pool.state.db → Proposed site next.state.db
  threads : ∀ threadId thread, pool.state.db.getThread threadId = .ok thread →
    next.state.db.getThread threadId = .ok thread
  starts : ∀ site, starts site next.trace = starts site pool.trace
  changed : ∀ site, Changed site next.trace → Changed site pool.trace

/-- A step that starts nothing and writes no checkpoint. -/
structure Still (pool next : Pool deployment) : Prop extends Unstarted pool next where
  checkpoints : ∀ turnId, next.state.db.lastCheckpoint turnId = pool.state.db.lastCheckpoint turnId

section

variable {registry : Registry} {pool next : Pool deployment}

theorem Unstarted.located (unstarted : Unstarted pool next) {threadId : ThreadId}
    {workspaceId : WorkspaceId} (located : Located pool.state.db threadId workspaceId) :
    Located next.state.db threadId workspaceId := by
  obtain ⟨thread, found, same⟩ := located
  exact ⟨thread, unstarted.threads threadId thread found, same⟩

theorem Unstarted.registered (unstarted : Unstarted pool next) {threadId : ThreadId}
    {operation : PendingOperation}
    (registered : Registered registry pool.state.db threadId operation) :
    Registered registry next.state.db threadId operation := by
  obtain ⟨workspaceId, tools, descriptor, located, rest⟩ := registered
  exact ⟨workspaceId, tools, descriptor, unstarted.located located, rest⟩

theorem Unstarted.repeatable (unstarted : Unstarted pool next) {session : Session} {call : Call}
    (repeatable : Repeatable pool session call) : Repeatable next session call := by
  rcases repeatable with never | ⟨unchanged, retryable⟩
  · exact .inl (by rw [unstarted.starts, never])
  · exact .inr ⟨fun changed => unchanged (unstarted.changed _ changed), retryable⟩

theorem Unstarted.recorded (unstarted : Unstarted pool next) {checkpoint : CheckpointRecord}
    {operation : PendingOperation} (recorded : Recorded registry pool checkpoint operation) :
    Recorded registry next checkpoint operation where
  proposed := unstarted.proposed _ recorded.proposed
  registered := unstarted.registered recorded.registered
  waiting phase := by rw [unstarted.starts, recorded.waiting phase]
  running phase retryable changed :=
    recorded.running phase retryable (unstarted.changed _ changed)

/-- Facts outlive a step that starts nothing, if its checkpoints are accounted for. -/
theorem Unstarted.facts (unstarted : Unstarted pool next) (facts : Facts registry pool)
    (recorded : ∀ turnId checkpoint operation,
      next.state.db.lastCheckpoint turnId = some checkpoint →
      checkpoint.pendingOperation = some operation →
      pool.state.db.lastCheckpoint turnId = some checkpoint ∨
        Recorded registry next checkpoint operation) : Facts registry next := by
  constructor
  · rw [unstarted.catalog, facts.catalog]
  · intro site started
    rw [unstarted.starts] at started
    exact unstarted.proposed site (facts.proposed site started)
  · intro site changed
    rw [unstarted.starts]
    exact facts.once site (unstarted.changed site changed)
  · intro turnId checkpoint operation last pending
    rcases recorded turnId checkpoint operation last pending with old | new
    · exact unstarted.recorded (facts.recorded turnId checkpoint operation old pending)
    · exact new

theorem Still.facts (still : Still pool next) (facts : Facts registry pool) :
    Facts registry next :=
  still.toUnstarted.facts facts fun turnId _ _ last _ =>
    .inl ((still.checkpoints turnId).symm.trans last)

theorem Still.staged (still : Still pool next) {session : Session} {stage : Stage}
    (staged : Staged pool session stage) : Staged next session stage := by
  cases stage with
  | driving | running | answered => trivial
  | proposed | named | asking | asked | parked | announced | decided | settling | resolved
  | allowed | denied =>
      exact ⟨still.proposed _ staged.1, by rw [still.starts, staged.2]⟩
  | authorizing | selected | granted =>
      exact ⟨still.proposed _ staged.1, still.repeatable staged.2⟩
  | readied | begun =>
      obtain ⟨proposed, repeatable, checkpoint, last, marks⟩ := staged
      exact ⟨still.proposed _ proposed, still.repeatable repeatable, checkpoint,
        by rw [still.checkpoints, last], marks⟩

theorem Still.resumes (still : Still pool next) {drive : Drive}
    (resumes : Resumes pool.state.db drive) : Resumes next.state.db drive := by
  unfold Resumes at resumes ⊢
  split at resumes
  · trivial
  · rwa [still.checkpoints]

theorem Still.point (still : Still pool next) {control : Control}
    (point : Point registry pool control) : Point registry next control := by
  cases control with
  | reporting => exact (still.checkpoints _).trans point
  | waiting | guarded | leased | entered => exact still.resumes point
  | situated => exact ⟨still.resumes point.1, still.located point.2⟩
  | within => exact ⟨still.located point.1, point.2.1, still.staged point.2.2⟩
  | _ => trivial

/-- Nothing is known of a call that drives no turn. -/
theorem point_of_not_drives {control : Control} (idle : control.drives = false) :
    Point registry pool control := by
  cases control <;> trivial

end

section

variable {registry : Registry} {pool : Pool deployment} {controls : Nat → Option Control}
  {caller : Nat} {job : Job} {op : Op}
  {next : op.Answer → Program serviceInterface (Result Returned)} {before after : Control}
  {choice : Choice} {answer : op.Answer} {state : World}

theorem unstarted_record {rest : Program serviceInterface (Result Returned)}
    (starts : startedCall op = none)
    (performed : World.perform deployment.content deployment.codec op choice pool.state =
      some (answer, state)) :
    Unstarted pool (pool.record caller job op answer rest state) where
  catalog := congrArg Catalog.toolsFor (perform_catalog performed)
  proposed _ proposed := proposed.perform performed
  threads _ _ found := perform_getThread performed found
  starts site := by simp [Pool.record, starts_cons, starts]
  changed site changed := by simpa [Pool.record, changed_cons, starts] using changed

theorem still_record {rest : Program serviceInterface (Result Returned)}
    (starts : startedCall op = none)
    (puts : ∀ checkpoint, op ≠ .command (.putCheckpoint checkpoint))
    (performed : World.perform deployment.content deployment.codec op choice pool.state =
      some (answer, state)) :
    Still pool (pool.record caller job op answer rest state) where
  toUnstarted := unstarted_record starts performed
  checkpoints := Database.lastCheckpoint_congr (perform_checkpoints puts performed)

/-- A step that starts nothing and writes no checkpoint, to a point that is known. -/
theorem Holds.still (holds : Holds registry pool controls)
    (found : pool.calls caller = some (job, .request op next))
    (held : controls caller = some before)
    (advance : Advance deployment.codec before op answer after)
    (performed : World.perform deployment.content deployment.codec op choice pool.state =
      some (answer, state))
    (starts : startedCall op = none)
    (puts : ∀ checkpoint, op ≠ .command (.putCheckpoint checkpoint))
    (own : Still pool (pool.record caller job op answer (next answer) state) →
      Point registry pool before →
      Point registry (pool.record caller job op answer (next answer) state) after) :
    Holds registry (pool.record caller job op answer (next answer) state)
      (assign controls caller (some after)) := by
  have still : Still pool (pool.record caller job op answer (next answer) state) :=
    still_record starts puts performed
  refine ⟨holds.alone.perform found held advance, still.facts holds.facts, ?_⟩
  intro other control held'
  rcases assign_eq_some held' with ⟨rfl, equal⟩ | ⟨_, old⟩
  · cases equal
    exact own still (holds.points other before held)
  · exact still.point (holds.points other control old)

/-- The operation of a checkpoint in a phase of a call. -/
theorem Marks.recorded {session : Session} {call : Call} {phase : CheckpointPhase}
    {checkpoint : CheckpointRecord} {operation : PendingOperation} {grown : Pool deployment}
    (marks : Marks session call phase checkpoint)
    (pending : checkpoint.pendingOperation = some operation)
    (located : Located grown.state.db session.threadId session.workspaceId)
    (equipped : registry session.workspaceId = .ok session.tools)
    (proposed : Proposed ⟨session.turnId, call.callId⟩ grown.state.db)
    (waiting : phase = .waitingApproval → starts ⟨session.turnId, call.callId⟩ grown.trace = 0)
    (running : phase = .toolRunning → (∀ descriptor,
        session.tools.descriptor call.tool = .ok descriptor →
        toolIsRetryable descriptor.effect descriptor.recovery = true) →
      ¬ Changed ⟨session.turnId, call.callId⟩ grown.trace) :
    Recorded registry grown checkpoint operation := by
  obtain ⟨turn, thread, rfl, descriptor, described, recorded⟩ := marks
  rw [recorded] at pending
  cases pending
  rw [← turn] at proposed waiting running
  refine ⟨proposed, ?_, waiting, ?_⟩
  · rw [thread]
    exact ⟨session.workspaceId, session.tools, descriptor, located, equipped, described, rfl, rfl⟩
  · intro phase retryable
    refine running phase ?_
    intro other found
    have same : toolIsRetryable descriptor.effect descriptor.recovery = true := by
      rwa [operationRetryable_recorded descriptor _ rfl rfl] at retryable
    rw [described] at found
    cases found
    exact same

theorem Repeatable.unchanged {session : Session} {call : Call}
    (repeatable : Repeatable pool session call) :
    ¬ Changed ⟨session.turnId, call.callId⟩ pool.trace := by
  rcases repeatable with never | ⟨unchanged, -⟩
  · exact not_changed_of_starts never
  · exact unchanged

/-- What a stage that may start a call knows of it. -/
theorem Staged.startable {session : Session} {stage : Stage} {call : Call}
    {grant : Option ApprovalId} (startable : stage.startable = some (call, grant))
    (staged : Staged pool session stage) :
    Proposed ⟨session.turnId, call.callId⟩ pool.state.db ∧ Repeatable pool session call := by
  cases stage <;> cases startable
  · exact ⟨staged.1, .inl staged.2⟩
  · exact staged

/-- A checkpoint that is newer than the others of its turn. -/
theorem Holds.put {session : Session} {stage stage' : Stage} {checkpoint : CheckpointRecord}
    {answer : Result Unit} {rest : Program serviceInterface (Result Returned)}
    (holds : Holds registry pool controls)
    (held : controls caller = some (.within session stage))
    (puts : Puts session stage checkpoint stage')
    (later : ∀ row ∈ pool.state.db.turnCheckpoints checkpoint.turnId,
      row.createdAt < checkpoint.createdAt)
    (performed : World.perform deployment.content deployment.codec
      (.command (.putCheckpoint checkpoint)) choice pool.state = some (answer, state)) :
    Facts registry (pool.record caller job (.command (.putCheckpoint checkpoint)) answer rest
      state) ∧ (answer = .ok () → Point registry (pool.record caller job
        (.command (.putCheckpoint checkpoint)) answer rest state) (.within session stage')) := by
  obtain ⟨located, equipped, staged⟩ := holds.points caller _ held
  have unstarted : Unstarted pool (pool.record caller job
      (.command (.putCheckpoint checkpoint)) answer rest state) :=
    unstarted_record rfl performed
  have located' := unstarted.located located
  rcases perform_putCheckpoint performed with inserted | ⟨same, error, rfl⟩
  · have last (turnId : TurnId) : state.db.lastCheckpoint turnId =
        if checkpoint.turnId = turnId then some checkpoint
        else pool.state.db.lastCheckpoint turnId := by
      have same : state.db.lastCheckpoint turnId =
          (pool.state.db.insertCheckpoint checkpoint).lastCheckpoint turnId :=
        Database.lastCheckpoint_congr inserted turnId
      rw [same]
      split
      · rename_i own
        subst own
        exact Database.lastCheckpoint_insert_same later
      · rename_i other
        exact Database.lastCheckpoint_insert_other other
    refine ⟨unstarted.facts holds.facts ?_, fun _ => ⟨located', equipped, ?_⟩⟩
    · intro turnId other operation found pending
      change state.db.lastCheckpoint turnId = some other at found
      rw [last] at found
      split at found
      · cases found
        right
        cases puts with
        | plain between plain =>
            rw [plain.free] at pending
            cases pending
        | park marks =>
            exact Marks.recorded marks pending located' equipped
              (unstarted.proposed _ staged.1) (fun _ => by rw [unstarted.starts, staged.2]) nofun
        | ready startable marks =>
            obtain ⟨proposed, repeatable⟩ := Staged.startable startable staged
            exact Marks.recorded marks pending located' equipped (unstarted.proposed _ proposed)
              nofun fun _ _ changed => repeatable.unchanged (unstarted.changed _ changed)
      · exact .inl found
    · cases puts with
      | plain => trivial
      | park marks => exact ⟨unstarted.proposed _ staged.1, by rw [unstarted.starts, staged.2]⟩
      | ready startable marks =>
          obtain ⟨proposed, repeatable⟩ := Staged.startable startable staged
          refine ⟨unstarted.proposed _ proposed, unstarted.repeatable repeatable, checkpoint, ?_,
            marks⟩
          exact (last session.turnId).trans (if_pos marks.turn)
  · have still : Still pool (pool.record caller job
        (.command (.putCheckpoint checkpoint)) (.error error) rest state) :=
      { unstarted with checkpoints := Database.lastCheckpoint_congr same }
    exact ⟨still.facts holds.facts, fun ok => by cases ok⟩

/-- The start of a tool whose running checkpoint is the last one of its turn. -/
theorem Holds.start {session : Session} {call : Call} {grant : Option ApprovalId}
    {ending : ToolEnding} {rest : Program serviceInterface (Result Returned)}
    (holds : Holds registry pool controls)
    (held : controls caller = some (.within session (.begun call grant))) :
    Facts registry (pool.record caller job (.executeTool ⟨session.turnId, call.callId⟩
      session.workspaceId session.threadId call.tool call.arguments) ending rest pool.state) := by
  obtain ⟨located, equipped, proposed, repeatable, checkpoint, last, marks⟩ :=
    holds.points caller _ held
  have grown (site : CallSite) : starts site (pool.record caller job
      (.executeTool ⟨session.turnId, call.callId⟩ session.workspaceId session.threadId call.tool
        call.arguments) ending rest pool.state).trace =
      starts site pool.trace + if (⟨session.turnId, call.callId⟩ : CallSite) = site then 1
        else 0 := by
    simp [Pool.record, starts_cons, startedCall]
  have changing {site : CallSite} (changed : Changed site (pool.record caller job
      (.executeTool ⟨session.turnId, call.callId⟩ session.workspaceId session.threadId call.tool
        call.arguments) ending rest pool.state).trace) :
      ((⟨session.turnId, call.callId⟩ : CallSite) = site ∧ ∃ descriptor,
        session.tools.descriptor call.tool = .ok descriptor ∧
        toolIsRetryable descriptor.effect descriptor.recovery = false) ∨
      Changed site pool.trace := by
    rcases changed_cons.mp changed with ⟨own, changes⟩ | old
    · have tools : pool.state.process.catalog.toolsFor session.workspaceId =
          .ok session.tools := by rw [holds.facts.catalog, equipped]
      exact .inl ⟨by simpa [startedCall] using own, startsChange_tool tools changes⟩
    · exact .inr old
  constructor
  · exact holds.facts.catalog
  · intro site started
    by_cases own : (⟨session.turnId, call.callId⟩ : CallSite) = site
    · exact own ▸ proposed
    · rw [grown, if_neg own] at started
      exact holds.facts.proposed site started
  · intro site changed
    rw [grown]
    by_cases own : (⟨session.turnId, call.callId⟩ : CallSite) = site
    · subst own
      rcases changing changed with ⟨_, descriptor, found, unretryable⟩ | old
      · rcases repeatable with never | ⟨_, retryable⟩
        · simp [never]
        · rw [retryable descriptor found] at unretryable
          cases unretryable
      · exact absurd old repeatable.unchanged
    · rw [if_neg own]
      rcases changing changed with ⟨same, _⟩ | old
      · exact absurd same own
      · exact holds.facts.once site old
  · intro turnId other operation found pending
    have recorded := holds.facts.recorded turnId other operation found pending
    by_cases own : (⟨session.turnId, call.callId⟩ : CallSite) = ⟨other.turnId, operation.callId⟩
    · obtain ⟨sameTurn, sameCall⟩ := CallSite.mk.inj own
      have turn : turnId = session.turnId :=
        (Database.lastCheckpoint_turnId found).symm.trans sameTurn.symm
      subst turn
      obtain rfl : checkpoint = other := Option.some.inj (last.symm.trans found)
      refine ⟨recorded.proposed, recorded.registered, fun phase => ?_,
        fun _ retryable changed => ?_⟩
      · rw [marks.phase] at phase
        cases phase
      · rw [← own] at changed
        rcases changing changed with ⟨_, descriptor, described, unretryable⟩ | old
        · obtain ⟨stored, described', written⟩ := marks.pending
          rw [pending] at written
          cases written
          rw [described] at described'
          cases described'
          rw [operationRetryable_recorded descriptor _ rfl rfl, unretryable] at retryable
          cases retryable
        · exact repeatable.unchanged old
    · refine ⟨recorded.proposed, recorded.registered, fun phase => ?_,
        fun phase retryable changed => ?_⟩
      · rw [grown, if_neg own]
        exact recorded.waiting phase
      · rcases changing changed with ⟨same, _⟩ | old
        · exact own same
        · exact recorded.running phase retryable old

/-- A step of the only driving call. -/
theorem Holds.driven {rest : Program serviceInterface (Result Returned)}
    (holds : Holds registry pool controls) (held : controls caller = some before)
    (drives : before.drives = true)
    (alone : Alone (pool.record caller job op answer rest state)
      (assign controls caller (some after)))
    (facts : Facts registry (pool.record caller job op answer rest state))
    (own : Point registry (pool.record caller job op answer rest state) after) :
    Holds registry (pool.record caller job op answer rest state)
      (assign controls caller (some after)) := by
  refine ⟨alone, facts, fun other control found => ?_⟩
  rcases assign_eq_some found with ⟨_, equal⟩ | ⟨different, old⟩
  · cases equal
    exact own
  · exact point_of_not_drives (holds.alone.others held drives different old)

/-- A drive that is equipped with its tools begins at its opening stage. -/
theorem staged_opening {session : Session} (facts : Facts registry pool)
    (resumes : Resumes pool.state.db session.toDrive)
    (located : Located pool.state.db session.threadId session.workspaceId)
    (equipped : registry session.workspaceId = .ok session.tools) :
    Staged pool session session.toDrive.opening := by
  obtain ⟨⟨threadId, turnId, origin⟩, workspaceId, tools⟩ := session
  cases origin with
  | fresh => trivial
  | resumed checkpoint events =>
      obtain ⟨last, thread⟩ := resumes
      cases pending : checkpoint.pendingOperation with
      | none =>
          rw [Drive.opening_free (by simp [pending])]
          trivial
      | some operation =>
          have recorded := facts.recorded _ checkpoint operation last pending
          have turn : checkpoint.turnId = turnId := Database.lastCheckpoint_turnId last
          subst turn
          by_cases retry : (classifyCheckpoint checkpoint events).resumePolicy = .retryObserve
          · obtain ⟨phase, _, pending', retryable, _⟩ := classifyCheckpoint_retryObserve retry
            rw [pending] at pending'
            cases pending'
            have opening : Drive.opening ⟨threadId, checkpoint.turnId, .resumed checkpoint events⟩ =
                .granted (.ofOperation operation) none := by
              simp [Drive.opening, pending, retry]
            rw [opening]
            refine ⟨recorded.proposed, .inr ⟨recorded.running phase retryable, ?_⟩⟩
            intro descriptor found
            have registered := recorded.registered
            rw [thread] at registered
            have same := registered.descriptor located equipped found
            rwa [operationRetryable_recorded descriptor operation same.1 same.2] at retryable
          · by_cases wait : (classifyCheckpoint checkpoint events).resumePolicy = .waitApproval
            · have phase := classifyCheckpoint_waitApproval.mp wait
              have opening : Drive.opening
                  ⟨threadId, checkpoint.turnId, .resumed checkpoint events⟩ =
                  .authorizing (.ofOperation operation) := by
                simp [Drive.opening, pending, wait]
              rw [opening]
              exact ⟨recorded.proposed, .inl (recorded.waiting phase)⟩
            · rw [Drive.opening_free fun _ _ => ⟨retry, wait⟩]
              trivial

/-- Where a step that starts nothing and writes no checkpoint leads. -/
theorem Still.advance {grown : Pool deployment} (still : Still pool grown)
    (facts : Facts registry pool) (callIds : ∀ command turnId callId,
      op = .command (.appendEvent command) → command.turnId = some turnId →
      command.event.proposedCall = some callId → ¬ Proposed ⟨turnId, callId⟩ pool.state.db)
    (advance : Advance deployment.codec before op answer after)
    (performed : World.perform deployment.content deployment.codec op choice pool.state =
      some (answer, grown.state))
    (unstarting : startedCall op = none)
    (puts : ∀ checkpoint, op ≠ .command (.putCheckpoint checkpoint))
    (point : Point registry pool before) : Point registry grown after := by
  cases advance with
  | quiet quiet => exact still.point point
  | trace => trivial
  | report =>
      obtain ⟨same, read | ⟨_, fault⟩⟩ := World.perform_query performed
      · have last := Except.ok.inj read
        exact (still.checkpoints _).trans last.symm
      · cases fault
  | unreported => trivial
  | @classify turnId threadId checkpoint events =>
      have resumes : Resumes pool.state.db
          ⟨checkpoint.threadId, turnId, .resumed checkpoint events⟩ := ⟨point, rfl⟩
      exact still.resumes resumes
  | enter => exact still.resumes point
  | barred => trivial
  | lease => exact still.resumes point
  | leaseResumed => exact still.point point
  | unleased => exact still.resumes point
  | begin => exact still.resumes point
  | beginFailed => trivial
  | situate =>
      obtain ⟨same, read | ⟨_, fault⟩⟩ := World.perform_query performed
      · exact ⟨still.resumes point, still.located ⟨_, read.symm, rfl⟩⟩
      · cases fault
  | @equip drive workspaceId catalog tools equipped =>
      obtain rfl := perform_catalog_answer performed
      rw [facts.catalog] at equipped
      have staged : Staged pool ⟨drive, workspaceId, tools⟩ drive.opening :=
        staged_opening facts point.1 point.2 equipped
      exact ⟨still.located point.2, equipped, still.staged staged⟩
  | checkpoint puts' => exact absurd rfl (puts _)
  | checkpointFailed puts' => exact absurd rfl (puts _)
  | @append session stage command after envelope appends =>
      refine ⟨still.located point.1, point.2.1, ?_⟩
      cases appends with
      | complete => trivial
      | announce | resolve | allow | deny | allowApproved | denyRefused | begin =>
          exact still.staged point.2.2
      | @propose call _ thread turn event =>
          rcases World.perform_append performed with
            ⟨envelope, -, grows, -, -, turn', event'⟩ | ⟨_, lost, -⟩
          · have fresh : ¬ Proposed ⟨_, call.callId⟩ pool.state.db :=
              callIds command _ call.callId rfl turn (by rw [event]; rfl)
            have never : starts ⟨_, call.callId⟩ pool.trace = 0 :=
              Decidable.byContradiction fun started => fresh (facts.proposed _ started)
            refine ⟨⟨envelope, ?_, turn'.trans turn, ?_⟩, (still.starts _).trans never⟩
            · rw [grows]
              exact List.mem_append_right _ (List.mem_singleton.mpr rfl)
            · rw [event', event]
              rfl
          · cases lost
  | appendFailed => trivial
  | artifactLost => trivial
  | identify => exact still.point point
  | ask => exact still.point point
  | file => exact still.point point
  | fileFailed => trivial
  | note => exact still.point point
  | answer => exact still.point point
  | elapse => exact still.point point
  | unanswered => trivial
  | reread => exact still.point point
  | settle => exact still.point point
  | settleMissing => exact still.point point
  | select => exact still.point point
  | trust => exact still.point point
  | restore => exact still.point point
  | wait => exact still.point point
  | refuse => exact still.point point
  | grant => exact still.point point
  | start => cases unstarting
  | abandon => cases unstarting
  | _ => trivial

theorem Holds.perform {pool : Pool deployment} {controls : Nat → Option Control} {caller : Nat}
    {job : Job} {op : Op} {next : op.Answer → Program serviceInterface (Result Returned)}
    {before after : Control} {choice : Choice} {answer : op.Answer} {state : World}
    (holds : Holds registry pool controls)
    (admitted : Guarded registry pool (.perform caller choice))
    (found : pool.calls caller = some (job, .request op next))
    (held : controls caller = some before)
    (advance : Advance deployment.codec before op answer after)
    (performed : World.perform deployment.content deployment.codec op choice pool.state =
      some (answer, state)) :
    Holds registry (pool.record caller job op answer (next answer) state)
      (assign controls caller (some after)) := by
  have awaited : pool.awaits caller = some op := by
    simp only [Pool.awaits, found]
    rfl
  have alone : Alone (pool.record caller job op answer (next answer) state)
      (assign controls caller (some after)) := holds.alone.perform found held advance
  by_cases puts : ∃ checkpoint, op = .command (.putCheckpoint checkpoint)
  · obtain ⟨checkpoint, rfl⟩ := puts
    have later := admitted.timestamps checkpoint awaited
    cases advance with
    | quiet quiet => exact quiet.elim
    | checkpoint puts =>
        obtain ⟨facts, own⟩ := holds.put held puts later performed
        exact holds.driven held rfl alone facts (own rfl)
    | checkpointFailed puts =>
        exact holds.driven held rfl alone (holds.put held puts later performed).1 trivial
  by_cases unstarting : startedCall op = none
  · have callIds (command : AppendEvent) (turnId : TurnId) (callId : String)
        (same : op = .command (.appendEvent command)) :=
      admitted.callIds caller choice command turnId callId rfl (same ▸ awaited)
    exact holds.still found held advance performed unstarting
      (fun checkpoint same => puts ⟨_, same⟩)
      fun still point => still.advance holds.facts callIds advance performed unstarting
        (fun checkpoint same => puts ⟨_, same⟩) point
  · obtain ⟨site, workspaceId, threadId, name, arguments, rfl⟩ := executes_of_startedCall unstarting
    obtain rfl : state = pool.state := by
      cases choice <;> cases performed
      rfl
    cases advance with
    | quiet quiet => exact quiet.elim
    | start =>
        obtain ⟨located, equipped, -⟩ := holds.points caller _ held
        exact holds.driven held rfl alone (holds.start held) ⟨located, equipped, trivial⟩
    | abandon => exact holds.driven held rfl alone (holds.start held) trivial

theorem still_of_db {grown : Pool deployment} (db : grown.state.db = pool.state.db)
    (trace : grown.trace = pool.trace)
    (catalog : grown.state.process.catalog.toolsFor = pool.state.process.catalog.toolsFor) :
    Still pool grown where
  catalog := catalog
  proposed _ proposed := db ▸ proposed
  threads _ _ found := db ▸ found
  starts _ := by rw [trace]
  changed _ changed := trace ▸ changed
  checkpoints _ := by rw [db]

theorem Holds.spawn
    {post : (system deployment).Job → (system deployment).Result → Control → Prop} (job : Job)
    (tracks : Tracks (protocol deployment.codec) post pool controls)
    (admitted : Guarded registry pool (.spawn job)) (holds : Holds registry pool controls) :
    Holds registry (Pool.spawn pool job) (assign controls pool.spawned (some (begins job))) := by
  have still : Still pool (Pool.spawn pool job) := still_of_db rfl rfl rfl
  refine ⟨holds.alone.spawn tracks job admitted.sequential, still.facts holds.facts, ?_⟩
  intro caller control found
  rcases assign_eq_some found with ⟨_, equal⟩ | ⟨_, old⟩
  · cases equal
    cases job <;> trivial
  · exact still.point (holds.points caller control old)

theorem Holds.finish (holds : Holds registry pool controls) :
    Holds registry pool (assign controls caller none) := by
  refine ⟨holds.alone.finish, holds.facts, fun other control found => ?_⟩
  rcases assign_eq_some found with ⟨_, equal⟩ | ⟨_, old⟩
  · cases equal
  · exact holds.points other control old

theorem Holds.crash (startup : Catalog) (admitted : Guarded registry pool (.crash startup))
    (holds : Holds registry pool controls) :
    Holds registry (Pool.crash pool startup) fun _ => none := by
  have still : Still pool (Pool.crash pool startup) :=
    still_of_db rfl rfl ((admitted.registry startup rfl).trans holds.facts.catalog.symm)
  exact ⟨Alone.none _, still.facts holds.facts, fun _ _ found => by cases found⟩

/-- The invariant of the guarded pool. -/
theorem invariant : Invariant (system deployment) (protocol deployment.codec) begins ends
    (Guarded registry) (Holds registry) where
  spawn job tracks admitted holds := holds.spawn job tracks admitted
  perform := by
    intro pool controls caller job op next before after choice answer state _ admitted found
      held advance performed holds
    exact @Holds.perform deployment registry pool controls caller job op next before after choice
      answer state holds admitted found held advance performed
  finish _ _ _ holds := holds.finish
  crash startup _ admitted holds := holds.crash startup admitted

theorem holds_of_boots {pool : Pool deployment} (boots : Boots registry pool) :
    (∀ caller, pool.calls caller = none) ∧ Holds registry pool fun _ => none := by
  obtain ⟨world, catalog, empty, rfl⟩ := boots
  refine ⟨fun _ => rfl, Alone.none _, ⟨catalog, ?_, ?_, ?_⟩, fun _ _ found => by cases found⟩
  · intro site started
    exact absurd rfl started
  · rintro site ⟨entry, member, -⟩
    cases member
  · intro turnId checkpoint operation last
    have member := Database.lastCheckpoint_mem last
    simp [Pool.boot, Database.turnCheckpoints, empty] at member

end

end StartedOnce

open StartedOnce in
/-- A call of a tool that may not be run again is started at most once. -/
theorem starts_le_one_of_changed (deployment : Deployment)
    (registry : WorkspaceId → Result ToolRegistry) (pool : Pool deployment)
    (reached : Pool.Reachable (Guarded registry) (Boots registry) pool) (site : CallSite)
    (changed : Changed site pool.trace) : starts site pool.trace ≤ 1 := by
  obtain ⟨controls, tracks, holds⟩ :=
    Invariant.reachable invariant (fun _ => holds_of_boots) (conforms deployment) reached
  exact holds.facts.once site changed

namespace StartedOnce

open Demo

/-- A command is approved and started, and its process dies. -/
def lostCommand : List Demo.Step :=
  run ++ settle 0 24 ++ model 0 [call "c" "exec"] ++ settle 0 12 ++
    spawn (.resolveApproval ⟨12⟩ true) ++ settle 1 4 ++ settle 0 12 ++ tool 0 .elapsed

/-- The recovery of the turn, and an attempt to resume it. -/
def afterCrash : List Demo.Step := spawn .recover ++ settle 2 9 ++ resume ++ settle 3 3

end StartedOnce

open StartedOnce

theorem starts_le_one_of_changed_lostCommand :
    ∃ pool : Pool Demo.deployment,
      Pool.Reachable (Guarded Demo.catalog.toolsFor) (Boots Demo.catalog.toolsFor) pool ∧
      Changed ⟨Demo.turn, "c"⟩ pool.trace ∧ starts ⟨Demo.turn, "c"⟩ pool.trace = 1 ∧
      starts ⟨Demo.turn, "c"⟩ pool.trace ≤ 1 := by
  have ran : ((Pool.runChecked guarded (Demo.labels 0 lostCommand) Demo.pool).bind fun dead =>
      (Pool.runChecked guarded (Demo.labels 100 afterCrash) (dead.crash Demo.catalog)).map
        fun pool => (pool.trace.any fun entry =>
            decide (startedCall entry.op = some ⟨Demo.turn, "c"⟩) &&
              startsChange entry.before entry.op,
          starts ⟨Demo.turn, "c"⟩ pool.trace)) = some (true, 1) := by rfl
  obtain ⟨dead, lost, resumed⟩ := Option.bind_eq_some_iff.mp ran
  obtain ⟨pool, final, counted⟩ := Option.map_eq_some_iff.mp resumed
  obtain ⟨changes, started⟩ := Prod.mk.inj counted
  have died : Pool.Reachable (Guarded Demo.catalog.toolsFor) (Boots Demo.catalog.toolsFor)
      dead := .of_runChecked (guarded_sound _) (.start ⟨Demo.world, rfl, rfl, rfl⟩) lost
  have crashes : Guarded Demo.catalog.toolsFor dead (.crash Demo.catalog) :=
    ⟨trivial, fun _ same => by cases same; rfl, trivial, fun _ _ _ _ _ same => by cases same⟩
  have reached : Pool.Reachable (Guarded Demo.catalog.toolsFor) (Boots Demo.catalog.toolsFor)
      pool := .of_runChecked (guarded_sound _) (.step died crashes rfl) final
  have changed : Changed ⟨Demo.turn, "c"⟩ pool.trace := by
    obtain ⟨entry, member, found⟩ := List.any_eq_true.mp changes
    rw [Bool.and_eq_true, decide_eq_true_eq] at found
    exact ⟨entry, member, found⟩
  exact ⟨pool, reached, changed, started, starts_le_one_of_changed Demo.deployment
    Demo.catalog.toolsFor pool reached ⟨Demo.turn, "c"⟩ changed⟩

end OpsCodex.Turn
