import OpsCodex.Turn.Occupancy

/-! What the checkpoints of a turn promise. A call asks the model for a bounded number
of steps, each after a checkpoint that says so, and every stored checkpoint can be
classified as it was recorded. -/

set_option autoImplicit false

namespace OpsCodex.Turn

open Effect OpsCodex.Action OpsCodex.Extensions OpsCodex.Store OpsCodex.Runtime

/-- The model requests that a caller has made, and whether the last checkpoint that it
wrote announces one. -/
structure Progress where
  made : Nat
  announced : Bool

namespace Progress

/-- Does a written checkpoint announce a model request? -/
def announces (checkpoint : CheckpointRecord) : Bool :=
  decide (checkpoint.phase = .modelRunning)

def move (progress : Progress) : (op : Op) → op.Answer → Progress
  | .completeModel _, _ => { progress with made := progress.made + 1 }
  | .command (.putCheckpoint checkpoint), .ok () =>
      { progress with announced := announces checkpoint }
  | _, _ => progress

/-- The steps of a call are bounded, announced and recorded. -/
def Admitted (maxSteps : Nat) (progress : Progress) : Op → Prop
  | .completeModel _ => progress.made < maxSteps ∧ progress.announced = true
  | .command (.putCheckpoint checkpoint) => CheckpointRecord.Recorded checkpoint
  | _ => True

def monitor (maxSteps : Nat) : Monitor serviceInterface where
  Standing := Progress
  start := { made := 0, announced := false }
  Admits := Admitted maxSteps
  move := move

variable {maxSteps : Nat} {threadId : ThreadId} {turnId : TurnId} {workspaceId : WorkspaceId}

/-- Only a request to the model counts. -/
theorem step_of_requests {made : Nat} (op : Op) (progress : Progress)
    (requests : Requests threadId turnId workspaceId op) (kept : progress.made = made) :
    (monitor maxSteps).Admits progress op ∧
      ∀ answer, ((monitor maxSteps).move progress op answer).made = made := by
  cases op with
  | command command =>
      cases command with
      | putCheckpoint checkpoint =>
          refine ⟨requests.2.2, fun answer => ?_⟩
          cases answer <;> exact kept
      | _ => exact ⟨trivial, fun _ => kept⟩
  | completeModel request => exact requests.elim
  | _ => exact ⟨trivial, fun _ => kept⟩

theorem quiet_of_beside (op : Op) (progress : Progress) (beside : Beside op) :
    (monitor maxSteps).Admits progress op ∧
      ∀ answer, (monitor maxSteps).move progress op answer = progress := by
  cases op with
  | command command =>
      cases command with
      | putCheckpoint checkpoint => exact beside.elim
      | _ => exact ⟨trivial, fun _ => rfl⟩
  | completeModel request => exact beside.elim
  | _ => exact ⟨trivial, fun _ => rfl⟩

section

variable {Value : Type} {program : Async Value}

theorem keeps_of_requests (workspaceId : WorkspaceId)
    (uses : Fallible.Uses (Requests threadId turnId workspaceId) program)
    {progress : Progress} {made : Nat} (start : progress.made = made) :
    Meets (monitor maxSteps).protocol program progress (fun _ after => after.made = made)
      fun _ after => after.made = made :=
  Monitor.keeps_of_uses uses step_of_requests start

theorem stays_of_beside (uses : Fallible.Uses Beside program) (progress : Progress) :
    Meets (monitor maxSteps).protocol program progress (fun _ after => after = progress)
      fun _ after => after = progress :=
  uses.stays fun op answer beside =>
    ⟨(quiet_of_beside op progress beside).1, ((quiet_of_beside op progress beside).2 answer).symm⟩

end

/-- The limit of a call is not passed. -/
abbrev within {Value : Type} (maxSteps : Nat) : Value → Progress → Prop :=
  fun _ after => after.made ≤ maxSteps

abbrev anyhow {Value : Type} : Value → Progress → Prop := fun _ _ => True

variable (deployment : Deployment) {context : TurnEventContext}

/-- A checkpoint before a model request announces it. -/
theorem announce_meets (step : UInt32) (lease : Lease) (progress : Progress) :
    Meets (monitor maxSteps).protocol
      (writeCheckpoint deployment threadId turnId step .modelRunning .replayModel none lease)
      progress (fun _ after => after = { progress with announced := true }) anyhow := by
  have quietly {Value Returned : Type} {program : Async Value} {rest : Value → Async Returned}
      {ok : Returned → Progress → Prop} (uses : Fallible.Uses Beside program)
      (next : ∀ value, Meets (monitor maxSteps).protocol (rest value) progress ok anyhow) :
      Meets (monitor maxSteps).protocol (program >>= rest) progress ok anyhow :=
    Meets.after_quiet (stays_of_beside uses progress) next fun _ => trivial
  unfold writeCheckpoint
  refine Meets.bind (Async.meets_write fun answer => ⟨progress, ⟨trivial, rfl⟩, ?_⟩)
  cases answer with
  | error error => trivial
  | ok =>
      refine quietly (Span.uses_read (by exact trivial)).attempt fun items => ?_
      refine Meets.bind (Async.meets_ask fun fresh => ⟨progress, ⟨trivial, rfl⟩, ?_⟩)
      refine quietly (Span.uses_read (by exact trivial)).attempt fun lastSeq => ?_
      refine quietly (Span.uses_ask (by exact trivial)) fun now => ?_
      refine Async.meets_write fun answer => ⟨_, ⟨.modelRunning, rfl⟩, ?_⟩
      cases answer with
      | error error => trivial
      | ok => rfl

/-- A model request counts once, whatever it streams. -/
theorem completeModel_meets (causation : Option EventId) (request : ModelRequest)
    {progress : Progress} (free : progress.made < maxSteps)
    (announced : progress.announced = true) :
    Meets (monitor maxSteps).protocol (completeModel threadId turnId causation request) progress
      (fun _ after => after.made = progress.made + 1) anyhow := by
  unfold completeModel
  refine Meets.bind (Async.meets_ask fun run => ⟨_, ⟨⟨free, announced⟩, rfl⟩, ?_⟩)
  have counted : (move progress (.completeModel request) run).made = progress.made + 1 := rfl
  refine Meets.bind ((keeps_of_requests .default (Requests.emitDeltas _ _) counted).mono ?_
    fun _ _ _ => trivial)
  intro last after made
  cases run.ending with
  | cancelled => exact Meets.throw trivial
  | elapsed => exact Meets.throw trivial
  | finished outcome =>
      cases outcome with
      | error error => exact Meets.bind (Meets.throw trivial)
      | ok outputs => exact Meets.bind (Meets.pure (Meets.pure made))

/-- The loop makes at most as many requests as it has steps left. -/
theorem modelLoop_meets (instructions : String) (remaining : Nat) (step : UInt32)
    (last : Option EventId) (progress : Progress) (room : progress.made + remaining ≤ maxSteps) :
    Meets (monitor maxSteps).protocol
      (modelLoop deployment context instructions remaining step last) progress anyhow anyhow := by
  induction remaining generalizing step last progress with
  | zero => exact Meets.throw trivial
  | succ remaining ih =>
      unfold modelLoop
      refine Meets.bind ((keeps_of_requests context.workspaceId
        (Requests.maybeCompact deployment) rfl).mono ?_ fun _ _ _ => trivial)
      intro _ compacted made
      refine Meets.bind ((announce_meets deployment _ _ compacted).mono ?_ fun _ _ lost => lost)
      rintro _ announced rfl
      refine Meets.bind (Async.meets_read fun answer =>
        ⟨{ compacted with announced := true }, ⟨trivial, rfl⟩, ?_⟩)
      cases answer with
      | error error => trivial
      | ok input =>
          have free : ({ compacted with announced := true } : Progress).made < maxSteps := by
            change compacted.made < maxSteps
            omega
          refine Meets.bind ((completeModel_meets _ _ free rfl).mono ?_ fun _ _ lost => lost)
          rintro ⟨outputs, streamed, modelEvent⟩ requested counted
          have acts (last : Option EventId) :=
            @keeps_of_requests maxSteps context.threadId context.turnId _ _ context.workspaceId
              (@Requests.runOutputs deployment { context with step := step } streamed outputs last
                false) requested _ counted
          refine Meets.bind ((acts _).mono ?_ fun _ _ _ => trivial)
          rintro ⟨last, calledTool⟩ acted counted
          dsimp only
          split
          · refine Meets.bind ((keeps_of_requests context.workspaceId
              (Requests.writeCheckpoint deployment .completed _ _) rfl).mono ?_
              fun _ _ _ => trivial)
            intro _ written _
            refine Meets.bind ((keeps_of_requests context.workspaceId
              (Requests.emit _ _) rfl).mono ?_ fun _ _ _ => trivial)
            exact fun _ _ _ => Meets.pure trivial
          · have counted : acted.made = compacted.made + 1 := counted
            exact ih _ _ _ (by omega)

theorem runTurnInner_meets (start : TurnStart) (lease : Lease) (progress : Progress)
    (fresh : progress.made = 0) :
    Meets (monitor deployment.config.maxSteps).protocol
      (runTurnInner deployment threadId turnId start lease) progress anyhow anyhow := by
  unfold runTurnInner
  refine Meets.bind (Async.meets_read fun answer => ⟨progress, ⟨trivial, rfl⟩, ?_⟩)
  cases answer with
  | error error => trivial
  | ok thread =>
      refine Meets.bind (Async.meets_ask fun catalog => ⟨progress, ⟨trivial, rfl⟩, ?_⟩)
      refine Meets.after_quiet (stays_of_beside (Span.uses_ofResult _) _) (fun _ => ?_)
        fun _ => trivial
      refine Meets.after_quiet (stays_of_beside (Span.uses_ofResult _) _) (fun tools => ?_)
        fun _ => trivial
      have enters := @keeps_of_requests deployment.config.maxSteps threadId turnId _ _
        thread.workspaceId (@Requests.enterTurn deployment
          ⟨threadId, turnId, thread.workspaceId, tools, none, lease, 0⟩ start) progress 0 fresh
      refine Meets.bind (enters.mono ?_ fun _ _ _ => trivial)
      rintro ⟨step, last⟩ entered none
      exact modelLoop_meets deployment _ _ _ _ entered (by omega)

/-- Only the inside of a turn takes steps. -/
theorem surrounds : Surrounds (monitor maxSteps) (fun progress => progress.made = 0)
    fun _ _ => True where
  start := rfl
  opens := fun _ _ _ => trivial
  before := by
    intro op progress around unasked
    cases op with
    | command command =>
        cases command with
        | putCheckpoint checkpoint => exact around.elim
        | _ => exact ⟨trivial, fun _ => unasked⟩
    | completeModel request => exact around.elim
    | _ => exact ⟨trivial, fun _ => unasked⟩
  after := by
    intro threadId op progress around _
    cases op with
    | command command =>
        cases command with
        | putCheckpoint checkpoint => exact around.1.elim
        | _ => exact ⟨trivial, fun _ => trivial⟩
    | completeModel request => exact around.1.elim
    | _ => exact ⟨trivial, fun _ => trivial⟩

/-- Every call keeps to its steps. -/
theorem conforms (job : Job) :
    Conforms (monitor deployment.config.maxSteps).protocol ((system deployment).program job)
      ⟨0, false⟩ fun _ _ => True :=
  surrounds.conforms deployment (fun _ _ start lease progress fresh =>
    runTurnInner_meets deployment start lease progress fresh) job

variable {deployment}

/-- A process over a store whose checkpoints a drive has written. -/
def Boots (pool : Pool deployment) : Prop :=
  ∃ world : World, (∀ checkpoint ∈ world.db.checkpoints,
    CheckpointRecord.Recorded checkpoint) ∧ pool = Pool.boot world

/-- Every stored checkpoint is one that a drive writes. -/
def Stored (pool : Pool deployment) : Prop :=
  ∀ checkpoint ∈ pool.state.db.checkpoints, CheckpointRecord.Recorded checkpoint

theorem perform_stored {content : Content} {codec : Codec} {op : Op} {choice : Choice}
    {world after : World} {answer : op.Answer} {progress : Progress}
    (performed : World.perform content codec op choice world = some (answer, after))
    (admitted : Admitted maxSteps progress op)
    (stored : ∀ checkpoint ∈ world.db.checkpoints, CheckpointRecord.Recorded checkpoint) :
    ∀ checkpoint ∈ after.db.checkpoints, CheckpointRecord.Recorded checkpoint := by
  by_cases writes : .checkpoints ∈ World.writes op
  · cases op with
    | command command =>
        cases command with
        | putCheckpoint checkpoint =>
            have inserted (row : CheckpointRecord)
                (member : row ∈ world.db.checkpoints ++ [checkpoint]) :
                CheckpointRecord.Recorded row := by
              obtain old | new := List.mem_append.mp member
              · exact stored row old
              · obtain rfl := List.mem_singleton.mp new
                exact admitted
            obtain ⟨clock, _, rfl⟩ | ⟨message, _, rfl⟩ | ⟨message, db, interrupted, _, rfl⟩ :=
              World.perform_command performed
            · exact inserted
            · exact stored
            · cases interrupted
              exact inserted
        | _ => simp [World.writes] at writes
    | _ => simp [World.writes] at writes
  · rw [(World.perform_keeps performed).checkpoints writes]
    exact stored

theorem stored_keeps :
    @Monitor.Keeps _ (system deployment) (monitor deployment.config.maxSteps)
    (fun _ _ _ => True) Stored where
  spawn := fun _ _ stored => stored
  perform := by
    intro pool caller job op next choice answer world watched found performed stored
    exact perform_stored performed (watched.admits found answer) stored
  crash := fun _ _ stored => stored

theorem keeps_reachable {pool : Pool deployment}
    (reached : Pool.Reachable (fun _ _ => True) Boots pool) :
    (monitor deployment.config.maxSteps).Watched (fun _ _ _ => True) pool ∧ Stored pool := by
  refine stored_keeps.reachable (conforms deployment) (fun pool booted => ?_) reached
  obtain ⟨world, recorded, rfl⟩ := booted
  exact ⟨⟨world, rfl⟩, recorded⟩

/-- Is a request one to the model? -/
def asksModel : Op → Bool
  | .completeModel _ => true
  | _ => false

/-- The checkpoint that an answered request wrote. -/
def written : (op : Op) → op.Answer → Option CheckpointRecord
  | .command (.putCheckpoint checkpoint), .ok () => some checkpoint
  | _, _ => none

/-- The model requests of a caller in a trace. -/
def asked (trace : List (Entry deployment)) (caller : Nat) : Nat :=
  trace.countP fun entry => decide (entry.caller = caller) && asksModel entry.op

/-- The checkpoint that a caller wrote last. -/
def lastWritten (trace : List (Entry deployment)) (caller : Nat) : Option CheckpointRecord :=
  trace.findSome? fun entry =>
    if entry.caller = caller then written entry.op entry.answer else none

theorem move_made (progress : Progress) (op : Op) (answer : op.Answer) :
    (move progress op answer).made = progress.made + (asksModel op).toNat := by
  cases op with
  | command command =>
      cases command with
      | putCheckpoint checkpoint => cases answer <;> rfl
      | _ => rfl
  | _ => rfl

theorem move_announced (progress : Progress) (op : Op) (answer : op.Answer) :
    (move progress op answer).announced =
      ((written op answer).map announces).getD progress.announced := by
  cases op with
  | command command =>
      cases command with
      | putCheckpoint checkpoint => cases answer <;> rfl
      | _ => rfl
  | _ => rfl

theorem standing_made (trace : List (Entry deployment)) (caller : Nat) :
    ((monitor maxSteps).standing trace caller).made = asked trace caller := by
  induction trace with
  | nil => rfl
  | cons entry older ih =>
      unfold asked at ih ⊢
      rw [List.countP_cons, Monitor.standing]
      by_cases same : entry.caller = caller
      · rw [if_pos same]
        refine (move_made _ _ _).trans ?_
        rw [ih]
        cases asks : asksModel entry.op <;> simp [same]
      · rw [if_neg same, ih]
        simp [same]

theorem standing_announced (trace : List (Entry deployment)) (caller : Nat) :
    ((monitor maxSteps).standing trace caller).announced =
      ((lastWritten trace caller).map announces).getD false := by
  induction trace with
  | nil => rfl
  | cons entry older ih =>
      unfold lastWritten at ih ⊢
      rw [List.findSome?_cons, Monitor.standing]
      by_cases same : entry.caller = caller
      · rw [if_pos same, if_pos same]
        refine (move_announced _ _ _).trans ?_
        cases wrote : written entry.op entry.answer with
        | none => exact ih
        | some checkpoint => rfl
      · rw [if_neg same, if_neg same]
        exact ih

theorem asked_le {pool : Pool deployment}
    (watched : (monitor deployment.config.maxSteps).Watched (fun _ _ _ => True) pool)
    (caller : Nat) : asked pool.trace caller ≤ deployment.config.maxSteps := by
  have admitted := watched.admitted
  generalize pool.trace = trace at admitted ⊢
  induction trace with
  | nil => exact Nat.zero_le _
  | cons entry older ih =>
      have before := ih fun newer old oldest split =>
        admitted (entry :: newer) old oldest (congrArg (entry :: ·) split)
      unfold asked at before ⊢
      rw [List.countP_cons]
      by_cases same : entry.caller = caller
      · cases asks : asksModel entry.op with
        | false => simpa [asks] using before
        | true =>
            have room := admitted [] entry older rfl
            cases op : entry.op with
            | completeModel request =>
                rw [op] at room
                have free := room.1
                rw [standing_made, same] at free
                unfold asked at free
                simp only [same, decide_true, asksModel, Bool.and_self, if_true]
                exact free
            | _ =>
                rw [op] at asks
                cases asks
      · simpa [same] using before

/-- A recorded checkpoint is classified by its own policy, unless the call that it was
running has been completed. -/
theorem classify_recorded {checkpoint : CheckpointRecord}
    (recorded : CheckpointRecord.Recorded checkpoint) (events : List EventEnvelope) :
    (∀ operation, checkpoint.phase = .toolRunning → checkpoint.pendingOperation = some operation →
      operation.callId ∈ completedTools events →
      (classifyCheckpoint checkpoint events).resumePolicy = .skipCompletedTool) ∧
    ((∀ operation, checkpoint.phase = .toolRunning →
        checkpoint.pendingOperation = some operation →
        operation.callId ∉ completedTools events) →
      (classifyCheckpoint checkpoint events).resumePolicy = checkpoint.resumePolicy) := by
  unfold CheckpointRecord.Recorded at recorded
  unfold classifyCheckpoint classifyPhase
  generalize phaseEq : checkpoint.phase = phase at recorded ⊢
  generalize pendingEq : checkpoint.pendingOperation = pending at recorded ⊢
  generalize policyEq : checkpoint.resumePolicy = policy at recorded ⊢
  cases recorded with
  | @toolRunning operation id =>
      dsimp only
      unfold classifyToolRunning
      rw [pendingEq]
      dsimp only
      constructor
      · rintro _ _ same completed
        cases same
        rw [if_pos completed]
      · intro open'
        rw [if_neg (open' operation rfl rfl)]
        split <;> rfl
  | _ => exact ⟨nofun, fun _ => rfl⟩

/-- What a resume goes on with is on record. -/
theorem pending_of_resumed {checkpoint : CheckpointRecord}
    (recorded : CheckpointRecord.Recorded checkpoint) (events : List EventEnvelope)
    (resumes : (classifyCheckpoint checkpoint events).resumePolicy = .retryObserve ∨
      (classifyCheckpoint checkpoint events).resumePolicy = .waitApproval) :
    ∃ operation, checkpoint.pendingOperation = some operation ∧
      operation.operationId = pendingOperationId checkpoint.turnId operation.callId := by
  unfold CheckpointRecord.Recorded at recorded
  unfold classifyCheckpoint classifyPhase at resumes
  generalize checkpoint.phase = phase at recorded resumes
  generalize checkpoint.pendingOperation = pending at recorded ⊢
  generalize checkpoint.resumePolicy = policy at recorded
  cases recorded with
  | @toolRunning operation id => exact ⟨operation, rfl, id⟩
  | @waitingApproval operation id => exact ⟨operation, rfl, id⟩
  | _ => obtain retry | wait := resumes <;> contradiction

end Progress

open Progress

/-- In every run, a call asks the model at most `max_steps` times, and each time the last
checkpoint that it wrote says that the model is running. -/
theorem model_steps_bounded (deployment : Deployment) (pool : Pool deployment)
    (reached : Pool.Reachable (fun _ _ => True) Progress.Boots pool) :
    (∀ caller, asked pool.trace caller ≤ deployment.config.maxSteps) ∧
      ∀ newer entry older, pool.trace = newer ++ entry :: older → asksModel entry.op = true →
        ∃ checkpoint, lastWritten older entry.caller = some checkpoint ∧
          checkpoint.phase = .modelRunning := by
  obtain ⟨watched, _⟩ := keeps_reachable reached
  refine ⟨asked_le watched, fun newer entry older split asks => ?_⟩
  have admitted := watched.admitted newer entry older split
  cases op : entry.op with
  | completeModel request =>
      rw [op] at admitted
      have announced := admitted.2
      rw [standing_announced] at announced
      cases wrote : lastWritten older entry.caller with
      | none =>
          rw [wrote] at announced
          cases announced
      | some checkpoint =>
          rw [wrote] at announced
          exact ⟨checkpoint, rfl, of_decide_eq_true announced⟩
  | _ =>
      rw [op] at asks
      cases asks

/-- A turn up to the start of a tool that may be run again. -/
def Progress.observing : List Demo.Step :=
  Demo.run ++ Demo.settle 0 24 ++ Demo.model 0 [Demo.call "c" "list"] ++ Demo.settle 0 8

theorem Progress.boots_demo : Progress.Boots Demo.pool := ⟨Demo.world, nofun, rfl⟩

theorem model_steps_bounded_observing :
    ∃ pool : Pool Demo.deployment, Pool.Reachable (fun _ _ => True) Progress.Boots pool ∧
      asked pool.trace 0 = 1 ∧ asked pool.trace 0 ≤ Demo.deployment.config.maxSteps := by
  have ran : (Pool.runChecked (fun _ _ => true) (Demo.labels 0 observing) Demo.pool).map
      (fun pool => asked pool.trace 0) = some 1 := by rfl
  obtain ⟨pool, final, once⟩ := Option.map_eq_some_iff.mp ran
  have reached : Pool.Reachable (fun _ _ => True) Progress.Boots pool :=
    .of_runChecked (fun _ _ _ => trivial) (.start boots_demo) final
  exact ⟨pool, reached, once, (model_steps_bounded Demo.deployment pool reached).1 0⟩

/-- In every reachable state, recovery classifies every stored checkpoint as the policy
recorded with it says, a running call that has been completed apart, and a resume that goes
on with an operation finds it in the checkpoint. -/
theorem checkpoints_classified (deployment : Deployment) (pool : Pool deployment)
    (reached : Pool.Reachable (fun _ _ => True) Progress.Boots pool)
    (checkpoint : CheckpointRecord) (member : checkpoint ∈ pool.state.db.checkpoints)
    (events : List EventEnvelope) :
    (∀ operation, checkpoint.phase = .toolRunning → checkpoint.pendingOperation = some operation →
      operation.callId ∈ completedTools events →
      (classifyCheckpoint checkpoint events).resumePolicy = .skipCompletedTool) ∧
    ((∀ operation, checkpoint.phase = .toolRunning →
        checkpoint.pendingOperation = some operation →
        operation.callId ∉ completedTools events) →
      (classifyCheckpoint checkpoint events).resumePolicy = checkpoint.resumePolicy) ∧
    ((classifyCheckpoint checkpoint events).resumePolicy = .retryObserve ∨
        (classifyCheckpoint checkpoint events).resumePolicy = .waitApproval →
      ∃ operation, checkpoint.pendingOperation = some operation ∧
        operation.operationId = pendingOperationId checkpoint.turnId operation.callId) := by
  have recorded := (keeps_reachable reached).2 checkpoint member
  obtain ⟨completed, agrees⟩ := classify_recorded recorded events
  exact ⟨completed, agrees, pending_of_resumed recorded events⟩

theorem checkpoints_classified_observing :
    ∃ (pool : Pool Demo.deployment) (checkpoint : CheckpointRecord),
      Pool.Reachable (fun _ _ => True) Progress.Boots pool ∧
      checkpoint ∈ pool.state.db.checkpoints ∧ checkpoint.resumePolicy = .retryObserve ∧
      (classifyCheckpoint checkpoint []).resumePolicy = .retryObserve := by
  have ran : (Pool.runChecked (fun _ _ => true) (Demo.labels 0 observing) Demo.pool).bind
      (fun pool => (pool.state.db.checkpoints.find? fun checkpoint =>
        decide (checkpoint.resumePolicy = .retryObserve)).map fun _ => ()) = some () := by rfl
  obtain ⟨pool, final, found⟩ := Option.bind_eq_some_iff.mp ran
  obtain ⟨checkpoint, found, _⟩ := Option.map_eq_some_iff.mp found
  have reached : Pool.Reachable (fun _ _ => True) Progress.Boots pool :=
    .of_runChecked (fun _ _ _ => trivial) (.start boots_demo) final
  have member := List.mem_of_find?_eq_some found
  have retries : checkpoint.resumePolicy = .retryObserve := by
    simpa using List.find?_some found
  refine ⟨pool, checkpoint, reached, member, retries, ?_⟩
  exact ((checkpoints_classified Demo.deployment pool reached checkpoint member []).2.1
    fun _ _ _ => List.not_mem_nil).trans retries

end OpsCodex.Turn
