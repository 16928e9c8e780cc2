import Mathlib.Data.List.Chain
import Mathlib.Logic.Relation
import OpsCodex.Remediation.Steps

/-! The life cycle of actions over sequential runs with crashes: what is written
about an action follows its transitions, and recovery leaves nothing in flight. -/

set_option autoImplicit false

namespace OpsCodex.Remediation

open Effect OpsCodex.Action OpsCodex.Store OpsCodex.Runtime

namespace LifeCycle

variable {deployment : Deployment}

/-- One call at a time, on a store that does not fail. The process may crash at
any step. -/
def Sequential (pool : Pool deployment) : Label (system deployment) → Prop
  | .spawn _ => ∀ caller < pool.spawned, pool.running caller = none
  | .perform _ choice => World.faultless choice
  | .crash _ => True

/-- The same as a check. -/
def sequential (pool : Pool deployment) : Label (system deployment) → Bool
  | .spawn _ => (List.range pool.spawned).all fun caller => (pool.running caller).isNone
  | label => undisturbed label || label matches .crash _

theorem sequential_sound (pool : Pool deployment) (label : Label (system deployment))
    (checked : sequential pool label = true) : Sequential pool label := by
  cases label with
  | spawn job =>
      intro caller bound
      simp only [sequential, List.all_eq_true, List.mem_range, Option.isNone_iff_eq_none]
        at checked
      exact checked caller bound
  | perform caller choice => cases choice <;> trivial
  | crash startup => trivial

/-- The status that an answered request wrote for an action, if it wrote one. -/
def persisted (codec : Codec) (actionId : ActionId) (before : World) :
    (op : Op) → op.Answer → Option ActionStatus
  | .command (.putAction action), .ok _ =>
      if action.actionId = actionId then some action.status else none
  | .command (.claimActionForExecution claimed now), .ok _ =>
      match before.db.getAction actionId,
        (before.db.claimActionForExecution codec claimed now).2.getAction actionId with
      | some old, some new => if old.status = new.status then none else some new.status
      | _, _ => none
  | _, _ => none

/-- The statuses written for an action, newest first. -/
def history (actionId : ActionId) (trace : List (Entry (system deployment))) :
    List ActionStatus :=
  trace.filterMap fun entry =>
    persisted deployment.codec actionId entry.before entry.op entry.answer

/-- The statuses that an action has gone through, newest first. -/
def course (actionId : ActionId) (trace : List (Entry (system deployment))) :
    List ActionStatus :=
  history actionId trace ++ [.proposed]

/-- A non-empty path of transitions from the older to the newer status. -/
def Leads (newer older : ActionStatus) : Prop :=
  Relation.TransGen (fun source target => source.canTransition target = true) older newer

/-- The stored status of an action; an action that is not stored is proposed. -/
def current (db : Database) (actionId : ActionId) : ActionStatus :=
  match db.getAction actionId with
  | some stored => stored.status
  | none => .proposed

def InFlight (status : ActionStatus) : Prop :=
  status = .preconditionCheck ∨ status = .executing ∨ status = .verifying

/-- The statuses of an action whose mutation was started. -/
def Begun (status : ActionStatus) : Prop :=
  status = .executing ∨ status = .succeeded ∨ status = .rollbackProposed ∨
    status = .needsReconciliation

/-- The latest call was a recovery, and it has returned. -/
def Recovered (pool : Pool deployment) : Prop :=
  ∃ caller result, caller + 1 = pool.spawned ∧
    pool.calls caller = some (.recover, .pure result)

/-- Has the latest call returned from a recovery? -/
def hasRecovered (pool : Pool deployment) : Bool :=
  match pool.calls (pool.spawned - 1) with
  | some (.recover, .pure _) => decide (pool.spawned ≠ 0)
  | _ => false

theorem recovered_of_hasRecovered {pool : Pool deployment} (checked : hasRecovered pool = true) :
    Recovered pool := by
  unfold hasRecovered at checked
  split at checked
  · rename_i result found
    have spawned : pool.spawned ≠ 0 := by simpa using checked
    exact ⟨pool.spawned - 1, result, by omega, found⟩
  · cases checked

theorem not_leads_of_isTerminal {newer older : ActionStatus} (leads : Leads newer older) :
    older.isTerminal = false := by
  cases terminal : older.isTerminal with
  | false => rfl
  | true =>
      obtain ⟨next, moves, -⟩ := Relation.TransGen.head'_iff.mp leads
      rw [ActionStatus.not_canTransition_of_isTerminal terminal] at moves
      cases moves

/-- What holds of the store and of the history of its writes. -/
structure Consistent (world : World) (trace : List (Entry (system deployment))) : Prop where
  unique : world.db.ActionsUnique
  known : ∀ actionId stored, world.db.getAction actionId = some stored →
    actionId.uuid < world.nextId
  recorded : ∀ actionId, (course actionId trace).head? =
    some (current world.db actionId)
  connected : ∀ actionId, (course actionId trace).IsChain Leads
  begun : ∀ actionId, starts actionId trace ≠ 0 → Begun (current world.db actionId)

section

variable {world after : World} {trace : List (Entry (system deployment))} {caller : Nat} {job : Job}
  {op : Op} {answer : op.Answer}

theorem history_cons (actionId : ActionId) (entry : Entry (system deployment))
    (trace : List (Entry (system deployment))) :
    history actionId (entry :: trace) =
      (persisted deployment.codec actionId entry.before entry.op entry.answer).toList ++
        history actionId trace := by
  rw [history, List.filterMap_cons]
  split
  · rename_i none
    rw [none]
    rfl
  · rename_i status written
    rw [written]
    rfl

theorem course_cons (actionId : ActionId) (entry : Entry (system deployment))
    (trace : List (Entry (system deployment))) :
    course actionId (entry :: trace) =
      (persisted deployment.codec actionId entry.before entry.op entry.answer).toList ++
        course actionId trace := by
  rw [course, history_cons, List.append_assoc, course]

/-- A request that writes nothing about actions and starts nothing. -/
theorem Consistent.keep (consistent : Consistent world trace)
    (unwritten : ∀ actionId, persisted deployment.codec actionId world op answer = none)
    (startless : startedRunner op = none) (table : after.db.actions = world.db.actions)
    (ids : world.nextId ≤ after.nextId) :
    Consistent after (⟨caller, job, world, op, answer⟩ :: trace) := by
  have rows (actionId : ActionId) :
      after.db.getAction actionId = world.db.getAction actionId :=
    Database.getAction_of_actions table actionId
  have statuses (actionId : ActionId) : current after.db actionId = current world.db actionId := by
    rw [current, rows, current]
  have same (actionId : ActionId) :
      course actionId (⟨caller, job, world, op, answer⟩ :: trace) = course actionId trace := by
    rw [course_cons, unwritten]
    rfl
  constructor
  · rw [Database.ActionsUnique, table]
    exact consistent.unique
  · intro actionId stored found
    rw [rows] at found
    exact Nat.lt_of_lt_of_le (consistent.known actionId stored found) ids
  · intro actionId
    rw [same, statuses]
    exact consistent.recorded actionId
  · intro actionId
    rw [same]
    exact consistent.connected actionId
  · intro actionId started
    rw [starts_cons, startless] at started
    rw [statuses]
    exact consistent.begun actionId (by simpa using started)

/-- A request that writes one action's record. -/
theorem Consistent.write (record : ActionRecord) (consistent : Consistent world trace)
    (written : ∀ actionId, persisted deployment.codec actionId world op answer =
      if actionId = record.actionId then some record.status else none)
    (startless : startedRunner op = none)
    (rows : ∀ actionId, after.db.getAction actionId =
      if actionId = record.actionId then some record else world.db.getAction actionId)
    (unique : after.db.ActionsUnique) (ids : world.nextId ≤ after.nextId)
    (known : record.actionId.uuid < after.nextId)
    (leads : Leads record.status (current world.db record.actionId))
    (begun : starts record.actionId trace ≠ 0 → Begun record.status) :
    Consistent after (⟨caller, job, world, op, answer⟩ :: trace) := by
  have statuses (actionId : ActionId) : current after.db actionId =
      if actionId = record.actionId then record.status else current world.db actionId := by
    rw [current, rows, current]
    by_cases same : actionId = record.actionId <;> simp [same]
  constructor
  · exact unique
  · intro actionId stored found
    rw [rows] at found
    split at found
    · rename_i same
      exact same ▸ known
    · exact Nat.lt_of_lt_of_le (consistent.known actionId stored found) ids
  · intro actionId
    rw [course_cons, written, statuses]
    split
    · rfl
    · exact consistent.recorded actionId
  · intro actionId
    rw [course_cons, written]
    split
    · rename_i same
      subst same
      refine (consistent.connected record.actionId).cons fun older head => ?_
      rw [Option.mem_def, consistent.recorded] at head
      cases head
      exact leads
    · exact consistent.connected actionId
  · intro actionId started
    rw [starts_cons, startless] at started
    rw [statuses]
    split
    · rename_i same
      subst same
      exact begun (by simpa using started)
    · exact consistent.begun actionId (by simpa using started)

/-- The start of the runner of an executing action. -/
theorem Consistent.start {record : ActionRecord} (consistent : Consistent world trace)
    (executing : current world.db record.actionId = .executing) :
    Consistent world (⟨caller, job, world, .startRunner record false, ()⟩ :: trace) := by
  constructor
  · exact consistent.unique
  · exact consistent.known
  · exact consistent.recorded
  · exact consistent.connected
  · intro actionId started
    rw [starts_cons] at started
    by_cases same : record.actionId = actionId
    · subst same
      exact .inl executing
    · exact consistent.begun actionId (by simpa [startedRunner, same] using started)

end

/-- What a control point knows about the store while no other call runs. -/
def Agrees (world : World) : Control → Prop
  | .weighing stored _ _ => world.db.getAction stored.actionId = some stored
  | .claimed record =>
      world.db.getAction record.actionId = some record ∧ record.status = .preconditionCheck
  | .executing record | .started record =>
      world.db.getAction record.actionId = some record ∧ record.status = .executing
  | .drafted actionId => world.db.getAction actionId = none ∧ actionId.uuid < world.nextId
  | .recovering _ todo =>
      (todo.map ActionRecord.actionId).Nodup ∧
      (∀ stored ∈ todo, world.db.getAction stored.actionId = some stored) ∧
      ∀ actionId stored, world.db.getAction actionId = some stored → InFlight stored.status →
        stored ∈ todo
  | .recovered => ∀ actionId stored, world.db.getAction actionId = some stored →
      ¬ InFlight stored.status
  | .faulted => False
  | _ => True

theorem Agrees.keep {world after : World} {control : Control} (agrees : Agrees world control)
    (table : after.db.actions = world.db.actions) (ids : world.nextId ≤ after.nextId) :
    Agrees after control := by
  have rows (actionId : ActionId) :
      after.db.getAction actionId = world.db.getAction actionId :=
    Database.getAction_of_actions table actionId
  cases control with
  | drafted actionId =>
      exact ⟨by rw [rows]; exact agrees.1, Nat.lt_of_lt_of_le agrees.2 ids⟩
  | weighing | claimed | executing | started | recovering | recovered =>
      simpa only [Agrees, rows] using agrees
  | faulted => exact agrees
  | _ => trivial

structure Holds (pool : Pool deployment) (controls : Nat → Option Control) : Prop where
  consistent : Consistent pool.state pool.trace
  live : ∀ caller control, controls caller = some control →
    caller + 1 = pool.spawned ∧ Agrees pool.state control
  settled : ∀ caller result, caller + 1 = pool.spawned →
    pool.calls caller = some (.recover, .pure result) → controls caller = none →
    Agrees pool.state .recovered

section

variable {pool : Pool deployment} {controls : Nat → Option Control} {caller : Nat} {job : Job}
  {op : Op} {answer : op.Answer} {rest : Program serviceInterface (Result Returned)}
  {before after : Control} {choice : Choice} {state : World}

/-- Only the latest call makes requests. -/
theorem Holds.step (holds : Holds pool controls) (held : controls caller = some before)
    (consistent : Consistent state (⟨caller, job, pool.state, op, answer⟩ :: pool.trace))
    (agrees : Agrees state after) :
    Holds (pool.record caller job op answer rest state)
      (assign controls caller (some after)) := by
  have latest := (holds.live caller before held).1
  refine ⟨consistent, ?_, ?_⟩
  · intro other control assigned
    rcases assign_eq_some assigned with ⟨rfl, equal⟩ | ⟨different, heldOther⟩
    · cases equal
      exact ⟨latest, agrees⟩
    · have alone := (holds.live other control heldOther).1
      exact absurd (Nat.succ.inj (alone.trans latest.symm)) different
  · intro other result last found unheld
    obtain rfl : other = caller := Nat.succ.inj (last.trans latest.symm)
    simp at unheld

theorem persisted_quiet {codec : Codec} (quiet : Quiet op) (actionId : ActionId) :
    persisted codec actionId state op answer = none := by
  unfold persisted
  split
  · exact quiet.elim
  · exact quiet.elim
  · rfl

/-- A quiet request, after which the call is at a point that agrees. -/
theorem Holds.quiet (holds : Holds pool controls) (held : controls caller = some before)
    (quiet : Quiet op)
    (performed : World.perform deployment.content deployment.codec op choice pool.state =
      some (answer, state))
    (agrees : Agrees state after) :
    Holds (pool.record caller job op answer rest state)
      (assign controls caller (some after)) :=
  holds.step held
    (holds.consistent.keep (persisted_quiet quiet) (startedRunner_quiet quiet)
      (perform_quiet quiet performed) (World.perform_nextId performed))
    agrees

/-- The write of a record that continues the course of its action. -/
theorem Holds.put {record : ActionRecord} {answer : Result Unit} (holds : Holds pool controls)
    (held : controls caller = some before) (settles : World.faultless choice)
    (performed : World.perform deployment.content deployment.codec
      (.command (.putAction record)) choice pool.state = some (answer, state))
    (known : record.actionId.uuid < pool.state.nextId)
    (leads : Leads record.status (current pool.state.db record.actionId))
    (begun : starts record.actionId pool.trace ≠ 0 → Begun record.status)
    (agrees : (∀ actionId, state.db.getAction actionId =
      if actionId = record.actionId then some record else pool.state.db.getAction actionId) →
      Agrees state after) :
    Holds (pool.record caller job (.command (.putAction record)) answer rest state)
      (assign controls caller (some after)) := by
  have ids := World.perform_nextId performed
  have unique := perform_unique performed holds.consistent.unique
  rcases perform_putAction performed with ⟨rfl, rows⟩ | ⟨⟨error, rfl⟩, -⟩
  · refine holds.step held (holds.consistent.write record ?_ rfl rows unique ids
      (Nat.lt_of_lt_of_le known ids) leads begun) (agrees rows)
    intro actionId
    simp only [persisted, eq_comm]
  · obtain ⟨clock, answered, -⟩ := World.perform_command_faultless settles performed
    cases answered

end

theorem current_of_getAction {db : Database} {record stored : ActionRecord}
    (found : db.getAction record.actionId = some stored) :
    current db record.actionId = stored.status := by
  rw [current, found]

/-- One transition. -/
theorem leads_single {older newer : ActionStatus} (moves : older.canTransition newer = true) :
    Leads newer older := Relation.TransGen.single moves

theorem Leads.tail {older middle newer : ActionStatus} (leads : Leads middle older)
    (moves : middle.canTransition newer = true) : Leads newer older :=
  Relation.TransGen.tail leads moves

/-- Where an execution can leave an action, by the transitions it goes through. -/
theorem leads_of_conclude {status : ActionStatus}
    (settled : status = .needsReconciliation ∨ status = .succeeded ∨
      status = .rollbackProposed) : Leads status .executing := by
  have verifying : Leads .verifying .executing := leads_single rfl
  have failed : Leads .verificationFailed .executing := verifying.tail rfl
  rcases settled with rfl | rfl | rfl
  · exact leads_single rfl
  · exact verifying.tail rfl
  · exact (failed.tail rfl)

theorem leads_of_propose {status : ActionStatus}
    (drafted : status = .policyDenied ∨ status = .invalid ∨ status = .awaitingApproval) :
    Leads status .proposed := by
  have dryRun : Leads .dryRun .proposed := leads_single rfl
  rcases drafted with rfl | rfl | rfl
  · exact leads_single rfl
  · exact dryRun.tail rfl
  · exact dryRun.tail rfl

/-- Recovery keeps an action that was started among the started ones. -/
theorem begun_of_recovered {action : ActionRecord} {now : DateTime} {status : ActionStatus}
    (begun : Begun action.status) (moves : recoveredStatus action now = some status) :
    Begun status := by
  rcases begun with executing | other | other | other
  · simp only [recoveredStatus, executing, Option.some.injEq] at moves
    exact .inr (.inr (.inr moves.symm))
  all_goals
    simp only [recoveredStatus, other] at moves
    cases moves

theorem recoveredStatus_of_inFlight {action : ActionRecord} {now : DateTime}
    (inFlight : InFlight action.status) : recoveredStatus action now ≠ none := by
  rcases inFlight with status | status | status <;> simp [recoveredStatus, status]

theorem not_begun {status : ActionStatus}
    (idle : status = .proposed ∨ status = .awaitingApproval ∨ status = .preconditionCheck) :
    ¬ Begun status := by
  rcases idle with rfl | rfl | rfl <;> simp [Begun]

theorem not_inFlight_of_recovered {action : ActionRecord} {now : DateTime}
    {status : ActionStatus} (moves : recoveredStatus action now = some status) :
    ¬ InFlight status := by
  rcases recoveredStatus_eq_some moves with rfl | rfl <;> simp [InFlight]

/-- A recovery that has moved one action has the later ones left. -/
theorem agrees_recovering {world after : World} {now : DateTime}
    {skipped rest : List ActionRecord} {stored : ActionRecord} {status : ActionStatus}
    (agrees : Agrees world (.recovering now (skipped ++ stored :: rest)))
    (unmoved : ∀ action ∈ skipped, recoveredStatus action now = none)
    (moves : recoveredStatus stored now = some status)
    (written : ∀ actionId, after.db.getAction actionId =
      if actionId = stored.actionId then some (stored.moveTo status now)
      else world.db.getAction actionId) : Agrees after (.recovering now rest) := by
  obtain ⟨unique, rows, covers⟩ := agrees
  simp only [List.map_append, List.map_cons, List.nodup_append, List.nodup_cons] at unique
  obtain ⟨-, ⟨distinct, uniqueRest⟩, -⟩ := unique
  refine ⟨uniqueRest, ?_, ?_⟩
  · intro later member
    have different : later.actionId ≠ stored.actionId := by
      intro same
      exact distinct (same ▸ List.mem_map_of_mem member)
    rw [written, if_neg different]
    exact rows later (by simp [member])
  · intro actionId row found inFlight
    rw [written] at found
    split at found
    · cases found
      exact absurd inFlight (not_inFlight_of_recovered moves)
    · rename_i different
      have key := Database.getAction_actionId found
      have member := covers actionId row found inFlight
      rcases List.mem_append.mp member with early | late
      · exact absurd (unmoved row early) (recoveredStatus_of_inFlight inFlight)
      · rcases List.mem_cons.mp late with rfl | later
        · exact absurd key.symm different
        · exact later

section

variable {pool : Pool deployment} {controls : Nat → Option Control} {caller : Nat} {job : Job}
  {before after : Control} {choice : Choice} {state : World}

/-- A claim moves an authorized action, or writes nothing. -/
theorem Holds.claim {actionId : ActionId} {now : DateTime}
    {answer : Result (Option ActionRecord)}
    {rest : Program serviceInterface (Result Returned)} (holds : Holds pool controls)
    (held : controls caller = some before) (settles : World.faultless choice)
    (performed : World.perform deployment.content deployment.codec
      (.command (.claimActionForExecution actionId now)) choice pool.state =
      some (answer, state))
    (agrees : ∀ record, answer = .ok (some record) →
      state.db.getAction record.actionId = some record → record.status = .preconditionCheck →
      Agrees state after)
    (refused : claimedBy (.command (.claimActionForExecution actionId now)) answer = none →
      Agrees state after) :
    Holds (pool.record caller job (.command (.claimActionForExecution actionId now)) answer rest
      state) (assign controls caller (some after)) := by
  obtain ⟨clock, answered, written⟩ := World.perform_command_faultless settles performed
  have ids := World.perform_nextId performed
  have unique := perform_unique performed holds.consistent.unique
  simp only [Command.run] at answered written
  have spec : Database.Claimed deployment.codec pool.state.db actionId now
      (pool.state.db.claimActionForExecution deployment.codec actionId now) :=
    Database.claimActionForExecution_spec actionId now
  -- What the history keeps of a claim that was answered without an error.
  have kept (answer : Option ActionRecord) (other : ActionId) :
      persisted deployment.codec other pool.state
        (.command (.claimActionForExecution actionId now)) (.ok answer) =
        match pool.state.db.getAction other, state.db.getAction other with
        | some old, some new => if old.status = new.status then none else some new.status
        | _, _ => none := by
    rw [written]
    simp only [persisted]
  have dbEq : state.db =
      (pool.state.db.claimActionForExecution deployment.codec actionId now).2 := by
    rw [written]
  generalize pool.state.db.claimActionForExecution deployment.codec actionId now = outcome
    at spec answered dbEq
  have unchanged {answer : Result (Option ActionRecord)} (same : state.db = pool.state.db)
      (agrees : Agrees state after) :
      Holds (pool.record caller job (.command (.claimActionForExecution actionId now)) answer
        rest state) (assign controls caller (some after)) := by
    refine holds.step held (holds.consistent.keep ?_ rfl (by rw [same]) ids) agrees
    intro other
    cases answer with
    | error error => rfl
    | ok found =>
        rw [kept, same]
        cases pool.state.db.getAction other <;> simp
  -- A row that moved away from its authorization.
  have moved {answer : Option ActionRecord} {stored : ActionRecord} {status : ActionStatus}
      (found : pool.state.db.getAction actionId = some stored)
      (authorized : stored.status = .authorized)
      (moves : ActionStatus.authorized.canTransition status = true)
      (different : status ≠ .authorized)
      (rows : ∀ other, state.db.getAction other =
        if other = actionId then some (stored.moveTo status now)
        else pool.state.db.getAction other) (agrees : Agrees state after) :
      Holds (pool.record caller job (.command (.claimActionForExecution actionId now))
        (.ok answer) rest state) (assign controls caller (some after)) := by
    have key := Database.getAction_actionId found
    subst key
    have at' : current pool.state.db stored.actionId = .authorized := by
      rw [current_of_getAction found, authorized]
    refine holds.step held (holds.consistent.write (stored.moveTo status now) ?_ rfl
      rows unique ids ?_ ?_ ?_) agrees
    · intro other
      rw [kept, rows]
      by_cases same : other = stored.actionId
      · subst same
        simp [found, authorized, different.symm]
      · rw [if_neg same, ActionRecord.moveTo_actionId, if_neg same]
        cases pool.state.db.getAction other <;> simp
    · exact Nat.lt_of_lt_of_le (holds.consistent.known _ _ found) ids
    · rw [ActionRecord.moveTo_actionId, at']
      exact leads_single moves
    · intro started
      have begun := holds.consistent.begun _ started
      rw [ActionRecord.moveTo_actionId, at'] at begun
      simp [Begun] at begun
  cases spec with
  | missing =>
      subst answered
      exact unchanged dbEq (refused rfl)
  | refused =>
      subst answered
      exact unchanged dbEq (refused rfl)
  | expired found status late rows =>
      subst answered
      dsimp only at dbEq
      rw [← dbEq] at rows
      exact moved found status rfl (by decide) rows (refused rfl)
  | @claimed stored _ found status early consumed bound rows =>
      subst answered
      dsimp only at dbEq
      rw [← dbEq] at rows
      have key := Database.getAction_actionId found
      refine moved found status rfl (by decide) rows (agrees _ rfl ?_ rfl)
      rw [rows, ActionRecord.moveTo_actionId, if_pos key]

/-- A write to a row that the call has seen. -/
theorem Holds.update {stored record : ActionRecord} {answer : Result Unit}
    {rest : Program serviceInterface (Result Returned)} (holds : Holds pool controls)
    (held : controls caller = some before) (settles : World.faultless choice)
    (performed : World.perform deployment.content deployment.codec
      (.command (.putAction record)) choice pool.state = some (answer, state))
    (found : pool.state.db.getAction stored.actionId = some stored)
    (same : record.actionId = stored.actionId) (leads : Leads record.status stored.status)
    (begun : Begun stored.status → Begun record.status)
    (agrees : (∀ actionId, state.db.getAction actionId =
      if actionId = record.actionId then some record else pool.state.db.getAction actionId) →
      Agrees state after) :
    Holds (pool.record caller job (.command (.putAction record)) answer rest state)
      (assign controls caller (some after)) := by
  have at' : current pool.state.db record.actionId = stored.status := by
    rw [same, current_of_getAction found]
  refine holds.put held settles performed ?_ ?_ ?_ agrees
  · rw [same]
    exact holds.consistent.known stored.actionId stored found
  · rw [at']
    exact leads
  · intro started
    have before := holds.consistent.begun record.actionId started
    rw [at'] at before
    exact begun before

theorem Holds.perform {op : Op} {next : op.Answer → Program serviceInterface (Result Returned)}
    {answer : op.Answer} (holds : Holds pool controls) (settles : World.faultless choice)
    (held : controls caller = some before) (advance : Advance before op answer after)
    (performed : World.perform deployment.content deployment.codec op choice pool.state =
      some (answer, state)) :
    Holds (pool.record caller job op answer (next answer) state)
      (assign controls caller (some after)) := by
  have agrees := (holds.live caller before held).2
  cases advance with
  | quiet quiet =>
      exact holds.quiet held quiet performed
        (agrees.keep (perform_quiet quiet performed) (World.perform_nextId performed))
  | accept => exact holds.quiet held trivial performed trivial
  | clock => exact holds.quiet held trivial performed trivial
  | weigh =>
      refine holds.quiet held trivial performed ?_
      obtain ⟨rfl, answered⟩ := World.perform_query_faultless settles performed
      simp only [Query.run, Except.ok.injEq] at answered
      simp only [Agrees]
      rw [Database.getAction_actionId answered.symm]
      exact answered.symm
  | decide decides =>
      refine holds.update held settles performed agrees decides.actionId ?_ ?_ fun _ => trivial
      · rw [decides.awaiting]
        rcases decides.moves with moved | moved | moved <;> rw [moved] <;>
          exact leads_single rfl
      · intro begun
        rw [decides.awaiting] at begun
        exact absurd begun (not_begun (.inr (.inl rfl)))
  | claim => exact holds.claim held settles performed (fun record equal found status => by
      cases equal
      exact ⟨found, status⟩) (fun none => by cases none)
  | unclaimed none =>
      exact holds.claim held settles performed (fun _ _ _ _ => trivial) fun _ => trivial
  | refuse status written =>
      obtain ⟨found, checked⟩ := agrees
      refine holds.update held settles performed found written.actionId ?_ ?_ fun _ => trivial
      · rw [checked, status]
        exact leads_single rfl
      · intro begun
        rw [checked] at begun
        exact absurd begun (not_begun (.inr (.inr rfl)))
  | begin status written =>
      obtain ⟨found, checked⟩ := agrees
      refine holds.update held settles performed found written.actionId ?_ ?_ fun rows => ?_
      · rw [checked, status]
        exact leads_single rfl
      · exact fun _ => .inl status
      · exact ⟨by rw [rows, if_pos rfl], status⟩
  | beginFailed =>
      obtain ⟨clock, answered, -⟩ := World.perform_command_faultless settles performed
      cases answered
  | start =>
      obtain rfl : pool.state = state := by
        cases choice <;> cases performed
        rfl
      refine holds.step held (holds.consistent.start ?_) agrees
      rw [current_of_getAction agrees.1, agrees.2]
  | conclude status written =>
      obtain ⟨found, executing⟩ := agrees
      refine holds.update held settles performed found written.actionId ?_ ?_ fun _ => trivial
      · rw [executing]
        exact leads_of_conclude status
      · intro _
        rcases status with reached | reached | reached <;> rw [reached, Begun] <;> simp
  | identify =>
      refine holds.quiet held trivial performed ?_
      cases choice <;> cases performed
      refine ⟨?_, Nat.lt_succ_self _⟩
      cases found : pool.state.db.getAction ⟨pool.state.nextId⟩ with
      | none => rfl
      | some stored =>
          exact absurd (holds.consistent.known _ stored found) (Nat.lt_irrefl _)
  | @propose _ record _ same status =>
      subst same
      obtain ⟨absent, known⟩ := agrees
      have at' : current pool.state.db record.actionId = .proposed := by
        rw [current, absent]
      refine holds.put held settles performed known ?_ ?_ fun _ => trivial
      · rw [at']
        exact leads_of_propose status
      · intro started
        have begun := holds.consistent.begun _ started
        rw [at'] at begun
        exact absurd begun (not_begun (.inl rfl))
  | list =>
      refine holds.quiet held trivial performed ?_
      obtain ⟨rfl, answered⟩ := World.perform_query_faultless settles performed
      simp only [Query.run, Except.ok.injEq] at answered
      subst answered
      refine ⟨?_, ?_, ?_⟩
      · exact (List.filter_sublist.map _).nodup holds.consistent.unique
      · intro stored member
        exact Database.getAction_of_mem holds.consistent.unique (List.mem_filter.mp member).1
      · intro actionId stored found inFlight
        refine List.mem_filter.mpr ⟨Database.mem_of_getAction found, ?_⟩
        rcases inFlight with status | status | status <;> rw [status] <;> rfl
  | @recoverAction now skipped stored rest status unmoved moves =>
      obtain ⟨unique, rows, covers⟩ := agrees
      have found := rows stored (by simp)
      refine holds.update held settles performed found rfl
        (leads_single (recoveredStatus_canTransition moves))
        (fun begun => begun_of_recovered begun moves) fun written => ?_
      exact agrees_recovering ⟨unique, rows, covers⟩ unmoved moves written
  | recoverFailed =>
      obtain ⟨clock, answered, -⟩ := World.perform_command_faultless settles performed
      cases answered
  | unlisted lists =>
      obtain ⟨-, answered⟩ := World.perform_query_faultless settles performed
      rcases lists with rfl | rfl <;> cases answered
  | unexpired =>
      obtain ⟨clock, answered, -⟩ := World.perform_command_faultless settles performed
      cases answered
  | recovered unmoved =>
      refine holds.quiet held trivial performed ?_
      obtain ⟨rfl, -⟩ := World.perform_query_faultless settles performed
      intro actionId stored found inFlight
      exact recoveredStatus_of_inFlight inFlight
        (unmoved stored (agrees.2.2 actionId stored found inFlight))

end

theorem Holds.spawn {pool : Pool deployment} {controls : Nat → Option Control} (job : Job)
    (tracks : Tracks protocol ends pool controls)
    (idle : ∀ caller < pool.spawned, pool.running caller = none)
    (holds : Holds pool controls) :
    Holds (Pool.spawn pool job) (assign controls pool.spawned (some (begins job))) := by
  have quiet (caller : Nat) (control : Control) : controls caller ≠ some control := by
    intro held
    obtain ⟨_, running⟩ := tracks.running_of_control held
    by_cases bound : caller < pool.spawned
    · rw [idle caller bound] at running
      cases running
    · rw [tracks.control_none (Nat.le_of_not_lt bound)] at held
      cases held
  refine ⟨holds.consistent, ?_, ?_⟩
  · intro caller control assigned
    rcases assign_eq_some assigned with ⟨rfl, equal⟩ | ⟨_, held⟩
    · cases equal
      refine ⟨rfl, ?_⟩
      cases job <;> trivial
    · exact absurd held (quiet caller control)
  · intro caller result last found unheld
    obtain rfl : caller = pool.spawned := Nat.succ.inj last
    simp at unheld

theorem Holds.finish {pool : Pool deployment} {controls : Nat → Option Control} {caller : Nat}
    {job : Job} {result : Result Returned} {control : Control}
    (found : pool.calls caller = some (job, .pure result))
    (held : controls caller = some control) (ended : ends job result control)
    (holds : Holds pool controls) : Holds pool (assign controls caller none) := by
  refine ⟨holds.consistent, ?_, ?_⟩
  · intro other control' assigned
    rcases assign_eq_some assigned with ⟨_, equal⟩ | ⟨_, heldOther⟩
    · cases equal
    · exact holds.live other control' heldOther
  · intro other result' last returned unheld
    obtain ⟨latest, agrees⟩ := holds.live caller control held
    obtain rfl : other = caller := Nat.succ.inj (last.trans latest.symm)
    rw [found] at returned
    cases returned
    rcases ended with rfl | rfl
    · exact agrees
    · exact agrees.elim

theorem Holds.crash {pool : Pool deployment} {controls : Nat → Option Control}
    (startup : Catalog) (holds : Holds pool controls) :
    Holds (Pool.crash pool startup) fun _ => none := by
  refine ⟨?_, by simp, by simp [Pool.crash]⟩
  exact ⟨holds.consistent.unique, holds.consistent.known, holds.consistent.recorded,
    holds.consistent.connected, holds.consistent.begun⟩

/-- The invariant of sequential runs. -/
theorem invariant : Invariant (system deployment) protocol begins ends Sequential Holds where
  spawn job tracks idle holds := holds.spawn job tracks idle
  perform := by
    intro pool controls caller job op next before after choice answer state _ settles _ held
      advance performed holds
    exact @Holds.perform deployment pool controls caller job before after choice state op next
      answer holds settles held advance performed
  finish found held ended holds := holds.finish found held ended
  crash startup _ _ holds := holds.crash startup

theorem holds_of_boots {pool : Pool deployment} (boots : Boots deployment pool) :
    (∀ caller, pool.calls caller = none) ∧ Holds pool fun _ => none := by
  obtain ⟨world, empty, rfl⟩ := boots
  have absent (actionId : ActionId) : world.db.getAction actionId = none := by
    simp [Database.getAction, Table.lookup, empty]
  refine ⟨fun _ => rfl, ⟨?_, ?_, ?_, ?_, ?_⟩, by simp, by simp [Pool.boot]⟩
  · simp [Pool.boot, Database.ActionsUnique, empty]
  · intro actionId stored found
    cases (absent actionId).symm.trans found
  · intro actionId
    simp [Pool.boot, current, absent, course, history]
  · intro actionId
    simp [Pool.boot, course, history]
  · intro actionId started
    simp [Pool.boot, starts] at started

end LifeCycle

open LifeCycle

/-- The life cycle of one action in one pool. -/
structure FollowsLifeCycle {deployment : Deployment} (pool : Pool deployment)
    (actionId : ActionId) : Prop where
  /-- Each written status is reached by transitions from the one before it, and
  the first one from the proposal. -/
  connected : (course actionId pool.trace).IsChain Leads
  terminal : ∀ older ∈ (course actionId pool.trace).tail, older.isTerminal = false
  unauthorized : starts actionId pool.trace ≠ 0 →
    ∀ stored, pool.state.db.getAction actionId = some stored → stored.status ≠ .authorized
  recovered : Recovered pool →
    ∀ stored, pool.state.db.getAction actionId = some stored → ¬ InFlight stored.status
  outcome : Recovered pool → starts actionId pool.trace ≠ 0 →
    ∃ stored, pool.state.db.getAction actionId = some stored ∧
      (stored.status = .succeeded ∨ stored.status = .rollbackProposed ∨
        stored.status = .needsReconciliation)

/-- Only the newest status of a course can be terminal. -/
theorem LifeCycle.tail_not_terminal {statuses : List ActionStatus}
    (chain : statuses.IsChain Leads) : ∀ older ∈ statuses.tail, older.isTerminal = false := by
  induction statuses with
  | nil => simp
  | cons newest rest ih =>
      intro older member
      rw [List.tail_cons] at member
      cases rest with
      | nil => cases member
      | cons next later =>
          rw [List.isChain_cons_cons] at chain
          rcases List.mem_cons.mp member with rfl | old
          · exact not_leads_of_isTerminal chain.1
          · exact ih chain.2 older old

/-- In every sequential run of remediation calls, with crashes at any step, every
action follows its life cycle. -/
theorem followsLifeCycle (deployment : Deployment) (pool : Pool deployment)
    (reached : Pool.Reachable Sequential (Boots deployment) pool) (actionId : ActionId) :
    FollowsLifeCycle pool actionId := by
  obtain ⟨controls, tracks, holds⟩ :=
    Invariant.reachable invariant (fun _ => holds_of_boots) (conforms deployment) reached
  have chain := holds.consistent.connected actionId
  have settled (recovered : Recovered pool) : Agrees pool.state .recovered := by
    obtain ⟨caller, result, latest, found⟩ := recovered
    refine holds.settled caller result latest found ?_
    have follows := tracks.follows caller
    rw [found] at follows
    cases held : controls caller with
    | none => rfl
    | some control =>
        rw [held] at follows
        obtain ⟨_, _, _, equal, _⟩ := follows.of_control
        cases equal
  refine ⟨chain, tail_not_terminal chain, ?_, fun recovered => settled recovered actionId, ?_⟩
  · intro started stored found authorized
    have begun := holds.consistent.begun actionId started
    simp [current, found, Begun, authorized] at begun
  · intro recovered started
    have begun := holds.consistent.begun actionId started
    cases found : pool.state.db.getAction actionId with
    | none =>
        rw [current, found] at begun
        exact absurd begun (not_begun (.inl rfl))
    | some stored =>
        rw [current, found] at begun
        refine ⟨stored, rfl, ?_⟩
        rcases begun with executing | ended
        · exact absurd (.inr (.inl executing)) (settled recovered actionId stored found)
        · exact ended

namespace LifeCycle

/-- A crash right after the runner has started, and the recovery that follows. -/
def crashedExecution : List Demo.Step :=
  Demo.propose 0 ++ [Demo.approval] ++ Demo.weigh 1 ++ Demo.decide 1 ++ Demo.execute 2 ++
    [Demo.crash, Demo.spawn .recover] ++ List.replicate 6 (Demo.settle 3)

end LifeCycle

theorem followsLifeCycle_crashedExecution :
    ∃ pool : Pool Demo.deployment,
      Pool.Reachable Sequential (Boots Demo.deployment) pool ∧ Recovered pool ∧
      starts Demo.action pool.trace = 1 ∧ FollowsLifeCycle pool Demo.action := by
  have ran : (Pool.runChecked sequential crashedExecution Demo.pool).map
      (fun pool => (hasRecovered pool, starts Demo.action pool.trace)) = some (true, 1) := by
    rfl
  obtain ⟨pool, final, shown⟩ := Option.map_eq_some_iff.mp ran
  rw [Prod.mk.injEq] at shown
  have reached : Pool.Reachable Sequential (Boots Demo.deployment) pool :=
    .of_runChecked sequential_sound (.start Demo.boots) final
  exact ⟨pool, reached, recovered_of_hasRecovered shown.1, shown.2,
    followsLifeCycle Demo.deployment pool reached Demo.action⟩

end OpsCodex.Remediation
