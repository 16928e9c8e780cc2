import OpsCodex.Runtime.Agent

/-! What each kind of request can change in the world. -/

set_option autoImplicit false

namespace OpsCodex.Runtime

open OpsCodex.Action OpsCodex.Store

namespace World

variable {content : Content} {codec : Codec}

theorem perform_query {query : Query} {choice : Choice} {world after : World}
    {answer : Result query.Value}
    (performed : perform content codec (.query query) choice world = some (answer, after)) :
    after = world ∧
      (answer = query.run content world.db ∨ ∃ message, answer = .error (.storage message)) := by
  cases choice <;>
    simp only [perform, Option.some.injEq, Prod.mk.injEq, reduceCtorEq] at performed
  · exact ⟨performed.2.symm, .inl performed.1.symm⟩
  · exact ⟨performed.2.symm, .inr ⟨_, performed.1.symm⟩⟩

/-- A write completes, fails without effect, or fails between two statements. -/
theorem perform_command {command : Command} {choice : Choice} {world after : World}
    {answer : Result command.Value}
    (performed :
      perform content codec (.command command) choice world = some (answer, after)) :
    (∃ clock, answer = (command.run codec clock world.nextId world.db).1 ∧
      after = { world with
        db := (command.run codec clock world.nextId world.db).2
        nextId := world.nextId + 1 }) ∨
    (∃ message, answer = .error (.storage message) ∧ after = world) ∨
    (∃ message db, command.interrupted world.db = some db ∧
      answer = .error (.storage message) ∧ after = { world with db := db }) := by
  cases choice <;>
    simp only [perform, Option.some.injEq, Prod.mk.injEq, reduceCtorEq,
      Option.map_eq_some_iff] at performed
  · exact .inl ⟨_, performed.1.symm, performed.2.symm⟩
  · exact .inr (.inl ⟨_, performed.1.symm, performed.2.symm⟩)
  · obtain ⟨db, interrupted, rfl, rfl⟩ := performed
    exact .inr (.inr ⟨_, db, interrupted, rfl, rfl⟩)

/-- The choices under which the store answers a request as it should. -/
def faultless : Choice → Prop
  | .fault _ | .partialFault _ => False
  | _ => True

def settles : Choice → Bool
  | .fault _ | .partialFault _ => false
  | _ => true

theorem faultless_of_settles {choice : Choice} (settled : settles choice = true) :
    faultless choice := by
  cases choice <;> trivial

theorem perform_query_faultless {query : Query} {choice : Choice} {world after : World}
    {answer : Result query.Value} (settles : faultless choice)
    (performed : perform content codec (.query query) choice world = some (answer, after)) :
    after = world ∧ answer = query.run content world.db := by
  cases choice <;>
    simp only [perform, Option.some.injEq, Prod.mk.injEq, reduceCtorEq] at performed
  · exact ⟨performed.2.symm, performed.1.symm⟩
  · exact settles.elim

theorem perform_command_faultless {command : Command} {choice : Choice} {world after : World}
    {answer : Result command.Value} (settles : faultless choice)
    (performed :
      perform content codec (.command command) choice world = some (answer, after)) :
    ∃ clock, answer = (command.run codec clock world.nextId world.db).1 ∧
      after = { world with
        db := (command.run codec clock world.nextId world.db).2
        nextId := world.nextId + 1 } := by
  cases choice <;>
    simp only [perform, Option.some.injEq, Prod.mk.injEq, reduceCtorEq] at performed
  · exact ⟨_, performed.1.symm, performed.2.symm⟩
  · exact settles.elim
  · exact settles.elim

/-- A write that makes one statement completes or fails without effect. -/
theorem perform_single {command : Command} {choice : Choice} {world after : World}
    {answer : Result command.Value}
    (single : ∀ db, command.interrupted db = none)
    (performed :
      perform content codec (.command command) choice world = some (answer, after)) :
    (∃ clock, answer = (command.run codec clock world.nextId world.db).1 ∧
      after = { world with
        db := (command.run codec clock world.nextId world.db).2
        nextId := world.nextId + 1 }) ∨
    (∃ message, answer = .error (.storage message) ∧ after = world) := by
  rcases perform_command performed with done | failed | ⟨_, _, interrupted, _⟩
  · exact .inl done
  · exact .inr failed
  · rw [single] at interrupted
    cases interrupted

/-- An append writes its event at the end of the log or fails without effect. -/
theorem perform_append {command : AppendEvent} {choice : Choice}
    {world after : World} {answer : Result EventEnvelope}
    (performed : perform content codec (.command (.appendEvent command)) choice world =
      some (answer, after)) :
    (∃ envelope, answer = .ok envelope ∧
      after.db.events = world.db.events ++ [envelope] ∧
      world.db.lastSeq envelope.threadId < envelope.seq ∧
      envelope.threadId = command.threadId ∧ envelope.turnId = command.turnId ∧
      envelope.event = command.event) ∨
    (∃ error, answer = .error error ∧ after.db.events = world.db.events) := by
  rcases perform_single (fun _ => rfl) performed with
    ⟨clock, rfl, rfl⟩ | ⟨message, rfl, rfl⟩
  · simp only [Command.run, Database.appendEvent]
    cases world.db.thread command.threadId with
    | none => exact .inr ⟨_, rfl, rfl⟩
    | some row => exact .inl ⟨_, rfl, rfl, Nat.lt_succ_self _, rfl, rfl, rfl⟩
  · exact .inr ⟨_, rfl, rfl⟩

/-- The tables of the store. -/
inductive Relation where
  | threads | events | turns | checkpoints | approvals | leases | resumeOps | actionPlans
  | actions | auditLog
  deriving DecidableEq

/-- The tables that a write can change. -/
def writes : Op → List Relation
  | .command (.appendEvent _) => [.events, .threads]
  | .command (.upsertTurn _) => [.turns, .threads]
  | .command (.putCheckpoint _) => [.checkpoints, .turns]
  | .command (.putApproval _) => [.approvals]
  | .command (.acquireLease ..) => [.leases]
  | .command (.refreshLease ..) => [.leases]
  | .command (.releaseLease ..) => [.leases]
  | .command (.forceReleaseTurnLease _) => [.leases]
  | .command (.rememberResume ..) => [.resumeOps]
  | .command (.putActionPlan _) => [.actionPlans]
  | .command (.putAction _) => [.actions]
  | .command (.claimActionForExecution ..) => [.actions]
  | .command (.appendAudit ..) => [.auditLog]
  | _ => []

/-- Every table outside a list of tables is as before. -/
structure Keeps (changed : List Relation) (before after : Database) : Prop where
  threads : .threads ∉ changed → after.threads = before.threads
  events : .events ∉ changed → after.events = before.events
  turns : .turns ∉ changed → after.turns = before.turns
  checkpoints : .checkpoints ∉ changed → after.checkpoints = before.checkpoints
  approvals : .approvals ∉ changed → after.approvals = before.approvals
  leases : .leases ∉ changed → after.leases = before.leases
  resumeOps : .resumeOps ∉ changed → after.resumeOps = before.resumeOps
  actionPlans : .actionPlans ∉ changed → after.actionPlans = before.actionPlans
  actions : .actions ∉ changed → after.actions = before.actions
  auditLog : .auditLog ∉ changed → after.auditLog = before.auditLog

theorem Keeps.refl (changed : List Relation) (db : Database) : Keeps changed db db := by
  constructor <;> exact fun _ => rfl

theorem keeps_upsertTurn (db : Database) (record : TurnRecord) :
    Keeps [.turns, .threads] db (db.upsertTurn record).2 := by
  unfold Database.upsertTurn Database.writeTurn
  cases db.thread record.threadId with
  | none => exact .refl _ db
  | some row =>
      unfold Database.syncThreadStatus
      dsimp only
      split <;> constructor <;> simp

theorem keeps_appendEvent (db : Database) (command : AppendEvent) (clock : DateTime)
    (fresh : Uuid) : Keeps [.events, .threads] db (db.appendEvent command clock fresh).2 := by
  unfold Database.appendEvent
  cases db.thread command.threadId with
  | none => exact .refl _ db
  | some row => constructor <;> simp

theorem keeps_acquireLease (db : Database) (turnId : TurnId) (threadId : ThreadId)
    (ownerId : Uuid) (ttl : Duration) (clock : DateTime) (fresh : Uuid) :
    Keeps [.leases] db (db.acquireLease turnId threadId ownerId ttl clock fresh).2 := by
  unfold Database.acquireLease
  dsimp only
  split
  · split
    · exact .refl _ db
    · constructor <;> simp
  · constructor <;> simp

theorem keeps_refreshLease (db : Database) (leaseId : Uuid) (fencingToken : Nat)
    (ttl : Duration) (clock : DateTime) :
    Keeps [.leases] db (db.refreshLease leaseId fencingToken ttl clock).2 := by
  unfold Database.refreshLease
  split
  · constructor <;> simp
  · exact .refl _ db

theorem keeps_rememberResume (db : Database) (key : String) (turnId : TurnId)
    (payload : RecoveryReport) :
    Keeps [.resumeOps] db (db.rememberResume key turnId payload).2 := by
  unfold Database.rememberResume
  split
  · exact .refl _ db
  · constructor <;> simp

theorem keeps_claimActionForExecution (codec : Codec) (db : Database) (actionId : ActionId)
    (now : DateTime) : Keeps [.actions] db (db.claimActionForExecution codec actionId now).2 := by
  have swap (record : ActionRecord) (expected : ActionStatus) :
      Keeps [.actions] db (db.updateActionStatusCas record expected).2 := by
    constructor <;> simp [Database.updateActionStatusCas]
  unfold Database.claimActionForExecution
  cases db.getAction actionId with
  | none => exact .refl _ db
  | some action =>
      rw [show transition .authorized .expired = .ok .expired from rfl,
        show transition .authorized .preconditionCheck = .ok .preconditionCheck from rfl]
      dsimp only
      split
      · exact .refl _ db
      · split
        · exact swap _ _
        · split
          · exact .refl _ db
          · split
            · exact .refl _ db
            · have kept := swap (action.moveTo .preconditionCheck now) .authorized
              split
              · rename_i swapped
                rw [swapped] at kept
                exact kept
              · rename_i swapped
                rw [swapped] at kept
                exact kept

theorem keeps_run (codec : Codec) (clock : DateTime) (fresh : Uuid) (db : Database)
    (command : Command) :
    Keeps (writes (.command command)) db (command.run codec clock fresh db).2 := by
  cases command with
  | appendEvent command => exact keeps_appendEvent db command clock fresh
  | upsertTurn record => exact keeps_upsertTurn db record
  | acquireLease => exact keeps_acquireLease ..
  | refreshLease => exact keeps_refreshLease ..
  | rememberResume => exact keeps_rememberResume ..
  | claimActionForExecution => exact keeps_claimActionForExecution ..
  | _ => constructor <;> simp [writes, Command.run, Database.putCheckpoint,
      Database.insertCheckpoint, Database.pointAtCheckpoint, Database.putApproval,
      Database.releaseLease, Database.forceReleaseTurnLease, Database.putActionPlan,
      Database.putAction, Database.appendAudit]

theorem keeps_interrupted {db written : Database} {command : Command}
    (interrupted : command.interrupted db = some written) :
    Keeps (writes (.command command)) db written := by
  cases command with
  | putCheckpoint checkpoint =>
      cases interrupted
      constructor <;> simp [writes, Database.insertCheckpoint]
  | upsertTurn record =>
      simp only [Command.interrupted, Database.writeTurn] at interrupted
      cases found : db.thread record.threadId with
      | none => simp [found] at interrupted
      | some row =>
          simp only [found, Option.some.injEq] at interrupted
          subst interrupted
          constructor <;> simp [writes]
  | _ => cases interrupted

theorem awaitDecision_frame {receiver : Nat} {ttl : Option Duration} {choice : Choice}
    {world after : World} {decision : Decision}
    (performed : world.awaitDecision receiver ttl choice = some (decision, after)) :
    after = { world with process := world.process.closeReceiver receiver } := by
  simp only [awaitDecision, awaitDecision.closed] at performed
  repeat' split at performed
  all_goals first
    | (cases performed; rfl)
    | cases performed

/-- A request changes no table that it does not write. -/
theorem perform_keeps {op : Op} {choice : Choice} {world after : World} {answer : op.Answer}
    (performed : perform content codec op choice world = some (answer, after)) :
    Keeps (writes op) world.db after.db := by
  by_cases write : ∃ command, op = .command command
  · obtain ⟨command, rfl⟩ := write
    rcases perform_command performed with
      ⟨clock, -, rfl⟩ | ⟨_, -, rfl⟩ | ⟨_, db, interrupted, -, rfl⟩
    · exact keeps_run ..
    · exact .refl _ _
    · exact keeps_interrupted interrupted
  · have same : after.db = world.db := by
      unfold perform at performed
      split at performed
      all_goals first
        | exact absurd ⟨_, rfl⟩ write
        | (rw [awaitDecision_frame performed])
        | (cases performed; rfl)
        | cases performed
        | (split at performed <;> cases performed <;> rfl)
    rw [same]
    exact .refl _ _

theorem brokerResolve_killSwitch (process : Process) (id : ApprovalId) (approved : Bool) :
    (process.brokerResolve id approved).2.killSwitch = process.killSwitch := by
  unfold Process.brokerResolve
  split
  · rfl
  · dsimp only
    split
    · split <;> rfl
    · rfl

theorem brokerResolve_catalog (process : Process) (id : ApprovalId) (approved : Bool) :
    (process.brokerResolve id approved).2.catalog = process.catalog := by
  unfold Process.brokerResolve
  split
  · rfl
  · dsimp only
    split
    · split <;> rfl
    · rfl

/-- Only its own request moves the kill switch. -/
theorem perform_killSwitch {op : Op} {choice : Choice} {world after : World}
    {answer : op.Answer}
    (performed : perform content codec op choice world = some (answer, after))
    (other : ∀ enabled, op ≠ .setKillSwitch enabled) :
    after.process.killSwitch = world.process.killSwitch := by
  unfold perform at performed
  split at performed
  all_goals first
    | exact absurd rfl (other _)
    | (rw [awaitDecision_frame performed]; rfl)
    | (cases performed; rfl)
    | (cases performed; exact brokerResolve_killSwitch ..)
    | (simp only [Option.map_eq_some_iff] at performed
       obtain ⟨_, _, equal⟩ := performed
       cases equal
       rfl)
    | (split at performed <;> cases performed <;> rfl)
    | cases performed

/-- Identifiers are handed out in increasing order. -/
theorem perform_nextId {op : Op} {choice : Choice} {world after : World} {answer : op.Answer}
    (performed : perform content codec op choice world = some (answer, after)) :
    world.nextId ≤ after.nextId := by
  unfold perform at performed
  split at performed
  all_goals first
    | (rw [awaitDecision_frame performed])
    | (cases performed; exact Nat.le_refl _)
    | (cases performed; exact Nat.le_succ _)
    | (simp only [Option.map_eq_some_iff] at performed
       obtain ⟨_, _, equal⟩ := performed
       cases equal
       exact Nat.le_refl _)
    | (split at performed <;> cases performed <;> exact Nat.le_refl _)
    | cases performed

end World

namespace Async

variable {protocol : Effect.Protocol serviceInterface} {control : protocol.Control}

theorem meets_ask {op : Op} {ok : op.Answer → protocol.Control → Prop}
    {failed : OpsCodexError → protocol.Control → Prop}
    (answers : ∀ answer, ∃ after, protocol.Advance control op answer after ∧ ok answer after) :
    Effect.Meets protocol (ask op) control ok failed := answers

theorem meets_read {query : Query} {ok : query.Value → protocol.Control → Prop}
    {failed : OpsCodexError → protocol.Control → Prop}
    (answers : ∀ answer, ∃ after, protocol.Advance control (.query query) answer after ∧
      Effect.Outcome ok failed answer after) :
    Effect.Meets protocol (read query) control ok failed := answers

theorem meets_write {command : Command} {ok : command.Value → protocol.Control → Prop}
    {failed : OpsCodexError → protocol.Control → Prop}
    (answers : ∀ answer, ∃ after, protocol.Advance control (.command command) answer after ∧
      Effect.Outcome ok failed answer after) :
    Effect.Meets protocol (write command) control ok failed := answers

/-- The rest of a program after a computation that has already succeeded. -/
theorem meets_ok {Value Returned : Type} {value : Value} {rest : Value → Async Returned}
    {ok : Returned → protocol.Control → Prop}
    {failed : OpsCodexError → protocol.Control → Prop}
    (meets : Effect.Meets protocol (rest value) control ok failed) :
    Effect.Meets protocol (ofResult (.ok value) >>= rest) control ok failed := meets

end Async

end OpsCodex.Runtime
