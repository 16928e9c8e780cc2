import OpsCodex.Remediation.Announcements

/-! Whether the status of every stored action is on the record: in the last event
about the action in its thread's log, and in the audit log. -/

set_option autoImplicit false

namespace OpsCodex.Remediation

open Effect OpsCodex.Action OpsCodex.Store OpsCodex.Runtime

namespace OnRecord

variable {deployment : Deployment}

/-- The status that a thread's log records last for an action. -/
def lastStatus (db : Database) (threadId : ThreadId) (actionId : ActionId) : Option String :=
  recordedStatus ((db.threadEvents threadId).map EventEnvelope.event) actionId

/-- The log of an action's thread records the action's status last. -/
def Told (db : Database) (stored : ActionRecord) : Prop :=
  lastStatus db stored.threadId stored.actionId = some stored.status.asStr

/-- The items of an action's thread show the action's status. -/
def Shown (db : Database) (stored : ActionRecord) : Prop :=
  (stored.actionId, stored.status.asStr) ∈
    (((db.threadEvents stored.threadId).map EventEnvelope.event).foldl itemsAfter []).filterMap
      Item.shows

/-- The audit log reports a status of an action. -/
def Audited (db : Database) (actionId : ActionId) (status : ActionStatus) : Prop :=
  ∃ record ∈ db.auditLog, Reports actionId status record.operation record.summary

/-- Every stored action has the status that its thread's log and items give it. -/
def EventsAgree (db : Database) : Prop :=
  ∀ actionId stored, db.getAction actionId = some stored → Told db stored ∧ Shown db stored

/-- Every status that was written for an action is in the audit log. -/
def AllAudited (pool : Pool deployment) : Prop :=
  ∀ actionId status, status ∈ LifeCycle.history actionId pool.trace →
    Audited pool.state.db actionId status

/-- The action that an answered request has read. -/
def readAction : (op : Op) → op.Answer → Option ActionRecord
  | .query (.getAction _), .ok found => found
  | _, _ => none

/-- After this answered request a call still has to tell of its action. -/
def owesRecord : (op : Op) → op.Answer → Bool
  | .command (.putAction _), .ok _ => true
  | .command (.claimActionForExecution _ _), .ok (some _) => true
  | .command (.appendAudit ..), .ok _ => true
  | _, _ => false

/-- The call reads the clock at or after the expiry of the action that it has
just read and that still awaits its answer. -/
def findsLapsed (pool : Pool deployment) (caller : Nat) : Choice → Bool
  | .settle now =>
      match pool.awaits caller, pool.trace.head? with
      | some .now, some entry => decide (entry.caller = caller) &&
          (readAction entry.op entry.answer).any fun stored =>
            decide (stored.status = .awaitingApproval ∧ stored.expiresAt ≤ now)
      | _, _ => false
  | _ => false

/-- The call is about to claim an action whose authorization has expired. -/
def claimsLapsed (pool : Pool deployment) (caller : Nat) : Bool :=
  match pool.awaits caller with
  | some (.command (.claimActionForExecution actionId now)) =>
      (pool.state.db.getAction actionId).any fun stored =>
        decide (stored.status = .authorized ∧ stored.expiresAt ≤ now)
  | _ => false

/-- The call is about to claim an action, a dry run does not know its result, or
a recovery reads the clock when there is an action to move. -/
def unaudited (pool : Pool deployment) (caller : Nat) (choice : Choice) : Bool :=
  match pool.awaits caller, choice with
  | some (.command (.claimActionForExecution actionId _)), _ =>
      (pool.state.db.getAction actionId).any fun stored =>
        decide (stored.status = .authorized ∧ stored.consumedApproval = true ∧
          actionRequestHash deployment.codec stored = stored.requestHash)
  | some (.patchReplicas _ _ _ _ _ _ _ true), .cluster (.error error) => isUnknownResult error
  | some .now, .settle now =>
      (pool.trace.all fun entry => decide (entry.caller ≠ caller)) &&
        pool.state.db.actions.any fun stored => (recoveredStatus stored now).isSome
  | _, _ => false

/-- The store does not fail the write that a caller waits on. -/
def writes (pool : Pool deployment) (caller : Nat) (choice : Choice) : Bool :=
  match pool.calls caller with
  | some (_, .request op _) =>
      match World.perform deployment.content deployment.codec op choice pool.state with
      | some (answer, _) => !writeFails op answer
      | none => true
  | _ => true

/-- Every call has returned. -/
def allReturned (pool : Pool deployment) : Bool :=
  (List.range pool.spawned).all fun caller => (pool.running caller).isNone

/-- One call at a time, on a store that fails no write, in a process that does
not crash between a write of an action and its last record. -/
def orderly (pool : Pool deployment) : Label (system deployment) → Bool
  | .spawn _ => allReturned pool
  | .perform caller choice => writes pool caller choice
  | .crash _ => !pool.trace.head?.any fun entry => owesRecord entry.op entry.answer

/-- Orderly steps that find no action past its expiry. With audits, also no step
after which a status comes without an audit record. -/
def timely (audits : Bool) (pool : Pool deployment) (label : Label (system deployment)) : Bool :=
  orderly pool label &&
    match label with
    | .perform caller choice => !findsLapsed pool caller choice && !claimsLapsed pool caller &&
        !(audits && unaudited pool caller choice)
    | _ => true

/-- The action that a control point owes an event. -/
def Control.owed : Control → Option ActionId
  | .owing record | .audited record | .laxOwing record => some record.actionId
  | _ => none

/-- What holds of the store at a control point of a call. -/
def Knows (audits : Bool) (db : Database) (trace : List (Entry (system deployment)))
    (caller : Nat) : Control → Prop
  | .idle => True
  | .weighing stored => ∃ entry ∈ trace.head?, entry.caller = caller ∧
      readAction entry.op entry.answer = some stored
  | .scanning => ∀ entry ∈ trace, entry.caller ≠ caller
  | .scanningAt now => audits = true → ∀ stored ∈ db.actions, recoveredStatus stored now = none
  | .owing record | .audited record => db.getAction record.actionId = some record ∧
      ∃ entry ∈ trace.head?, owesRecord entry.op entry.answer = true
  | .lax => audits = false
  | .laxOwing record => audits = false ∧ db.getAction record.actionId = some record ∧
      ∃ entry ∈ trace.head?, owesRecord entry.op entry.answer = true
  | .wild => False

/-- Every stored action but an owed one is told. -/
def ToldBut (owed : Option ActionId) (db : Database) : Prop :=
  ∀ actionId stored, db.getAction actionId = some stored → owed = some actionId ∨ Told db stored

/-- Every written status is audited but the one that a control point still owes. -/
def AuditedBut (control : Control) (db : Database)
    (trace : List (Entry (system deployment))) : Prop :=
  ∀ actionId status, status ∈ LifeCycle.history actionId trace →
    (∃ record, control = .owing record ∧ record.actionId = actionId ∧ record.status = status) ∨
      Audited db actionId status

/-- What holds while a call is at a control point. -/
structure Stands (audits : Bool) (db : Database) (trace : List (Entry (system deployment)))
    (caller : Nat) (control : Control) : Prop where
  knows : Knows audits db trace caller control
  told : ToldBut control.owed db
  audited : audits = true → AuditedBut control db trace

structure Holds (audits : Bool) (pool : Pool deployment)
    (controls : Nat → Option Control) : Prop where
  live : ∀ caller control, controls caller = some control →
    caller + 1 = pool.spawned ∧ Stands audits pool.state.db pool.trace caller control
  settled : (∀ caller, controls caller = none) →
    ToldBut none pool.state.db ∧ (audits = true → AuditedBut .idle pool.state.db pool.trace)
  asked : ∀ entry ∈ pool.trace, entry.caller < pool.spawned

section Events

variable {before after : Database} {record stored : ActionRecord} {command : AppendEvent}
  {envelope : EventEnvelope}

theorem lastStatus_keep (events : after.events = before.events) (threadId : ThreadId)
    (actionId : ActionId) : lastStatus after threadId actionId =
      lastStatus before threadId actionId := by
  rw [lastStatus, Database.threadEvents, events, lastStatus, Database.threadEvents]

/-- What the announcement of a record changes about the last statuses. -/
theorem lastStatus_announced (announces : Announces record command)
    (thread : envelope.threadId = command.threadId) (event : envelope.event = command.event)
    (events : after.events = before.events ++ [envelope]) (threadId : ThreadId)
    (actionId : ActionId) :
    lastStatus after threadId actionId =
      if threadId = record.threadId ∧ actionId = record.actionId then some record.status.asStr
      else lastStatus before threadId actionId := by
  obtain ⟨planId, tool, requestHash, review, told⟩ := announces.event
  simp only [lastStatus, Database.threadEvents, events, List.filter_append, List.map_append]
  by_cases same : threadId = record.threadId
  · subst same
    have kept : envelope.threadId = record.threadId := thread.trans announces.thread
    simp only [List.filter_cons, kept, decide_true, List.filter_nil, if_true, List.map_cons,
      List.map_nil, recordedStatus, List.foldl_append, List.foldl_cons, List.foldl_nil, event,
      told, recordedAfter, true_and, eq_comm]
  · have other : envelope.threadId ≠ threadId := by
      rw [thread, announces.thread]
      exact fun equal => same equal.symm
    simp [other, same]

theorem shown_of_told (told : Told before stored) : Shown before stored :=
  ((showsActions _).shown stored.actionId stored.status.asStr).mpr told

end Events

section Requests

variable {content : Content} {codec : Codec} {choice : Choice} {world after : World}

theorem perform_aside {op : Op} {answer : op.Answer} (aside : Aside op)
    (performed : World.perform content codec op choice world = some (answer, after)) :
    after.db.actions = world.db.actions ∧ after.db.events = world.db.events ∧
      ∀ record ∈ world.db.auditLog, record ∈ after.db.auditLog := by
  have keeps := World.perform_keeps performed
  refine ⟨keeps.actions ?_, keeps.events ?_, ?_⟩
  · unfold World.writes
    split
    all_goals first
      | exact aside.elim
      | decide
  · unfold World.writes
    split
    all_goals first
      | exact aside.elim
      | decide
  · by_cases audits : ∃ actor workspaceId operation summary,
        op = .command (.appendAudit actor workspaceId operation summary)
    · obtain ⟨actor, workspaceId, operation, summary, rfl⟩ := audits
      obtain ⟨clock, -, rfl⟩ | ⟨_, -, rfl⟩ := World.perform_single (fun _ => rfl) performed
      · exact fun record member => List.mem_append_left _ member
      · exact fun record member => member
    · rw [keeps.auditLog]
      · exact fun record member => member
      · unfold World.writes
        split
        all_goals first
          | exact absurd ⟨_, _, _, _, rfl⟩ audits
          | decide

theorem perform_audited {actor : String} {workspaceId : Option String} {operation : String}
    {summary : Json.Value} {actionId : ActionId} {status : ActionStatus}
    (reports : Reports actionId status operation summary)
    (performed : World.perform content codec
      (.command (.appendAudit actor workspaceId operation summary)) choice world =
      some (.ok (), after)) : Audited after.db actionId status := by
  obtain ⟨clock, -, rfl⟩ | ⟨_, failed, -⟩ := World.perform_single (fun _ => rfl) performed
  · exact ⟨_, List.mem_append_right _ (List.mem_singleton_self _), reports⟩
  · cases failed

theorem perform_put {record : ActionRecord}
    (performed : World.perform content codec (.command (.putAction record)) choice world =
      some (.ok (), after)) :
    (∀ actionId, after.db.getAction actionId =
      if actionId = record.actionId then some record else world.db.getAction actionId) ∧
      after.db.events = world.db.events ∧ after.db.auditLog = world.db.auditLog := by
  have keeps := World.perform_keeps performed
  obtain ⟨-, rows⟩ | ⟨⟨_, failed⟩, -⟩ := perform_putAction performed
  · exact ⟨rows, keeps.events (by simp [World.writes]), keeps.auditLog (by simp [World.writes])⟩
  · cases failed

theorem perform_told {command : AppendEvent} {envelope : EventEnvelope}
    (performed : World.perform content codec (.command (.appendEvent command)) choice world =
      some (.ok envelope, after)) :
    envelope.threadId = command.threadId ∧ envelope.event = command.event ∧
      after.db.events = world.db.events ++ [envelope] ∧
      after.db.actions = world.db.actions ∧ after.db.auditLog = world.db.auditLog := by
  have keeps := World.perform_keeps performed
  obtain ⟨_, answered, grown, -, thread, -, event⟩ | ⟨_, failed, -⟩ :=
    World.perform_append performed
  · cases answered
    exact ⟨thread, event, grown, keeps.actions (by simp [World.writes]),
      keeps.auditLog (by simp [World.writes])⟩
  · cases failed

theorem perform_claimed {actionId : ActionId} {now : DateTime}
    {answer : Result (Option ActionRecord)}
    (performed : World.perform content codec (.command (.claimActionForExecution actionId now))
      choice world = some (answer, after)) :
    after.db.events = world.db.events ∧ after.db.auditLog = world.db.auditLog := by
  have keeps := World.perform_keeps performed
  exact ⟨keeps.events (by simp [World.writes]), keeps.auditLog (by simp [World.writes])⟩

end Requests

section

variable {audits : Bool} {before after : Database} {trace : List (Entry (system deployment))}
  {entry : Entry (system deployment)} {caller : Nat} {control next : Control}

/-- A request besides the actions and the log tells nothing and untells nothing. -/
theorem ToldBut.keep {owed : Option ActionId} (told : ToldBut owed before)
    (actions : after.actions = before.actions) (events : after.events = before.events) :
    ToldBut owed after := by
  intro actionId stored found
  rw [Database.getAction_of_actions actions] at found
  rw [Told, lastStatus_keep events]
  exact told actionId stored found

/-- A write leaves its own action untold. -/
theorem ToldBut.write {record : ActionRecord} (told : ToldBut none before)
    (rows : ∀ actionId, after.getAction actionId =
      if actionId = record.actionId then some record else before.getAction actionId)
    (events : after.events = before.events) : ToldBut (some record.actionId) after := by
  intro actionId stored found
  rw [rows] at found
  split at found
  · rename_i same
    exact .inl (congrArg some same.symm)
  · rw [Told, lastStatus_keep events]
    refine .inr ((told actionId stored found).resolve_left fun owed => ?_)
    cases owed

/-- An announcement tells the action that was owed. -/
theorem ToldBut.tell {record : ActionRecord} {command : AppendEvent} {envelope : EventEnvelope}
    (told : ToldBut (some record.actionId) before)
    (found : before.getAction record.actionId = some record)
    (announces : Announces record command) (thread : envelope.threadId = command.threadId)
    (event : envelope.event = command.event) (events : after.events = before.events ++ [envelope])
    (actions : after.actions = before.actions) : ToldBut none after := by
  intro actionId stored row
  right
  rw [Database.getAction_of_actions actions] at row
  have key := Database.getAction_actionId row
  rw [Told, lastStatus_announced announces thread event events]
  by_cases same : actionId = record.actionId
  · subst same
    rw [found] at row
    cases row
    rw [if_pos ⟨rfl, rfl⟩]
  · rw [if_neg fun both => same (key.symm.trans both.2)]
    exact (told actionId stored row).resolve_left fun owed => same (Option.some.inj owed).symm

/-- A request that writes no status keeps every audit. -/
theorem AuditedBut.keep (audited : AuditedBut control before trace)
    (unwritten : ∀ actionId, LifeCycle.persisted deployment.codec actionId entry.before entry.op
      entry.answer = none)
    (grown : ∀ record ∈ before.auditLog, record ∈ after.auditLog)
    (settles : ∀ record, control = .owing record →
      next = .owing record ∨ Audited after record.actionId record.status) :
    AuditedBut next after (entry :: trace) := by
  intro actionId status written
  rw [LifeCycle.history_cons, unwritten] at written
  obtain ⟨record, rfl, rfl, rfl⟩ | ⟨record, member, reports⟩ := audited actionId status written
  · obtain rfl | settled := settles record rfl
    · exact .inl ⟨record, rfl, rfl, rfl⟩
    · exact .inr settled
  · exact .inr ⟨record, grown record member, reports⟩

/-- A write owes the audit of its status. -/
theorem AuditedBut.write {record : ActionRecord} (audited : AuditedBut .idle before trace)
    (written : ∀ actionId, LifeCycle.persisted deployment.codec actionId entry.before entry.op
      entry.answer = if record.actionId = actionId then some record.status else none)
    (same : after.auditLog = before.auditLog) :
    AuditedBut (.owing record) after (entry :: trace) := by
  intro actionId status member
  rw [LifeCycle.history_cons, written] at member
  obtain new | old := List.mem_append.mp member
  · split at new
    · rename_i own
      exact .inl ⟨record, rfl, own, (List.mem_singleton.mp new).symm⟩
    · cases new
  · obtain ⟨_, other, -⟩ | ⟨kept, member, reports⟩ := audited actionId status old
    · cases other
    · exact .inr ⟨kept, same ▸ member, reports⟩

end

section

variable {audits : Bool} {pool : Pool deployment} {controls : Nat → Option Control} {caller : Nat}
  {job : Job} {op : Op} {answer : op.Answer} {state : World}
  {rest : Program serviceInterface (Result Returned)} {before after : Control}

/-- Only the latest call makes requests. -/
theorem Holds.step (holds : Holds audits pool controls) (held : controls caller = some before)
    (stands : Stands audits state.db (⟨caller, job, pool.state, op, answer⟩ :: pool.trace) caller
      after) :
    Holds audits (pool.record caller job op answer rest state)
      (assign controls caller (some after)) := by
  have latest := (holds.live caller before held).1
  constructor
  · intro other control assigned
    obtain ⟨rfl, equal⟩ | ⟨different, heldOther⟩ := assign_eq_some assigned
    · cases equal
      exact ⟨latest, stands⟩
    · have alone := (holds.live other control heldOther).1
      exact absurd (Nat.succ.inj (alone.trans latest.symm)) different
  · intro none
    have gone := none caller
    rw [assign_same] at gone
    cases gone
  · intro entry member
    obtain rfl | old := List.mem_cons.mp member
    · exact latest ▸ Nat.lt_succ_self caller
    · exact holds.asked entry old

theorem persisted_aside {codec : Codec} {world : World} (aside : Aside op) (actionId : ActionId) :
    LifeCycle.persisted codec actionId world op answer = none := by
  unfold LifeCycle.persisted
  split
  · exact aside.elim
  · exact aside.elim
  · rfl

/-- A request besides the actions, at a control point that owes nothing. -/
theorem Stands.aside {choice : Choice}
    (stands : Stands audits pool.state.db pool.trace caller before) (aside : Aside op)
    (performed : World.perform deployment.content deployment.codec op choice pool.state =
      some (answer, state))
    (owed : before.owed = none) (owes : after.owed = none)
    (knows : Knows audits state.db (⟨caller, job, pool.state, op, answer⟩ :: pool.trace) caller
      after) :
    Stands audits state.db (⟨caller, job, pool.state, op, answer⟩ :: pool.trace) caller after := by
  obtain ⟨actions, events, grown⟩ := perform_aside aside performed
  refine ⟨knows, ?_, fun strict => ?_⟩
  · rw [owes, ← owed]
    exact stands.told.keep actions events
  · refine (stands.audited strict).keep (persisted_aside aside) grown fun record owing => ?_
    subst owing
    cases owed

/-- What an admitted step guarantees about the request it answers. -/
structure Answered (audits : Bool) (pool : Pool deployment) (caller : Nat) (choice : Choice)
    (op : Op) (answer : op.Answer) : Prop where
  awaits : pool.awaits caller = some op
  written : writeFails op answer = false
  early : findsLapsed pool caller choice = false
  unexpired : claimsLapsed pool caller = false
  audited : audits = true → unaudited pool caller choice = false

theorem answered_of_timely {choice : Choice} {next : op.Answer → Program serviceInterface
    (Result Returned)} (admitted : timely audits pool (.perform caller choice) = true)
    (found : pool.calls caller = some (job, .request op next))
    (performed : World.perform deployment.content deployment.codec op choice pool.state =
      some (answer, state)) : Answered audits pool caller choice op answer := by
  simp only [timely, orderly, writes, found, performed, Bool.and_eq_true, Bool.not_eq_true',
    Bool.and_eq_false_iff] at admitted
  obtain ⟨written, ⟨early, unexpired⟩, audited⟩ := admitted
  refine ⟨?_, written, early, unexpired, fun strict => ?_⟩
  · rw [Pool.awaits, found]
    rfl
  · exact audited.resolve_left fun loose => by simp [strict] at loose

/-- A claim that is not granted leaves everything as it was. -/
theorem Stands.unclaimed {choice : Choice} {actionId : ActionId} {now : DateTime}
    {answer : Result (Option ActionRecord)}
    (stands : Stands audits pool.state.db pool.trace caller .idle)
    (answered : Answered audits pool caller choice
      (.command (.claimActionForExecution actionId now)) answer)
    (none : claimedBy (.command (.claimActionForExecution actionId now)) answer = none)
    (performed : World.perform deployment.content deployment.codec
      (.command (.claimActionForExecution actionId now)) choice pool.state =
      some (answer, state)) :
    Stands audits state.db
      (⟨caller, job, pool.state, .command (.claimActionForExecution actionId now), answer⟩ ::
        pool.trace) caller .idle := by
  have same : state.db = pool.state.db ∧ ∀ other, LifeCycle.persisted deployment.codec other
      pool.state (.command (.claimActionForExecution actionId now)) answer = Option.none := by
    obtain ⟨clock, equal, rfl⟩ | ⟨_, rfl, rfl⟩ := World.perform_single (fun _ => rfl) performed
    · have spec : Database.Claimed deployment.codec pool.state.db actionId now
          (pool.state.db.claimActionForExecution deployment.codec actionId now) :=
        Database.claimActionForExecution_spec actionId now
      have wrote (other : ActionId) (found : Option ActionRecord)
          (kept : (pool.state.db.claimActionForExecution deployment.codec actionId
            now).2.getAction other = pool.state.db.getAction other) :
          LifeCycle.persisted deployment.codec other pool.state
            (.command (.claimActionForExecution actionId now)) (.ok found) = Option.none := by
        simp only [LifeCycle.persisted, kept]
        cases pool.state.db.getAction other <;> simp
      simp only [Command.run] at equal ⊢
      generalize pool.state.db.claimActionForExecution deployment.codec actionId now = outcome
        at spec equal wrote ⊢
      subst equal
      cases spec with
      | missing => exact ⟨rfl, fun _ => rfl⟩
      | refused =>
          exact ⟨rfl, fun other => wrote other _ rfl⟩
      | expired found status late rows =>
          have lapsed := answered.unexpired
          simp [claimsLapsed, answered.awaits, found, status, late] at lapsed
      | claimed => cases none
    · exact ⟨rfl, fun _ => rfl⟩
  refine ⟨trivial, ?_, fun strict => ?_⟩
  · rw [same.1]
    exact stands.told
  · refine (stands.audited strict).keep same.2 (by simp [same.1]) fun record owing => ?_
    cases owing

theorem Stands.perform {choice : Choice}
    (stands : Stands audits pool.state.db pool.trace caller before)
    (answered : Answered audits pool caller choice op answer)
    (advance : Advance before op answer after)
    (performed : World.perform deployment.content deployment.codec op choice pool.state =
      some (answer, state)) :
    Stands audits state.db (⟨caller, job, pool.state, op, answer⟩ :: pool.trace) caller after := by
  have knows := stands.knows
  -- Without audits nothing is said of the audit log.
  have lax {control : Control} {db : Database} {trace : List (Entry (system deployment))}
      (loose : audits = false) (strict : audits = true) : AuditedBut control db trace := by
    rw [loose] at strict
    cases strict
  cases advance with
  | aside rests aside =>
      obtain ⟨actions, -, -⟩ := perform_aside aside performed
      cases before with
      | idle => exact stands.aside aside performed rfl rfl trivial
      | scanningAt now =>
          refine stands.aside aside performed rfl rfl fun strict => ?_
          rw [actions]
          exact knows strict
      | lax => exact stands.aside aside performed rfl rfl knows
      | wild => exact knows.elim
      | weighing | scanning | owing | audited | laxOwing => exact rests.elim
  | weigh => exact stands.aside trivial performed rfl rfl ⟨_, rfl, rfl, rfl⟩
  | timely early => exact stands.aside trivial performed rfl rfl trivial
  | @lapse stored now awaiting late =>
      obtain ⟨entry, first, own, read⟩ := knows
      have lapsed := answered.early
      cases choice <;> cases performed
      rw [Option.mem_def] at first
      simp [findsLapsed, answered.awaits, first, own, read, awaiting, late] at lapsed
  | write =>
      obtain ⟨rows, events, audits⟩ := perform_put performed
      refine ⟨⟨by rw [rows, if_pos rfl], _, rfl, rfl⟩, stands.told.write rows events,
        fun strict => ?_⟩
      exact (stands.audited strict).write (fun actionId => rfl) audits
  | audit reports =>
      obtain ⟨actions, events, grown⟩ := perform_aside (by exact trivial) performed
      refine ⟨⟨(Database.getAction_of_actions actions _).trans knows.1, _, rfl, rfl⟩,
        stands.told.keep actions events,
        fun strict => ?_⟩
      refine (stands.audited strict).keep (fun _ => rfl) grown fun record owing => ?_
      cases owing
      exact .inr (perform_audited reports performed)
  | tell announces =>
      obtain ⟨thread, event, events, actions, audits⟩ := perform_told performed
      refine ⟨trivial, stands.told.tell knows.1 announces thread event events actions,
        fun strict => ?_⟩
      refine (stands.audited strict).keep (fun _ => rfl) (by simp [audits]) fun record owing => ?_
      cases owing
  | @claim actionId now record =>
      obtain ⟨events, -⟩ := perform_claimed performed
      have spec := perform_claim performed
      generalize same : state.db = db at spec events ⊢
      cases spec with
      | @claimed stored _ found status early consumed bound rows =>
          have key := Database.getAction_actionId found
          subst key
          have loose : audits = false := by
            cases strict : audits with
            | false => rfl
            | true =>
                have audited := answered.audited strict
                simp [unaudited, answered.awaits, found, status, consumed, bound] at audited
          exact ⟨⟨loose, by simpa using rows stored.actionId, _, rfl, rfl⟩,
            stands.told.write rows events, lax loose⟩
  | unclaimed none => exact stands.unclaimed answered none performed
  | unsure unknown =>
      refine stands.aside trivial performed rfl rfl ?_
      cases strict : audits with
      | false => rfl
      | true =>
          have audited := answered.audited strict
          cases choice <;> cases performed
          simp [unaudited, answered.awaits, unknown] at audited
  | laxWrite =>
      obtain ⟨rows, events, -⟩ := perform_put performed
      exact ⟨⟨knows, by rw [rows, if_pos rfl], _, rfl, rfl⟩, stands.told.write rows events,
        lax knows⟩
  | laxAudit =>
      obtain ⟨actions, events, -⟩ := perform_aside (by exact trivial) performed
      exact ⟨⟨knows.1, (Database.getAction_of_actions actions _).trans knows.2.1, _, rfl, rfl⟩,
        stands.told.keep actions events, lax knows.1⟩
  | laxTell announces =>
      obtain ⟨thread, event, events, actions, -⟩ := perform_told performed
      exact ⟨knows.1, stands.told.tell knows.2.1 announces thread event events actions,
        lax knows.1⟩
  | scan =>
      refine stands.aside trivial performed rfl rfl fun strict => ?_
      have audited := answered.audited strict
      cases choice <;> cases performed
      simp only [unaudited, answered.awaits, Bool.and_eq_false_iff] at audited
      obtain asked | unmoved := audited
      · simp only [List.all_eq_false, decide_eq_true_eq, Decidable.not_not] at asked
        obtain ⟨entry, member, own⟩ := asked
        exact absurd own (knows entry member)
      · simpa using unmoved
  | list => exact stands.aside trivial performed rfl rfl trivial
  | @listMoving now todo action member moves =>
      refine stands.aside trivial performed rfl rfl ?_
      cases strict : audits with
      | false => rfl
      | true =>
          obtain ⟨-, ran | ⟨_, failed⟩⟩ := World.perform_query performed
          · simp only [Query.run, Except.ok.injEq] at ran
            subst ran
            exact absurd (knows strict action (List.mem_filter.mp member).1) moves
          · cases failed
  | stray => exact knows.elim
  | fails fails =>
      rw [answered.written] at fails
      cases fails

end

theorem running_of_allReturned {pool : Pool deployment} (returned : allReturned pool = true)
    (caller : Nat) (bound : caller < pool.spawned) : pool.running caller = none := by
  simp only [allReturned, List.all_eq_true, List.mem_range, Option.isNone_iff_eq_none]
    at returned
  exact returned caller bound

/-- A call that has returned has no control point. -/
theorem control_none {pool : Pool deployment} {controls : Nat → Option Control}
    (tracks : Tracks protocol ends pool controls) (returned : allReturned pool = true)
    (caller : Nat) : controls caller = none := by
  cases held : controls caller with
  | none => rfl
  | some control =>
      obtain ⟨_, running⟩ := tracks.running_of_control held
      by_cases bound : caller < pool.spawned
      · rw [running_of_allReturned returned caller bound] at running
        cases running
      · rw [tracks.control_none (Nat.le_of_not_lt bound)] at held
        cases held

theorem Holds.spawn {audits : Bool} {pool : Pool deployment} {controls : Nat → Option Control}
    (job : Job) (tracks : Tracks protocol ends pool controls)
    (returned : allReturned pool = true) (holds : Holds audits pool controls) :
    Holds audits (Pool.spawn pool job) (assign controls pool.spawned (some (begins job))) := by
  have none := control_none tracks returned
  obtain ⟨told, audited⟩ := holds.settled none
  constructor
  · intro caller control assigned
    obtain ⟨rfl, equal⟩ | ⟨_, held⟩ := assign_eq_some assigned
    · cases equal
      have asked : ∀ entry ∈ pool.trace, entry.caller ≠ pool.spawned := fun entry member =>
        Nat.ne_of_lt (holds.asked entry member)
      refine ⟨rfl, ?_⟩
      cases job with
      | recover =>
          refine ⟨asked, told, fun strict actionId status written => ?_⟩
          obtain ⟨_, owing, -⟩ | done := audited strict actionId status written
          · cases owing
          · exact .inr done
      | _ => exact ⟨trivial, told, audited⟩
    · rw [none caller] at held
      cases held
  · intro gone
    have last := gone pool.spawned
    rw [assign_same] at last
    cases last
  · intro entry member
    exact Nat.lt_succ_of_lt (holds.asked entry member)

/-- A control point that owes nothing leaves the store told. -/
theorem Stands.settled {audits : Bool} {db : Database} {trace : List (Entry (system deployment))}
    {caller : Nat} {control : Control} (stands : Stands audits db trace caller control)
    (settled : control.Settled) :
    ToldBut none db ∧ (audits = true → AuditedBut .idle db trace) := by
  have owes : control.owed = none := by
    cases control with
    | owing | audited | laxOwing => exact settled.elim
    | _ => rfl
  constructor
  · rw [← owes]
    exact stands.told
  · intro strict actionId status written
    obtain ⟨record, rfl, -⟩ | done := stands.audited strict actionId status written
    · exact settled.elim
    · exact .inr done

theorem Holds.finish {audits : Bool} {pool : Pool deployment} {controls : Nat → Option Control}
    {caller : Nat} {control : Control} (held : controls caller = some control)
    (settled : control.Settled) (holds : Holds audits pool controls) :
    Holds audits pool (assign controls caller none) := by
  constructor
  · intro other control' assigned
    obtain ⟨_, equal⟩ | ⟨_, heldOther⟩ := assign_eq_some assigned
    · cases equal
    · exact holds.live other control' heldOther
  · exact fun _ => (holds.live caller control held).2.settled settled
  · exact holds.asked

theorem Holds.crash {audits : Bool} {pool : Pool deployment} {controls : Nat → Option Control}
    (startup : Catalog)
    (told : (pool.trace.head?.any fun entry => owesRecord entry.op entry.answer) = false)
    (holds : Holds audits pool controls) :
    Holds audits (Pool.crash pool startup) fun _ => none := by
  refine ⟨fun _ _ held => (by cases held), fun _ => ?_, holds.asked⟩
  by_cases idle : ∀ caller, controls caller = none
  · exact holds.settled idle
  · obtain ⟨caller, busy⟩ := not_forall.mp idle
    obtain ⟨control, held⟩ := Option.ne_none_iff_exists'.mp busy
    have stands := (holds.live caller control held).2
    have owing (owes : ∃ entry ∈ pool.trace.head?, owesRecord entry.op entry.answer = true) :
        False := by
      obtain ⟨entry, first, owes⟩ := owes
      rw [Option.mem_def] at first
      simp [first, owes] at told
    apply stands.settled
    cases control with
    | owing record => exact (owing stands.knows.2).elim
    | audited record => exact (owing stands.knows.2).elim
    | laxOwing record => exact (owing stands.knows.2.2).elim
    | _ => trivial

theorem invariant (audits : Bool) :
    Invariant (system deployment) protocol begins ends
      (fun pool label => timely audits pool label = true) (Holds audits) where
  spawn := by
    intro pool controls job tracks admitted holds
    refine holds.spawn job tracks ?_
    simpa [timely, orderly] using admitted
  perform := by
    intro pool controls caller job op next before after choice answer state _ admitted found held
      advance performed holds
    have answered := answered_of_timely admitted found performed
    exact holds.step held ((holds.live caller before held).2.perform answered advance performed)
  finish := by
    intro pool controls caller job result control _ held settled holds
    exact holds.finish held settled
  crash := by
    intro pool controls startup _ admitted holds
    refine holds.crash startup ?_
    simpa [timely, orderly] using admitted

theorem holds_of_boots {audits : Bool} {pool : Pool deployment} (boots : Boots deployment pool) :
    (∀ caller, pool.calls caller = none) ∧ Holds audits pool fun _ => none := by
  obtain ⟨world, empty, rfl⟩ := boots
  refine ⟨fun _ => rfl, fun _ _ held => (by cases held), fun _ => ⟨?_, fun _ => ?_⟩, ?_⟩
  · intro actionId stored found
    simp [Pool.boot, Database.getAction, Table.lookup, empty] at found
  · intro actionId status written
    simp [Pool.boot, LifeCycle.history] at written
  · simp [Pool.boot]

end OnRecord

open OnRecord in
/-- When every call has returned, each stored action has the status that the last
event about it records, and, with audits, each status written is in the audit
log. Expiry found by an answer or by a claim is never told. -/
theorem onRecord_of_timely {deployment : Deployment} {audits : Bool} {pool : Pool deployment}
    (reached : Pool.Reachable (fun pool label => timely audits pool label = true)
      (Boots deployment) pool)
    (returned : allReturned pool = true) :
    EventsAgree pool.state.db ∧ (audits = true → AllAudited pool) := by
  obtain ⟨controls, tracks, holds⟩ :=
    Invariant.reachable (OnRecord.invariant audits) (fun _ => OnRecord.holds_of_boots)
      (OnRecord.conforms deployment) reached
  have none := OnRecord.control_none tracks returned
  obtain ⟨told, audited⟩ := holds.settled none
  constructor
  · intro actionId stored found
    obtain owed | told := told actionId stored found
    · cases owed
    · exact ⟨told, shown_of_told told⟩
  · intro strict actionId status written
    obtain ⟨_, owing, -⟩ | done := audited strict actionId status written
    · cases owing
    · exact done

namespace OnRecord

/-- An action is proposed and approved in time. -/
def approved : List Demo.Step :=
  Demo.propose 0 ++ [Demo.approval] ++ Demo.weigh 1 ++ Demo.decide 1

/-- An action is proposed and its approval comes after its expiry. -/
def approvedLate : List Demo.Step :=
  Demo.propose 0 ++ [Demo.approval, Demo.settle 1, .perform 1 (.settle 1000000000)] ++
    List.replicate 2 (Demo.settle 1)

end OnRecord

open OnRecord in
theorem onRecord_of_timely_approved :
    ∃ pool : Pool Demo.deployment, (pool.state.db.getAction Demo.action).isSome ∧
      EventsAgree pool.state.db ∧ AllAudited pool := by
  have ran : (Pool.runChecked (timely true) approved Demo.pool).map (fun pool =>
      (allReturned pool, (pool.state.db.getAction Demo.action).isSome)) = some (true, true) := by
    decide +kernel
  obtain ⟨pool, final, shown⟩ := Option.map_eq_some_iff.mp ran
  rw [Prod.mk.injEq] at shown
  have reached : Pool.Reachable (fun pool label => timely true pool label = true)
      (Boots Demo.deployment) pool :=
    .of_runChecked (fun _ _ checked => checked) (.start Demo.boots) final
  obtain ⟨told, audited⟩ := onRecord_of_timely reached shown.1
  exact ⟨pool, shown.2, told, audited rfl⟩

open OnRecord in
/-- An approval that comes after the expiry moves the action without an event. -/
theorem not_onRecord :
    ¬ ∀ pool : Pool Demo.deployment,
      Pool.Reachable (fun pool label => orderly pool label = true) (Boots Demo.deployment) pool →
      allReturned pool = true → EventsAgree pool.state.db ∧ AllAudited pool := by
  intro recorded
  have ran : (Pool.runChecked orderly approvedLate Demo.pool).map (fun pool =>
      (allReturned pool, (pool.state.db.getAction Demo.action).map fun stored =>
        (stored.status, stored.threadId, stored.actionId),
        lastStatus pool.state.db Demo.thread Demo.action)) =
      some (true, some (.expired, Demo.thread, Demo.action), some "awaiting_approval") := by
    decide +kernel
  obtain ⟨pool, final, shown⟩ := Option.map_eq_some_iff.mp ran
  simp only [Prod.mk.injEq, Option.map_eq_some_iff] at shown
  obtain ⟨returned, ⟨stored, found, status, thread, action⟩, last⟩ := shown
  have reached : Pool.Reachable (fun pool label => orderly pool label = true)
      (Boots Demo.deployment) pool :=
    .of_runChecked (fun _ _ checked => checked) (.start Demo.boots) final
  have told := ((recorded pool reached returned).1 Demo.action stored found).1
  rw [Told, thread, action, status, last] at told
  exact absurd told (by decide)

end OpsCodex.Remediation
