import OpsCodex.Action.Preimage
import OpsCodex.Remediation.Steps

/-! A runner only acts on what a user approved: its action was authorised by a
call that named the action's request hash, and the hash covers what it reads. -/

set_option autoImplicit false

namespace OpsCodex.Remediation

open Effect OpsCodex.Action OpsCodex.Store OpsCodex.Runtime

/-- The record that a request made executable, if it is a stored approval. -/
def authorizedBy : (op : Op) → op.Answer → Option ActionRecord
  | .command (.putAction action), .ok () =>
      if action.status = .authorized then some action else none
  | _, _ => none

/-- An approval of a record under a request hash: the call that was given the
hash wrote the record as authorised. -/
structure Approves {deployment : Deployment} (requestHash : String) (record : ActionRecord)
    (entry : Entry (system deployment)) : Prop where
  job : entry.job = .approve record.actionId requestHash true
  written : ∃ written, authorizedBy entry.op entry.answer = some written ∧
    written.actionId = record.actionId ∧
    actionRequestHash deployment.codec written = actionRequestHash deployment.codec record

/-- A claim of a record before it expires. -/
structure ClaimsInTime {deployment : Deployment} (record : ActionRecord) (caller : Nat)
    (entry : Entry (system deployment)) : Prop where
  caller : entry.caller = caller
  request : ∃ now, entry.op = .command (.claimActionForExecution record.actionId now) ∧
    now < record.expiresAt
  claimed : ∃ claimed, claimedBy entry.op entry.answer = some claimed ∧
    claimed.actionId = record.actionId ∧
    actionRequestHash deployment.codec claimed = actionRequestHash deployment.codec record

/-- The caller claimed the record before it expired, and before that a call that
was given the record's request hash had approved it. -/
def Sanctioned {deployment : Deployment} (record : ActionRecord) (caller : Nat)
    (trace : List (Entry (system deployment))) : Prop :=
  ∃ later claim earlier, trace = later ++ claim :: earlier ∧ ClaimsInTime record caller claim ∧
    ∃ approval ∈ earlier,
      Approves (actionRequestHash deployment.codec record) record approval

/-- The precondition check of two actions sends the same requests, and so do their
runners after the marks of their starts. -/
structure SendAlike (deployment : Deployment) (first second : ActionRecord) : Prop where
  checks : checkPreconditions first = checkPreconditions second
  runs : ∀ dryRun, ∃ rest : Async ExecutionOutcome,
    runAction deployment first dryRun =
      (do Async.ask (.startRunner first dryRun); rest) ∧
    runAction deployment second dryRun =
      (do Async.ask (.startRunner second dryRun); rest)

/-- The runner and the precondition check read nothing but what the hash covers. -/
theorem sendAlike_of_sameRequest (deployment : Deployment) {first second : ActionRecord}
    (same : SameRequest deployment.codec first second)
    (parameters : first.normalizedParameters = second.normalizedParameters) :
    SendAlike deployment first second where
  checks := by
    simp only [checkPreconditions, same.toolId, same.workspaceId, parameters, same.preconditions]
  runs := by
    intro dryRun
    refine ⟨_, rfl, ?_⟩
    simp only [runAction, same.toolId, same.workspaceId, parameters, same.preconditions,
      same.operationId]

section

variable {deployment : Deployment}

theorem Sanctioned.cons {record : ActionRecord} {caller : Nat}
    {trace : List (Entry (system deployment))} (entry : Entry (system deployment))
    (sanctioned : Sanctioned record caller trace) : Sanctioned record caller (entry :: trace) := by
  obtain ⟨later, claim, earlier, rfl, claims, approved⟩ := sanctioned
  exact ⟨entry :: later, claim, earlier, rfl, claims, approved⟩

theorem Sanctioned.settles {record next : ActionRecord} {caller : Nat}
    {trace : List (Entry (system deployment))} (settles : Settles record next)
    (sanctioned : Sanctioned record caller trace) : Sanctioned next caller trace := by
  obtain ⟨updated, rollback, equal⟩ := settles
  rw [equal]
  obtain ⟨later, claim, earlier, rfl, claims, approval, member, approves⟩ := sanctioned
  exact ⟨later, claim, earlier, rfl, ⟨claims.caller, claims.request, claims.claimed⟩, approval,
    member, approves.job, approves.written⟩

end

namespace ApprovalBinding

variable {deployment : Deployment}

/-- The answer that a call is about to give to the user's decision. -/
def decision : Control → Option Job
  | .deciding actionId requestHash approved => some (.approve actionId requestHash approved)
  | .weighing stored requestHash approved =>
      some (.approve stored.actionId requestHash approved)
  | _ => none

/-- The record that a call has claimed and not started yet. -/
def claimedRecord : Control → Option ActionRecord
  | .claimed record => some record
  | .executing record => some record
  | _ => none

structure Holds (pool : Pool deployment) (controls : Nat → Option Control) : Prop where
  deciding : ∀ caller control job, controls caller = some control →
    decision control = some job → ∃ program, pool.calls caller = some (job, program)
  authorized : ∀ actionId stored, pool.state.db.getAction actionId = some stored →
    stored.status = .authorized →
    ∃ approval ∈ pool.trace, Approves stored.requestHash stored approval
  claimed : ∀ caller control record, controls caller = some control →
    claimedRecord control = some record → Sanctioned record caller pool.trace
  started : ∀ later start earlier record, pool.trace = later ++ start :: earlier →
    start.op = .startRunner record false → Sanctioned record start.caller earlier

section

variable {pool : Pool deployment} {controls : Nat → Option Control} {caller : Nat}
  {job : Job} {op : Op} {answer : op.Answer}
  {rest program : Program serviceInterface (Result Returned)}
  {before after : Control} {state : World}

/-- One answered request, from what it does to the rows and to its caller. -/
theorem Holds.step (holds : Holds pool controls)
    (decides : ∀ decided, decision after = some decided → decided = job)
    (rows : ∀ actionId stored, state.db.getAction actionId = some stored →
      stored.status = .authorized → pool.state.db.getAction actionId = some stored ∨
      Approves stored.requestHash stored
        (⟨caller, job, pool.state, op, answer⟩ : Entry (system deployment)))
    (claims : ∀ record, claimedRecord after = some record →
      Sanctioned record caller
        ((⟨caller, job, pool.state, op, answer⟩ : Entry (system deployment)) :: pool.trace))
    (starts : ∀ record, op = .startRunner record false → Sanctioned record caller pool.trace) :
    Holds (pool.record caller job op answer rest state)
      (assign controls caller (some after)) := by
  constructor
  · intro other control decided found decides'
    rcases assign_eq_some found with ⟨rfl, equal⟩ | ⟨different, old⟩
    · cases equal
      rw [decides decided decides']
      exact ⟨rest, assign_same _ _ _⟩
    · obtain ⟨program, call⟩ := holds.deciding other control decided old decides'
      exact ⟨program, by simpa [Pool.record, assign_other _ _ different] using call⟩
  · intro actionId stored found status
    rcases rows actionId stored found status with old | approves
    · obtain ⟨approval, member, approves⟩ := holds.authorized actionId stored old status
      exact ⟨approval, List.mem_cons_of_mem _ member, approves⟩
    · exact ⟨_, List.mem_cons_self, approves⟩
  · intro other control record found held
    rcases assign_eq_some found with ⟨rfl, equal⟩ | ⟨_, old⟩
    · cases equal
      exact claims record held
    · exact (holds.claimed other control record old held).cons _
  · intro later start earlier record trace startedAt
    cases later with
    | nil =>
        simp only [Pool.record, List.nil_append, List.cons.injEq] at trace
        obtain ⟨rfl, rfl⟩ := trace
        exact starts record startedAt
    | cons entry later =>
        simp only [Pool.record, List.cons_append, List.cons.injEq] at trace
        exact holds.started later start earlier record trace.2 startedAt

theorem Holds.decided (holds : Holds pool controls)
    (found : pool.calls caller = some (job, program)) (held : controls caller = some before)
    {decided : Job} (decides : decision before = some decided) : decided = job := by
  obtain ⟨other, call⟩ := holds.deciding caller before decided held decides
  rw [found] at call
  cases call
  rfl

/-- A request that leaves the rows and what its caller has claimed alone. -/
theorem Holds.quiet {choice : Choice} (holds : Holds pool controls)
    (found : pool.calls caller = some (job, program))
    (held : controls caller = some before)
    (decides : ∀ decided, decision after = some decided → decision before = some decided)
    (claims : claimedRecord after = none ∨ claimedRecord after = claimedRecord before)
    (quiet : Quiet op)
    (performed : World.perform deployment.content deployment.codec op choice pool.state =
      some (answer, state)) :
    Holds (pool.record caller job op answer rest state)
      (assign controls caller (some after)) := by
  apply holds.step
  · intro decided decides'
    exact holds.decided found held (decides decided decides')
  · intro actionId stored row _
    rw [Database.getAction, perform_quiet quiet performed] at row
    exact .inl row
  · intro record held'
    rcases claims with none | same
    · rw [none] at held'
      cases held'
    · exact (holds.claimed caller before record held (same ▸ held')).cons _
  · intro record started
    subst started
    exact quiet.elim

/-- A record is written that is not authorised, or one that its caller approves. -/
theorem Holds.put {record : ActionRecord} {answer : Result Unit} {choice : Choice}
    (holds : Holds pool controls) (held : controls caller = some before)
    (decides : decision after = none)
    (claims : claimedRecord after = none ∨ ∃ old, claimedRecord before = some old ∧
      claimedRecord after = some record ∧ Settles old record)
    (approves : record.status = .authorized → answer = .ok () →
      job = .approve record.actionId record.requestHash true)
    (performed : World.perform deployment.content deployment.codec
      (.command (.putAction record)) choice pool.state = some (answer, state)) :
    Holds (pool.record caller job (.command (.putAction record)) answer rest state)
      (assign controls caller (some after)) := by
  apply holds.step
  · intro decided decides'
    rw [decides] at decides'
    cases decides'
  · intro actionId stored row status
    rcases perform_putAction performed with ⟨rfl, rows⟩ | ⟨_, rfl⟩
    · rw [rows] at row
      split at row
      · cases row
        exact .inr ⟨approves status rfl, record, if_pos status, rfl, rfl⟩
      · exact .inl row
    · exact .inl row
  · intro next held'
    rcases claims with none | ⟨old, heldOld, heldNext, settles⟩
    · rw [none] at held'
      cases held'
    · rw [heldNext] at held'
      cases held'
      exact ((holds.claimed caller before old held heldOld).settles settles).cons _
  · intro next started
    cases started

/-- A successful claim: the row was approved, and the claim checked its hash and
its expiry. -/
theorem Holds.claim {actionId : ActionId} {now : DateTime} {record : ActionRecord}
    {choice : Choice} (holds : Holds pool controls)
    (performed : World.perform deployment.content deployment.codec
      (.command (.claimActionForExecution actionId now)) choice pool.state =
      some (.ok (some record), state)) :
    Holds (pool.record caller job (.command (.claimActionForExecution actionId now))
        (.ok (some record)) rest state)
      (assign controls caller (some (.claimed record))) := by
  have spec := perform_claim performed
  generalize written : state.db = db at spec
  cases spec with
  | @claimed stored _ found status early consumed bound rows =>
      have key := Database.getAction_actionId found
      subst key
      obtain ⟨approval, member, approves⟩ := holds.authorized stored.actionId stored found status
      apply holds.step
      · intro decided decides
        cases decides
      · intro other row found' authorized
        rw [written, rows] at found'
        split at found'
        · cases found'
          cases authorized
        · exact .inl found'
      · intro held same
        cases same
        refine ⟨[], _, pool.trace, rfl, ⟨rfl, ⟨now, rfl, Int.not_le.mp early⟩, _, rfl, rfl, rfl⟩,
          approval, member, ?_⟩
        rw [← bound] at approves
        exact ⟨approves.job, approves.written⟩
      · intro started same
        cases same

/-- A claim that found nothing to execute only expires rows. -/
theorem Holds.unclaimed {actionId : ActionId} {now : DateTime} {choice : Choice}
    {answer : Result (Option ActionRecord)} (holds : Holds pool controls)
    (none : claimedBy (.command (.claimActionForExecution actionId now)) answer = none)
    (performed : World.perform deployment.content deployment.codec
      (.command (.claimActionForExecution actionId now)) choice pool.state =
      some (answer, state)) :
    Holds (pool.record caller job (.command (.claimActionForExecution actionId now)) answer rest
        state)
      (assign controls caller (some .idle)) := by
  have spec := perform_claim performed
  generalize written : state.db = db at spec
  apply holds.step
  · intro decided decides
    cases decides
  · intro other row found authorized
    rw [written] at found
    cases spec with
    | missing => exact .inl found
    | refused => exact .inl found
    | expired stored status late rows =>
        rw [rows] at found
        split at found
        · cases found
          cases authorized
        · exact .inl found
    | claimed => cases none
  · intro record held
    cases held
  · intro record started
    cases started

/-- The start of the runner by the call that claimed the action. -/
theorem Holds.start {record : ActionRecord} (holds : Holds pool controls)
    (held : controls caller = some (.executing record)) :
    Holds (pool.record caller job (.startRunner record false) () rest pool.state)
      (assign controls caller (some (.started record))) := by
  apply holds.step
  · intro decided decides
    cases decides
  · intro actionId stored found _
    exact .inl found
  · intro next held'
    cases held'
  · intro next same
    cases same
    exact holds.claimed caller _ record held rfl

/-- Recovery authorises nothing. -/
theorem recoveredStatus_ne_authorized {action : ActionRecord} {now : DateTime}
    {status : ActionStatus} (moves : recoveredStatus action now = some status) :
    status ≠ .authorized := by
  rcases recoveredStatus_eq_some moves with rfl | rfl
  · decide
  · decide

end

theorem Holds.perform {pool : Pool deployment} {controls : Nat → Option Control} {caller : Nat}
    {job : Job} {op : Op} {next : op.Answer → Program serviceInterface (Result Returned)}
    {before after : Control} {choice : Choice} {answer : op.Answer} {state : World}
    (holds : Holds pool controls)
    (found : pool.calls caller = some (job, .request op next))
    (held : controls caller = some before) (advance : Advance before op answer after)
    (performed : World.perform deployment.content deployment.codec op choice pool.state =
      some (answer, state)) :
    Holds (pool.record caller job op answer (next answer) state)
      (assign controls caller (some after)) := by
  cases advance with
  | quiet quiet => exact holds.quiet found held (fun _ same => same) (.inr rfl) quiet performed
  | @weigh actionId requestHash approved stored =>
      obtain rfl : stored.actionId = actionId := by
        obtain ⟨-, answered | ⟨message, failed⟩⟩ := World.perform_query performed
        · simp only [Query.run, Except.ok.injEq] at answered
          exact Database.getAction_actionId answered.symm
        · cases failed
      exact holds.quiet found held (fun _ same => same) (.inl rfl) trivial performed
  | accept => exact holds.quiet found held (by simp [decision]) (.inl rfl) trivial performed
  | identify => exact holds.quiet found held (by simp [decision]) (.inl rfl) trivial performed
  | clock => exact holds.quiet found held (by simp [decision]) (.inl rfl) trivial performed
  | list => exact holds.quiet found held (by simp [decision]) (.inl rfl) trivial performed
  | recovered => exact holds.quiet found held (by simp [decision]) (.inl rfl) trivial performed
  | unlisted => exact holds.quiet found held (by simp [decision]) (.inl rfl) trivial performed
  | unexpired => exact holds.quiet found held (by simp [decision]) (.inl rfl) trivial performed
  | decide decides binds =>
      refine holds.put held rfl (.inl rfl) (fun status _ => ?_) performed
      obtain ⟨rfl, rfl⟩ := binds status
      rw [decides.actionId, decides.requestHash]
      exact (holds.decided found held rfl).symm
  | refuse status settles =>
      exact holds.put held rfl (.inl rfl) (fun same => by rw [status] at same; cases same) performed
  | beginFailed status settles =>
      exact holds.put held rfl (.inl rfl) (fun same => by rw [status] at same; cases same) performed
  | conclude status settles =>
      refine holds.put held rfl (.inl rfl) (fun same => ?_) performed
      simp [same] at status
  | propose same status =>
      refine holds.put held rfl (.inl rfl) (fun same => ?_) performed
      simp [same] at status
  | recoverAction unmoved moves =>
      exact holds.put held rfl (.inl rfl)
        (fun same => absurd same (recoveredStatus_ne_authorized moves)) performed
  | recoverFailed unmoved moves =>
      exact holds.put held rfl (.inl rfl)
        (fun same => absurd same (recoveredStatus_ne_authorized moves)) performed
  | @begin record written status settles =>
      exact holds.put held rfl (.inr ⟨record, rfl, rfl, settles⟩)
        (fun same => by rw [status] at same; cases same) performed
  | start =>
      obtain rfl : pool.state = state := by
        cases choice <;> cases performed
        rfl
      exact holds.start held
  | claim => exact holds.claim performed
  | unclaimed none => exact holds.unclaimed none performed

theorem Holds.spawn {pool : Pool deployment} {controls : Nat → Option Control} (job : Job)
    (holds : Holds pool controls) :
    Holds (Pool.spawn pool job) (assign controls pool.spawned (some (begins job))) := by
  constructor
  · intro other control decided found decides
    rcases assign_eq_some found with ⟨rfl, equal⟩ | ⟨different, old⟩
    · cases equal
      cases job with
      | approve actionId requestHash approved =>
          cases decides
          exact ⟨_, assign_same _ _ _⟩
      | _ => cases decides
    · obtain ⟨program, call⟩ := holds.deciding other control decided old decides
      exact ⟨program, by simpa [Pool.spawn, assign_other _ _ different] using call⟩
  · exact holds.authorized
  · intro other control record found claimed
    rcases assign_eq_some found with ⟨-, equal⟩ | ⟨-, old⟩
    · cases equal
      cases job <;> cases claimed
    · exact holds.claimed other control record old claimed
  · exact holds.started

/-- Callers that return or crash keep what the trace and the rows say. -/
theorem Holds.leave {pool next : Pool deployment} {controls kept : Nat → Option Control}
    (holds : Holds pool controls)
    (calls : ∀ {caller control}, kept caller = some control →
      controls caller = some control ∧ next.calls caller = pool.calls caller)
    (rows : next.state.db.actions = pool.state.db.actions) (trace : next.trace = pool.trace) :
    Holds next kept := by
  constructor
  · intro caller control decided found decides
    obtain ⟨old, same⟩ := calls found
    rw [same]
    exact holds.deciding caller control decided old decides
  · intro actionId stored found status
    rw [Database.getAction, rows] at found
    rw [trace]
    exact holds.authorized actionId stored found status
  · intro caller control record found claimed
    rw [trace]
    exact holds.claimed caller control record (calls found).1 claimed
  · rw [trace]
    exact holds.started

/-- The invariant of every run. -/
theorem invariant : Invariant (system deployment) protocol begins ends (fun _ _ => True) Holds where
  spawn job _ _ holds := holds.spawn job
  perform := by
    intro pool controls caller job op next before after choice answer state _ _ found held
      advance performed holds
    exact @Holds.perform deployment pool controls caller job op next before after choice answer
      state holds found held advance performed
  finish := by
    intro pool controls caller job result control _ _ _ holds
    refine holds.leave (fun {other} {control} found => ?_) rfl rfl
    rcases assign_eq_some found with ⟨-, equal⟩ | ⟨-, old⟩
    · cases equal
    · exact ⟨old, rfl⟩
  crash := by
    intro pool controls startup _ _ holds
    refine holds.leave (fun {other} {control} found => ?_) rfl rfl
    cases found

theorem holds_of_boots {pool : Pool deployment} (boots : Boots deployment pool) :
    (∀ caller, pool.calls caller = none) ∧ Holds pool fun _ => none := by
  obtain ⟨world, empty, rfl⟩ := boots
  refine ⟨fun _ => rfl, by simp, ?_, by simp, by simp [Pool.boot]⟩
  intro actionId stored found
  simp [Pool.boot, Database.getAction, Table.lookup, empty] at found

end ApprovalBinding

open ApprovalBinding in
/-- In every run the runner of an action starts only after a call that was given
the action's request hash approved it, and after a claim before it expired; and
the hash covers all that the precondition check and the runner read. -/
theorem approvalBinding (deployment : Deployment) (pool : Pool deployment)
    (reached : Pool.Reachable (fun _ _ => True) (Boots deployment) pool) :
    (∀ later start earlier record, pool.trace = later ++ start :: earlier →
      start.op = .startRunner record false → Sanctioned record start.caller earlier) ∧
    ∀ first second : ActionRecord,
      (actionRequestPreimage deployment.codec first).length < 2 ^ 64 →
      (deployment.codec.toVec first.normalizedParameters =
          deployment.codec.toVec second.normalizedParameters →
        first.normalizedParameters = second.normalizedParameters) →
      actionRequestPreimage deployment.codec first =
        actionRequestPreimage deployment.codec second →
      SendAlike deployment first second := by
  obtain ⟨controls, tracks, holds⟩ :=
    Invariant.reachable invariant (fun _ => holds_of_boots) (conforms deployment) reached
  constructor
  · exact holds.started
  · intro first second small faithful same
    have shared := sameRequest_of_preimage small same
    exact sendAlike_of_sameRequest deployment shared (faithful shared.parameters)

/-! An approved and executed action, with the texts and digests that the real
encodings give it. Nothing in the run reads the digests of the audit log. -/

namespace Demo

def parametersText : String :=
  "\x7b\"mode\":\"normal\",\"service\":\"order-service\"\x7d"

def schemaText : String :=
  "\x7b\"properties\":\x7b\"mode\":\x7b\"const\":\"normal\"\x7d,\"service\":\x7b\"const\":" ++
  "\"order-service\"\x7d\x7d,\"required\":[\"service\",\"mode\"],\"type\":\"object\"\x7d"

def schemaDigest : String :=
  "96d4315b63222a17637ec1fad0123dda9a7d9d0804cb604e746b553a2fa3cd38"

def requestDigest : String :=
  "a63fc5090e2c2eb0013255ca0636a0eb67be77873c30b4f57979b4ba242ac83b"

def texts : Codec where
  sha256Hex := fun _ => ""
  toVec
    | .object [("service", _), ("mode", _)] => utf8 parametersText
    | .object (("type", _) :: _) => utf8 schemaText
    | _ => utf8 "null"
  toRfc3339 := fun time =>
    if time = 1 then "1970-01-01T00:00:00.000000001+00:00" else "1970-01-01T00:00:00+00:00"

def proposal : ActionRecord where
  actionId := action
  planId := ⟨2⟩
  workspaceId := workspace
  threadId := thread
  toolId := demoFaultTool
  toolVersion := toolVersion
  schemaHash := schemaDigest
  effect := "change_reversible"
  normalizedTarget := "demo:order-service"
  normalizedParameters := .object [("service", .string "order-service"), ("mode", .string "normal")]
  preconditions := ["loopback-only"]
  expectedEffect := "Set demo fault mode to normal"
  dryRunResult := none
  verificationSpec := "GET /health returns status=ok and mode=normal"
  rollbackSpec := none
  blastRadius := "single local demo container"
  operationId := "1:1"
  requestHash := requestDigest
  status := .awaitingApproval
  approvalId := none
  consumedApproval := false
  expiresAt := 1
  updatedAt := 0

def digests : Codec :=
  { texts with
    sha256Hex := fun bytes =>
      if bytes = utf8 schemaText then schemaDigest
      else if bytes = actionRequestPreimage texts proposal then requestDigest
      else "" }

def signed : Deployment := { deployment with codec := digests }

def signedSettle (caller count : Nat) : List (Label (system signed)) :=
  List.replicate count (.perform caller (.settle 0))

def approvedReset : List (Label (system signed)) :=
  [.spawn (.propose thread demoFaultTool (.object []) [])] ++ signedSettle 0 7 ++
    [.perform 0 (.cluster (.ok (.object [])))] ++ signedSettle 0 5 ++
    [.spawn (.approve action requestDigest true)] ++ signedSettle 1 6 ++
    [.spawn (.execute action)] ++ signedSettle 2 8

end Demo

theorem approvalBinding_approvedReset :
    ∃ pool : Pool Demo.signed,
      Pool.Reachable (fun _ _ => True) (Boots Demo.signed) pool ∧
      starts Demo.action pool.trace = 1 ∧
      (∀ later start earlier record, pool.trace = later ++ start :: earlier →
        start.op = .startRunner record false → Sanctioned record start.caller earlier) ∧
      SendAlike Demo.signed Demo.proposal (Demo.proposal.moveTo .executing 0) := by
  have ran : (Pool.runChecked (fun _ _ => true) Demo.approvedReset (Pool.boot Demo.world)).map
      (fun pool => starts Demo.action pool.trace) = some 1 := by decide +kernel
  obtain ⟨pool, final, started⟩ := Option.map_eq_some_iff.mp ran
  have reached : Pool.Reachable (fun _ _ => True) (Boots Demo.signed) pool :=
    .of_runChecked (fun _ _ _ => trivial) (.start ⟨Demo.world, rfl, rfl⟩) final
  obtain ⟨sanctioned, alike⟩ := approvalBinding Demo.signed pool reached
  have small : (actionRequestPreimage Demo.digests Demo.proposal).length < 2 ^ 64 := by
    decide +kernel
  exact ⟨pool, reached, started, sanctioned, alike _ _ small (fun _ => rfl) rfl⟩

end OpsCodex.Remediation
