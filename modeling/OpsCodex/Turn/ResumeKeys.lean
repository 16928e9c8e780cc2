import OpsCodex.Turn.Terminal

/-! The keys of resumes: a resume that returns a report has driven its turn, or an
earlier one of the same turn and key has, as long as no key is found that was stored for
another turn or by a call that did not drive. -/

set_option autoImplicit false

namespace OpsCodex.Turn

open Effect OpsCodex.Action OpsCodex.Extensions OpsCodex.Store OpsCodex.Runtime

section

variable {deployment : Deployment}

/-- A resume of a turn with a key has driven the turn. -/
def DroveFor (pool : Pool deployment) (turnId : TurnId) (key : String) : Prop :=
  ∃ entry ∈ pool.trace, entry.job = .resumeTurn turnId (some key) ∧
    ∃ threadId, entry.op = .query (.getThread threadId)

/-- Every report that a resume returned is of its turn, and it has driven the turn itself,
or a resume of the turn with the same key has. -/
def ResumesDrove (pool : Pool deployment) : Prop :=
  ∀ caller turnId key report,
    pool.calls caller = some (.resumeTurn turnId key, .pure (.ok (.report report))) →
    report.turnId = turnId ∧
      (Drove pool caller ∨ ∃ known, key = some known ∧ DroveFor pool turnId known)

end

namespace ResumeKeys

/-- Requests other than those for a key. -/
def Plain : Op → Prop
  | .command (.rememberResume ..) => False
  | _ => True

/-- The points of a resume. -/
inductive Control where
  /-- A call that is no resume. -/
  | aside
  | asking (turnId : TurnId) (key : Option String)
  /-- The last checkpoint is read; it names a turn. -/
  | reported (turnId : TurnId) (key : Option String) (named : TurnId)
  | recalled (turnId : TurnId) (key : String) (report : RecoveryReport)
  | driving (turnId : TurnId) (key : Option String) (named : TurnId)

inductive Advance : Control → (op : Op) → op.Answer → Control → Prop where
  | plain {control op answer} (plain : Plain op) : Advance control op answer control
  | report {turnId key checkpoint} :
      Advance (.asking turnId key) (.query (.lastCheckpoint turnId)) (.ok (some checkpoint))
        (.reported turnId key checkpoint.turnId)
  | store {turnId key report answer} (fails : ∀ existing, answer ≠ .ok (some existing)) :
      Advance (.reported turnId (some key) report.turnId)
        (.command (.rememberResume key turnId report)) answer
        (.reported turnId (some key) report.turnId)
  | reread {turnId key report existing} :
      Advance (.reported turnId (some key) report.turnId)
        (.command (.rememberResume key turnId report)) (.ok (some existing))
        (.recalled turnId key existing)
  | drive {turnId key named threadId answer} :
      Advance (.reported turnId key named) (.query (.getThread threadId)) answer
        (.driving turnId key named)

def protocol : Protocol serviceInterface where
  Control := Control
  Advance := Advance

def begins : Job → Control
  | .resumeTurn turnId key => .asking turnId key
  | _ => .aside

/-- A resume that returns a report has found it under its key or has driven. -/
def ends : Job → Result Returned → Control → Prop
  | .resumeTurn turnId key, .ok (.report report), control =>
      control = .driving turnId key report.turnId ∨
        ∃ known, key = some known ∧ control = .recalled turnId known report
  | _, _, _ => True

section

/-- The points of a call that knows no keys. -/
def tame : Span → Bool
  | .foreign | .wild => false
  | _ => true

theorem plain_of_aside {op : Op} (aside : Aside op) : Plain op := by
  cases op with
  | command command => cases command <;> first | exact aside | trivial
  | _ => trivial

theorem plain_of_own {threadId : ThreadId} {turnId : TurnId} {op : Op}
    (own : Span.Own threadId turnId op) : Plain op := by
  cases op with
  | command command => cases command <;> first | exact own | trivial
  | _ => trivial

theorem Span.Advance.tame {before after : Span} {op : Op} {answer : op.Answer}
    (advance : Span.Advance before op answer after) (known : ResumeKeys.tame before = true) :
    ResumeKeys.tame after = true ∧ Plain op := by
  cases advance with
  | aside aside => exact ⟨known, plain_of_aside aside⟩
  | pass | passOut | passLease | remember | seize | wild => cases known
  | _ => exact ⟨rfl, trivial⟩

/-- A program that follows the span of a run, a recovery or a decision asks for no key. -/
theorem uses_plain {Value : Type} {program : Program serviceInterface Value} {span : Span}
    {post : Value → Span → Prop} (conforms : Conforms Span.protocol program span post)
    (known : tame span = true) : Uses Plain program := by
  induction program generalizing span with
  | pure value => trivial
  | request op next ih =>
      have later (answer : op.Answer) : Plain op ∧ Uses Plain (next answer) := by
        obtain ⟨after, advance, rest⟩ := conforms answer
        obtain ⟨tamed, plain⟩ := Span.Advance.tame advance known
        exact ⟨plain, ih answer rest tamed⟩
      refine ⟨?_, fun answer => (later answer).2⟩
      cases op with
      | command command =>
          cases command with
          | rememberResume key turnId report => exact (later (.ok none)).1
          | _ => trivial
      | _ => trivial

end

section

abbrev anywhere {Value : Type} : Value → Control → Prop := fun _ _ => True

variable (deployment : Deployment) {context : TurnEventContext}

abbrev OwnOf (context : TurnEventContext) : Op → Prop :=
  Span.Own context.threadId context.turnId

theorem uses_expirePending (pending : DurableApproval) :
    Fallible.Uses (Span.Wordless (OwnOf context)) (expirePending pending) := by
  unfold expirePending
  split
  · exact Fallible.Uses.pure
  · refine Fallible.Uses.bind (Span.uses_ask (by exact ⟨trivial, trivial⟩)) fun now => ?_
    split
    · exact Fallible.Uses.bind (Span.uses_write (by exact ⟨trivial, trivial⟩)) fun _ =>
        Fallible.Uses.pure
    · exact Fallible.Uses.pure

theorem uses_awaitRestored (pending : DurableApproval) :
    Fallible.Uses (Span.Wordless (OwnOf context))
      (awaitRestored context.threadId context.turnId pending) := by
  have decides (approved : Bool) : Fallible.Uses (Span.Wordless (OwnOf context)) (do
      Async.write (.putApproval { pending with
        status := if approved then .approved else .rejected })
      let _ ← (emit context.threadId (some context.turnId) none
        (.approvalResolved pending.approvalId approved)).attempt
      return approved : Async Bool) := by
    refine Fallible.Uses.bind (Span.uses_write (by exact ⟨trivial, trivial⟩)) fun _ => ?_
    refine Fallible.Uses.bind (Span.uses_emit (by exact rfl) (by exact rfl) _).attempt fun _ => ?_
    exact Fallible.Uses.pure
  unfold awaitRestored
  refine Fallible.Uses.bind (Span.uses_ask (by exact ⟨trivial, trivial⟩)) fun receiver => ?_
  refine Fallible.Uses.bind (Span.uses_ask (by exact ⟨trivial, trivial⟩)) fun decision => ?_
  cases decision with
  | answered approved => exact decides approved
  | closed => exact decides false
  | cancelled => exact Fallible.Uses.throw
  | elapsed => exact Fallible.Uses.throw

theorem uses_authorizeResumed (operation : PendingOperation) :
    Fallible.Uses (Span.Wordless (OwnOf context))
      (authorizeResumed deployment context operation) := by
  unfold authorizeResumed
  refine Fallible.Uses.bind (Span.uses_read (by exact ⟨trivial, trivial⟩)) fun found => ?_
  cases found with
  | none => exact Fallible.Uses.throw
  | some stored =>
      refine Fallible.Uses.bind (uses_expirePending stored) fun pending => ?_
      refine Fallible.Uses.bind ?answers fun approved => ?_
      case answers =>
        split
        · exact Fallible.Uses.pure
        · exact Fallible.Uses.pure
        · exact Fallible.Uses.pure
        · exact uses_awaitRestored pending
      split
      · exact Fallible.Uses.map (Span.uses_emitToolError deployment _ _ _ _ _)
      · refine Fallible.Uses.bind (Span.uses_ofResult _) fun descriptor => ?_
        split
        · exact Fallible.Uses.throw
        · split
          · exact Fallible.Uses.throw
          · exact Fallible.Uses.pure

theorem uses_resumePendingTool (operation : PendingOperation) (policy : ResumePolicy) :
    Fallible.Uses (Span.Wordless (OwnOf context))
      (resumePendingTool deployment context operation policy) := by
  unfold resumePendingTool
  refine Fallible.Uses.bind ?authorizes fun authorization => ?_
  case authorizes =>
    split
    · exact uses_authorizeResumed deployment operation
    · exact Fallible.Uses.pure
  cases authorization with
  | refused eventId => exact Fallible.Uses.pure
  | proceed causation => exact Span.uses_executeTool deployment _ _ _ _

theorem uses_enterTurn (report : RecoveryReport) :
    Fallible.Uses (Span.Wordless (OwnOf context))
      (enterTurn deployment context (.resume report)) := by
  unfold enterTurn
  dsimp only
  split
  · exact Fallible.Uses.throw
  · split
    · split
      · exact Fallible.Uses.bind (uses_resumePendingTool deployment _ _) fun _ =>
          Fallible.Uses.pure
      · exact Fallible.Uses.pure
    · exact Fallible.Uses.pure

theorem uses_modelLoop (instructions : String) (remaining : Nat) (step : UInt32)
    (last : Option EventId) :
    Fallible.Uses Plain (modelLoop deployment context instructions remaining step last) :=
  uses_plain (Span.modelLoop_meets deployment instructions remaining step last) rfl

/-- A report is returned at the point that the last checkpoint leads to. -/
theorem recoveryReport_meets (turnId : TurnId) (key : Option String) :
    Meets protocol (recoveryReport turnId) (.asking turnId key)
      (fun report after => after = .reported turnId key report.turnId) anywhere := by
  unfold recoveryReport
  refine Meets.bind (Async.meets_read fun answer => ⟨_, .plain trivial, ?_⟩)
  cases answer with
  | error error => trivial
  | ok turn =>
      cases turn with
      | none => exact Meets.throw trivial
      | some turn =>
          refine Meets.bind (Async.meets_read fun answer => ?_)
          cases answer with
          | error error => exact ⟨_, .plain trivial, trivial⟩
          | ok checkpoint =>
              cases checkpoint with
              | none => exact ⟨_, .plain trivial, Meets.throw trivial⟩
              | some checkpoint =>
                  refine ⟨_, .report, Meets.bind (Async.meets_read fun answer =>
                    ⟨_, .plain trivial, ?_⟩)⟩
                  cases answer with
                  | error error => trivial
                  | ok events => exact Meets.pure rfl

theorem driveResumed_meets (turnId : TurnId) (key : Option String) (report : RecoveryReport) :
    Meets protocol (driveResumed deployment turnId report)
      (.reported turnId key report.turnId)
      (fun returned after => returned = report ∧ after = .driving turnId key report.turnId)
      anywhere := by
  have stays {Value : Type} {program : Async Value} (uses : Fallible.Uses Plain program) :
      Meets protocol program (.driving turnId key report.turnId)
        (fun _ after => after = .driving turnId key report.turnId)
        fun _ after => after = .driving turnId key report.turnId :=
    uses.stays fun _ _ plain => .plain plain
  have released (lease : Lease) (result : Result Unit) :
      Meets protocol (do
        let _ ← (Async.write (.releaseLease lease.leaseId lease.fencingToken)).attempt
        Async.ofResult result
        return report : Async RecoveryReport) (.driving turnId key report.turnId)
        (fun returned after => returned = report ∧ after = .driving turnId key report.turnId)
        anywhere := by
    refine Meets.bind (Meets.attempt (Async.meets_write fun answer => ⟨_, .plain trivial, ?_⟩))
    cases answer <;> cases result <;> first | exact ⟨rfl, rfl⟩ | trivial
  unfold driveResumed
  refine Meets.bind (Async.meets_ask fun catalog => ⟨_, .plain trivial, ?_⟩)
  refine Meets.bind (Async.meets_write fun answer => ⟨_, .plain trivial, ?_⟩)
  cases answer with
  | error error => trivial
  | ok lease =>
      unfold runTurnInner
      refine Meets.bind (Meets.attempt (Meets.bind (Async.meets_read fun answer =>
        ⟨_, .drive, ?_⟩)))
      cases answer with
      | error error => exact released lease _
      | ok thread =>
          refine (stays ?rest).mono (fun _ after reached => ?_) fun _ after reached => ?_
          case rest =>
            refine Fallible.Uses.bind (Span.uses_ask (by exact trivial)) fun catalog => ?_
            refine Fallible.Uses.bind (Span.uses_ofResult _) fun _ => ?_
            refine Fallible.Uses.bind (Span.uses_ofResult _) fun tools => ?_
            dsimp only
            refine Fallible.Uses.bind ((uses_enterTurn deployment report).mono fun _
              wordless => plain_of_own wordless.allowed) fun entered => ?_
            exact uses_modelLoop deployment _ _ _ _
          · subst reached
            exact released lease _
          · subst reached
            exact released lease _

theorem withThread_meets {Value : Type} {threadId : ThreadId} {cancellable : Bool}
    {body : Async Value} {control : Control} {ok : Value → Control → Prop}
    (meets : Meets protocol body control ok anywhere) :
    Meets protocol (withThread threadId cancellable body) control ok anywhere := by
  have released {after : Control} {post : Control → Prop} (reached : post after) :
      Conforms protocol (Program.perform (I := serviceInterface) .releasePermit) after
        fun _ final => post final := fun answer => ⟨after, .plain trivial, reached⟩
  unfold withThread
  refine Meets.bind fun permit => ⟨_, .plain trivial, ?_⟩
  cases permit with
  | error error => trivial
  | ok =>
      refine Meets.andFinally (Meets.bind (Async.meets_ask fun entered =>
        ⟨_, .plain trivial, ?_⟩))
      cases entered with
      | false => exact Meets.throw (released trivial)
      | true =>
          refine Meets.andFinally (meets.mono (fun value after reached => ?_)
            fun error after reached => ?_)
          · exact fun answer => ⟨after, .plain trivial, released reached⟩
          · exact fun answer => ⟨after, .plain trivial, released trivial⟩

/-- A call of `resume_turn` stays on the points of a resume. -/
theorem resumeTurn_meets (turnId : TurnId) (key : Option String) :
    Meets protocol (resumeTurn deployment turnId key) (.asking turnId key)
      (fun report after => after = .driving turnId key report.turnId ∨
        ∃ known, key = some known ∧ after = .recalled turnId known report) anywhere := by
  unfold resumeTurn
  refine Meets.bind ((recoveryReport_meets turnId key).mono (fun report after reached => ?_)
    fun _ _ _ => trivial)
  subst reached
  split
  · exact Meets.throw trivial
  · have drives : Meets protocol
        (withThread report.threadId false (driveResumed deployment turnId report))
        (.reported turnId key report.turnId)
        (fun report after => after = .driving turnId key report.turnId ∨
          ∃ known, key = some known ∧ after = .recalled turnId known report) anywhere := by
      apply withThread_meets
      refine (driveResumed_meets deployment turnId key report).mono
        (fun returned after reached => ?_)
        fun _ _ _ => trivial
      obtain ⟨rfl, reached⟩ := reached
      exact .inl reached
    cases key with
    | none => exact drives
    | some known =>
        refine Meets.bind (Async.meets_write fun answer => ?_)
        cases answer with
        | error error => exact ⟨_, .store (fun _ same => by cases same), trivial⟩
        | ok remembered =>
            cases remembered with
            | none => exact ⟨_, .store (fun _ same => by cases same), drives⟩
            | some existing => exact ⟨_, .reread, Meets.pure (.inr ⟨known, rfl, rfl⟩)⟩

/-- Every call of the runtime stays on its points. -/
theorem conforms (job : Job) :
    Conforms protocol ((system deployment).program job) (begins job) (ends job) := by
  have others (known : tame (Span.begins job) = true) :
      Conforms protocol ((system deployment).program job) .aside fun _ _ => True := by
    have uses := uses_plain (Span.conforms deployment job) known
    exact Conforms.mono (Conforms.of_uses uses fun op answer plain => .plain plain)
      fun _ _ _ => trivial
  cases job with
  | resumeTurn turnId key =>
      have met : Meets protocol ((Job.resumeTurn turnId key).run deployment)
          (.asking turnId key) (fun returned after => ends (.resumeTurn turnId key)
            (.ok returned) after) anywhere :=
        (resumeTurn_meets deployment turnId key).map fun _ _ reached => reached
      refine Conforms.mono met fun outcome after reached => ?_
      cases outcome with
      | ok returned => exact reached
      | error error => trivial
  | runTurn threadId turnId input => exact others rfl
  | recover => exact (others rfl).mono fun outcome _ _ => by cases outcome <;> trivial
  | resolveApproval id approved => exact others rfl

end

section

variable {deployment : Deployment}

/-- A key that is found was stored for the same turn, and a resume of the turn with the
key has driven it. -/
def Promised (pool : Pool deployment) : Label (system deployment) → Prop
  | .perform caller _ => ∀ key turnId report,
      pool.awaits caller = some (.command (.rememberResume key turnId report)) →
      ∀ row ∈ pool.state.db.resumeOps, row.idempotencyKey = key →
        row.turnId = turnId ∧ DroveFor pool turnId key
  | _ => True

/-- A runtime that has just started, over a store without keys. -/
def Boots (pool : Pool deployment) : Prop :=
  ∃ world : World, world.db.resumeOps = [] ∧ pool = Pool.boot world

/-- What is known of a resume at one of its points. -/
def Knows (pool : Pool deployment) (caller : Nat) : Control → Prop
  | .reported turnId _ named => named = turnId
  | .recalled turnId key report => report.turnId = turnId ∧ DroveFor pool turnId key
  | .driving turnId _ named => named = turnId ∧ Drove pool caller
  | _ => True

structure Holds (pool : Pool deployment) (controls : Nat → Option Control) : Prop where
  rows : ∀ row ∈ pool.state.db.resumeOps, row.payload.turnId = row.turnId
  known : ∀ caller control, controls caller = some control → Knows pool caller control
  returned : ∀ caller turnId key report, controls caller = none →
    pool.calls caller = some (.resumeTurn turnId key, .pure (.ok (.report report))) →
    report.turnId = turnId ∧
      (Drove pool caller ∨ ∃ known, key = some known ∧ DroveFor pool turnId known)

section

variable {pool next : Pool deployment} {caller : Nat} {turnId : TurnId} {key : String}

theorem Drove.mono (drove : Drove pool caller) (kept : ∀ entry ∈ pool.trace, entry ∈ next.trace) :
    Drove next caller := by
  obtain ⟨entry, member, looked⟩ := drove
  exact ⟨entry, kept entry member, looked⟩

theorem DroveFor.mono (drove : DroveFor pool turnId key)
    (kept : ∀ entry ∈ pool.trace, entry ∈ next.trace) : DroveFor next turnId key := by
  obtain ⟨entry, member, looked⟩ := drove
  exact ⟨entry, kept entry member, looked⟩

theorem Knows.mono {control : Control} (known : Knows pool caller control)
    (kept : ∀ entry ∈ pool.trace, entry ∈ next.trace) : Knows next caller control := by
  cases control with
  | aside => trivial
  | asking => trivial
  | reported => exact known
  | recalled => exact ⟨known.1, DroveFor.mono known.2 kept⟩
  | driving => exact ⟨known.1, Drove.mono known.2 kept⟩

end

section

variable {pool : Pool deployment} {controls : Nat → Option Control} {caller : Nat} {job : Job}
  {op : Op} {next : op.Answer → Program serviceInterface (Result Returned)}
  {before after : Control} {choice : Choice} {answer : op.Answer} {state : World}

/-- A step after which the rows are in order and the caller knows what its point says. -/
theorem Holds.record {rest : Program serviceInterface (Result Returned)}
    (holds : Holds pool controls)
    (rows : ∀ row ∈ state.db.resumeOps, row.payload.turnId = row.turnId)
    (known : Knows (pool.record caller job op answer rest state) caller after) :
    Holds (pool.record caller job op answer rest state)
      (assign controls caller (some after)) := by
  have kept : ∀ entry ∈ pool.trace, entry ∈ (pool.record caller job op answer rest state).trace :=
    fun entry member => List.mem_cons_of_mem _ member
  constructor
  · exact rows
  · intro other control found
    obtain ⟨rfl, equal⟩ | ⟨-, old⟩ := assign_eq_some found
    · cases equal
      exact known
    · exact (holds.known other control old).mono kept
  · intro other turnId key report absent called
    by_cases same : other = caller
    · subst same
      rw [assign_same] at absent
      cases absent
    · rw [assign_other _ _ same] at absent
      simp only [Pool.record, assign_other _ _ same] at called
      obtain ⟨named, drove⟩ := holds.returned other turnId key report absent called
      refine ⟨named, ?_⟩
      obtain own | ⟨known, same, drove⟩ := drove
      · exact .inl (Drove.mono own kept)
      · exact .inr ⟨known, same, DroveFor.mono drove kept⟩

theorem resumeOps_of_plain (plain : Plain op)
    (performed : World.perform deployment.content deployment.codec op choice pool.state =
      some (answer, state)) : state.db.resumeOps = pool.state.db.resumeOps := by
  apply (World.perform_keeps performed).resumeOps
  unfold World.writes
  split <;> simp_all [Plain]

theorem resumeOps_of_remember {key : String} {turnId : TurnId} {report : RecoveryReport}
    {answer : Result (Option RecoveryReport)}
    (performed : World.perform deployment.content deployment.codec
      (.command (.rememberResume key turnId report)) choice pool.state = some (answer, state)) :
    (state.db.resumeOps = pool.state.db.resumeOps ∨ state.db.resumeOps =
      pool.state.db.resumeOps ++
        [{ idempotencyKey := key, turnId := turnId, payload := report }]) ∧
    ∀ existing, answer = .ok (some existing) → ∃ row ∈ pool.state.db.resumeOps,
      row.idempotencyKey = key ∧ row.payload = existing := by
  obtain ⟨clock, rfl, rfl⟩ | ⟨message, rfl, rfl⟩ := World.perform_single (fun _ => rfl) performed
  · simp only [Command.run, Database.rememberResume]
    cases found : Table.lookup ResumeOp.idempotencyKey key pool.state.db.resumeOps with
    | some row =>
        refine ⟨.inl rfl, fun existing same => ?_⟩
        cases same
        exact ⟨row, Table.lookup_mem found, Table.lookup_key found, rfl⟩
    | none => exact ⟨.inr rfl, fun existing same => by cases same⟩
  · exact ⟨.inl rfl, fun existing same => by cases same⟩

theorem rows_of_remember {key : String} {turnId : TurnId} {report : RecoveryReport}
    {answer : Result (Option RecoveryReport)} (own : report.turnId = turnId)
    (rows : ∀ row ∈ pool.state.db.resumeOps, row.payload.turnId = row.turnId)
    (performed : World.perform deployment.content deployment.codec
      (.command (.rememberResume key turnId report)) choice pool.state = some (answer, state)) :
    ∀ row ∈ state.db.resumeOps, row.payload.turnId = row.turnId := by
  obtain ⟨same | added, -⟩ := resumeOps_of_remember performed
  · rw [same]
    exact rows
  · rw [added]
    intro row member
    obtain old | new := List.mem_append.mp member
    · exact rows row old
    · rw [List.mem_singleton.mp new]
      exact own

theorem Holds.perform {rest : Program serviceInterface (Result Returned)}
    (holds : Holds pool controls) (admitted : Promised pool (.perform caller choice))
    (found : pool.calls caller = some (job, .request op next))
    (held : controls caller = some before) (advance : Advance before op answer after)
    (performed : World.perform deployment.content deployment.codec op choice pool.state =
      some (answer, state)) :
    Holds (pool.record caller job op answer rest state)
      (assign controls caller (some after)) := by
  have awaited : pool.awaits caller = some op := by
    simp only [Pool.awaits, found]
    rfl
  have before_known := holds.known caller before held
  have kept : ∀ entry ∈ pool.trace, entry ∈ (pool.record caller job op answer rest state).trace :=
    fun entry member => List.mem_cons_of_mem _ member
  cases advance with
  | plain plain =>
      apply holds.record
      · rw [resumeOps_of_plain plain performed]
        exact holds.rows
      · exact before_known.mono kept
  | @report turnId key checkpoint =>
      have plain : Plain (.query (.lastCheckpoint turnId)) := trivial
      apply holds.record
      · rw [resumeOps_of_plain plain performed]
        exact holds.rows
      · obtain ⟨-, read | ⟨message, failed⟩⟩ := World.perform_query performed
        · exact Database.lastCheckpoint_turnId (Except.ok.inj read).symm
        · cases failed
  | store => exact holds.record (rows_of_remember before_known holds.rows performed) before_known
  | @reread turnId key report existing =>
      apply holds.record (rows_of_remember before_known holds.rows performed)
      obtain ⟨row, member, same, rfl⟩ := (resumeOps_of_remember performed).2 existing rfl
      obtain ⟨own, drove⟩ := admitted key turnId report awaited row member same
      exact ⟨(holds.rows row member).trans own, DroveFor.mono drove kept⟩
  | @drive turnId key named threadId answer =>
      have plain : Plain (.query (.getThread threadId)) := trivial
      apply holds.record
      · rw [resumeOps_of_plain plain performed]
        exact holds.rows
      · exact ⟨before_known, _, List.mem_cons_self, rfl, _, rfl⟩

theorem Holds.spawn (job : Job) (holds : Holds pool controls) :
    Holds (Pool.spawn pool job) (assign controls pool.spawned (some (begins job))) := by
  constructor
  · exact holds.rows
  · intro other control found
    obtain ⟨rfl, equal⟩ | ⟨-, old⟩ := assign_eq_some found
    · cases equal
      cases job <;> trivial
    · exact (holds.known other control old).mono fun _ member => member
  · intro other turnId key report absent called
    by_cases same : other = pool.spawned
    · subst same
      rw [assign_same] at absent
      cases absent
    · rw [assign_other _ _ same] at absent
      simp only [Pool.spawn, assign_other _ _ same] at called
      exact holds.returned other turnId key report absent called

theorem Holds.finish {control : Control} {result : Result Returned}
    (found : pool.calls caller = some (job, .pure result)) (held : controls caller = some control)
    (ends : ends job result control) (holds : Holds pool controls) :
    Holds pool (assign controls caller none) := by
  constructor
  · exact holds.rows
  · intro other control found
    obtain ⟨-, equal⟩ | ⟨-, old⟩ := assign_eq_some found
    · cases equal
    · exact holds.known other control old
  · intro other turnId key report absent called
    by_cases same : other = caller
    · subst same
      rw [found] at called
      cases called
      have known := holds.known other control held
      obtain rfl | ⟨stored, rfl, rfl⟩ := ends
      · exact ⟨known.1, .inl known.2⟩
      · exact ⟨known.1, .inr ⟨stored, rfl, known.2⟩⟩
    · rw [assign_other _ _ same] at absent
      exact holds.returned other turnId key report absent called

theorem Holds.crash (startup : Catalog) (holds : Holds pool controls) :
    Holds (Pool.crash pool startup) fun _ => none := by
  constructor
  · exact holds.rows
  · intro other control found
    cases found
  · intro other turnId key report absent called
    cases called

end

/-- The invariant of the pool of resumes. -/
theorem invariant : Invariant (system deployment) protocol begins ends Promised Holds where
  spawn job _ _ holds := holds.spawn job
  perform := by
    intro pool controls caller job op next before after choice answer state tracks admitted found
      held advance performed holds
    exact Holds.perform holds admitted found held advance performed
  finish := by
    intro pool controls caller job result control found held ends holds
    exact Holds.finish found held ends holds
  crash startup _ _ holds := holds.crash startup

theorem holds_of_boots {pool : Pool deployment} (boots : Boots pool) :
    (∀ caller, pool.calls caller = none) ∧ Holds pool fun _ => none := by
  obtain ⟨world, empty, rfl⟩ := boots
  refine ⟨fun _ => rfl, ?_⟩
  constructor
  · intro row member
    simp only [Pool.boot, empty] at member
    cases member
  · intro other control found
    cases found
  · intro other turnId key report absent called
    cases called

end

end ResumeKeys

open ResumeKeys in
/-- Keys of resumes mean what they say in every run in which each key that is found was
stored for the same turn by a call that drove it. -/
theorem resumesDrove_of_promised (deployment : Deployment) (pool : Pool deployment)
    (reached : Pool.Reachable Promised Boots pool) : ResumesDrove pool := by
  obtain ⟨controls, tracks, holds⟩ :=
    Invariant.reachable invariant (fun _ => holds_of_boots) (ResumeKeys.conforms deployment) reached
  intro caller turnId key report called
  have follows := tracks.follows caller
  rw [called] at follows
  cases known : controls caller with
  | none => exact holds.returned caller turnId key report known called
  | some control =>
      rw [known] at follows
      obtain ⟨_, _, _, waits, _⟩ := follows.of_control
      cases waits

namespace ResumeKeys

variable {deployment : Deployment}

def looksUp : Op → Bool
  | .query (.getThread _) => true
  | _ => false

theorem looksUp_sound {op : Op} (looks : looksUp op = true) :
    ∃ threadId, op = .query (.getThread threadId) := by
  cases op with
  | query query =>
      cases query with
      | getThread threadId => exact ⟨threadId, rfl⟩
      | _ => cases looks
  | _ => cases looks

def resumes (turnId : TurnId) (key : String) : Job → Bool
  | .resumeTurn other (some known) => decide (other = turnId ∧ known = key)
  | _ => false

theorem resumes_sound {turnId : TurnId} {key : String} {job : Job}
    (resumed : resumes turnId key job = true) : job = .resumeTurn turnId (some key) := by
  cases job with
  | resumeTurn other known =>
      cases known with
      | none => cases resumed
      | some known =>
          obtain ⟨rfl, rfl⟩ := of_decide_eq_true resumed
          rfl
  | _ => cases resumed

/-- The condition on keys that are found, as a check. -/
def promised (pool : Pool deployment) : Label (system deployment) → Bool
  | .perform caller _ =>
      match pool.awaits caller with
      | some (.command (.rememberResume key turnId _)) =>
          pool.state.db.resumeOps.all fun row => decide (row.idempotencyKey ≠ key) ||
            (decide (row.turnId = turnId) && pool.trace.any fun entry =>
              resumes turnId key entry.job && looksUp entry.op)
      | _ => true
  | _ => true

theorem promised_sound (pool : Pool deployment) (label : Label (system deployment))
    (checked : promised pool label = true) : Promised pool label := by
  cases label with
  | spawn job => trivial
  | crash startup => trivial
  | perform caller choice =>
      intro key turnId report awaited row member same
      simp only [promised, awaited, List.all_eq_true] at checked
      have found := checked row member
      simp only [same, ne_eq, not_true_eq_false, decide_false, Bool.false_or,
        Bool.and_eq_true, decide_eq_true_eq] at found
      obtain ⟨entry, inside, drove⟩ := List.any_eq_true.mp found.2
      obtain ⟨job, looks⟩ := Bool.and_eq_true_iff.mp drove
      exact ⟨found.1, entry, inside, resumes_sound job, looksUp_sound looks⟩

/-- The turn that the report of a returned resume names. -/
def reportedTurn (pool : Pool deployment) (caller : Nat) : Option TurnId :=
  match pool.calls caller with
  | some (.resumeTurn _ _, .pure (.ok (.report report))) => some report.turnId
  | _ => none

theorem reportedTurn_sound {pool : Pool deployment} {caller : Nat} {named : TurnId}
    (reported : reportedTurn pool caller = some named) : ∃ turnId key report,
      pool.calls caller = some (.resumeTurn turnId key, .pure (.ok (.report report))) ∧
      report.turnId = named := by
  unfold reportedTurn at reported
  split at reported
  · rename_i turnId key report called
    exact ⟨turnId, key, report, called, Option.some.inj reported⟩
  · cases reported

/-- No resume, and nothing of a caller, has looked a thread up. -/
def undriven (pool : Pool deployment) (caller : Nat) : Bool :=
  pool.trace.all fun entry => !looksUp entry.op || match entry.job with
    | .resumeTurn .. => false
    | _ => decide (entry.caller ≠ caller)

theorem undriven_sound {pool : Pool deployment} {caller : Nat}
    (idle : undriven pool caller = true) :
    ¬ Drove pool caller ∧ ∀ turnId key, ¬ DroveFor pool turnId key := by
  have quiet := List.all_eq_true.mp idle
  constructor
  · intro ⟨entry, member, own, threadId, op⟩
    have checked := quiet entry member
    rw [op] at checked
    cases job : entry.job <;> simp [looksUp, job, own] at checked
  · intro turnId key ⟨entry, member, job, threadId, op⟩
    have checked := quiet entry member
    rw [op, job] at checked
    cases checked

theorem boots_demo : Boots Demo.pool := ⟨Demo.world, rfl, rfl⟩

def resume (key : String) : List Demo.Step := Demo.spawn (.resumeTurn Demo.turn (some key))

/-- A resume that the lease of the dead process refuses, and another one with the key. -/
def refused : List Demo.Step :=
  Demo.run ++ Demo.settle 0 16 ++ Demo.crash ++ resume "retry" ++ Demo.settle 1 10 ++
    resume "retry" ++ Demo.settle 2 4

/-- A resume that drives its turn to its end, and another one with the key. -/
def repeated : List Demo.Step :=
  Demo.run ++ Demo.settle 0 16 ++ Demo.crash ++ Demo.spawn .recover ++ Demo.settle 1 9 ++
    resume "retry" ++ Demo.settle 2 18 ++ Demo.model 2 [] ++ Demo.settle 2 10 ++
    resume "retry" ++ Demo.settle 3 4

end ResumeKeys

open ResumeKeys

theorem resumesDrove_of_promised_repeated :
    ∃ pool : Pool Demo.deployment, Pool.Reachable Promised Boots pool ∧
      reportedTurn pool 2 = some Demo.turn ∧ reportedTurn pool 3 = some Demo.turn ∧
      ResumesDrove pool := by
  have ran : (Pool.runChecked promised (Demo.labels 0 repeated) Demo.pool).map
      (fun pool => (reportedTurn pool 2, reportedTurn pool 3)) =
        some (some Demo.turn, some Demo.turn) := by
    decide +kernel
  obtain ⟨pool, final, reports⟩ := Option.map_eq_some_iff.mp ran
  obtain ⟨first, second⟩ := Prod.mk.inj reports
  have reached : Pool.Reachable Promised Boots pool :=
    .of_runChecked promised_sound (.start boots_demo) final
  exact ⟨pool, reached, first, second, resumesDrove_of_promised Demo.deployment pool reached⟩

/-- A key that a refused resume has stored makes the next one return a report. -/
theorem not_resumesDrove_of_refused :
    ¬ ∀ (deployment : Deployment) (pool : Pool deployment),
      Pool.Reachable (fun _ _ => True) Boots pool → ResumesDrove pool := by
  intro claimed
  have ran : (Pool.runChecked (fun _ _ => true) (Demo.labels 0 refused) Demo.pool).map
      (fun pool => (reportedTurn pool 2, undriven pool 2)) = some (some Demo.turn, true) := by
    decide +kernel
  obtain ⟨pool, final, reports⟩ := Option.map_eq_some_iff.mp ran
  obtain ⟨reported, idle⟩ := Prod.mk.inj reports
  obtain ⟨turnId, key, report, called, -⟩ := reportedTurn_sound reported
  obtain ⟨unlooked, undrove⟩ := undriven_sound idle
  have reached : Pool.Reachable (fun _ _ => True) Boots pool :=
    .of_runChecked (fun _ _ _ => trivial) (.start boots_demo) final
  obtain drove | ⟨known, -, drove⟩ :=
    (claimed Demo.deployment pool reached 2 turnId key report called).2
  · exact unlooked drove
  · exact undrove turnId known drove

end OpsCodex.Turn
