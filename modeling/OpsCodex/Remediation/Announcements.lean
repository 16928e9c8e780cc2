import OpsCodex.Remediation.LifeCycle
import OpsCodex.Store.Items

/-! What a remediation call tells about the action it writes. After each write it
owes an audit record and an event; some writes only come with an event. -/

set_option autoImplicit false

namespace OpsCodex.Remediation

open Effect OpsCodex.Action OpsCodex.Store OpsCodex.Runtime

namespace OnRecord

/-- An audit record of a status that an action has come to. -/
structure Reports (actionId : ActionId) (status : ActionStatus) (operation : String)
    (summary : Json.Value) : Prop where
  operation : operation = s!"action.{status.asStr}"
  action : (summary.get? "action_id").bind Json.Value.asStr? = some (toString actionId)
  status : (summary.get? "status").bind Json.Value.asStr? = some status.asStr

/-- The append of the event that tells a record's status to the record's thread. -/
structure Announces (record : ActionRecord) (command : AppendEvent) : Prop where
  thread : command.threadId = record.threadId
  event : ∃ planId tool requestHash review, command.event =
    .actionUpdated record.actionId planId record.status.asStr tool requestHash review

inductive Control where
  /-- Nothing is owed. -/
  | idle
  | weighing (stored : ActionRecord)
  | scanning
  | scanningAt (now : DateTime)
  | owing (record : ActionRecord)
  | audited (record : ActionRecord)
  /-- What the call goes on to write comes without an audit record. -/
  | lax
  | laxOwing (record : ActionRecord)
  /-- A write was not told, or the store failed. -/
  | wild

/-- Control points that requests besides the actions leave alone. -/
def Control.Rests : Control → Prop
  | .idle | .scanningAt _ | .lax | .wild => True
  | _ => False

/-- Control points at which a call may return. -/
def Control.Settled : Control → Prop
  | .owing _ | .audited _ | .laxOwing _ => False
  | _ => True

/-- Requests that neither write an action nor tell of one by an event. -/
def Aside : Op → Prop
  | .command (.putAction _) => False
  | .command (.claimActionForExecution _ _) => False
  | .command (.appendEvent _) => False
  | _ => True

theorem aside_of_elsewhere (op : Op) (elsewhere : Elsewhere op) : Aside op := by
  unfold Aside
  split
  all_goals first
    | exact elsewhere
    | trivial

/-- A write that the store fails. A failed claim only answers its caller. -/
def writeFails : (op : Op) → op.Answer → Bool
  | .command (.claimActionForExecution _ _), _ => false
  | .command _, .error _ => true
  | _, _ => false

inductive Advance : Control → (op : Op) → op.Answer → Control → Prop where
  | aside {control op answer} (rests : control.Rests) (aside : Aside op) :
      Advance control op answer control
  | weigh {actionId stored} :
      Advance .idle (.query (.getAction actionId)) (.ok (some stored)) (.weighing stored)
  | timely {stored now} (early : ¬ stored.expiresAt ≤ now) :
      Advance (.weighing stored) .now now .idle
  | lapse {stored now} (awaiting : stored.status = .awaitingApproval)
      (late : stored.expiresAt ≤ now) : Advance (.weighing stored) .now now .wild
  | write {record} : Advance .idle (.command (.putAction record)) (.ok ()) (.owing record)
  | audit {record actor workspaceId operation summary}
      (reports : Reports record.actionId record.status operation summary) :
      Advance (.owing record) (.command (.appendAudit actor workspaceId operation summary))
        (.ok ()) (.audited record)
  | tell {record command envelope} (announces : Announces record command) :
      Advance (.audited record) (.command (.appendEvent command)) (.ok envelope) .idle
  | claim {actionId now record} :
      Advance .idle (.command (.claimActionForExecution actionId now)) (.ok (some record))
        (.laxOwing record)
  | unclaimed {actionId now answer}
      (none : claimedBy (.command (.claimActionForExecution actionId now)) answer = none) :
      Advance .idle (.command (.claimActionForExecution actionId now)) answer .idle
  | unsure {workspaceId kind namespaceName name replicas resourceVersion operationId error}
      (unknown : isUnknownResult error = true) :
      Advance .idle (.patchReplicas workspaceId kind namespaceName name replicas
        resourceVersion operationId true) (.error error) .lax
  | laxWrite {record} :
      Advance .lax (.command (.putAction record)) (.ok ()) (.laxOwing record)
  | laxAudit {record actor workspaceId operation summary} :
      Advance (.laxOwing record) (.command (.appendAudit actor workspaceId operation summary))
        (.ok ()) (.laxOwing record)
  | laxTell {record command envelope} (announces : Announces record command) :
      Advance (.laxOwing record) (.command (.appendEvent command)) (.ok envelope) .lax
  | scan {now} : Advance .scanning .now now (.scanningAt now)
  | list {now todo} (unmoved : ∀ action ∈ todo, recoveredStatus action now = none) :
      Advance (.scanningAt now) (.query .listActionRecoveryCandidates) (.ok todo) .idle
  | listMoving {now todo action} (member : action ∈ todo)
      (moves : recoveredStatus action now ≠ none) :
      Advance (.scanningAt now) (.query .listActionRecoveryCandidates) (.ok todo) .lax
  | stray {op answer} : Advance .wild op answer .wild
  | fails {control op answer} (fails : writeFails op answer = true) :
      Advance control op answer .wild

def protocol : Protocol serviceInterface where
  Control := Control
  Advance := Advance

variable (deployment : Deployment)

/-- A call returns with nothing owed. -/
abbrev done {Value : Type} : Value → Control → Prop := fun _ after => after.Settled

section Parts

variable {Value Returned : Type} {ok : Returned → Control → Prop}

theorem besides {program : Async Value} {rest : Value → Async Returned} {control : Control}
    (rests : control.Rests) (settled : control.Settled) (uses : Fallible.Uses Aside program)
    (next : ∀ value, Meets protocol (rest value) control ok done) :
    Meets protocol (program >>= rest) control ok done :=
  Meets.after_quiet (uses.stays fun _ _ aside => .aside rests aside) next fun _ => settled

theorem elsewhere {program : Async Value} {rest : Value → Async Returned} {control : Control}
    (rests : control.Rests) (settled : control.Settled) (uses : Fallible.Uses Elsewhere program)
    (next : ∀ value, Meets protocol (rest value) control ok done) :
    Meets protocol (program >>= rest) control ok done :=
  besides rests settled (uses.mono aside_of_elsewhere) next

theorem put_meets {record : ActionRecord} {before after : Control} {rest : Async Returned}
    (advance : Advance before (.command (.putAction record)) (.ok ()) after)
    (next : Meets protocol rest after ok done) :
    Meets protocol (do Async.write (.putAction record); rest) before ok done := by
  refine Meets.bind (Async.meets_write fun answer => ?_)
  cases answer with
  | ok => exact ⟨after, advance, next⟩
  | error error => exact ⟨.wild, .fails rfl, trivial⟩

theorem emit_meets {record : ActionRecord} {before after : Control} {rest : Async Returned}
    (advance : ∀ command envelope, Announces record command →
      Advance before (.command (.appendEvent command)) (.ok envelope) after)
    (next : Meets protocol rest after ok done) :
    Meets protocol (do let _ ← emitAction deployment record.threadId record; rest) before ok
      done := by
  refine Meets.bind (Async.meets_write fun answer => ?_)
  cases answer with
  | ok envelope => exact ⟨after, advance _ envelope ⟨rfl, _, _, _, _, rfl⟩, next⟩
  | error error => exact ⟨.wild, .fails rfl, trivial⟩

/-- A write is told by an audit record and an event. -/
theorem told_meets {record : ActionRecord} {operation : String} {workspaceId : Option String}
    {summary : Json.Value} {rest : Async Returned}
    (reports : Reports record.actionId record.status operation summary)
    (next : Meets protocol rest .idle ok done) :
    Meets protocol (do
      audit deployment operation workspaceId summary
      let _ ← emitAction deployment record.threadId record
      rest) (.owing record) ok done := by
  refine Meets.bind (Async.meets_write fun answer => ?_)
  cases answer with
  | ok =>
      refine ⟨.audited record, .audit reports, ?_⟩
      exact emit_meets deployment (fun _ _ announces => .tell announces) next
  | error error => exact ⟨.wild, .fails rfl, trivial⟩

/-- A write without an audit record is told by an event. -/
theorem laxTold_meets {record : ActionRecord} {rest : Async Returned}
    (next : Meets protocol rest .lax ok done) :
    Meets protocol (do let _ ← emitAction deployment record.threadId record; rest)
      (.laxOwing record) ok done :=
  emit_meets deployment (fun _ _ announces => .laxTell announces) next

theorem moved_meets {action : ActionRecord} {source target : ActionStatus} {control : Control}
    {rest : ActionRecord → Async Returned} (rests : control.Rests)
    (allowed : source.canTransition target = true)
    (next : ∀ updated, Meets protocol (rest (action.moveTo target updated)) control ok done) :
    Meets protocol (Runtime.moveTo action source target >>= rest) control ok done := by
  unfold Runtime.moveTo
  rw [show transition source target = .ok target by simp [transition, allowed]]
  refine Meets.bind (Async.meets_ok (Meets.bind (Async.meets_ask fun now => ?_)))
  exact ⟨control, .aside rests trivial, Meets.pure (next now)⟩

/-- Nothing is promised any more. -/
theorem wild_conforms (program : Program serviceInterface Value) :
    Conforms protocol program .wild fun _ after => after = .wild := by
  induction program with
  | pure value => rfl
  | request op next ih => exact fun answer => ⟨.wild, .stray, ih answer⟩

end Parts

theorem reports_reviewSummary {codec : Codec} {record : ActionRecord} {operation : String}
    (same : operation = s!"action.{record.status.asStr}") :
    Reports record.actionId record.status operation (record.reviewSummary codec) := by
  constructor
  · exact same
  · rfl
  · rfl

/-- An action that still awaits its answer was read before its expiry. -/
theorem expireIfNeeded_meets (stored : ActionRecord) :
    Meets protocol (expireIfNeeded stored) (.weighing stored)
      (fun action after => (action.status = .awaitingApproval → after = .idle) ∧ after.Settled)
      done := by
  unfold expireIfNeeded
  split
  · rename_i awaiting
    refine Meets.bind (Async.meets_ask fun now => ?_)
    by_cases late : stored.expiresAt ≤ now
    · refine ⟨.wild, .lapse awaiting late, ?_⟩
      rw [if_pos late]
      refine moved_meets trivial rfl fun updated => ?_
      refine Meets.bind (Async.meets_write fun answer => ⟨.wild, .stray, ?_⟩)
      cases answer with
      | ok => exact Meets.pure ⟨fun other => (by cases other), trivial⟩
      | error error => trivial
    · refine ⟨.idle, .timely late, ?_⟩
      rw [if_neg late]
      exact Meets.pure ⟨fun _ => rfl, trivial⟩
  · rename_i moved
    exact Meets.pure ⟨fun awaiting => absurd awaiting moved, trivial⟩

theorem approveAction_meets (actionId : ActionId) (requestHash : String) (approved : Bool) :
    Meets protocol (approveAction deployment actionId requestHash approved) .idle done done := by
  unfold approveAction
  refine Meets.bind (Async.meets_read fun answer => ?_)
  cases answer with
  | error error => exact ⟨.idle, .aside trivial trivial, trivial⟩
  | ok found =>
      cases found with
      | none => exact ⟨.idle, .aside trivial trivial, trivial⟩
      | some stored =>
          refine ⟨.weighing stored, .weigh, ?_⟩
          refine Meets.bind ((expireIfNeeded_meets stored).mono ?_ fun _ _ settled => settled)
          intro action after reached
          by_cases awaiting : action.status = .awaitingApproval
          · obtain rfl := reached.1 awaiting
            rw [if_neg (not_not_intro awaiting)]
            split
            · exact Meets.throw trivial
            · dsimp only
              split
              · exact Meets.throw trivial
              · refine moved_meets trivial (by cases approved <;> rfl) fun updated => ?_
                refine put_meets .write (told_meets deployment (reports_reviewSummary ?_)
                  (Meets.pure trivial))
                cases approved <;> rfl
          · rw [if_pos awaiting]
            exact Meets.throw reached.2

theorem uses_runAction (action : ActionRecord) (dryRun : Bool) :
    Fallible.Uses Aside (runAction deployment action dryRun) := by
  unfold runAction
  refine Fallible.Uses.bind ⟨trivial, fun _ => trivial⟩ fun _ => ?_
  split
  · exact (uses_executeDemoFault deployment dryRun).mono aside_of_elsewhere
  · split
    · refine ((uses_kubeFor _).mono aside_of_elsewhere).bind fun _ => ?_
      refine (uses_ofResult _).bind fun kind => ?_
      refine (uses_ofResult _).bind fun namespaceName => ?_
      refine (uses_ofResult _).bind fun name => ?_
      split
      · exact Fallible.Uses.throw
      · exact (uses_executeK8sScale ..).mono aside_of_elsewhere
    · exact Fallible.Uses.throw

/-- The rest of an execution may write what it likes: a claim is never audited. -/
theorem executeClaimed_meets (record : ActionRecord) :
    Meets protocol (executeClaimed deployment record) (.laxOwing record) done done := by
  have ends {Returned : Type} {written : ActionRecord} {operation : String}
      {summary : Json.Value} {rest : Async Returned} {ok : Returned → Control → Prop}
      (next : Meets protocol rest .lax ok done) :
      Meets protocol (do
        Async.write (.putAction written)
        audit deployment operation (some written.workspaceId.asStr) summary
        let _ ← emitAction deployment written.threadId written
        rest) .lax ok done := by
    refine put_meets .laxWrite ?_
    refine Meets.bind (Async.meets_write fun answer => ?_)
    cases answer with
    | ok => exact ⟨.laxOwing written, .laxAudit, laxTold_meets deployment next⟩
    | error error => exact ⟨.wild, .fails rfl, trivial⟩
  have answers (written : ActionRecord) (message : String) :
      Meets protocol (if written.status = .needsReconciliation then
        throw (.needsReconciliation message) else pure written : Async ActionRecord) .lax
        done done := by
    split
    · exact Meets.throw trivial
    · exact Meets.pure trivial
  unfold executeClaimed
  refine laxTold_meets deployment ?_
  refine elsewhere trivial trivial (uses_checkPreconditions record).attempt fun checked => ?_
  cases checked with
  | error error =>
      refine moved_meets trivial rfl fun updated => ?_
      exact put_meets .laxWrite (laxTold_meets deployment (Meets.throw trivial))
  | ok =>
      refine moved_meets trivial rfl fun updated => ?_
      refine put_meets .laxWrite (laxTold_meets deployment ?_)
      refine besides trivial trivial (uses_runAction deployment _ _).attempt fun ran => ?_
      cases ran with
      | error error =>
          refine moved_meets trivial rfl fun settled => ?_
          exact ends (Meets.throw trivial)
      | ok outcome =>
          refine elsewhere trivial trivial (uses_countMutation outcome) fun _ => ?_
          cases settled : settledStatus outcome with
          | error error => exact Meets.throw trivial
          | ok status =>
              refine Async.meets_ok ?_
              refine besides trivial trivial ⟨trivial, fun _ => trivial⟩ fun now => ?_
              exact ends (answers _ _)

theorem executeAction_meets (actionId : ActionId) :
    Meets protocol (executeAction deployment actionId) .idle done done := by
  unfold executeAction
  refine besides trivial trivial ⟨trivial, fun _ => trivial⟩ fun killSwitch => ?_
  split
  · exact Meets.throw trivial
  · refine besides trivial trivial ⟨trivial, fun _ => trivial⟩ fun now => ?_
    refine Meets.bind (Async.meets_write fun answer => ?_)
    cases answer with
    | error error => exact ⟨.idle, .unclaimed rfl, trivial⟩
    | ok found =>
        cases found with
        | some record =>
            exact ⟨.laxOwing record, .claim, executeClaimed_meets deployment record⟩
        | none =>
            refine ⟨.idle, .unclaimed rfl, ?_⟩
            refine Meets.bind (Async.meets_read fun answer => ?_)
            cases answer with
            | error error => exact ⟨.idle, .aside trivial trivial, trivial⟩
            | ok stored =>
                refine ⟨.idle, .aside trivial trivial, ?_⟩
                cases stored <;> exact Meets.throw trivial

/-- A dry run that does not know its result leaves an invalid action to write. -/
theorem dryRun_meets (action : ActionRecord) :
    Meets protocol (runAction deployment action true) .idle
      (fun outcome after => (after = .idle ∧ outcome.uncertain = false) ∨
        (after = .lax ∧ outcome.uncertain = true)) done := by
  unfold runAction
  refine Meets.bind (Async.meets_ask fun _ => ⟨.idle, .aside trivial trivial, ?_⟩)
  split
  · unfold executeDemoFault
    refine besides trivial trivial trivial fun _ => ?_
    refine besides trivial trivial ⟨trivial, fun _ => trivial⟩ fun health => ?_
    exact Meets.pure (.inl ⟨rfl, rfl⟩)
  · split
    · refine elsewhere trivial trivial (uses_kubeFor _) fun _ => ?_
      refine elsewhere trivial trivial (uses_ofResult _) fun kind => ?_
      refine elsewhere trivial trivial (uses_ofResult _) fun namespaceName => ?_
      refine elsewhere trivial trivial (uses_ofResult _) fun name => ?_
      split
      · exact Meets.throw trivial
      · unfold executeK8sScale
        refine elsewhere trivial trivial (uses_getWorkload ..) fun before => ?_
        rw [if_neg (show ¬(!true && _) = true from Bool.false_ne_true)]
        refine Meets.bind (Meets.attempt fun answer => ?_)
        cases answer with
        | ok patched => exact ⟨.idle, .aside trivial trivial, Meets.pure (.inl ⟨rfl, rfl⟩)⟩
        | error error =>
            by_cases unknown : isUnknownResult error = true
            · refine ⟨.lax, .unsure unknown, ?_⟩
              change Meets protocol (ite _ _ _) .lax _ done
              rw [if_pos unknown]
              exact Meets.pure (.inr ⟨rfl, rfl⟩)
            · refine ⟨.idle, .aside trivial trivial, ?_⟩
              change Meets protocol (ite _ _ _) .idle _ done
              rw [if_neg unknown]
              exact Meets.throw trivial
    · exact Meets.throw trivial

/-- An action belongs to the thread it is proposed in. -/
theorem buildAction_meets (threadId : ThreadId) (workspaceId : WorkspaceId) (kind : String)
    (parameters : Json.Value) :
    Meets protocol (buildAction deployment threadId workspaceId kind parameters) .idle
      (fun action after => after = .idle ∧ action.threadId = threadId) done := by
  unfold buildAction
  refine besides trivial trivial ⟨trivial, fun _ => trivial⟩ fun now => ?_
  refine besides trivial trivial (uses_ofResult _) fun shape => ?_
  refine besides trivial trivial ⟨trivial, fun _ => trivial⟩ fun actionId => ?_
  refine besides trivial trivial ⟨trivial, fun _ => trivial⟩ fun planId => ?_
  exact Meets.pure ⟨rfl, rfl⟩

/-- The plan of an action is written before the action. -/
theorem persisted_meets {Returned : Type} {record : ActionRecord} {claimIds : List ClaimId}
    {before after : Control} {rest : Async Returned} {ok : Returned → Control → Prop}
    (rests : before.Rests) (settled : before.Settled)
    (advance : Advance before (.command (.putAction record)) (.ok ()) after)
    (next : Meets protocol rest after ok done) :
    Meets protocol (do persistAction record claimIds; rest) before ok done := by
  unfold persistAction
  refine Meets.bind (besides rests settled ⟨trivial, fun _ => trivial⟩ fun _ => ?_)
  refine Async.meets_write fun answer => ?_
  cases answer with
  | ok => exact ⟨after, advance, next⟩
  | error error => exact ⟨.wild, .fails rfl, trivial⟩

theorem proposeActionPlan_meets (threadId : ThreadId) (kind : String)
    (parameters : Json.Value) (claimIds : List ClaimId) :
    Meets protocol (proposeActionPlan deployment threadId kind parameters claimIds) .idle
      done done := by
  unfold proposeActionPlan
  refine besides trivial trivial ⟨trivial, fun _ => trivial⟩ fun thread => ?_
  refine besides trivial trivial ⟨trivial, fun _ => trivial⟩ fun catalog => ?_
  refine besides trivial trivial (by split <;> first | trivial | exact (uses_ofResult _).map)
    fun workspace => ?_
  refine Meets.bind ((buildAction_meets deployment _ _ _ _).mono ?_ fun _ _ settled => settled)
  intro action after built
  obtain ⟨rfl, rfl⟩ := built
  refine besides trivial trivial (uses_ofResult _) fun effect => ?_
  refine besides trivial trivial ⟨trivial, fun _ => trivial⟩ fun killSwitch => ?_
  dsimp only
  split
  · refine persisted_meets trivial trivial .write ?_
    exact told_meets deployment (reports_reviewSummary rfl) (Meets.throw trivial)
  · refine Async.meets_ok ?_
    refine Meets.bind ((dryRun_meets deployment _).mono ?_ fun _ _ settled => settled)
    intro dry after reached
    split
    · rename_i uncertain
      obtain rfl : after = .lax := by
        obtain ⟨_, sure⟩ | ⟨lax, _⟩ := reached
        · rw [sure] at uncertain
          cases uncertain
        · exact lax
      refine persisted_meets trivial trivial .laxWrite ?_
      exact laxTold_meets deployment (Meets.throw trivial)
    · rename_i certain
      obtain rfl : after = .idle := by
        obtain ⟨idle, _⟩ | ⟨_, unsure⟩ := reached
        · exact idle
        · exact absurd unsure certain
      refine Async.meets_ok ?_
      refine besides trivial trivial ⟨trivial, fun _ => trivial⟩ fun approvalId => ?_
      refine persisted_meets trivial trivial .write ?_
      exact told_meets deployment (reports_reviewSummary rfl) (Meets.pure trivial)

/-- A recovery moves actions without audit records. -/
theorem recoverAction_meets (now : DateTime) (stored : ActionRecord) :
    Meets protocol (recoverAction deployment now stored) .lax
      (fun _ after => after = .lax ∨ after = .wild) done := by
  cases moves : recoveredStatus stored now with
  | none =>
      simp only [recoverAction, moves]
      exact Meets.pure (.inl rfl)
  | some next =>
      have moved : transition stored.status next = .ok next := by
        simp [transition, recoveredStatus_canTransition moves]
      simp only [recoverAction, moves, moved]
      refine Async.meets_ok (put_meets .laxWrite ?_)
      refine Meets.bind (Meets.attempt (Async.meets_write fun answer => ?_))
      cases answer with
      | ok envelope =>
          exact ⟨.lax, .laxTell ⟨rfl, _, _, _, _, rfl⟩, Meets.pure (.inl rfl)⟩
      | error error => exact ⟨.wild, .fails rfl, Meets.pure (.inr rfl)⟩

theorem recoverActions_meets (now : DateTime) (todo : List ActionRecord) :
    Meets protocol (Fallible.forEach (recoverAction deployment now) todo) .lax
      (fun _ after => after = .lax ∨ after = .wild) done := by
  apply Meets.forEach
  · intro stored _ before reached
    obtain rfl | rfl := reached
    · exact recoverAction_meets deployment now stored
    · refine (wild_conforms _).mono ?_
      intro outcome after reached
      subst reached
      cases outcome with
      | ok => exact .inr rfl
      | error error => trivial
  · exact .inl rfl

/-- Actions that a recovery leaves alone. -/
theorem unmoved_meets (now : DateTime) (todo : List ActionRecord)
    (unmoved : ∀ action ∈ todo, recoveredStatus action now = none) :
    Meets protocol (Fallible.forEach (recoverAction deployment now) todo) .idle
      (fun _ after => after = .idle) done := by
  apply Meets.forEach
  · intro stored member before reached
    subst reached
    simp only [recoverAction, unmoved stored member]
    exact Meets.pure rfl
  · rfl

theorem recoverTurns_meets (turns : List TurnRecord) {control : Control} (rests : control.Rests)
    (settled : control.Settled) :
    Meets protocol (recoverTurns turns) control done done := by
  have uses := (uses_recoverTurns turns).mono aside_of_elsewhere
  refine (uses.stays fun _ _ aside => Advance.aside rests aside).mono ?_ ?_
  · intro reports after reached
    rw [show after = control from reached]
    exact settled
  · intro error after reached
    rw [show after = control from reached]
    exact settled

theorem recover_meets : Meets protocol (Runtime.recover deployment) .scanning done done := by
  have turns {control : Control} (rests : control.Rests) (settled : control.Settled) :
      Meets protocol (do
        let turns ← Async.read .listOpenTurns
        recoverTurns turns) control done done :=
    besides rests settled ⟨trivial, fun _ => trivial⟩ fun turns =>
      recoverTurns_meets turns rests settled
  unfold Runtime.recover
  refine Meets.bind (Async.meets_ask fun now => ⟨.scanningAt now, .scan, ?_⟩)
  refine besides trivial trivial ⟨trivial, fun _ => trivial⟩ fun approvals => ?_
  refine besides trivial trivial (Fallible.Uses.forEach fun approval => ?_) fun _ => ?_
  · unfold expireApproval
    split
    · exact ⟨trivial, fun _ => trivial⟩
    · exact Fallible.Uses.pure
  · refine Meets.bind (Async.meets_read fun answer => ?_)
    cases answer with
    | error error => exact ⟨.scanningAt now, .aside trivial trivial, trivial⟩
    | ok todo =>
        by_cases unmoved : ∀ action ∈ todo, recoveredStatus action now = none
        · refine ⟨.idle, .list unmoved, ?_⟩
          refine Meets.bind ((unmoved_meets deployment now todo unmoved).mono ?_
            fun _ _ settled => settled)
          intro _ after reached
          subst reached
          exact turns trivial trivial
        · obtain ⟨action, unkept⟩ := not_forall.mp unmoved
          obtain ⟨member, moves⟩ := Classical.not_imp.mp unkept
          refine ⟨.lax, .listMoving member moves, ?_⟩
          refine Meets.bind ((recoverActions_meets deployment now todo).mono ?_
            fun _ _ settled => settled)
          intro _ after reached
          obtain rfl | rfl := reached
          · exact turns trivial trivial
          · exact turns trivial trivial

/-- Where each job starts. -/
def begins : Job → Control
  | .recover => .scanning
  | _ => .idle

/-- No call returns with something owed. -/
def ends (_ : Job) (_ : Result Returned) (control : Control) : Prop := control.Settled

theorem conforms (job : Job) :
    Conforms protocol ((system deployment).program job) (begins job) (ends job) := by
  have returns {Value : Type} {program : Async Value} {transform : Value → Returned}
      {control : Control} (meets : Meets protocol program control done done) :
      Conforms protocol (transform <$> program : Async Returned).run control (ends job) := by
    have mapped : Meets protocol (transform <$> program) control done done :=
      meets.map fun _ _ settled => settled
    refine Conforms.mono mapped ?_
    intro outcome after reached
    cases outcome with
    | ok returned => exact reached
    | error error => exact reached
  cases job with
  | propose threadId kind parameters claimIds =>
      exact returns (proposeActionPlan_meets deployment threadId kind parameters claimIds)
  | approve actionId requestHash approved =>
      exact returns (approveAction_meets deployment actionId requestHash approved)
  | execute actionId => exact returns (executeAction_meets deployment actionId)
  | recover => exact returns (recover_meets deployment)
  | setKillSwitch enabled =>
      exact returns (Async.meets_ask fun _ => ⟨.idle, .aside trivial trivial, trivial⟩)

end OnRecord

end OpsCodex.Remediation
