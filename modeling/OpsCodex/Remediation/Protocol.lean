import OpsCodex.Remediation.System

/-! The control points of remediation calls. Each call of the runtime follows
this protocol, so invariants are proved from the protocol and not from the code. -/

set_option autoImplicit false

namespace OpsCodex.Remediation

open Effect OpsCodex.Action OpsCodex.Store OpsCodex.Runtime

inductive Control where
  /-- Nothing more to write. -/
  | idle
  | deciding (actionId : ActionId) (requestHash : String) (approved : Bool)
  | weighing (stored : ActionRecord) (requestHash : String) (approved : Bool)
  | entering (actionId : ActionId)
  | admitted (actionId : ActionId)
  | claimed (record : ActionRecord)
  | executing (record : ActionRecord)
  | started (record : ActionRecord)
  | drafting
  | drafted (actionId : ActionId)
  | scanning
  | scanningAt (now : DateTime)
  | recovering (now : DateTime) (todo : List ActionRecord)
  | recovered
  /-- The store failed a recovery before it had looked at every action. -/
  | faulted

/-- Requests that no control point depends on. -/
def Quiet : Op → Prop
  | .command (.putAction _) => False
  | .command (.claimActionForExecution _ _) => False
  | .startRunner _ false => False
  | _ => True

/-- Requests that touch neither the actions nor what is told about them. -/
def Elsewhere : Op → Prop
  | .command (.putAction _) => False
  | .command (.claimActionForExecution _ _) => False
  | .command (.appendEvent _) => False
  | .command (.appendAudit ..) => False
  | .startRunner _ false => False
  | _ => True

theorem quiet_of_elsewhere (op : Op) (elsewhere : Elsewhere op) : Quiet op := by
  unfold Quiet
  split
  all_goals first
    | exact elsewhere
    | trivial

/-- A record that a decision on a stored record writes: the user's answer, or
the expiry that the answer ran into. -/
structure Decides (stored next : ActionRecord) : Prop where
  awaiting : stored.status = .awaitingApproval
  moves : next.status = .expired ∨ next.status = .rejected ∨ next.status = .authorized
  rest : ∃ consumed updated, next =
    { stored with consumedApproval := consumed }.moveTo next.status updated

theorem Decides.requestHash {stored next : ActionRecord} (decides : Decides stored next) :
    next.requestHash = stored.requestHash := by
  obtain ⟨consumed, updated, equal⟩ := decides.rest
  rw [equal]
  rfl

theorem Decides.actionId {stored next : ActionRecord} (decides : Decides stored next) :
    next.actionId = stored.actionId := by
  obtain ⟨consumed, updated, equal⟩ := decides.rest
  rw [equal]
  rfl

/-- A record that the execution of a claimed record writes. -/
def Settles (record next : ActionRecord) : Prop :=
  ∃ updated rollback, next =
    { record with rollbackSpec := rollback }.moveTo next.status updated

theorem Settles.actionId {record next : ActionRecord} (settles : Settles record next) :
    next.actionId = record.actionId := by
  obtain ⟨updated, rollback, equal⟩ := settles
  rw [equal]
  rfl

inductive Advance : Control → (op : Op) → op.Answer → Control → Prop where
  | quiet {control op answer} (quiet : Quiet op) : Advance control op answer control
  | weigh {actionId requestHash approved stored} :
      Advance (.deciding actionId requestHash approved) (.query (.getAction actionId))
        (.ok (some stored)) (.weighing stored requestHash approved)
  | decide {stored requestHash approved next answer} (decides : Decides stored next)
      (binds : next.status = .authorized → approved = true ∧ requestHash = stored.requestHash) :
      Advance (.weighing stored requestHash approved) (.command (.putAction next)) answer .idle
  | accept {actionId} :
      Advance (.entering actionId) .killSwitchEnabled false (.admitted actionId)
  | claim {actionId now record} :
      Advance (.admitted actionId) (.command (.claimActionForExecution actionId now))
        (.ok (some record)) (.claimed record)
  | unclaimed {actionId now answer}
      (none : claimedBy (.command (.claimActionForExecution actionId now)) answer = none) :
      Advance (.admitted actionId) (.command (.claimActionForExecution actionId now)) answer
        .idle
  | refuse {record next answer} (status : next.status = .stale) (settles : Settles record next) :
      Advance (.claimed record) (.command (.putAction next)) answer .idle
  | begin {record next} (status : next.status = .executing) (settles : Settles record next) :
      Advance (.claimed record) (.command (.putAction next)) (.ok ()) (.executing next)
  | beginFailed {record next error} (status : next.status = .executing)
      (settles : Settles record next) :
      Advance (.claimed record) (.command (.putAction next)) (.error error) .idle
  | start {record} : Advance (.executing record) (.startRunner record false) () (.started record)
  | conclude {record next answer}
      (status : next.status = .needsReconciliation ∨ next.status = .succeeded ∨
        next.status = .rollbackProposed)
      (settles : Settles record next) :
      Advance (.started record) (.command (.putAction next)) answer .idle
  | identify {fresh} : Advance .drafting .newId fresh (.drafted ⟨fresh⟩)
  | propose {actionId next answer} (same : next.actionId = actionId)
      (status : next.status = .policyDenied ∨ next.status = .invalid ∨
        next.status = .awaitingApproval) :
      Advance (.drafted actionId) (.command (.putAction next)) answer .idle
  | clock {now} : Advance .scanning .now now (.scanningAt now)
  | list {now todo} :
      Advance (.scanningAt now) (.query .listActionRecoveryCandidates) (.ok todo)
        (.recovering now todo)
  | recoverAction {now skipped stored rest status}
      (unmoved : ∀ action ∈ skipped, recoveredStatus action now = none)
      (moves : recoveredStatus stored now = some status) :
      Advance (.recovering now (skipped ++ stored :: rest))
        (.command (.putAction (stored.moveTo status now))) (.ok ())
        (.recovering now rest)
  | recoverFailed {now skipped stored rest status error}
      (unmoved : ∀ action ∈ skipped, recoveredStatus action now = none)
      (moves : recoveredStatus stored now = some status) :
      Advance (.recovering now (skipped ++ stored :: rest))
        (.command (.putAction (stored.moveTo status now)))
        (.error error) .faulted
  | unlisted {now query error}
      (lists : query = .listPendingApprovals ∨ query = .listActionRecoveryCandidates) :
      Advance (.scanningAt now) (.query query) (.error error) .faulted
  | unexpired {now approval error} :
      Advance (.scanningAt now) (.command (.putApproval approval)) (.error error) .faulted
  | recovered {now todo answer}
      (unmoved : ∀ action ∈ todo, recoveredStatus action now = none) :
      Advance (.recovering now todo) (.query .listOpenTurns) answer .recovered

def protocol : Protocol serviceInterface where
  Control := Control
  Advance := Advance

section Conformance

variable (deployment : Deployment)

/-- Nothing is promised about where a program ends. -/
abbrev anywhere {Value : Type} : Value → Control → Prop := fun _ _ => True

/-- A part that makes only quiet requests leaves the control point alone. -/
theorem quietly {Value Returned : Type} {program : Async Value} {rest : Value → Async Returned}
    {control : Control} {ok : Returned → Control → Prop} {failed : OpsCodexError → Control → Prop}
    (uses : Fallible.Uses Quiet program)
    (next : ∀ value, Meets protocol (rest value) control ok failed)
    (stopped : ∀ error, failed error control) :
    Meets protocol (program >>= rest) control ok failed :=
  Meets.after_quiet (uses.stays fun _ _ quiet => .quiet quiet) next stopped

theorem uses_read (query : Query) : Fallible.Uses Quiet (Async.read query) :=
  ⟨trivial, fun _ => trivial⟩

theorem uses_write {command : Command} (quiet : Quiet (.command command)) :
    Fallible.Uses Quiet (Async.write command) := ⟨quiet, fun _ => trivial⟩

theorem uses_now : Fallible.Uses Quiet (Async.ask .now) := ⟨trivial, fun _ => trivial⟩

theorem uses_ofResult {allowed : Op → Prop} {Value : Type} (result : Result Value) :
    Fallible.Uses allowed (Async.ofResult result) := trivial

theorem uses_append (threadId : ThreadId) (turnId : Option TurnId) (event : RuntimeEvent) :
    Fallible.Uses Quiet (append threadId turnId event) := uses_write trivial

theorem uses_emitAction (threadId : ThreadId) (action : ActionRecord) :
    Fallible.Uses Quiet (emitAction deployment threadId action) := uses_append ..

theorem uses_audit (operation : String) (workspaceId : Option String) (summary : Json.Value) :
    Fallible.Uses Quiet (audit deployment operation workspaceId summary) := uses_write trivial

theorem uses_kubeFor (workspaceId : WorkspaceId) :
    Fallible.Uses Elsewhere (kubeFor workspaceId) := by
  refine Fallible.Uses.bind ⟨trivial, fun _ => trivial⟩ fun catalog => ?_
  split <;> trivial

theorem uses_getWorkload (workspaceId : WorkspaceId) (kind namespaceName name : String) :
    Fallible.Uses Elsewhere (Async.getWorkload workspaceId kind namespaceName name) :=
  ⟨trivial, fun _ => trivial⟩

theorem uses_checkPreconditions (action : ActionRecord) :
    Fallible.Uses Elsewhere (checkPreconditions action) := by
  unfold checkPreconditions
  split
  · refine (uses_kubeFor _).bind fun _ => ?_
    refine (uses_ofResult _).bind fun kind => ?_
    refine (uses_ofResult _).bind fun namespaceName => ?_
    refine (uses_ofResult _).bind fun name => ?_
    refine (uses_getWorkload ..).bind fun snapshot => ?_
    dsimp only
    split <;> trivial
  · trivial

theorem uses_executeDemoFault (dryRun : Bool) :
    Fallible.Uses Elsewhere (executeDemoFault deployment dryRun) := by
  unfold executeDemoFault
  refine (uses_ofResult _).bind fun _ => ?_
  refine Fallible.Uses.bind ⟨trivial, fun _ => trivial⟩ fun health => ?_
  dsimp only
  split
  · trivial
  · refine Fallible.Uses.bind (Fallible.Uses.attempt ⟨trivial, fun _ => trivial⟩) ?_
    intro reset
    cases reset with
    | error error =>
        dsimp only
        split <;> trivial
    | ok posted => exact Fallible.Uses.bind ⟨trivial, fun _ => trivial⟩ fun _ => trivial

theorem uses_executeK8sScale (workspaceId : WorkspaceId) (kind namespaceName name : String)
    (replicas : UInt32) (resourceVersion uid operationId : String) (dryRun : Bool) :
    Fallible.Uses Elsewhere (executeK8sScale workspaceId kind namespaceName name replicas
      resourceVersion uid operationId dryRun) := by
  unfold executeK8sScale
  refine (uses_getWorkload ..).bind fun before => ?_
  dsimp only
  split
  · trivial
  · refine Fallible.Uses.bind (Fallible.Uses.attempt ⟨trivial, fun _ => trivial⟩) ?_
    intro patched
    cases patched with
    | error error =>
        dsimp only
        split <;> trivial
    | ok object =>
        dsimp only
        split
        · trivial
        · exact (uses_getWorkload ..).bind fun _ => trivial

/-- After its start the runner only talks to the outside world. -/
theorem runAction_meets {action : ActionRecord} {dryRun : Bool} {control after : Control}
    {ok : ExecutionOutcome → Control → Prop} {failed : OpsCodexError → Control → Prop}
    (start : Advance control (.startRunner action dryRun) () after)
    (next : ∀ outcome, ok outcome after) (stopped : ∀ error, failed error after) :
    Meets protocol (runAction deployment action dryRun) control ok failed := by
  unfold runAction
  refine Meets.bind (Async.meets_ask fun _ => ⟨after, start, ?_⟩)
  have rest : ∀ {program : Async ExecutionOutcome}, Fallible.Uses Elsewhere program →
      Meets protocol program after ok failed := by
    intro program uses
    refine ((uses.mono quiet_of_elsewhere).stays fun _ _ quiet => Advance.quiet quiet).mono ?_ ?_
    · rintro outcome final rfl
      exact next outcome
    · rintro error final rfl
      exact stopped error
  split
  · exact rest (uses_executeDemoFault deployment dryRun)
  · split
    · refine rest ((uses_kubeFor _).bind fun _ => (uses_ofResult _).bind fun kind =>
        (uses_ofResult _).bind fun namespaceName => (uses_ofResult _).bind fun name => ?_)
      split
      · trivial
      · exact uses_executeK8sScale ..
    · exact stopped _

theorem moveTo_meets {action : ActionRecord} {source target : ActionStatus} {control : Control}
    {ok : ActionRecord → Control → Prop} {failed : OpsCodexError → Control → Prop}
    (allowed : source.canTransition target = true)
    (next : ∀ updated, ok (action.moveTo target updated) control)
    (stopped : ∀ error, failed error control) :
    Meets protocol (Runtime.moveTo action source target) control ok failed := by
  unfold Runtime.moveTo
  rw [show transition source target = .ok target by simp [transition, allowed]]
  exact Async.meets_ok (quietly uses_now next stopped)

/-- A write of an action's record that ends what the call has to write. -/
theorem putAction_meets (after : Control) {record : ActionRecord} {control : Control}
    {ok : Unit → Control → Prop} {failed : OpsCodexError → Control → Prop}
    (advance : ∀ answer, Advance control (.command (.putAction record)) answer after)
    (next : ok () after) (stopped : ∀ error, failed error after) :
    Meets protocol (Async.write (.putAction record)) control ok failed := by
  intro answer
  refine ⟨after, advance answer, ?_⟩
  cases answer with
  | ok => exact next
  | error error => exact stopped error

theorem expireIfNeeded_meets (stored : ActionRecord) (requestHash : String) (approved : Bool) :
    Meets protocol (expireIfNeeded stored) (.weighing stored requestHash approved)
      (fun action after => (after = .weighing stored requestHash approved ∧ action = stored) ∨
        (after = .idle ∧ action.status = .expired)) anywhere := by
  unfold expireIfNeeded
  split
  · rename_i awaiting
    refine quietly uses_now (fun now => ?_) fun _ => trivial
    split
    · refine Meets.bind (moveTo_meets rfl (fun updated => ?_) fun _ => trivial)
      refine Meets.bind (putAction_meets .idle (fun answer => ?_) ?_ fun _ => trivial)
      · exact .decide ⟨awaiting, .inl rfl, _, updated, rfl⟩ fun authorized => by cases authorized
      · exact Meets.pure (.inr ⟨rfl, rfl⟩)
    · exact Meets.pure (.inl ⟨rfl, rfl⟩)
  · exact Meets.pure (.inl ⟨rfl, rfl⟩)

theorem approveAction_meets (actionId : ActionId) (requestHash : String) (approved : Bool) :
    Meets protocol (approveAction deployment actionId requestHash approved)
      (.deciding actionId requestHash approved) anywhere anywhere := by
  unfold approveAction
  refine Meets.bind (Async.meets_read fun answer => ?_)
  cases answer with
  | error error => exact ⟨_, .quiet trivial, trivial⟩
  | ok found =>
      cases found with
      | none => exact ⟨_, .quiet trivial, trivial⟩
      | some stored =>
          refine ⟨.weighing stored requestHash approved, .weigh, ?_⟩
          refine Meets.bind ((expireIfNeeded_meets stored _ _).mono ?_ fun _ _ _ => trivial)
          rintro action after (⟨rfl, rfl⟩ | ⟨rfl, expired⟩)
          · split
            · exact trivial
            · rename_i awaiting
              rw [ne_eq, Decidable.not_not] at awaiting
              split
              · exact trivial
              · dsimp only
                split
                · exact trivial
                · rename_i matched
                  obtain ⟨current, given⟩ := not_or.mp matched
                  rw [ne_eq, Decidable.not_not] at current given
                  refine Meets.bind (moveTo_meets (by cases approved <;> rfl) (fun updated => ?_)
                    fun _ => trivial)
                  refine Meets.bind (putAction_meets .idle (fun answer => ?_) ?_
                    fun _ => trivial)
                  · refine .decide ⟨awaiting, ?_, _, updated, rfl⟩ fun authorized => ?_
                    · cases approved
                      · exact .inr (.inl rfl)
                      · exact .inr (.inr rfl)
                    · cases approved with
                      | false => cases authorized
                      | true => exact ⟨rfl, given.symm.trans current⟩
                  · refine quietly (uses_audit ..) (fun _ => ?_) fun _ => trivial
                    refine quietly (uses_emitAction ..) (fun _ => ?_) fun _ => trivial
                    exact Meets.pure trivial
          · rw [if_pos (by simp [expired])]
            exact trivial

/-- Where an execution that returned an outcome can leave the action. -/
theorem settledStatus_eq_ok {outcome : ExecutionOutcome} {status : ActionStatus}
    (settled : settledStatus outcome = .ok status) :
    status = .needsReconciliation ∨ status = .succeeded ∨ status = .rollbackProposed := by
  obtain ⟨committed, verified, uncertain, before, after, message⟩ := outcome
  cases uncertain <;> cases verified <;> cases settled <;> simp

theorem uses_countMutation (outcome : ExecutionOutcome) :
    Fallible.Uses Elsewhere
      (if outcome.committed then Async.ask .countMutation else pure () : Async Unit) := by
  split
  · exact ⟨trivial, fun _ => trivial⟩
  · trivial

/-- The answer to the caller of an execution. -/
theorem settled_meets (record : ActionRecord) (message : String) (control : Control) :
    Meets protocol (if record.status = .needsReconciliation then
        throw (.needsReconciliation message) else pure record : Async ActionRecord)
      control anywhere anywhere := by
  split <;> exact trivial

theorem executeClaimed_meets (record : ActionRecord) :
    Meets protocol (executeClaimed deployment record) (.claimed record) anywhere anywhere := by
  unfold executeClaimed
  refine quietly (uses_emitAction ..) (fun _ => ?_) fun _ => trivial
  refine quietly ((uses_checkPreconditions record).mono quiet_of_elsewhere).attempt
    (fun checked => ?_) fun _ => trivial
  cases checked with
  | error error =>
      refine Meets.bind (moveTo_meets rfl (fun updated => ?_) fun _ => trivial)
      refine Meets.bind (putAction_meets .idle (fun answer => ?_) ?_ fun _ => trivial)
      · exact .refuse rfl ⟨updated, record.rollbackSpec, rfl⟩
      · refine quietly (uses_emitAction ..) (fun _ => ?_) fun _ => trivial
        exact Meets.throw trivial
  | ok =>
      refine Meets.bind (moveTo_meets rfl (fun updated => ?_) fun _ => trivial)
      refine Meets.bind (Async.meets_write fun answer => ?_)
      cases answer with
      | error error =>
          exact ⟨.idle, .beginFailed rfl ⟨updated, record.rollbackSpec, rfl⟩, trivial⟩
      | ok =>
          refine ⟨_, .begin rfl ⟨updated, record.rollbackSpec, rfl⟩, ?_⟩
          refine quietly (uses_emitAction ..) (fun _ => ?_) fun _ => trivial
          refine Meets.bind (Meets.attempt (runAction_meets deployment .start ?_ ?_))
          · intro outcome
            dsimp only
            refine quietly ((uses_countMutation outcome).mono quiet_of_elsewhere) (fun _ => ?_)
              fun _ => trivial
            cases settled : settledStatus outcome with
            | error error => exact trivial
            | ok status =>
                refine Async.meets_ok ?_
                refine quietly uses_now (fun now => ?_) fun _ => trivial
                refine Meets.bind (putAction_meets .idle (fun answer => ?_) ?_
                  fun _ => trivial)
                · exact .conclude (settledStatus_eq_ok settled) ⟨now, _, rfl⟩
                · refine quietly (uses_audit ..) (fun _ => ?_) fun _ => trivial
                  refine quietly (uses_emitAction ..) (fun _ => ?_) fun _ => trivial
                  exact settled_meets ..
          · intro error
            dsimp only
            refine Meets.bind (moveTo_meets rfl (fun settled => ?_) fun _ => trivial)
            refine Meets.bind (putAction_meets .idle (fun answer => ?_) ?_
              fun _ => trivial)
            · exact .conclude (.inl rfl) ⟨settled, record.rollbackSpec, rfl⟩
            · refine quietly (uses_audit ..) (fun _ => ?_) fun _ => trivial
              refine quietly (uses_emitAction ..) (fun _ => ?_) fun _ => trivial
              exact Meets.throw trivial

theorem executeAction_meets (actionId : ActionId) :
    Meets protocol (executeAction deployment actionId) (.entering actionId) anywhere
      anywhere := by
  unfold executeAction
  refine Meets.bind (Async.meets_ask fun killSwitch => ?_)
  cases killSwitch with
  | true => exact ⟨_, .quiet trivial, trivial⟩
  | false =>
      refine ⟨.admitted actionId, .accept, ?_⟩
      split
      · exact trivial
      · refine quietly uses_now (fun now => ?_) fun _ => trivial
        refine Meets.bind (Async.meets_write fun answer => ?_)
        cases answer with
        | error error => exact ⟨.idle, .unclaimed rfl, trivial⟩
        | ok found =>
            cases found with
            | some record => exact ⟨.claimed record, .claim, executeClaimed_meets deployment record⟩
            | none =>
                refine ⟨.idle, .unclaimed rfl, ?_⟩
                refine quietly (uses_read _) (fun stored => ?_) fun _ => trivial
                cases stored <;> exact trivial

theorem persistAction_meets {action : ActionRecord} {claimIds : List ClaimId}
    {actionId : ActionId} (same : action.actionId = actionId)
    (status : action.status = .policyDenied ∨ action.status = .invalid ∨
      action.status = .awaitingApproval) :
    Meets protocol (persistAction action claimIds) (.drafted actionId)
      (fun _ after => after = .idle) anywhere := by
  unfold persistAction
  refine quietly (uses_write trivial) (fun _ => ?_) fun _ => trivial
  exact putAction_meets .idle (fun answer => .propose same status) rfl
    fun _ => trivial

theorem buildAction_meets (threadId : ThreadId) (workspaceId : WorkspaceId) (kind : String)
    (parameters : Json.Value) :
    Meets protocol (buildAction deployment threadId workspaceId kind parameters) .drafting
      (fun action after => after = .drafted action.actionId) anywhere := by
  unfold buildAction
  refine quietly uses_now (fun now => ?_) fun _ => trivial
  dsimp only
  refine quietly (uses_ofResult _) (fun shape => ?_) fun _ => trivial
  refine Meets.bind (Async.meets_ask fun fresh => ?_)
  refine ⟨.drafted ⟨fresh⟩, .identify, ?_⟩
  refine quietly ⟨trivial, fun _ => trivial⟩ (fun planId => ?_) fun _ => trivial
  exact Meets.pure rfl

theorem proposeActionPlan_meets (threadId : ThreadId) (kind : String)
    (parameters : Json.Value) (claimIds : List ClaimId) :
    Meets protocol (proposeActionPlan deployment threadId kind parameters claimIds) .drafting
      anywhere anywhere := by
  unfold proposeActionPlan
  refine quietly (uses_read _) (fun thread => ?_) fun _ => trivial
  refine quietly ⟨trivial, fun _ => trivial⟩ (fun catalog => ?_) fun _ => trivial
  refine quietly (by split <;> first | trivial | exact (uses_ofResult _).map)
    (fun workspace => ?_) fun _ => trivial
  refine Meets.bind ((buildAction_meets deployment _ _ _ _).mono ?_ fun _ _ _ => trivial)
  rintro action after rfl
  refine quietly (uses_ofResult _) (fun effect => ?_) fun _ => trivial
  refine quietly ⟨trivial, fun _ => trivial⟩ (fun killSwitch => ?_) fun _ => trivial
  dsimp only
  split
  · refine Meets.bind ((persistAction_meets rfl (.inl rfl)).mono ?_ fun _ _ _ => trivial)
    rintro _ _ rfl
    refine quietly (uses_audit ..) (fun _ => ?_) fun _ => trivial
    refine quietly (uses_emitAction ..) (fun _ => ?_) fun _ => trivial
    exact Meets.throw trivial
  · refine Async.meets_ok ?_
    refine Meets.bind (runAction_meets deployment (.quiet trivial) ?_ fun _ => trivial)
    intro dry
    split
    · refine Meets.bind ((persistAction_meets rfl (.inr (.inl rfl))).mono ?_
        fun _ _ _ => trivial)
      rintro _ _ rfl
      refine quietly (uses_emitAction ..) (fun _ => ?_) fun _ => trivial
      exact Meets.throw trivial
    · refine Async.meets_ok ?_
      refine quietly ⟨trivial, fun _ => trivial⟩ (fun approvalId => ?_) fun _ => trivial
      refine Meets.bind ((persistAction_meets rfl (.inr (.inr rfl))).mono ?_
        fun _ _ _ => trivial)
      rintro _ _ rfl
      refine quietly (uses_audit ..) (fun _ => ?_) fun _ => trivial
      refine quietly (uses_emitAction ..) (fun _ => ?_) fun _ => trivial
      exact Meets.pure trivial

/-- Where recovery leaves an action. -/
theorem recoveredStatus_eq_some {action : ActionRecord} {now : DateTime} {next : ActionStatus}
    (moves : recoveredStatus action now = some next) :
    next = .expired ∨ next = .needsReconciliation := by
  unfold recoveredStatus at moves
  split at moves
  · split at moves <;> cases moves
    exact .inl rfl
  · split at moves <;> cases moves
    exact .inl rfl
  all_goals first
    | (cases moves; exact .inr rfl)
    | cases moves

/-- Recovery only moves an action along its life cycle. -/
theorem recoveredStatus_canTransition {action : ActionRecord} {now : DateTime}
    {next : ActionStatus} (moves : recoveredStatus action now = some next) :
    action.status.canTransition next = true := by
  cases status : action.status <;> simp [recoveredStatus, status] at moves
  case awaitingApproval | authorized =>
      obtain ⟨_, rfl⟩ := moves
      rfl
  all_goals
    subst moves
    rfl

theorem recoverAction_meets {now : DateTime} {skipped rest : List ActionRecord}
    {stored : ActionRecord} {next : ActionStatus}
    (unmoved : ∀ action ∈ skipped, recoveredStatus action now = none)
    (moves : recoveredStatus stored now = some next) :
    Meets protocol (recoverAction deployment now stored)
      (.recovering now (skipped ++ stored :: rest))
      (fun _ after => after = .recovering now rest) (fun _ after => after = .faulted) := by
  have moved : transition stored.status next = .ok next := by
    simp [transition, recoveredStatus_canTransition moves]
  simp only [recoverAction, moves, moved]
  refine Async.meets_ok ?_
  refine Meets.bind (Async.meets_write fun answer => ?_)
  cases answer with
  | error error => exact ⟨.faulted, .recoverFailed unmoved moves, rfl⟩
  | ok =>
      refine ⟨.recovering now rest, .recoverAction unmoved moves, ?_⟩
      refine Meets.bind (Meets.attempt (((uses_append ..).stays fun _ _ quiet =>
        Advance.quiet quiet).mono ?_ ?_))
      · rintro _ _ rfl
        exact Meets.pure rfl
      · rintro _ _ rfl
        exact Meets.pure rfl

theorem recoverActions_meets (now : DateTime) (skipped todo : List ActionRecord)
    (unmoved : ∀ action ∈ skipped, recoveredStatus action now = none) :
    Meets protocol (Fallible.forEach (recoverAction deployment now) todo)
      (.recovering now (skipped ++ todo))
      (fun _ after => ∃ rest, after = .recovering now rest ∧
        ∀ action ∈ rest, recoveredStatus action now = none)
      (fun _ after => after = .faulted) := by
  induction todo generalizing skipped with
  | nil => exact Meets.pure ⟨skipped, by rw [List.append_nil], unmoved⟩
  | cons stored rest ih =>
      cases moves : recoveredStatus stored now with
      | none =>
          have skips : recoverAction deployment now stored = pure () := by
            simp only [recoverAction, moves]
          have grown := ih (skipped ++ [stored]) (by
            intro action member
            rcases List.mem_append.mp member with old | last
            · exact unmoved action old
            · rw [List.mem_singleton.mp last, moves])
          rw [List.append_assoc, List.singleton_append] at grown
          rw [Fallible.forEach, skips]
          exact grown
      | some next =>
          refine Meets.bind ((recoverAction_meets deployment unmoved moves).mono ?_
            fun _ _ reached => reached)
          rintro _ _ rfl
          exact ih [] (by simp)

theorem uses_recoverTurn (turn : TurnRecord) : Fallible.Uses Elsewhere (recoverTurn turn) := by
  unfold recoverTurn
  refine Fallible.Uses.bind (Fallible.Uses.attempt ⟨trivial, fun _ => trivial⟩) fun _ => ?_
  refine Fallible.Uses.bind ⟨trivial, fun _ => trivial⟩ fun checkpoint => ?_
  cases checkpoint with
  | none =>
      refine Fallible.Uses.bind ⟨trivial, fun _ => trivial⟩ fun now => ?_
      exact Fallible.Uses.bind ⟨trivial, fun _ => trivial⟩ fun _ => trivial
  | some checkpoint =>
      refine Fallible.Uses.bind ⟨trivial, fun _ => trivial⟩ fun events => ?_
      refine Fallible.Uses.bind ⟨trivial, fun _ => trivial⟩ fun now => ?_
      exact Fallible.Uses.bind ⟨trivial, fun _ => trivial⟩ fun _ => trivial

theorem uses_recoverTurns (turns : List TurnRecord) :
    Fallible.Uses Elsewhere (recoverTurns turns) := by
  induction turns with
  | nil => trivial
  | cons turn turns ih => exact (uses_recoverTurn turn).bind fun _ => ih.bind fun _ => trivial

theorem expireApproval_meets (now : DateTime) (approval : DurableApproval) :
    Meets protocol (expireApproval now approval) (.scanningAt now)
      (fun _ after => after = .scanningAt now) (fun _ after => after = .faulted) := by
  unfold expireApproval
  split
  · intro answer
    cases answer with
    | ok => exact ⟨.scanningAt now, .quiet trivial, rfl⟩
    | error error => exact ⟨.faulted, .unexpired, rfl⟩
  · exact Meets.pure rfl

theorem expireApprovals_meets (now : DateTime) (approvals : List DurableApproval) :
    Meets protocol (Fallible.forEach (expireApproval now) approvals) (.scanningAt now)
      (fun _ after => after = .scanningAt now) (fun _ after => after = .faulted) := by
  refine Meets.forEach ?_ rfl
  rintro approval - _ rfl
  exact expireApproval_meets now approval

/-- A recovery has looked at every action when it returns, unless the store failed. -/
theorem recover_meets :
    Meets protocol (Runtime.recover deployment) .scanning
      (fun _ after => after = .recovered)
      (fun _ after => after = .recovered ∨ after = .faulted) := by
  unfold Runtime.recover
  refine Meets.bind (Async.meets_ask fun now => ⟨.scanningAt now, .clock, ?_⟩)
  refine Meets.bind (Async.meets_read fun approvals => ?_)
  cases approvals with
  | error error => exact ⟨.faulted, .unlisted (.inl rfl), .inr rfl⟩
  | ok approvals =>
      refine ⟨.scanningAt now, .quiet trivial, ?_⟩
      refine Meets.bind ((expireApprovals_meets now approvals).mono ?_
        fun _ _ reached => .inr reached)
      rintro _ _ rfl
      refine Meets.bind (Async.meets_read fun answer => ?_)
      cases answer with
      | error error => exact ⟨.faulted, .unlisted (.inr rfl), .inr rfl⟩
      | ok todo =>
          refine ⟨.recovering now todo, .list, ?_⟩
          refine Meets.bind ((recoverActions_meets deployment now [] todo (by simp)).mono ?_
            fun _ _ reached => .inr reached)
          rintro _ _ ⟨rest, rfl, unmoved⟩
          refine Meets.bind (Async.meets_read fun turns => ?_)
          refine ⟨.recovered, .recovered unmoved, ?_⟩
          cases turns with
          | error error => exact .inl rfl
          | ok turns =>
              exact (((uses_recoverTurns turns).mono quiet_of_elsewhere).stays
                fun _ _ quiet => Advance.quiet quiet).mono
                (fun _ _ reached => reached) fun _ _ reached => .inl reached

/-- Where each job starts. -/
def begins : Job → Control
  | .propose .. => .drafting
  | .approve actionId requestHash approved => .deciding actionId requestHash approved
  | .execute actionId => .entering actionId
  | .recover => .scanning
  | .setKillSwitch _ => .idle

def ends : Job → Result Returned → Control → Prop
  | .recover, _, control => control = .recovered ∨ control = .faulted
  | _, _, _ => True

/-- A job without a promised end conforms when its program does. -/
theorem returns {Value : Type} {program : Async Value} {transform : Value → Returned}
    {control : Control} {job : Job} (free : ∀ result after, ends job result after)
    (meets : Meets protocol program control anywhere anywhere) :
    Conforms protocol (transform <$> program : Async Returned).run control (ends job) :=
  Conforms.mono (meets.map fun _ _ _ => trivial) fun result after
    (_ : Outcome anywhere anywhere result after) => free result after

theorem conforms (job : Job) :
    Conforms protocol ((system deployment).program job) (begins job) (ends job) := by
  cases job with
  | propose threadId kind parameters claimIds =>
      exact returns (fun _ _ => trivial)
        (proposeActionPlan_meets deployment threadId kind parameters claimIds)
  | approve actionId requestHash approved =>
      exact returns (fun _ _ => trivial)
        (approveAction_meets deployment actionId requestHash approved)
  | execute actionId =>
      exact returns (fun _ _ => trivial) (executeAction_meets deployment actionId)
  | setKillSwitch enabled =>
      exact returns (fun _ _ => trivial)
        (Async.meets_ask fun _ => ⟨.idle, .quiet trivial, trivial⟩)
  | recover =>
      have mapped : Meets protocol (Returned.reports <$> Runtime.recover deployment)
          Control.scanning (fun _ after => after = Control.recovered)
          (fun _ after => after = Control.recovered ∨ after = Control.faulted) :=
        (recover_meets deployment).map fun _ _ reached => reached
      refine Conforms.mono mapped ?_
      intro outcome after reached
      cases outcome with
      | ok returned => exact .inl reached
      | error error => exact reached

end Conformance

end OpsCodex.Remediation
