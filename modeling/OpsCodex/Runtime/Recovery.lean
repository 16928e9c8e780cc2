import OpsCodex.Store.Sqlite

/-! Classification of the last checkpoint of a turn. -/

set_option autoImplicit false

namespace OpsCodex.Runtime

open OpsCodex.Extensions OpsCodex.Store

def toolIsRetryable (effect : CapabilityEffect) (recovery : Option RecoveryMode) : Bool :=
  if recovery = some .needsReconciliation then false
  else if recovery = some .idempotent then true
  else decide (effect = .observe)

def parseEffect (value : String) : CapabilityEffect :=
  match CapabilityEffect.parse value with
  | .ok effect => effect
  | .error _ => .externalSideEffect

def parseRecovery (value : Option String) : Option RecoveryMode :=
  value.bind fun item =>
    match RecoveryMode.parse item with
    | .ok mode => some mode
    | .error _ => none

/-- Whether a recorded operation may be run again. -/
def operationRetryable (operation : PendingOperation) : Bool :=
  toolIsRetryable (parseEffect operation.effect) (parseRecovery operation.recovery)

def completedTools (events : List EventEnvelope) : List String :=
  events.filterMap fun envelope => envelope.event.completedCall

def pendingOperationId (turnId : TurnId) (callId : String) : String := s!"{turnId}:{callId}"

/-- What a checkpoint phase means for the turn. -/
structure Verdict where
  status : TurnStatus
  resumePolicy : ResumePolicy
  risk : String
  userAction : String

def classifyToolRunning (checkpoint : CheckpointRecord) (skippedTools : List String) :
    Verdict :=
  match checkpoint.pendingOperation with
  | none => {
      status := .interrupted
      resumePolicy := .replayModel
      risk := "none"
      userAction := "Resume from the last model step. No pending tool was recorded." }
  | some operation =>
      if operation.callId ∈ skippedTools then {
        status := .interrupted
        resumePolicy := .skipCompletedTool
        risk := "none"
        userAction :=
          "Resume from the next model step. The last tool result is already durable." }
      else if operationRetryable operation then {
        status := .interrupted
        resumePolicy := .retryObserve
        risk := "retryable_observe"
        userAction := s!"Resume may retry observe tool `{operation.tool}` with operation " ++
          s!"{operation.operationId}." }
      else {
        status := .needsReconciliation
        resumePolicy := .reconcile
        risk := "external_state_unknown"
        userAction := s!"Tool `{operation.tool}` started a change or side-effecting " ++
          "operation whose result is unknown. Do not retry it automatically." }

def classifyPhase (checkpoint : CheckpointRecord) (skippedTools : List String) : Verdict :=
  match checkpoint.phase with
  | .completed => {
      status := .completed, resumePolicy := .none, risk := "none"
      userAction := "Turn already completed." }
  | .failed => {
      status := .failed, resumePolicy := .none, risk := "none"
      userAction := "Turn already failed." }
  | .cancelled => {
      status := .cancelled, resumePolicy := .none, risk := "none"
      userAction := "Turn was cancelled." }
  | .needsReconciliation => {
      status := .needsReconciliation
      resumePolicy := .reconcile
      risk := "external_state_unknown"
      userAction := "Inspect the last change operation; OpsCodex will not retry it " ++
        "automatically." }
  | .waitingApproval => {
      status := .waitingApproval
      resumePolicy := .waitApproval
      risk := "approval_required"
      userAction := "Resume to continue waiting for the original approval, or reject it." }
  | .toolRunning => classifyToolRunning checkpoint skippedTools
  | .toolCompleted => {
      status := .interrupted
      resumePolicy := .skipCompletedTool
      risk := "none"
      userAction := "Resume from the next model step. Completed tools will not run again." }
  | .queued | .modelRunning | .interrupted => {
      status := .interrupted
      resumePolicy := .replayModel
      risk := "none"
      userAction := "Resume to resend the model request from the last normalized context." }

def classifyCheckpoint (checkpoint : CheckpointRecord) (events : List EventEnvelope) :
    RecoveryReport :=
  let skippedTools := completedTools events
  let verdict := classifyPhase checkpoint skippedTools
  { turnId := checkpoint.turnId
    threadId := checkpoint.threadId
    status := verdict.status
    phase := checkpoint.phase
    resumePolicy := verdict.resumePolicy
    risk := verdict.risk
    userAction := verdict.userAction
    skippedTools := skippedTools
    checkpoint := some checkpoint }

/-- The recorded operation of a tool is retryable exactly when the tool is. -/
theorem operationRetryable_recorded (descriptor : CapabilityDescriptor)
    (operation : PendingOperation) (effect : operation.effect = descriptor.effect.asStr)
    (recovery : operation.recovery = descriptor.recovery.map RecoveryMode.asStr) :
    operationRetryable operation =
      toolIsRetryable descriptor.effect descriptor.recovery := by
  have sameEffect : parseEffect operation.effect = descriptor.effect := by
    rw [effect, parseEffect, CapabilityEffect.parse_asStr]
  have sameRecovery : parseRecovery operation.recovery = descriptor.recovery := by
    rw [recovery]
    cases descriptor.recovery with
    | none => rfl
    | some mode => simp [parseRecovery, RecoveryMode.parse_asStr]
  rw [operationRetryable, sameEffect, sameRecovery]

/-- Only a running tool that may be run again is retried. -/
theorem classifyCheckpoint_retryObserve {checkpoint : CheckpointRecord}
    {events : List EventEnvelope}
    (retries : (classifyCheckpoint checkpoint events).resumePolicy = .retryObserve) :
    checkpoint.phase = .toolRunning ∧ ∃ operation,
      checkpoint.pendingOperation = some operation ∧ operationRetryable operation = true ∧
      operation.callId ∉ completedTools events := by
  simp only [classifyCheckpoint, classifyPhase] at retries
  cases phase : checkpoint.phase <;> simp only [phase] at retries <;> try cases retries
  refine ⟨rfl, ?_⟩
  unfold classifyToolRunning at retries
  split at retries
  · cases retries
  · rename_i operation pending
    split at retries
    · cases retries
    · rename_i uncompleted
      split at retries
      · rename_i retryable
        exact ⟨operation, pending, retryable, uncompleted⟩
      · cases retries

/-- Only a call that waits for its approval is resumed by waiting for it. -/
theorem classifyCheckpoint_waitApproval {checkpoint : CheckpointRecord}
    {events : List EventEnvelope} :
    (classifyCheckpoint checkpoint events).resumePolicy = .waitApproval ↔
      checkpoint.phase = .waitingApproval := by
  simp only [classifyCheckpoint, classifyPhase]
  cases checkpoint.phase <;> simp [classifyToolRunning]
  split
  · simp
  · split
    · simp
    · split <;> simp

theorem mem_completedTools {events : List EventEnvelope} {callId : String} :
    callId ∈ completedTools events ↔
      ∃ envelope ∈ events, envelope.event.completedCall = some callId := by
  simp [completedTools]

end OpsCodex.Runtime
