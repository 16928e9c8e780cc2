import OpsCodex.Runtime.Recovery

/-! When the verdict on a running tool is about that tool's own call: completed
calls are looked up by their id in the whole log of the thread. -/

set_option autoImplicit false

namespace OpsCodex.Turn

open OpsCodex.Evidence OpsCodex.Store OpsCodex.Runtime

/-- A result of the operation itself: in its turn, after its checkpoint. -/
def Completes (checkpoint : CheckpointRecord) (operation : PendingOperation)
    (envelope : EventEnvelope) : Prop :=
  envelope.event.completedCall = some operation.callId ∧
    envelope.turnId = some checkpoint.turnId ∧ checkpoint.lastCommittedSeq < envelope.seq

/-- A running tool is skipped only after its own result, and is otherwise left
to reconciliation. -/
structure SoundVerdict (checkpoint : CheckpointRecord) (operation : PendingOperation)
    (events : List EventEnvelope) : Prop where
  skips : (classifyCheckpoint checkpoint events).resumePolicy = .skipCompletedTool →
    ∃ envelope ∈ events, Completes checkpoint operation envelope
  reconciles : (¬ ∃ envelope ∈ events, Completes checkpoint operation envelope) →
    (classifyCheckpoint checkpoint events).resumePolicy = .reconcile ∧
      (classifyCheckpoint checkpoint events).status = .needsReconciliation

/-- The verdict on a running tool that may not be run again. -/
theorem classifyCheckpoint_toolRunning {checkpoint : CheckpointRecord}
    {operation : PendingOperation} (events : List EventEnvelope)
    (running : checkpoint.phase = .toolRunning)
    (pending : checkpoint.pendingOperation = some operation)
    (changing : operationRetryable operation = false) :
    ((classifyCheckpoint checkpoint events).resumePolicy,
        (classifyCheckpoint checkpoint events).status) =
      if operation.callId ∈ completedTools events then (.skipCompletedTool, .interrupted)
      else (.reconcile, .needsReconciliation) := by
  simp only [classifyCheckpoint, classifyPhase, running, classifyToolRunning, pending, changing]
  split <;> rfl

/-- The verdict on a running tool is sound exactly when a result under the
tool's call id, if the log has one, comes with a result of the operation itself. -/
theorem soundVerdict_iff (checkpoint : CheckpointRecord) (operation : PendingOperation)
    (events : List EventEnvelope) (running : checkpoint.phase = .toolRunning)
    (pending : checkpoint.pendingOperation = some operation)
    (changing : operationRetryable operation = false) :
    SoundVerdict checkpoint operation events ↔
      ((∃ envelope ∈ events, envelope.event.completedCall = some operation.callId) →
        ∃ envelope ∈ events, Completes checkpoint operation envelope) := by
  have verdict := classifyCheckpoint_toolRunning events running pending changing
  rw [← mem_completedTools]
  by_cases completed : operation.callId ∈ completedTools events
  · rw [if_pos completed, Prod.mk.injEq] at verdict
    constructor
    · exact fun sound _ => sound.skips verdict.1
    · intro own
      exact ⟨fun _ => own completed, fun missing => absurd (own completed) missing⟩
  · rw [if_neg completed, Prod.mk.injEq] at verdict
    constructor
    · exact fun _ found => absurd found completed
    · intro _
      refine ⟨fun skipped => ?_, fun _ => verdict⟩
      rw [verdict.1] at skipped
      cases skipped

/-! Two turns of one thread in which the model uses one call id twice. -/

namespace ReusedCall

def turn (number : Nat) : TurnId := ⟨number⟩

def envelope (seq number : Nat) (event : RuntimeEvent) : EventEnvelope where
  schemaVersion := eventSchemaVersion
  streamKind := streamKindFor event
  eventId := ⟨seq⟩
  seq := seq
  workspaceId := .default
  threadId := ⟨0⟩
  turnId := some (turn number)
  itemId := none
  causationId := none
  timestamp := seq
  event := event

def evidence : EvidenceMeta := EvidenceMeta.new "exec" 0 0

/-- The first turn completes `call_1`; the second one starts another `call_1`. -/
def events : List EventEnvelope := [
  { envelope 1 0 .threadCreated with turnId := none },
  envelope 2 1 .turnStarted,
  envelope 3 1 (.toolProposed "call_1" "exec" .null),
  envelope 4 1 (.toolExecutionStarted "call_1" "exec"),
  envelope 5 1 (.toolCompleted "call_1" "exec" .null evidence true),
  envelope 6 1 .turnCompleted,
  envelope 7 2 .turnStarted,
  envelope 8 2 (.toolProposed "call_1" "exec" .null),
  envelope 9 2 (.toolExecutionStarted "call_1" "exec")]

def operation : PendingOperation where
  operationId := pendingOperationId (turn 2) "call_1"
  callId := "call_1"
  tool := "exec"
  arguments := .null
  effect := "external_side_effect"
  recovery := none

def checkpoint : CheckpointRecord where
  checkpointId := 0
  turnId := turn 2
  threadId := ⟨0⟩
  step := 0
  phase := .toolRunning
  contextInputHash := none
  pendingOperation := some operation
  lastCommittedSeq := 8
  resumePolicy := .reconcile
  createdAt := 0

end ReusedCall

theorem soundVerdict_iff_reusedCall :
    ¬ SoundVerdict ReusedCall.checkpoint ReusedCall.operation ReusedCall.events ∧
      SoundVerdict ReusedCall.checkpoint ReusedCall.operation
        (ReusedCall.events ++
          [ReusedCall.envelope 10 2
            (.toolCompleted "call_1" "exec" .null ReusedCall.evidence true)]) := by
  constructor
  · rw [soundVerdict_iff _ _ _ rfl rfl rfl]
    simp [ReusedCall.events, ReusedCall.envelope, RuntimeEvent.completedCall,
      ReusedCall.operation, ReusedCall.checkpoint, ReusedCall.turn, Completes]
  · rw [soundVerdict_iff _ _ _ rfl rfl rfl]
    refine fun _ => ⟨_, List.mem_append_right _ (List.mem_singleton.mpr rfl), rfl, rfl, ?_⟩
    decide

/-- A completed call of another turn hides a running tool of the same call id. -/
theorem not_soundVerdict :
    ¬ ∀ (checkpoint : CheckpointRecord) (operation : PendingOperation)
        (events : List EventEnvelope), checkpoint.phase = .toolRunning →
      checkpoint.pendingOperation = some operation → operationRetryable operation = false →
      SoundVerdict checkpoint operation events := by
  intro claim
  have sound := claim ReusedCall.checkpoint ReusedCall.operation ReusedCall.events rfl rfl rfl
  obtain ⟨envelope, member, call, turn, later⟩ := sound.skips rfl
  simp only [ReusedCall.events, List.mem_cons, List.not_mem_nil, or_false] at member
  rcases member with rfl | rfl | rfl | rfl | rfl | rfl | rfl | rfl | rfl <;>
    first | exact absurd later (by decide) | exact absurd call (by decide)

end OpsCodex.Turn
