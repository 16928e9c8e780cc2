import OpsCodex.Effect.Monitor
import OpsCodex.Turn.Span

/-! The requests of a driven turn. Everything that the drive of a turn does between
entering and leaving its thread is a request of this one kind, so what holds of the
kind need not be followed through the code again. -/

set_option autoImplicit false

namespace OpsCodex.Turn

open Effect OpsCodex.Action OpsCodex.Evidence OpsCodex.Extensions OpsCodex.Store
open OpsCodex.Runtime

/-- The phase, the operation and the policy that a drive records together. -/
inductive Recorded (turnId : TurnId) :
    CheckpointPhase → Option PendingOperation → ResumePolicy → Prop where
  | queued : Recorded turnId .queued none .replayModel
  | modelRunning : Recorded turnId .modelRunning none .replayModel
  | waitingApproval {operation : PendingOperation}
      (id : operation.operationId = pendingOperationId turnId operation.callId) :
      Recorded turnId .waitingApproval (some operation) .waitApproval
  | toolRunning {operation : PendingOperation}
      (id : operation.operationId = pendingOperationId turnId operation.callId) :
      Recorded turnId .toolRunning (some operation)
        (if operationRetryable operation then .retryObserve else .reconcile)
  | toolCompleted : Recorded turnId .toolCompleted none .skipCompletedTool
  | completed : Recorded turnId .completed none .none

def CheckpointRecord.Recorded (checkpoint : CheckpointRecord) : Prop :=
  Turn.Recorded checkpoint.turnId checkpoint.phase checkpoint.pendingOperation
    checkpoint.resumePolicy

/-- The requests of a drive inside a thread and its workspace, other than those to the model. -/
def Requests (threadId : ThreadId) (turnId : TurnId) (workspaceId : WorkspaceId) : Op → Prop
  | .query (.getThread _) => False
  | .query (.eventsAfter thread _) | .query (.lastSeq thread)
  | .query (.modelContext thread _) => thread = threadId
  | .query _ | .now | .newId => True
  | .command (.appendEvent command) =>
      command.threadId = threadId ∧ command.turnId = some turnId
  | .command (.upsertTurn record) => record.id = turnId ∧ record.threadId = threadId
  | .command (.putCheckpoint checkpoint) => checkpoint.threadId = threadId ∧
      checkpoint.turnId = turnId ∧ CheckpointRecord.Recorded checkpoint
  | .command (.acquireLease turn thread _ _) => turn = turnId ∧ thread = threadId
  | .command (.putApproval _) | .command (.refreshLease ..) | .command (.releaseLease ..) => True
  | .brokerInsert _ | .awaitDecision .. | .dropReceiver _ => True
  | .putArtifact workspace _ => workspace = workspaceId
  | .executeTool site workspace thread _ _ =>
      site.turnId = turnId ∧ workspace = workspaceId ∧ thread = threadId
  | _ => False

/-- A request of a driven turn: it looks its thread and its tools up and then works
inside of them. -/
def Drives (threadId : ThreadId) (turnId : TurnId) (op : Op) : Prop :=
  (∃ workspaceId, Requests threadId turnId workspaceId op) ∨ op = .query (.getThread threadId) ∨
    op = .catalog ∨ ∃ request, op = .completeModel request

theorem drives_of_requests {Value : Type} {program : Async Value} {threadId : ThreadId}
    {turnId : TurnId} (workspaceId : WorkspaceId)
    (uses : Fallible.Uses (Requests threadId turnId workspaceId) program) :
    Fallible.Uses (Drives threadId turnId) program :=
  uses.mono fun _ requests => .inl ⟨workspaceId, requests⟩

namespace Requests

variable (deployment : Deployment) {context : TurnEventContext} {threadId : ThreadId}
  {turnId : TurnId} {workspaceId : WorkspaceId}

abbrev Of (context : TurnEventContext) : Op → Prop :=
  Requests context.threadId context.turnId context.workspaceId

theorem emit (causation : Option EventId) (event : RuntimeEvent) :
    Fallible.Uses (Requests threadId turnId workspaceId)
      (emit threadId (some turnId) causation event) :=
  Span.uses_write ⟨rfl, rfl⟩

theorem emitNext (causation : Option EventId) (event : RuntimeEvent) :
    Fallible.Uses (Of context) (emitNext context causation event) :=
  (emit causation event).bind fun _ => trivial

theorem writeCheckpoint {phase : CheckpointPhase} {resumePolicy : ResumePolicy}
    {pendingOperation : Option PendingOperation}
    (recorded : Recorded turnId phase pendingOperation resumePolicy) (step : UInt32)
    (lease : Lease) :
    Fallible.Uses (Requests threadId turnId workspaceId)
      (writeCheckpoint deployment threadId turnId step phase resumePolicy pendingOperation
        lease) := by
  unfold Runtime.writeCheckpoint
  refine Fallible.Uses.bind (Span.uses_write (by exact trivial)) fun _ => ?_
  refine Fallible.Uses.bind (Span.uses_read (by exact rfl)).attempt fun _ => ?_
  refine Fallible.Uses.bind (Span.uses_ask (by exact trivial)) fun _ => ?_
  refine Fallible.Uses.bind (Span.uses_read (by exact rfl)).attempt fun _ => ?_
  refine Fallible.Uses.bind (Span.uses_ask (by exact trivial)) fun _ => ?_
  exact Span.uses_write ⟨rfl, rfl, recorded⟩

theorem emitToolResult (causation : Option EventId) (callId name : String)
    (output : ToolOutput) (success : Bool) :
    Fallible.Uses (Of context)
      (emitToolResult deployment context causation callId name output success) := by
  have describes (content : Json.Value) : Fallible.Uses (Of context)
      (if success then describeResult deployment context name output.evidence content
        else pure (output.evidence, content) : Async (EvidenceMeta × Json.Value)) := by
    split
    · unfold describeResult
      refine Fallible.Uses.bind ?_ fun artifact => ?_
      · unfold storeArtifact
        split
        · exact Fallible.Uses.map ⟨rfl, fun _ => trivial⟩
        · exact Fallible.Uses.pure
      · refine Fallible.Uses.bind (Span.uses_ask (by exact trivial)) fun fresh => ?_
        dsimp only
        split <;> exact Fallible.Uses.pure
    · exact Fallible.Uses.pure
  unfold Runtime.emitToolResult
  refine Fallible.Uses.bind (describes _) fun described => ?_
  refine Fallible.Uses.bind (emit _ _) fun envelope => ?_
  refine Fallible.Uses.bind (writeCheckpoint deployment .toolCompleted _ _) fun _ => ?_
  exact Fallible.Uses.pure

theorem emitToolError (causation : Option EventId) (callId name : String)
    (arguments : Json.Value) (error : OpsCodexError) :
    Fallible.Uses (Of context)
      (emitToolError deployment context causation callId name arguments error) := by
  unfold Runtime.emitToolError
  refine Fallible.Uses.bind (Span.uses_ask (by exact trivial)) fun observed => ?_
  refine Fallible.Uses.bind (Span.uses_ask (by exact trivial)) fun stamped => ?_
  exact emitToolResult deployment _ _ _ _ _

theorem requestApproval (causation : Option EventId) (callId name : String)
    (arguments : Json.Value) (descriptor : CapabilityDescriptor) :
    Fallible.Uses (Of context)
      (requestApproval deployment context causation callId name arguments descriptor) := by
  unfold Runtime.requestApproval
  refine Fallible.Uses.bind (Span.uses_ask (by exact trivial)) fun fresh => ?_
  refine Fallible.Uses.bind (Span.uses_ask (by exact trivial)) fun receiver => ?_
  refine Fallible.Uses.bind (Fallible.Uses.orElseDo ?files ⟨trivial, fun _ => trivial⟩)
    fun filed => ?_
  case files =>
    unfold fileApproval
    refine Fallible.Uses.bind (Span.uses_ask (by exact trivial)) fun now => ?_
    refine Fallible.Uses.bind (Span.uses_write (by exact trivial)) fun _ => ?_
    refine Fallible.Uses.bind (writeCheckpoint deployment (.waitingApproval rfl) _ _) fun _ => ?_
    exact Fallible.Uses.bind (emitNext _ _) fun _ => Fallible.Uses.pure
  refine Fallible.Uses.bind ?awaits fun approved => ?_
  case awaits =>
    unfold awaitApproval
    refine Fallible.Uses.bind (Span.uses_ask (by exact trivial)) fun decision => ?_
    cases decision with
    | answered approved => exact Fallible.Uses.pure
    | closed => exact Fallible.Uses.throw
    | cancelled => exact Fallible.Uses.throw
    | elapsed =>
        refine Fallible.Uses.bind (Span.uses_read (by exact trivial)) fun stored => ?_
        refine Fallible.Uses.bind (Span.uses_write (by exact trivial)).attempt fun _ => ?_
        exact Fallible.Uses.pure
  refine Fallible.Uses.bind ?settles fun _ => ?_
  case settles =>
    unfold settleApproval
    refine Fallible.Uses.bind (Span.uses_read (by exact trivial)) fun stored => ?_
    cases stored with
    | none => exact Fallible.Uses.pure
    | some durable =>
        refine Fallible.Uses.bind (Span.uses_write (by exact trivial)).attempt fun _ => ?_
        exact Fallible.Uses.pure
  refine Fallible.Uses.bind (emitNext _ _) fun _ => ?_
  exact Fallible.Uses.bind (emitNext _ _) fun _ => Fallible.Uses.pure

theorem authorizeTool (causation : Option EventId) (callId name : String)
    (arguments : Json.Value) (descriptor : CapabilityDescriptor) :
    Fallible.Uses (Of context)
      (authorizeTool deployment context causation callId name arguments descriptor) := by
  have refuses (causation : Option EventId) (error : OpsCodexError) :
      Fallible.Uses (Of context) (Authorization.refused <$>
        Runtime.emitToolError deployment context causation callId name arguments error) :=
    Fallible.Uses.map (emitToolError deployment _ _ _ _ _)
  unfold Runtime.authorizeTool
  dsimp only
  split
  · exact Fallible.Uses.bind (emitNext _ _) fun _ => refuses _ _
  · exact Fallible.Uses.bind (emitNext _ _) fun _ => Fallible.Uses.pure
  · refine Fallible.Uses.bind (requestApproval deployment _ _ _ _ _) fun answered => ?_
    obtain ⟨causation, approved⟩ := answered
    dsimp only
    split
    · exact refuses _ _
    · split
      · exact refuses _ _
      · split
        · exact refuses _ _
        · exact Fallible.Uses.pure

/-- What is recorded of a tool before it starts can be read back as it was decided. -/
theorem recorded_toolRunning (callId name : String) (arguments : Json.Value)
    (descriptor : CapabilityDescriptor) :
    Recorded context.turnId .toolRunning
      (some (pendingOperationFor context callId name arguments descriptor))
      (if toolIsRetryable descriptor.effect descriptor.recovery then .retryObserve
        else .reconcile) := by
  have retryable := operationRetryable_recorded descriptor
    (pendingOperationFor context callId name arguments descriptor) rfl rfl
  rw [← retryable]
  exact .toolRunning rfl

theorem startTool (causation : Option EventId) (callId name : String)
    (arguments : Json.Value) (descriptor : CapabilityDescriptor) :
    Fallible.Uses (Of context)
      (startTool deployment context causation callId name arguments descriptor) := by
  unfold Runtime.startTool
  refine Fallible.Uses.bind
    (writeCheckpoint deployment (recorded_toolRunning callId name arguments descriptor) _ _)
    fun _ => ?_
  refine Fallible.Uses.bind (emitNext _ _) fun causation => ?_
  refine Fallible.Uses.bind (Span.uses_ask ⟨rfl, rfl, rfl⟩) fun ending => ?_
  cases ending with
  | cancelled => exact Fallible.Uses.throw
  | elapsed => exact emitToolError deployment _ _ _ _ _
  | finished outcome durationMs =>
      cases outcome with
      | ok output => exact emitToolResult deployment _ _ _ _ _
      | error error => exact emitToolError deployment _ _ _ _ _

theorem executeTool (callId name : String) (arguments : Json.Value)
    (alreadyAuthorized : Bool) :
    Fallible.Uses (Of context)
      (executeTool deployment context callId name arguments alreadyAuthorized) := by
  unfold Runtime.executeTool
  refine Fallible.Uses.bind ?proposes fun causation => ?_
  case proposes =>
    split
    · exact Fallible.Uses.pure
    · exact emitNext _ _
  split
  · exact emitToolError deployment _ _ _ _ _
  · refine Fallible.Uses.bind ?authorizes fun authorization => ?_
    case authorizes =>
      split
      · exact Fallible.Uses.pure
      · exact authorizeTool deployment _ _ _ _ _
    cases authorization with
    | refused eventId => exact Fallible.Uses.pure
    | proceed causation => exact startTool deployment _ _ _ _ _

theorem awaitRestored (pending : DurableApproval) :
    Fallible.Uses (Requests threadId turnId workspaceId)
      (awaitRestored threadId turnId pending) := by
  have decides (approved : Bool) : Fallible.Uses (Requests threadId turnId workspaceId) (do
      Async.write (.putApproval { pending with
        status := if approved then .approved else .rejected })
      let _ ← (Runtime.emit threadId (some turnId) none
        (.approvalResolved pending.approvalId approved)).attempt
      return approved : Async Bool) := by
    refine Fallible.Uses.bind (Span.uses_write (by exact trivial)) fun _ => ?_
    exact Fallible.Uses.bind (emit _ _).attempt fun _ => Fallible.Uses.pure
  unfold Runtime.awaitRestored
  refine Fallible.Uses.bind (Span.uses_ask (by exact trivial)) fun receiver => ?_
  refine Fallible.Uses.bind (Span.uses_ask (by exact trivial)) fun decision => ?_
  cases decision with
  | answered approved => exact decides approved
  | closed => exact decides false
  | cancelled => exact Fallible.Uses.throw
  | elapsed => exact Fallible.Uses.throw

theorem expirePending (pending : DurableApproval) :
    Fallible.Uses (Requests threadId turnId workspaceId) (expirePending pending) := by
  unfold Runtime.expirePending
  split
  · exact Fallible.Uses.pure
  · refine Fallible.Uses.bind (Span.uses_ask (by exact trivial)) fun now => ?_
    split
    · exact Fallible.Uses.bind (Span.uses_write (by exact trivial)) fun _ =>
        Fallible.Uses.pure
    · exact Fallible.Uses.pure

theorem authorizeResumed (operation : PendingOperation) :
    Fallible.Uses (Of context) (authorizeResumed deployment context operation) := by
  unfold Runtime.authorizeResumed
  refine Fallible.Uses.bind (Span.uses_read (by exact trivial)) fun found => ?_
  cases found with
  | none => exact Fallible.Uses.throw
  | some stored =>
      refine Fallible.Uses.bind (expirePending stored) fun pending => ?_
      refine Fallible.Uses.bind ?answers fun approved => ?_
      case answers =>
        split
        · exact Fallible.Uses.pure
        · exact Fallible.Uses.pure
        · exact Fallible.Uses.pure
        · exact awaitRestored pending
      split
      · exact Fallible.Uses.map (emitToolError deployment _ _ _ _ _)
      · refine Fallible.Uses.bind (Span.uses_ofResult _) fun descriptor => ?_
        split
        · exact Fallible.Uses.throw
        · split
          · exact Fallible.Uses.throw
          · exact Fallible.Uses.pure

theorem resumePendingTool (operation : PendingOperation) (policy : ResumePolicy) :
    Fallible.Uses (Of context) (resumePendingTool deployment context operation policy) := by
  unfold Runtime.resumePendingTool
  refine Fallible.Uses.bind ?authorizes fun authorization => ?_
  case authorizes =>
    split
    · exact authorizeResumed deployment operation
    · exact Fallible.Uses.pure
  cases authorization with
  | refused eventId => exact Fallible.Uses.pure
  | proceed causation => exact executeTool deployment _ _ _ _

theorem emitDeltas (deltas : List String) (last : Option EventId) :
    Fallible.Uses (Requests threadId turnId workspaceId)
      (emitDeltas threadId turnId deltas last) := by
  induction deltas generalizing last with
  | nil => exact Fallible.Uses.pure
  | cons delta deltas ih =>
      exact Fallible.Uses.bind (emit _ _) fun envelope => ih _

theorem maybeCompact :
    Fallible.Uses (Requests threadId turnId workspaceId)
      (maybeCompact deployment threadId turnId) := by
  unfold Runtime.maybeCompact
  refine Fallible.Uses.bind (Span.uses_read (by exact rfl)) fun history => ?_
  dsimp only
  split
  · exact Fallible.Uses.pure
  · split
    · split
      · exact Fallible.Uses.pure
      · refine Fallible.Uses.bind (Span.uses_ask (by exact trivial)) fun summaryId => ?_
        exact Fallible.Uses.bind (emit _ _).attempt fun _ => Fallible.Uses.pure
    · exact Fallible.Uses.pure

theorem runOutputs (streamed : Bool) (outputs : List ModelOutput) (last : Option EventId)
    (calledTool : Bool) : Fallible.Uses (Of context)
      (runOutputs deployment context streamed outputs last calledTool) := by
  induction outputs generalizing last calledTool with
  | nil => exact Fallible.Uses.pure
  | cons output outputs ih =>
      cases output with
      | message content =>
          unfold Runtime.runOutputs
          have streams : Fallible.Uses (Of context)
              (if streamed then pure last
                else Runtime.emitNext context last (.assistantDelta content) :
                  Async (Option EventId)) := by
            split
            · exact Fallible.Uses.pure
            · exact emitNext _ _
          refine Fallible.Uses.bind streams fun last => ?_
          refine Fallible.Uses.bind (Span.uses_ask (by exact trivial)) fun seed => ?_
          refine Fallible.Uses.bind (Span.uses_read (by exact rfl)) fun events => ?_
          exact Fallible.Uses.bind (emitNext _ _) fun last => ih _ _
      | toolCall callId name arguments =>
          unfold Runtime.runOutputs
          have executes : Fallible.Uses (Of context)
              (Runtime.executeTool deployment { context with causationId := last } callId name
                arguments false) :=
            @executeTool deployment { context with causationId := last } _ _ _ _
          exact Fallible.Uses.bind executes fun eventId => ih _ _

theorem enterTurn (start : TurnStart) :
    Fallible.Uses (Of context) (enterTurn deployment context start) := by
  cases start with
  | fresh input =>
      unfold Runtime.enterTurn
      refine Fallible.Uses.bind (emit _ _) fun _ => ?_
      refine Fallible.Uses.bind (emit _ _) fun _ => ?_
      exact Fallible.Uses.bind (writeCheckpoint deployment .queued _ _) fun _ =>
        Fallible.Uses.pure
  | resume report =>
      unfold Runtime.enterTurn
      dsimp only
      split
      · exact Fallible.Uses.throw
      · split
        · split
          · exact Fallible.Uses.bind (resumePendingTool deployment _ _) fun _ =>
              Fallible.Uses.pure
          · exact Fallible.Uses.pure
        · exact Fallible.Uses.pure

end Requests

namespace Drives

variable (deployment : Deployment) {context : TurnEventContext} {threadId : ThreadId}
  {turnId : TurnId}

theorem completeModel (causation : Option EventId) (request : ModelRequest) :
    Fallible.Uses (Drives threadId turnId)
      (completeModel threadId turnId causation request) := by
  unfold Runtime.completeModel
  refine Fallible.Uses.bind (Span.uses_ask (.inr (.inr (.inr ⟨request, rfl⟩)))) fun run => ?_
  refine Fallible.Uses.bind (drives_of_requests .default (Requests.emitDeltas _ _)) fun last => ?_
  cases run.ending with
  | cancelled => exact Fallible.Uses.throw
  | elapsed => exact Fallible.Uses.throw
  | finished outcome =>
      exact Fallible.Uses.bind (Span.uses_ofResult _) fun _ => Fallible.Uses.pure

theorem modelLoop (instructions : String) (remaining : Nat) (step : UInt32)
    (last : Option EventId) :
    Fallible.Uses (Drives context.threadId context.turnId)
      (modelLoop deployment context instructions remaining step last) := by
  have drives {Value : Type} {program : Async Value}
      (uses : Fallible.Uses (Requests.Of context) program) :
      Fallible.Uses (Drives context.threadId context.turnId) program :=
    drives_of_requests context.workspaceId uses
  induction remaining generalizing step last with
  | zero => exact Fallible.Uses.throw
  | succ remaining ih =>
      unfold Runtime.modelLoop
      refine Fallible.Uses.bind (drives (Requests.maybeCompact deployment)) fun _ => ?_
      refine Fallible.Uses.bind
        (drives (Requests.writeCheckpoint deployment .modelRunning _ _)) fun _ => ?_
      refine Fallible.Uses.bind (Span.uses_read (.inl ⟨context.workspaceId, rfl⟩)) fun input => ?_
      refine Fallible.Uses.bind (completeModel _ _) fun completed => ?_
      obtain ⟨outputs, streamed, modelEvent⟩ := completed
      dsimp only
      have acts (last : Option EventId) : Fallible.Uses (Drives context.threadId context.turnId)
          (runOutputs deployment { context with step := step } streamed outputs last false) :=
        drives (@Requests.runOutputs deployment { context with step := step } _ _ _ _)
      refine Fallible.Uses.bind (acts _) fun acted => ?_
      obtain ⟨last, calledTool⟩ := acted
      dsimp only
      split
      · refine Fallible.Uses.bind
          (drives (Requests.writeCheckpoint deployment .completed _ _)) fun _ => ?_
        exact Fallible.Uses.bind (drives (Requests.emit _ _)) fun _ => Fallible.Uses.pure
      · exact ih _ _

theorem runTurnInner (start : TurnStart) (lease : Lease) :
    Fallible.Uses (Drives threadId turnId)
      (runTurnInner deployment threadId turnId start lease) := by
  unfold Runtime.runTurnInner
  refine Fallible.Uses.bind (Span.uses_read (.inr (.inl rfl))) fun thread => ?_
  refine Fallible.Uses.bind (Span.uses_ask (.inr (.inr (.inl rfl)))) fun catalog => ?_
  refine Fallible.Uses.bind (Span.uses_ofResult _) fun _ => ?_
  refine Fallible.Uses.bind (Span.uses_ofResult _) fun tools => ?_
  refine Fallible.Uses.bind
    (drives_of_requests thread.workspaceId (@Requests.enterTurn deployment ⟨threadId, turnId,
      thread.workspaceId, tools, none, lease, 0⟩ start)) fun entered => ?_
  obtain ⟨step, last⟩ := entered
  exact @modelLoop deployment ⟨threadId, turnId, thread.workspaceId, tools, none, lease, 0⟩
    _ _ _ _

theorem driveTurn (input : TurnInput) :
    Fallible.Uses (Drives threadId turnId) (driveTurn deployment threadId turnId input) := by
  unfold Runtime.driveTurn
  refine Fallible.Uses.bind (Span.uses_ask (.inr (.inr (.inl rfl)))) fun catalog => ?_
  refine Fallible.Uses.bind (Span.uses_write (.inl ⟨.default, rfl, rfl⟩)) fun lease => ?_
  refine Fallible.Uses.bind (Span.uses_ask (.inl ⟨.default, trivial⟩)) fun now => ?_
  refine Fallible.Uses.bind (Span.uses_write (.inl ⟨.default, rfl, rfl⟩)) fun _ => ?_
  refine Fallible.Uses.bind (runTurnInner deployment _ lease).attempt fun result => ?_
  refine Fallible.Uses.bind (Span.uses_ask (.inl ⟨.default, trivial⟩)) fun ended => ?_
  refine Fallible.Uses.bind (Span.uses_write (.inl ⟨.default, rfl, rfl⟩)).attempt fun _ => ?_
  refine Fallible.Uses.bind (Span.uses_write (.inl ⟨.default, trivial⟩)).attempt fun _ => ?_
  exact Span.uses_ofResult _

theorem driveResumed (report : RecoveryReport) :
    Fallible.Uses (Drives report.threadId turnId) (driveResumed deployment turnId report) := by
  unfold Runtime.driveResumed
  refine Fallible.Uses.bind (Span.uses_ask (.inr (.inr (.inl rfl)))) fun catalog => ?_
  refine Fallible.Uses.bind (Span.uses_write (.inl ⟨.default, rfl, rfl⟩)) fun lease => ?_
  refine Fallible.Uses.bind (runTurnInner deployment _ lease).attempt fun result => ?_
  refine Fallible.Uses.bind (Span.uses_write (.inl ⟨.default, trivial⟩)).attempt fun _ => ?_
  exact Fallible.Uses.bind (Span.uses_ofResult _) fun _ => Fallible.Uses.pure

end Drives

/-- The requests of a call outside the drive of a turn. -/
def Beside : Op → Prop
  | .query (.getThread _) => False
  | .query _ | .now | .brokerResolve .. => True
  | .command (.putCheckpoint _) | .command (.acquireLease ..) => False
  | .command (.refreshLease ..) => False
  | .command (.appendEvent command) => command.event.diagnosis = none
  | .command _ => True
  | _ => False

namespace Beside

theorem recoveryReport (turnId : TurnId) :
    Fallible.Uses Beside (recoveryReport turnId) := by
  unfold Runtime.recoveryReport
  refine Fallible.Uses.bind (Span.uses_read (by exact trivial)) fun turn => ?_
  cases turn with
  | none => exact Fallible.Uses.throw
  | some turn =>
      refine Fallible.Uses.bind (Span.uses_read (by exact trivial)) fun checkpoint => ?_
      cases checkpoint with
      | none => exact Fallible.Uses.throw
      | some checkpoint =>
          exact Fallible.Uses.bind (Span.uses_read (by exact trivial)) fun _ =>
            Fallible.Uses.pure

theorem resolveApproval (id : ApprovalId) (approved : Bool) :
    Fallible.Uses Beside (resolveApproval id approved) := by
  have answers (answer : Bool) : Fallible.Uses Beside (Async.brokerResolve id answer) :=
    ⟨trivial, fun _ => trivial⟩
  unfold Runtime.resolveApproval
  refine Fallible.Uses.bind (Span.uses_read (by exact trivial)) fun found => ?_
  cases found with
  | none => exact answers _
  | some durable =>
      dsimp only
      split
      · exact Fallible.Uses.throw
      · refine Fallible.Uses.bind ?expires fun expired => ?_
        case expires =>
          cases durable.expiresAt with
          | none => exact Fallible.Uses.pure
          | some expires => exact Fallible.Uses.map (Span.uses_ask (by exact trivial))
        split
        · refine Fallible.Uses.bind (Span.uses_write (by exact trivial)) fun _ => ?_
          exact Fallible.Uses.bind (answers _).attempt fun _ => Fallible.Uses.throw
        · refine Fallible.Uses.bind (Span.uses_write (by exact trivial)) fun _ => ?_
          refine Fallible.Uses.bind (answers _).attempt fun outcome => ?_
          cases outcome with
          | ok value => exact Fallible.Uses.pure
          | error error =>
              cases error with
              | notFound message => exact Fallible.Uses.pure
              | _ => exact Fallible.Uses.throw

theorem recoverTurn (turn : TurnRecord) : Fallible.Uses Beside (recoverTurn turn) := by
  unfold Runtime.recoverTurn
  refine Fallible.Uses.bind (Span.uses_write (by exact trivial)).attempt fun _ => ?_
  refine Fallible.Uses.bind (Span.uses_read (by exact trivial)) fun checkpoint => ?_
  cases checkpoint with
  | none =>
      refine Fallible.Uses.bind (Span.uses_ask (by exact trivial)) fun now => ?_
      exact Fallible.Uses.bind (Span.uses_write (by exact trivial)) fun _ => Fallible.Uses.pure
  | some checkpoint =>
      refine Fallible.Uses.bind (Span.uses_read (by exact trivial)) fun events => ?_
      refine Fallible.Uses.bind (Span.uses_ask (by exact trivial)) fun now => ?_
      exact Fallible.Uses.bind (Span.uses_write (by exact trivial)) fun _ => Fallible.Uses.pure

theorem recoverTurns (turns : List TurnRecord) :
    Fallible.Uses Beside (recoverTurns turns) := by
  induction turns with
  | nil => exact Fallible.Uses.pure
  | cons turn turns ih =>
      unfold Runtime.recoverTurns
      refine Fallible.Uses.bind (recoverTurn turn) fun report => ?_
      exact Fallible.Uses.bind ih fun _ => Fallible.Uses.pure

theorem recover (deployment : Deployment) : Fallible.Uses Beside (recover deployment) := by
  unfold Runtime.recover
  refine Fallible.Uses.bind (Span.uses_ask (by exact trivial)) fun now => ?_
  refine Fallible.Uses.bind (Span.uses_read (by exact trivial)) fun approvals => ?_
  refine Fallible.Uses.bind (Fallible.Uses.forEach fun approval => ?expires) fun _ => ?_
  case expires =>
    unfold expireApproval
    split
    · exact Span.uses_write (by exact trivial)
    · exact Fallible.Uses.pure
  refine Fallible.Uses.bind (Span.uses_read (by exact trivial)) fun actions => ?_
  refine Fallible.Uses.bind (Fallible.Uses.forEach fun action => ?moves) fun _ => ?_
  case moves =>
    unfold recoverAction
    split
    · exact Fallible.Uses.pure
    · refine Fallible.Uses.bind (Span.uses_ofResult _) fun status => ?_
      refine Fallible.Uses.bind (Span.uses_write (by exact trivial)) fun _ => ?_
      refine Fallible.Uses.bind (Fallible.Uses.attempt ?_) fun _ => Fallible.Uses.pure
      exact Span.uses_write (by exact rfl)
  refine Fallible.Uses.bind (Span.uses_read (by exact trivial)) fun turns => ?_
  exact recoverTurns turns

end Beside

/-- The requests of a call before and after a turn. -/
def Around : Op → Prop
  | .query (.getThread _) => False
  | .query _ | .now | .catalog | .brokerResolve .. => True
  | .acquirePermit _ | .releasePermit | .enterThread _ | .leaveThread _ => True
  | .command (.putCheckpoint _) => False
  | .command (.appendEvent command) => command.event.diagnosis = none
  | .command _ => True
  | _ => False

theorem around_of_beside {op : Op} (beside : Beside op) : Around op := by
  cases op with
  | query query => cases query <;> exact beside
  | command command =>
      cases command with
      | appendEvent command => exact beside
      | _ => first | exact trivial | exact beside.elim
  | _ => first | exact trivial | exact beside.elim

/-- A request that appends to no other thread. -/
def AppendsTo (threadId : ThreadId) : Op → Prop
  | .command (.appendEvent command) => command.threadId = threadId
  | _ => True

/-- The requests of a call on a thread before and after its turn. -/
def AroundThread (threadId : ThreadId) (op : Op) : Prop := Around op ∧ AppendsTo threadId op

/-- A monitor that only the turn itself moves on: the requests before a turn keep one
property of its standing, and those after it another. -/
structure Surrounds (monitor : Monitor serviceInterface) (idle : monitor.Standing → Prop)
    (within : ThreadId → monitor.Standing → Prop) : Prop where
  start : idle monitor.start
  opens : ∀ threadId standing, idle standing → within threadId standing
  before : ∀ op standing, Around op → idle standing →
    monitor.Admits standing op ∧ ∀ answer, idle (monitor.move standing op answer)
  after : ∀ threadId op standing, AroundThread threadId op → within threadId standing →
    monitor.Admits standing op ∧ ∀ answer, within threadId (monitor.move standing op answer)

namespace Surrounds

variable {monitor : Monitor serviceInterface} {idle : monitor.Standing → Prop}
  {within : ThreadId → monitor.Standing → Prop} {threadId : ThreadId}
  {turnId : TurnId} {standing : monitor.Standing}

/-- What holds of the standing when a part of a call on a thread has ended. -/
abbrev ends {Value : Type} (within : ThreadId → monitor.Standing → Prop) (threadId : ThreadId) :
    Value → monitor.Standing → Prop := fun _ after => within threadId after

section

variable (surrounds : Surrounds monitor idle within)
include surrounds

theorem rests {Value : Type} {program : Async Value} (uses : Fallible.Uses Around program)
    (idles : idle standing) :
    Meets monitor.protocol program standing (fun _ after => idle after)
      fun _ after => idle after :=
  Monitor.keeps_of_uses uses surrounds.before idles

/-- A part of a call before its turn, in front of the rest. -/
theorem opening {Value Returned : Type} {program : Async Value} {rest : Value → Async Returned}
    (uses : Fallible.Uses Around program) (idles : idle standing)
    (next : ∀ value standing, idle standing →
      Meets monitor.protocol (rest value) standing (ends within threadId)
        (ends within threadId)) :
    Meets monitor.protocol (program >>= rest) standing (ends within threadId)
      (ends within threadId) :=
  Meets.bind ((surrounds.rests uses idles).mono next
    fun _ after rests => surrounds.opens threadId after rests)

/-- A part of a call after its turn. -/
theorem closing {Value : Type} {program : Async Value}
    (uses : Fallible.Uses (AroundThread threadId) program) (inside : within threadId standing) :
    Meets monitor.protocol program standing (ends within threadId) (ends within threadId) :=
  Monitor.keeps_of_uses uses (surrounds.after threadId) inside

/-- Permits and guards are taken before the turn and given back after it. -/
theorem withThread_meets (cancellable : Bool) {Value : Type} {body : Async Value}
    (meets : ∀ standing, idle standing →
      Meets monitor.protocol body standing (ends within threadId) (ends within threadId))
    (idles : idle standing) :
    Meets monitor.protocol (withThread threadId cancellable body) standing
      (ends within threadId) (ends within threadId) := by
  have released {after : monitor.Standing} (inside : within threadId after) :
      Conforms monitor.protocol (Program.perform (I := serviceInterface) .releasePermit) after
        fun _ final => within threadId final := by
    have step := surrounds.after threadId .releasePermit after ⟨trivial, trivial⟩ inside
    exact fun answer => ⟨_, ⟨step.1, rfl⟩, step.2 answer⟩
  have left {after : monitor.Standing} (inside : within threadId after) :
      Conforms monitor.protocol
        (Program.perform (I := serviceInterface) (.leaveThread threadId)) after
        fun _ final => Conforms monitor.protocol
          (Program.perform (I := serviceInterface) .releasePermit) final
          fun _ final => within threadId final := by
    have step := surrounds.after threadId (.leaveThread threadId) after ⟨trivial, trivial⟩ inside
    exact fun answer => ⟨_, ⟨step.1, rfl⟩, released (step.2 answer)⟩
  unfold withThread
  refine surrounds.opening ⟨trivial, fun _ => trivial⟩ idles fun permit standing idles => ?_
  refine Meets.andFinally (Meets.bind ?_)
  refine (surrounds.rests (Span.uses_ask (by exact trivial)) idles).mono ?_
    fun _ _ idles => released (surrounds.opens threadId _ idles)
  intro entered standing idles
  cases entered with
  | false => exact Meets.throw (released (surrounds.opens threadId _ idles))
  | true =>
      refine Meets.andFinally ((meets standing idles).mono ?_ ?_)
      · exact fun _ _ inside => left inside
      · exact fun _ _ inside => left inside

variable (deployment : Deployment)
  (inner : ∀ threadId turnId start lease standing, idle standing →
    Meets monitor.protocol (runTurnInner deployment threadId turnId start lease) standing
      (ends within threadId) (ends within threadId))
include inner

theorem driveTurn_meets (input : TurnInput) (idles : idle standing) :
    Meets monitor.protocol (driveTurn deployment threadId turnId input) standing
      (ends within threadId) (ends within threadId) := by
  unfold driveTurn
  refine surrounds.opening (Span.uses_ask (by exact trivial)) idles fun catalog _ idles => ?_
  refine surrounds.opening (Span.uses_write (by exact trivial)) idles fun lease _ idles => ?_
  refine surrounds.opening (Span.uses_ask (by exact trivial)) idles fun now _ idles => ?_
  refine surrounds.opening (Span.uses_write (by exact trivial)) idles fun _ _ idles => ?_
  have closes (result : Result Unit) : Fallible.Uses (AroundThread threadId) (do
      let ended ← Async.ask .now
      let _ ← (Async.write (.upsertTurn (turnRecord turnId threadId (finalStatus result) none none
        now ended))).attempt
      let _ ← (Async.write (.releaseLease lease.leaseId lease.fencingToken)).attempt
      Async.ofResult result : Async Unit) := by
    refine Fallible.Uses.bind (Span.uses_ask ⟨trivial, trivial⟩) fun ended => ?_
    refine Fallible.Uses.bind (Span.uses_write ⟨trivial, trivial⟩).attempt fun _ => ?_
    refine Fallible.Uses.bind (Span.uses_write ⟨trivial, trivial⟩).attempt fun _ => ?_
    exact Span.uses_ofResult _
  refine Meets.bind (Meets.attempt ((inner threadId turnId _ lease _ idles).mono ?_ ?_))
  · exact fun _ _ inside => surrounds.closing (closes _) inside
  · exact fun _ _ inside => surrounds.closing (closes _) inside

theorem driveResumed_meets (report : RecoveryReport) (idles : idle standing) :
    Meets monitor.protocol (driveResumed deployment turnId report) standing
      (ends within report.threadId) (ends within report.threadId) := by
  unfold driveResumed
  refine surrounds.opening (Span.uses_ask (by exact trivial)) idles fun catalog _ idles => ?_
  refine surrounds.opening (Span.uses_write (by exact trivial)) idles fun lease _ idles => ?_
  have closes (result : Result Unit) : Fallible.Uses (AroundThread report.threadId) (do
      let _ ← (Async.write (.releaseLease lease.leaseId lease.fencingToken)).attempt
      Async.ofResult result
      return report : Async RecoveryReport) := by
    refine Fallible.Uses.bind (Span.uses_write ⟨trivial, trivial⟩).attempt fun _ => ?_
    exact Fallible.Uses.bind (Span.uses_ofResult _) fun _ => Fallible.Uses.pure
  refine Meets.bind (Meets.attempt ((inner report.threadId turnId _ lease _ idles).mono ?_ ?_))
  · exact fun _ _ inside => surrounds.closing (closes _) inside
  · exact fun _ _ inside => surrounds.closing (closes _) inside

theorem runTurn_meets (input : TurnInput) (idles : idle standing) :
    Meets monitor.protocol (runTurn deployment threadId turnId input) standing
      (ends within threadId) (ends within threadId) := by
  unfold runTurn
  refine surrounds.opening (Span.uses_ofResult _) idles fun _ _ idles => ?_
  refine Meets.bind (Meets.attempt ((surrounds.withThread_meets true (fun _ idles =>
    surrounds.driveTurn_meets deployment inner input idles) idles).mono ?_ ?_))
  · exact fun _ _ inside => Meets.pure inside
  · intro error after inside
    have announce (event : RuntimeEvent) (undiagnosed : event.diagnosis = none) :
        Fallible.Uses (AroundThread threadId) (do
          let _ ← (emit threadId (some turnId) none event).attempt
          throw error : Async Unit) := by
      exact Fallible.Uses.bind (Fallible.Uses.attempt (Span.uses_write ⟨undiagnosed, rfl⟩))
        fun _ => Fallible.Uses.throw
    cases error <;> exact surrounds.closing (announce _ rfl) inside

theorem resumeTurn_meets (key : Option String) (idles : idle standing) :
    Meets monitor.protocol (resumeTurn deployment turnId key) standing (fun _ _ => True)
      fun _ _ => True := by
  unfold resumeTurn
  refine Meets.bind ((surrounds.rests ((Beside.recoveryReport turnId).mono
    fun _ => around_of_beside) idles).mono ?_ fun _ _ _ => trivial)
  intro report _ idles
  split
  · exact Meets.throw trivial
  · refine Meets.bind ((surrounds.rests ?remembers idles).mono ?_ fun _ _ _ => trivial)
    case remembers =>
      cases key with
      | none => exact Fallible.Uses.pure
      | some key => exact Span.uses_write (by exact trivial)
    intro remembered _ idles
    cases remembered with
    | some existing => exact Meets.pure trivial
    | none =>
        exact (surrounds.withThread_meets false (fun _ idles =>
          surrounds.driveResumed_meets deployment inner report idles) idles).mono
          (fun _ _ _ => trivial) fun _ _ _ => trivial

/-- Every call follows a monitor that the inside of a turn follows. -/
theorem conforms (job : Job) :
    Conforms monitor.protocol ((system deployment).program job) monitor.start
      fun _ _ => True := by
  have returned {Value : Type} {program : Async Value} (result : Value → Returned)
      {ok : Value → monitor.Standing → Prop} {failed : OpsCodexError → monitor.Standing → Prop}
      (meets : Meets monitor.protocol program monitor.start ok failed) :
      Conforms monitor.protocol (result <$> program : Async Returned).run monitor.start
        fun _ _ => True := by
    have mapped : Meets monitor.protocol (result <$> program : Async Returned) monitor.start
        (fun _ _ => True) failed := meets.map fun _ _ _ => trivial
    exact Conforms.mono mapped fun _ _ _ => trivial
  have beside {Value : Type} {program : Async Value} (uses : Fallible.Uses Beside program) :=
    surrounds.rests (uses.mono fun _ => around_of_beside) surrounds.start
  cases job with
  | runTurn threadId turnId input =>
      exact returned _ (surrounds.runTurn_meets deployment inner input surrounds.start)
  | resumeTurn turnId key =>
      exact returned _ (surrounds.resumeTurn_meets deployment inner key surrounds.start)
  | recover => exact returned _ (beside (Beside.recover deployment))
  | resolveApproval id approved => exact returned _ (beside (Beside.resolveApproval id approved))

end

end Surrounds

end OpsCodex.Turn
