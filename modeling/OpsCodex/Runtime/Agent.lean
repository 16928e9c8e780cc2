import OpsCodex.Evidence.Diagnosis
import OpsCodex.Runtime.Recovery
import OpsCodex.Runtime.Remediation

/-! The agent runtime: driving a turn, its tool calls, recovery and resumption. -/

set_option autoImplicit false

namespace OpsCodex.Runtime

open OpsCodex.Json OpsCodex.Evidence OpsCodex.Extensions OpsCodex.Policy OpsCodex.Action
open OpsCodex.Store

def maxTurnInputBytes : Nat := 32 * 1024

inductive TurnStart where
  | fresh (input : TurnInput)
  | resume (report : RecoveryReport)

structure TurnEventContext where
  threadId : ThreadId
  turnId : TurnId
  workspaceId : WorkspaceId
  tools : ToolRegistry
  causationId : Option EventId
  lease : Lease
  step : UInt32

/-- What became of the question whether a tool call may run. -/
inductive Authorization where
  | proceed (causation : Option EventId)
  | refused (eventId : EventId)

def saturatingSucc (step : UInt32) : UInt32 :=
  if step.toNat + 1 < UInt32.size then step + 1 else step

/-- `value[key] = field` on an object. -/
def setField (value : Value) (key : String) (field : Value) : Value :=
  match value with
  | .object fields => .object (fields ++ [(key, field)])
  | other => other

def modelToolOutput (evidence : EvidenceMeta) (content : Value) : Value :=
  let output : Value := .object [
    ("success", .bool true),
    ("evidence_id", .ofOption (fun id => .string (toString id)) evidence.evidenceId),
    ("summary", .string evidence.summary),
    ("truncated", .bool evidence.truncated),
    ("sha256", .string evidence.sha256)]
  match evidence.artifactRef with
  | none => setField output "content" content
  | some artifactRef => setField output "artifact_ref" (.string artifactRef)

section

variable (deployment : Deployment)

def finalizeEvidence (evidence : EvidenceMeta) (content : Value) (artifactRef : Option String)
    (fresh : Uuid) : EvidenceMeta :=
  let redacted := deployment.content.redactJson content
  let bytes := deployment.codec.toVec redacted
  { evidence with
    summary :=
      if evidence.summary.isEmpty then deployment.content.summarizeValue redacted 280
      else evidence.summary
    byteSize := UInt64.ofNat bytes.length
    sha256 := deployment.codec.sha256Hex bytes
    artifactRef := artifactRef
    evidenceId := some ⟨fresh⟩
    sourceKind := some (evidence.sourceKind.getD evidence.source)
    sourceRef := some (evidence.sourceRef.getD evidence.source)
    queryOrOperation := evidence.queryOrOperation.or evidence.query
    observedAt := evidence.observedAt.or (some evidence.timestamp) }

def finalizeTurnDiagnosis (diagnosis : Diagnosis) (events : List EventEnvelope) : Diagnosis :=
  applyCitationLimitations diagnosis
    (events.filterMap fun envelope =>
      match envelope.event with
      | .toolCompleted _ _ _ evidence true => some evidence
      | _ => none)

def emit (threadId : ThreadId) (turnId : Option TurnId) (causationId : Option EventId)
    (event : RuntimeEvent) : Async EventEnvelope :=
  Async.write (.appendEvent {
    threadId := threadId, turnId := turnId, itemId := none, causationId := causationId,
    streamKind := none, event := event })

/-- Emit an event of the turn and continue from its identifier. -/
def emitNext (context : TurnEventContext) (causation : Option EventId)
    (event : RuntimeEvent) : Async (Option EventId) := do
  let envelope ← emit context.threadId (some context.turnId) causation event
  return some envelope.eventId

def writeCheckpoint (threadId : ThreadId) (turnId : TurnId) (step : UInt32)
    (phase : CheckpointPhase) (resumePolicy : ResumePolicy)
    (pendingOperation : Option PendingOperation) (lease : Lease) : Async Unit := do
  Async.write (.refreshLease lease.leaseId lease.fencingToken deployment.config.leaseTtl)
  let items ← (Async.read (.modelContext threadId deployment.config.context)).attempt
  let checkpointId ← Async.ask .newId
  let lastSeq ← (Async.read (.lastSeq threadId)).attempt
  let now ← Async.ask .now
  Async.write (.putCheckpoint {
    checkpointId := checkpointId
    turnId := turnId
    threadId := threadId
    step := step
    phase := phase
    contextInputHash :=
      some (deployment.content.contextInputHash (items.toOption.getD []))
    pendingOperation := pendingOperation
    lastCommittedSeq := lastSeq.toOption.getD 0
    resumePolicy := resumePolicy
    createdAt := now })

/-- Keep a large result as an artifact. -/
def storeArtifact (context : TurnEventContext) (bytes : List UInt8) : Async (Option String) :=
  if deployment.config.inlineArtifactBytes < bytes.length then
    some <$> Async.putArtifact context.workspaceId bytes
  else return none

/-- What is recorded of a result, and what the model is told of it. -/
def describeResult (context : TurnEventContext) (name : String) (evidence : EvidenceMeta)
    (content : Value) : Async (EvidenceMeta × Value) := do
  let artifactRef ← storeArtifact deployment context (deployment.codec.toVec content)
  let fresh ← Async.ask .newId
  let evidence := finalizeEvidence deployment evidence content artifactRef fresh
  let modelContent := modelToolOutput evidence content
  match evidence.artifactRef, deployment.content.artifactTopologyProjection name content with
  | some _, some projection =>
      return (evidence, setField modelContent "topology_projection" projection)
  | _, _ => return (evidence, modelContent)

def emitToolResult (context : TurnEventContext) (causation : Option EventId)
    (callId name : String) (output : ToolOutput) (success : Bool) : Async EventId := do
  let content := deployment.content.redactJson output.content
  let (evidence, modelContent) ←
    (if success then describeResult deployment context name output.evidence content
      else pure (output.evidence, content) : Async (EvidenceMeta × Value))
  let envelope ← emit context.threadId (some context.turnId) causation
    (.toolCompleted callId name modelContent evidence success)
  writeCheckpoint deployment context.threadId context.turnId context.step .toolCompleted
    .skipCompletedTool none context.lease
  return envelope.eventId

def emitToolError (context : TurnEventContext) (causation : Option EventId)
    (callId name : String) (arguments : Value) (error : OpsCodexError) : Async EventId := do
  let observed ← Async.ask .now
  let stamped ← Async.ask .now
  emitToolResult deployment context causation callId name {
    content := .object [
      ("error", .string error.toString),
      ("class", .string error.connectorClass.asStr),
      ("retryable", .bool error.connectorClass.retryable)]
    evidence := (EvidenceMeta.new name observed stamped).withQuery
      (deployment.content.valueText arguments) } false

def pendingOperationFor (context : TurnEventContext) (callId name : String)
    (arguments : Value) (descriptor : CapabilityDescriptor) : PendingOperation where
  operationId := pendingOperationId context.turnId callId
  callId := callId
  tool := name
  arguments := arguments
  effect := descriptor.effect.asStr
  recovery := descriptor.recovery.map RecoveryMode.asStr

/-- Record the outcome of a wait for the user in the approval's row. -/
def settleApproval (approvalId : ApprovalId) (approved : Bool) : Async Unit := do
  match ← Async.read (.getApproval approvalId) with
  | none => return ()
  | some durable =>
      let status :=
        if approved then .approved
        else if durable.status = .expired then .expired
        else .rejected
      let _ ← (Async.write (.putApproval { durable with status := status })).attempt
      return ()

/-- Wait for the user; a deadline that passes is recorded in the approval's row. -/
def awaitApproval (context : TurnEventContext) (receiver : Nat) (approvalId : ApprovalId)
    (name : String) (arguments : Value) (schemaHash : String) (expiresAt : DateTime) :
    Async Bool := do
  match ← Async.ask (.awaitDecision receiver (some deployment.config.approvalTtl)) with
  | .cancelled => throw .cancelled
  | .elapsed =>
      let stored ← Async.read (.getApproval approvalId)
      let durable : DurableApproval := stored.getD {
        approvalId := approvalId
        threadId := some context.threadId
        turnId := some context.turnId
        tool := name
        arguments := arguments
        requestHash := ""
        schemaHash := some schemaHash
        status := .expired
        expiresAt := some expiresAt }
      let _ ← (Async.write (.putApproval { durable with status := .expired })).attempt
      return false
  | .answered approved => return approved
  | .closed => throw (.policy "approval channel closed")

/-- Register the request, durably, and announce it. -/
def fileApproval (context : TurnEventContext) (causation : Option EventId)
    (callId name : String) (arguments : Value) (descriptor : CapabilityDescriptor)
    (approvalId : ApprovalId) (requestHash schemaHash : String) :
    Async (DateTime × Option EventId) := do
  let now ← Async.ask .now
  let expiresAt := now + fromStd deployment.config.approvalTtl (seconds 3600)
  Async.write (.putApproval {
    approvalId := approvalId
    threadId := some context.threadId
    turnId := some context.turnId
    tool := name
    arguments := arguments
    requestHash := requestHash
    schemaHash := some schemaHash
    status := .pending
    expiresAt := some expiresAt })
  writeCheckpoint deployment context.threadId context.turnId context.step .waitingApproval
    .waitApproval (some (pendingOperationFor context callId name arguments descriptor))
    context.lease
  let causation ← emitNext context causation (.approvalRequired approvalId name arguments)
  return (expiresAt, causation)

/-- Ask the user, durably, and wait for the answer, the deadline or the end of
the turn. -/
def requestApproval (context : TurnEventContext) (causation : Option EventId)
    (callId name : String) (arguments : Value) (descriptor : CapabilityDescriptor) :
    Async (Option EventId × Bool) := do
  let schemaHash := descriptor.provenance.schemaHash
  let requestHash := approvalRequestHash deployment.codec name arguments (some schemaHash)
  let fresh ← Async.ask .newId
  let approvalId : ApprovalId := ⟨fresh⟩
  let receiver ← Async.ask (.brokerInsert {
    id := approvalId, tool := name, arguments := arguments, schemaHash := some schemaHash })
  let (expiresAt, causation) ← (fileApproval deployment context causation callId name arguments
    descriptor approvalId requestHash schemaHash).orElseDo
      (Effect.Program.perform (I := serviceInterface) (.dropReceiver receiver))
  let approved ← awaitApproval deployment context receiver approvalId name arguments schemaHash
    expiresAt
  settleApproval approvalId approved
  let causation ← emitNext context causation (.approvalResolved approvalId approved)
  let causation ← emitNext context causation
    (.toolAuthorized callId name (if approved then "allow" else "deny"))
  return (causation, approved)

/-- The question whether a proposed call may run: policy, then the user. -/
def authorizeTool (context : TurnEventContext) (causation : Option EventId)
    (callId name : String) (arguments : Value) (descriptor : CapabilityDescriptor) :
    Async Authorization := do
  let refuse (causation : Option EventId) (error : OpsCodexError) : Async Authorization :=
    .refused <$> emitToolError deployment context causation callId name arguments error
  match evaluateCapability descriptor with
  | .deny =>
      let causation ← emitNext context causation (.toolAuthorized callId name "deny")
      refuse causation (.policy "tool is forbidden")
  | .allow =>
      let causation ← emitNext context causation (.toolAuthorized callId name "allow")
      return .proceed causation
  | .ask =>
      let (causation, approved) ←
        requestApproval deployment context causation callId name arguments descriptor
      if !approved then refuse causation (.policy "approval rejected")
      else
        match context.tools.descriptor name with
        | .error error => refuse causation error
        | .ok current =>
            if current.provenance.schemaHash ≠ descriptor.provenance.schemaHash then
              refuse causation (.policy "capability schema changed; approval invalidated")
            else return .proceed causation

/-- Run an authorised call: checkpoint, start event, execution, result. -/
def startTool (context : TurnEventContext) (causation : Option EventId)
    (callId name : String) (arguments : Value) (descriptor : CapabilityDescriptor) :
    Async EventId := do
  writeCheckpoint deployment context.threadId context.turnId context.step .toolRunning
    (if toolIsRetryable descriptor.effect descriptor.recovery then .retryObserve else .reconcile)
    (some (pendingOperationFor context callId name arguments descriptor)) context.lease
  let causation ← emitNext context causation (.toolExecutionStarted callId name)
  match ← Async.ask (.executeTool { turnId := context.turnId, callId := callId }
      context.workspaceId context.threadId name arguments) with
  | .cancelled => throw .cancelled
  | .elapsed =>
      emitToolError deployment context causation callId name arguments
        (.timeout s!"tool {name}")
  | .finished (.ok output) durationMs =>
      emitToolResult deployment context causation callId name
        { output with evidence := output.evidence.withDurationMs durationMs } true
  | .finished (.error error) _ =>
      emitToolError deployment context causation callId name arguments error

def executeTool (context : TurnEventContext) (callId name : String) (arguments : Value)
    (alreadyAuthorized : Bool) : Async EventId := do
  let causation ← (if alreadyAuthorized then pure context.causationId
    else emitNext context context.causationId (.toolProposed callId name arguments) :
      Async (Option EventId))
  match context.tools.descriptor name with
  | .error error => emitToolError deployment context causation callId name arguments error
  | .ok descriptor =>
      let authorization ← (if alreadyAuthorized then pure (.proceed causation)
        else authorizeTool deployment context causation callId name arguments descriptor :
          Async Authorization)
      match authorization with
      | .refused eventId => return eventId
      | .proceed causation =>
          startTool deployment context causation callId name arguments descriptor

/-- Let a pending approval that is past its deadline expire. -/
def expirePending (pending : DurableApproval) : Async DurableApproval := do
  match pending.expiresAt with
  | none => return pending
  | some expires =>
      let now ← Async.ask .now
      if expires ≤ now ∧ pending.status = .pending then
        Async.write (.putApproval { pending with status := .expired })
        return { pending with status := .expired }
      else return pending

/-- Wait again for the decision on an approval that outlived its process. -/
def awaitRestored (threadId : ThreadId) (turnId : TurnId) (pending : DurableApproval) :
    Async Bool := do
  let receiver ← Async.ask (.brokerInsert {
    id := pending.approvalId, tool := pending.tool, arguments := pending.arguments
    schemaHash := pending.schemaHash })
  let decide (approved : Bool) : Async Bool := do
    Async.write (.putApproval { pending with
      status := if approved then .approved else .rejected })
    let _ ← (emit threadId (some turnId) none
      (.approvalResolved pending.approvalId approved)).attempt
    return approved
  match ← Async.ask (.awaitDecision receiver none) with
  | .answered approved => decide approved
  | .closed => decide false
  | .cancelled | .elapsed => throw .cancelled

/-- The checks on the approval that a resumed turn was waiting for. -/
def authorizeResumed (context : TurnEventContext) (operation : PendingOperation) :
    Async Authorization := do
  match ← Async.read (.approvalForTurn context.turnId) with
  | none => throw (.policy "resume found no durable approval for this turn")
  | some stored =>
      let pending ← expirePending stored
      let approved ← (match pending.status with
        | .approved => pure true
        | .rejected | .expired => pure false
        | .pending => awaitRestored context.threadId context.turnId pending : Async Bool)
      if !approved then
        .refused <$> emitToolError deployment context none operation.callId operation.tool
          operation.arguments (.policy "approval rejected")
      else
        let descriptor ← Async.ofResult (context.tools.descriptor operation.tool)
        if pending.schemaHash.any fun hash =>
            decide (hash ≠ descriptor.provenance.schemaHash) then
          throw (.policy "capability schema changed; approval invalidated")
        else if approvalRequestHash deployment.codec operation.tool operation.arguments
            pending.schemaHash ≠ pending.requestHash then
          throw (.policy "approval request hash mismatch; refusing to execute")
        else return .proceed none

def resumePendingTool (context : TurnEventContext) (operation : PendingOperation)
    (policy : ResumePolicy) : Async EventId := do
  let authorization ← (if policy = .waitApproval then authorizeResumed deployment context operation
    else pure (.proceed none) : Async Authorization)
  match authorization with
  | .refused eventId => return eventId
  | .proceed _ =>
      executeTool deployment context operation.callId operation.tool operation.arguments true

def emitDeltas (threadId : ThreadId) (turnId : TurnId) :
    List String → Option EventId → Async (Option EventId)
  | [], last => return last
  | delta :: deltas, last => do
      let envelope ← emit threadId (some turnId) last (.assistantDelta delta)
      emitDeltas threadId turnId deltas (some envelope.eventId)

def completeModel (threadId : ThreadId) (turnId : TurnId) (causation : Option EventId)
    (request : ModelRequest) : Async (List ModelOutput × Bool × Option EventId) := do
  let run ← Async.ask (.completeModel request)
  let last ← emitDeltas threadId turnId run.deltas causation
  match run.ending with
  | .cancelled => throw .cancelled
  | .elapsed => throw (.timeout "model")
  | .finished outcome =>
      let outputs ← Async.ofResult outcome
      return (outputs, !run.deltas.isEmpty, last)

/-- The events that a compaction covers: the first contributing ones. -/
def coveredEvents (dropCount : Nat) (history : List EventEnvelope) : List EventEnvelope :=
  (history.filter fun envelope => envelope.event.contributes).take dropCount

def compactionCovers (start stop : Nat) (envelope : EventEnvelope) : Bool :=
  match envelope.event with
  | .contextCompacted _ existingStart existingEnd _ _ _ _ _ _ _ =>
      decide (existingStart ≤ start ∧ stop ≤ existingEnd)
  | _ => false

def evidenceIdsOf (covered : List EventEnvelope) : List String :=
  covered.filterMap fun envelope =>
    match envelope.event with
    | .toolCompleted _ _ _ evidence _ => evidence.evidenceId.map toString
    | _ => none

def maybeCompact (threadId : ThreadId) (turnId : TurnId) : Async Unit := do
  let history ← Async.read (.eventsAfter threadId 0)
  let full := deployment.content.modelItemsFromEvents history
  let bounded := deployment.content.buildModelContext full deployment.config.context
  if full.length ≤ bounded.length then return ()
  else
    let covered := coveredEvents (full.length - bounded.length) history
    match covered.head?, covered.getLast? with
    | some first, some last =>
        if history.any (compactionCovers first.seq last.seq) then return ()
        else
          let summaryId ← Async.ask .newId
          let _ ← (emit threadId (some turnId) none
            (.contextCompacted (toString summaryId) first.seq last.seq
              (covered.map fun envelope => toString envelope.eventId) (evidenceIdsOf covered)
              (deployment.content.contextInputHash full) (some "local")
              (some "deterministic-suffix") (some "v0.5")
              (deployment.content.localSummary covered))).attempt
          return ()
    | _, _ => return ()

/-- Act on the outputs of one model step; the flag says whether a tool ran. -/
def runOutputs (context : TurnEventContext) (streamed : Bool) :
    List ModelOutput → Option EventId → Bool → Async (Option EventId × Bool)
  | [], last, calledTool => return (last, calledTool)
  | .message content :: outputs, last, calledTool => do
      let last ← (if streamed then pure last
        else emitNext context last (.assistantDelta content) : Async (Option EventId))
      let seed ← Async.ask .newId
      let events ← Async.read (.eventsAfter context.threadId 0)
      let diagnosis := finalizeTurnDiagnosis
        (deployment.content.parseDiagnosis seed content) events
      let last ← emitNext context last (.assistantCompleted content (some diagnosis))
      runOutputs context streamed outputs last calledTool
  | .toolCall callId name arguments :: outputs, last, _ => do
      let eventId ← executeTool deployment { context with causationId := last }
        callId name arguments false
      runOutputs context streamed outputs (some eventId) true

/-- The model loop of a turn, for a bounded number of steps. -/
def modelLoop (context : TurnEventContext) (instructions : String) :
    Nat → UInt32 → Option EventId → Async Unit
  | 0, _, _ => throw .maxStepsExceeded
  | remaining + 1, step, last => do
      maybeCompact deployment context.threadId context.turnId
      writeCheckpoint deployment context.threadId context.turnId step .modelRunning
        .replayModel none context.lease
      let input ← Async.read (.modelContext context.threadId deployment.config.context)
      let (outputs, streamed, modelEvent) ←
        completeModel context.threadId context.turnId last
          { instructions := instructions, input := input, tools := context.tools.schemas }
      let (last, calledTool) ← runOutputs deployment { context with step := step } streamed
        outputs (modelEvent.or last) false
      if !calledTool then
        writeCheckpoint deployment context.threadId context.turnId step .completed .none none
          context.lease
        let _ ← emit context.threadId (some context.turnId) last .turnCompleted
        return ()
      else modelLoop context instructions remaining (saturatingSucc step) last

/-- Enter a turn: its first events, or the operation it was interrupted in. -/
def enterTurn (context : TurnEventContext) :
    TurnStart → Async (UInt32 × Option EventId)
  | .fresh input => do
      let _ ← emit context.threadId (some context.turnId) none
        (.userMessage input.content input.incidentContext)
      let _ ← emit context.threadId (some context.turnId) none .turnStarted
      writeCheckpoint deployment context.threadId context.turnId 0 .queued .replayModel none
        context.lease
      return (0, none)
  | .resume report => do
      if report.resumePolicy = .reconcile then
        throw (.needsReconciliation report.userAction)
      else
        let step := (report.checkpoint.map CheckpointRecord.step).getD 0
        match report.checkpoint.bind CheckpointRecord.pendingOperation with
        | some operation =>
            if report.resumePolicy = .retryObserve ∨ report.resumePolicy = .waitApproval then
              let eventId ←
                resumePendingTool deployment context operation report.resumePolicy
              return (step, some eventId)
            else return (step, none)
        | none => return (step, none)

def skillInput : TurnStart → TurnInput
  | .fresh input => input
  | .resume _ => { content := "", incidentContext := none }

def runTurnInner (threadId : ThreadId) (turnId : TurnId) (start : TurnStart)
    (lease : Lease) : Async Unit := do
  let thread ← Async.read (.getThread threadId)
  let catalog ← Async.ask .catalog
  Async.ofResult (catalog.admits thread.workspaceId)
  let tools ← Async.ofResult (catalog.toolsFor thread.workspaceId)
  let instructions :=
    deployment.content.composeInstructions thread.workspaceId (skillInput start)
  let context : TurnEventContext := {
    threadId := threadId, turnId := turnId, workspaceId := thread.workspaceId
    tools := tools, causationId := none, lease := lease, step := 0 }
  let (step, last) ← enterTurn deployment context start
  modelLoop deployment context instructions deployment.config.maxSteps step last

/-- Hold the permit and the guard of the thread around a piece of work. -/
def withThread (threadId : ThreadId) (cancellable : Bool) {Value : Type}
    (body : Async Value) : Async Value := do
  Async.acquirePermit cancellable
  (do
    let entered ← Async.ask (.enterThread threadId)
    if entered then
      body.andFinally
        (Effect.Program.perform (I := serviceInterface) (.leaveThread threadId))
    else throw .turnAlreadyRunning : Async Value).andFinally
      (Effect.Program.perform (I := serviceInterface) .releasePermit)

def turnRecord (turnId : TurnId) (threadId : ThreadId) (status : TurnStatus)
    (leaseId checkpointId : Option Uuid) (createdAt updatedAt : DateTime) : TurnRecord where
  id := turnId
  threadId := threadId
  status := status
  activeLeaseId := leaseId
  lastCheckpointId := checkpointId
  createdAt := createdAt
  updatedAt := updatedAt

def finalStatus : Result Unit → TurnStatus
  | .ok () => .completed
  | .error .cancelled => .cancelled
  | .error (.needsReconciliation _) => .needsReconciliation
  | .error _ => .failed

/-- Drive a fresh turn under its lease and record how it ended. -/
def driveTurn (threadId : ThreadId) (turnId : TurnId) (input : TurnInput) : Async Unit := do
  let catalog ← Async.ask .catalog
  let lease ← Async.write
    (.acquireLease turnId threadId catalog.ownerId deployment.config.leaseTtl)
  let now ← Async.ask .now
  Async.write (.upsertTurn
    (turnRecord turnId threadId .running (some lease.leaseId) none now now))
  let result ← (runTurnInner deployment threadId turnId (.fresh input) lease).attempt
  let ended ← Async.ask .now
  let _ ← (Async.write (.upsertTurn
    (turnRecord turnId threadId (finalStatus result) none none now ended))).attempt
  let _ ← (Async.write (.releaseLease lease.leaseId lease.fencingToken)).attempt
  Async.ofResult result

def validateInput (input : TurnInput) : Result Unit := do
  match input.incidentContext with
  | some context => deployment.content.validateIncident context
  | none => pure ()
  let length := input.content.utf8ByteSize
  if maxTurnInputBytes < length then
    throw (.protocol s!"turn input exceeds {maxTurnInputBytes} bytes; shorten the prompt")
  else if deployment.config.context.maxBytes < length then
    throw (.protocol (s!"turn input exceeds context budget ({length} bytes > " ++
      s!"{deployment.config.context.maxBytes} bytes); shorten the prompt or raise " ++
      "runtime.context_max_bytes"))
  else pure ()

def runTurn (threadId : ThreadId) (turnId : TurnId) (input : TurnInput) : Async Unit := do
  Async.ofResult (validateInput deployment input)
  match ← (withThread threadId true (driveTurn deployment threadId turnId input)).attempt with
  | .ok () => return ()
  | .error .cancelled =>
      let _ ← (emit threadId (some turnId) none .turnCancelled).attempt
      throw .cancelled
  | .error error =>
      let _ ← (emit threadId (some turnId) none (.turnFailed error.toString)).attempt
      throw error

def recoveryReport (turnId : TurnId) : Async RecoveryReport := do
  match ← Async.read (.getTurn turnId) with
  | none => throw (.notFound s!"turn {turnId}")
  | some turn =>
      match ← Async.read (.lastCheckpoint turnId) with
      | none => throw (.notFound s!"checkpoint for turn {turnId}")
      | some checkpoint =>
          let events ← Async.read (.eventsAfter turn.threadId 0)
          return classifyCheckpoint checkpoint events

/-- Drive an interrupted turn under its lease. -/
def driveResumed (turnId : TurnId) (report : RecoveryReport) : Async RecoveryReport := do
  let catalog ← Async.ask .catalog
  let lease ← Async.write
    (.acquireLease turnId report.threadId catalog.ownerId deployment.config.leaseTtl)
  let result ←
    (runTurnInner deployment report.threadId turnId (.resume report) lease).attempt
  let _ ← (Async.write (.releaseLease lease.leaseId lease.fencingToken)).attempt
  Async.ofResult result
  return report

def resumeTurn (turnId : TurnId) (idempotencyKey : Option String) : Async RecoveryReport := do
  let report ← recoveryReport turnId
  if report.resumePolicy = .reconcile then
    throw (.needsReconciliation report.userAction)
  else
    let remembered ← (match idempotencyKey with
      | some key => Async.write (.rememberResume key turnId report)
      | none => pure none : Async (Option RecoveryReport))
    match remembered with
    | some existing => return existing
    | none => withThread report.threadId false (driveResumed deployment turnId report)

def resolveApproval (id : ApprovalId) (approved : Bool) : Async Unit := do
  match ← Async.read (.getApproval id) with
  | none => Async.brokerResolve id approved
  | some durable =>
      if durable.status ≠ .pending then
        throw (.policy s!"approval {id} is {durable.status.asStr}")
      else
        let expired ← (match durable.expiresAt with
          | none => pure false
          | some expires => (fun now => decide (expires ≤ now)) <$> Async.ask .now :
            Async Bool)
        if expired then
          Async.write (.putApproval { durable with status := .expired })
          let _ ← (Async.brokerResolve id false).attempt
          throw (.policy s!"approval {id} expired")
        else
          Async.write (.putApproval { durable with
            status := if approved then .approved else .rejected })
          match ← (Async.brokerResolve id approved).attempt with
          | .ok () | .error (.notFound _) => return ()
          | .error error => throw error

section Recover

def expireApproval (now : DateTime) (approval : DurableApproval) : Async Unit :=
  if approval.expiresAt.any fun expires => decide (expires ≤ now) then
    Async.write (.putApproval { approval with status := .expired })
  else return ()

/-- The status that recovery moves an action to, if it moves it. -/
def recoveredStatus (action : ActionRecord) (now : DateTime) : Option ActionStatus :=
  match action.status with
  | .awaitingApproval | .authorized => if action.expiresAt ≤ now then some .expired else none
  | .preconditionCheck | .executing | .verifying => some .needsReconciliation
  | _ => none

def recoverAction (now : DateTime) (stored : ActionRecord) : Async Unit := do
  match recoveredStatus stored now with
  | none => return ()
  | some next =>
      let status ← Async.ofResult (transition stored.status next)
      let action := stored.moveTo status now
      Async.write (.putAction action)
      let _ ← (append action.threadId none (actionUpdated deployment action)).attempt
      return ()

def recoverTurn (turn : TurnRecord) : Async (Option RecoveryReport) := do
  let _ ← (Async.write (.forceReleaseTurnLease turn.id)).attempt
  match ← Async.read (.lastCheckpoint turn.id) with
  | none =>
      let now ← Async.ask .now
      Async.write (.upsertTurn (turnRecord turn.id turn.threadId .interrupted none
        turn.lastCheckpointId turn.createdAt now))
      return none
  | some checkpoint =>
      let events ← Async.read (.eventsAfter turn.threadId 0)
      let report := classifyCheckpoint checkpoint events
      let now ← Async.ask .now
      Async.write (.upsertTurn (turnRecord turn.id turn.threadId report.status none
        (some checkpoint.checkpointId) turn.createdAt now))
      return some report

def recoverTurns : List TurnRecord → Async (List RecoveryReport)
  | [] => return []
  | turn :: turns => do
      let report ← recoverTurn turn
      let reports ← recoverTurns turns
      return report.toList ++ reports

def recover : Async (List RecoveryReport) := do
  let now ← Async.ask .now
  let approvals ← Async.read .listPendingApprovals
  Effect.Fallible.forEach (expireApproval now) approvals
  let actions ← Async.read .listActionRecoveryCandidates
  Effect.Fallible.forEach (recoverAction deployment now) actions
  let turns ← Async.read .listOpenTurns
  recoverTurns turns

end Recover

end

end OpsCodex.Runtime
