import OpsCodex.Runtime.Service

/-! Structured remediation: proposing, approving and executing actions. -/

set_option autoImplicit false

namespace OpsCodex.Runtime

open OpsCodex.Json OpsCodex.Evidence OpsCodex.Extensions OpsCodex.Policy OpsCodex.Action
open OpsCodex.Store

structure RuntimeConfig where
  maxSteps : Nat
  context : ContextBudget
  inlineArtifactBytes : Nat
  approvalTtl : Duration
  leaseTtl : Duration

/-- The remediation settings of a process. `demoFaultUrl` is the outcome of
validating the configured loopback URL. -/
structure RemediationSettings where
  enabled : Bool
  productionSafe : Bool
  demoFaultUrl : Result Unit
  approvalTtl : Duration
  operator : String

/-- Everything a runtime is built with. -/
structure Deployment where
  config : RuntimeConfig
  remediation : RemediationSettings
  content : Content
  codec : Codec

def requiredStr (value : Value) (key : String) : Result String :=
  match (value.get? key).bind Value.asStr? with
  | some text => .ok text
  | none => .error (.protocol s!"{key} required")

/-- What an action kind fixes about an action. -/
structure ActionShape where
  target : String
  params : Value
  effect : String
  expected : String
  verification : String
  blast : String
  preconditions : List String

def demoFaultShape (workspaceId : WorkspaceId) (parameters : Value) : Result ActionShape :=
  if workspaceId.asStr ≠ "local-demo" then
    .error (.policy "demo_fault_reset is only registered in the local-demo workspace")
  else if ((parameters.get? "service").bind Value.asStr?).getD "order-service" ≠
      "order-service" then
    .error (.policy "demo_fault_reset target must be order-service")
  else if ((parameters.get? "mode").bind Value.asStr?).getD "normal" ≠ "normal" then
    .error (.policy "demo_fault_reset can only set mode=normal")
  else .ok {
    target := "demo:order-service"
    params := .object [("service", .string "order-service"), ("mode", .string "normal")]
    effect := CapabilityEffect.changeReversible.asStr
    expected := "Set demo fault mode to normal"
    verification := "GET /health returns status=ok and mode=normal"
    blast := "single local demo container"
    preconditions := ["loopback-only"] }

def k8sScaleShape (parameters : Value) : Result ActionShape := do
  let kind ← requiredStr parameters "kind"
  if kind ≠ "Deployment" ∧ kind ≠ "StatefulSet" then
    throw (.policy "k8s_scale only supports Deployment or StatefulSet")
  else
    let namespaceName ← requiredStr parameters "namespace"
    let name ← requiredStr parameters "name"
    match (parameters.get? "replicas").bind Value.asU64? with
    | none => throw (.protocol "replicas required")
    | some replicas =>
        if replicas < 1 ∨ 16 < replicas then
          throw (.policy "k8s_scale replicas must be between 1 and 16")
        else
          return {
            target := s!"k8s:{namespaceName}/{kind}/{name}"
            params := .object [("kind", .string kind), ("namespace", .string namespaceName),
              ("name", .string name), ("replicas", .number (.posInt replicas))]
            effect := CapabilityEffect.changeReversible.asStr
            expected := s!"Scale {kind}/{name} to {replicas}"
            verification := "desired and available replicas match the approved count"
            blast := s!"one {kind} in {namespaceName}"
            preconditions := [] }

def actionShape (workspaceId : WorkspaceId) (kind : String) (parameters : Value) :
    Result ActionShape :=
  if kind = demoFaultTool then demoFaultShape workspaceId parameters
  else if kind = k8sScaleTool then k8sScaleShape parameters
  else .error (.protocol s!"unsupported remediation kind `{kind}`")

/-- The text after a prefix in the first precondition that has it. -/
def preconditionValue (label : String) (preconditions : List String) : Option String :=
  preconditions.findSome? fun item =>
    if label.toList.isPrefixOf item.toList then
      some (String.ofList (item.toList.drop label.length))
    else none

def metadataString (object : Value) (field : String) : String :=
  ((object.pointer? ["metadata", field]).bind Value.asStr?).getD ""

def replicasAt (object : Value) (path : List String) : UInt64 :=
  ((object.pointer? path).bind Value.asU64?).getD 0

def dryRunPreconditions (kind : String) (before : Value) : List String :=
  if kind ≠ k8sScaleTool then []
  else [
    "uid=" ++ metadataString before "uid",
    "resourceVersion=" ++ metadataString before "resourceVersion",
    "previousReplicas=" ++ toString (replicasAt before ["spec", "replicas"])]

def rollbackSpec (action : ActionRecord) : String :=
  if action.toolId = k8sScaleTool then
    let previous := (preconditionValue "previousReplicas=" action.preconditions).getD "unknown"
    s!"propose a new scale action back to {previous} replicas; do not auto-execute"
  else "re-diagnose and propose a new action; rollback is never automatic"

section

variable (deployment : Deployment)

def buildAction (threadId : ThreadId) (workspaceId : WorkspaceId) (kind : String)
    (parameters : Value) : Async ActionRecord := do
  let now ← Async.ask .now
  let expiresAt := now + fromStd deployment.remediation.approvalTtl (seconds 1800)
  let shape ← Async.ofResult (actionShape workspaceId kind parameters)
  let actionId ← Async.ask .newId
  let planId ← Async.ask .newId
  let action : ActionRecord := {
    actionId := ⟨actionId⟩
    planId := ⟨planId⟩
    workspaceId := workspaceId
    threadId := threadId
    toolId := kind
    toolVersion := toolVersion
    schemaHash := schemaHashFor deployment.codec kind
    effect := shape.effect
    normalizedTarget := shape.target
    normalizedParameters := shape.params
    preconditions := shape.preconditions
    expectedEffect := shape.expected
    dryRunResult := none
    verificationSpec := shape.verification
    rollbackSpec := none
    blastRadius := shape.blast
    operationId := s!"{actionId}:1"
    requestHash := ""
    status := .proposed
    approvalId := none
    consumedApproval := false
    expiresAt := expiresAt
    updatedAt := now }
  return { action with requestHash := actionRequestHash deployment.codec action }

def persistAction (action : ActionRecord) (claimIds : List ClaimId) : Async Unit := do
  Async.write (.putActionPlan {
    planId := action.planId
    workspaceId := action.workspaceId
    threadId := action.threadId
    diagnosisClaimIds := claimIds
    actions := [action]
    createdAt := action.updatedAt
    expiresAt := action.expiresAt })
  Async.write (.putAction action)

def actionUpdated (action : ActionRecord) : RuntimeEvent :=
  .actionUpdated action.actionId action.planId action.status.asStr action.toolId
    action.requestHash (action.reviewSummary deployment.codec)

def append (threadId : ThreadId) (turnId : Option TurnId) (event : RuntimeEvent) :
    Async EventEnvelope :=
  Async.write (.appendEvent {
    threadId := threadId, turnId := turnId, itemId := none, causationId := none,
    streamKind := none, event := event })

def emitAction (threadId : ThreadId) (action : ActionRecord) : Async EventEnvelope :=
  append threadId none (actionUpdated deployment action)

def audit (operation : String) (workspaceId : Option String) (summary : Value) : Async Unit :=
  Async.write (.appendAudit deployment.remediation.operator workspaceId operation summary)

def kubeFor (workspaceId : WorkspaceId) : Async Unit := do
  let catalog ← Async.ask .catalog
  if workspaceId ∈ catalog.kube then return ()
  else
    throw (.policy
      s!"workspace {workspaceId.asStr} has no remediation Kubernetes client")

def isUnknownResult : OpsCodexError → Bool
  | .timeout _ | .cancelled => true
  | _ => false

def executeDemoFault (dryRun : Bool) : Async ExecutionOutcome := do
  Async.ofResult deployment.remediation.demoFaultUrl
  let health ← Async.demoHealth
  let beforeMode := ((health.get? "mode").bind Value.asStr?).getD "unknown"
  if dryRun then
    return {
      committed := false, verified := false, uncertain := false
      before := health
      after := .object [("would_set", .string "normal")]
      message := s!"dry-run would POST /debug/fault/normal (current mode {beforeMode})" }
  else
    match ← Async.demoReset.attempt with
    | .error error =>
        if isUnknownResult error then
          return {
            committed := false, verified := false, uncertain := true
            before := health
            after := .object [("error", .string error.toString)]
            message := "demo fault reset result is unknown" }
        else throw error
    | .ok posted =>
        let after ← Async.demoHealth
        let ok := decide ((after.get? "status").bind Value.asStr? = some "ok" ∧
          (after.get? "mode").bind Value.asStr? = some "normal")
        return {
          committed := true, verified := ok, uncertain := false
          before := health
          after := .object [("reset", posted), ("health", after)]
          message := if ok then "demo fault reset verified"
            else "demo fault reset did not reach healthy normal mode" }

def executeK8sScale (workspaceId : WorkspaceId) (kind namespaceName name : String)
    (replicas : UInt32) (resourceVersion uid operationId : String) (dryRun : Bool) :
    Async ExecutionOutcome := do
  let before ← Async.getWorkload workspaceId kind namespaceName name
  let currentUid := metadataString before "uid"
  let currentRv := metadataString before "resourceVersion"
  if !dryRun && decide (currentUid ≠ uid ∨ currentRv ≠ resourceVersion) then
    throw (.policy "kubernetes target changed; resourceVersion/UID precondition failed")
  else
    let patchRv := if resourceVersion.isEmpty then currentRv else resourceVersion
    match ← (Async.patchReplicas workspaceId kind namespaceName name replicas patchRv
        operationId dryRun).attempt with
    | .error error =>
        if isUnknownResult error then
          return {
            committed := false, verified := false, uncertain := true
            before := before
            after := .object [("error", .string error.toString)]
            message := "kubernetes scale result is unknown" }
        else throw error
    | .ok patched =>
        if dryRun then
          return {
            committed := false, verified := false, uncertain := false
            before := before
            after := patched
            message := s!"dry-run scale {kind}/{name} to {replicas}" }
        else
          let after ← Async.getWorkload workspaceId kind namespaceName name
          let desired := replicasAt after ["spec", "replicas"]
          let available := replicasAt after ["status", "availableReplicas"]
          let verified := decide (desired = replicas.toUInt64 ∧ available = replicas.toUInt64)
          return {
            committed := true, verified := verified, uncertain := false
            before := before
            after := after
            message := if verified then s!"scaled {kind}/{name} to {replicas}"
              else s!"scale of {kind}/{name} did not reach available replicas" }

/-- Run the tool of an action. The first request marks the start of the runner
in the history. -/
def runAction (action : ActionRecord) (dryRun : Bool) : Async ExecutionOutcome := do
  Async.ask (.startRunner action dryRun)
  if action.toolId = demoFaultTool then executeDemoFault deployment dryRun
  else if action.toolId = k8sScaleTool then
    kubeFor action.workspaceId
    let kind ← Async.ofResult (requiredStr action.normalizedParameters "kind")
    let namespaceName ← Async.ofResult (requiredStr action.normalizedParameters "namespace")
    let name ← Async.ofResult (requiredStr action.normalizedParameters "name")
    match (action.normalizedParameters.get? "replicas").bind Value.asU64? with
    | none => throw (.protocol "replicas required")
    | some replicas =>
        executeK8sScale action.workspaceId kind namespaceName name replicas.toUInt32
          ((preconditionValue "resourceVersion=" action.preconditions).getD "")
          ((preconditionValue "uid=" action.preconditions).getD "")
          action.operationId dryRun
  else throw (.policy s!"`{action.toolId}` is not a structured remediation action")

def checkPreconditions (action : ActionRecord) : Async Unit := do
  if action.toolId = k8sScaleTool then
    kubeFor action.workspaceId
    let kind ← Async.ofResult (requiredStr action.normalizedParameters "kind")
    let namespaceName ← Async.ofResult (requiredStr action.normalizedParameters "namespace")
    let name ← Async.ofResult (requiredStr action.normalizedParameters "name")
    let snapshot ← Async.getWorkload action.workspaceId kind namespaceName name
    let uid := metadataString snapshot "uid"
    let rv := metadataString snapshot "resourceVersion"
    let expectedUid := (preconditionValue "uid=" action.preconditions).getD ""
    let expectedRv := (preconditionValue "resourceVersion=" action.preconditions).getD ""
    if uid ≠ expectedUid ∨ rv ≠ expectedRv then
      throw (.policy "kubernetes target changed; refusing to execute stale approval")
    else return ()
  else return ()

/-- Keep an action's status change, at a clock reading. -/
def moveTo (action : ActionRecord) (source target : ActionStatus) : Async ActionRecord := do
  let status ← Async.ofResult (transition source target)
  let now ← Async.ask .now
  return action.moveTo status now

def proposeActionPlan (threadId : ThreadId) (kind : String) (parameters : Value)
    (claimIds : List ClaimId) : Async ActionRecord := do
  let thread ← Async.read (.getThread threadId)
  let catalog ← Async.ask .catalog
  let workspace ← (if catalog.workspaces.isEmpty then pure none
    else some <$> Async.ofResult (catalog.require thread.workspaceId) :
      Async (Option WorkspaceSettings))
  let action ← buildAction deployment threadId thread.workspaceId kind parameters
  let effect ← Async.ofResult (CapabilityEffect.parse action.effect)
  let killSwitch ← Async.ask .killSwitchEnabled
  let decision := evaluateAction {
    workspaceId := thread.workspaceId
    allowRemediation := workspace.any WorkspaceSettings.allowRemediation
    maxEffect := workspace.bind WorkspaceSettings.maxEffect
    toolId := action.toolId
    effect := effect
    productionSafe := deployment.remediation.productionSafe
    killSwitch := killSwitch
    remediationEnabled := deployment.remediation.enabled }
  if denyExtensionRemediation action.toolId || decide (decision = .deny) then
    let denied := { action with status := .policyDenied }
    persistAction denied claimIds
    audit deployment "action.policy_denied" (some thread.workspaceId.asStr)
      (denied.reviewSummary deployment.codec)
    let _ ← emitAction deployment threadId denied
    throw (.policy "remediation is denied by policy, kill switch, or workspace settings")
  else
    let status ← Async.ofResult (transition .proposed .dryRun)
    let action := { action with status := status }
    let dry ← runAction deployment action true
    if dry.uncertain then
      let invalid := { action with status := .invalid, dryRunResult := some dry.message }
      persistAction invalid claimIds
      let _ ← emitAction deployment threadId invalid
      throw (.tool dry.message)
    else
      let action := { action with
        dryRunResult := some dry.message
        preconditions := action.preconditions ++ dryRunPreconditions kind dry.before }
      let action := { action with requestHash := actionRequestHash deployment.codec action }
      let status ← Async.ofResult (transition .dryRun .awaitingApproval)
      let approvalId ← Async.ask .newId
      let action := { action with status := status, approvalId := some ⟨approvalId⟩ }
      persistAction action claimIds
      audit deployment "action.awaiting_approval" (some thread.workspaceId.asStr)
        (action.reviewSummary deployment.codec)
      let _ ← emitAction deployment threadId action
      return action

def expireIfNeeded (action : ActionRecord) : Async ActionRecord := do
  if action.status = .awaitingApproval then
    let now ← Async.ask .now
    if action.expiresAt ≤ now then
      let action ← moveTo action .awaitingApproval .expired
      Async.write (.putAction action)
      return action
    else return action
  else return action

def approveAction (actionId : ActionId) (requestHash : String) (approved : Bool) :
    Async ActionRecord := do
  match ← Async.read (.getAction actionId) with
  | none => throw (.notFound s!"action {actionId}")
  | some stored =>
      let action ← expireIfNeeded stored
      if action.status ≠ .awaitingApproval then
        throw (.policy s!"action {action.actionId} is {action.status.asStr}")
      else if action.consumedApproval then
        throw (.policy "approval was already consumed")
      else
        let current := actionRequestHash deployment.codec action
        if current ≠ action.requestHash ∨ current ≠ requestHash then
          throw (.policy "approval request hash mismatch; refusing to bind approval")
        else
          let action ← moveTo
            { action with consumedApproval := approved || action.consumedApproval }
            .awaitingApproval (if approved then .authorized else .rejected)
          Async.write (.putAction action)
          audit deployment (if approved then "action.authorized" else "action.rejected")
            (some action.workspaceId.asStr) (action.reviewSummary deployment.codec)
          let _ ← emitAction deployment action.threadId action
          return action

/-- The summary that the audit log keeps of an execution. -/
def executionSummary (action : ActionRecord) (committed : Value) (message : String) : Value :=
  .object [
    ("action_id", .string (toString action.actionId)),
    ("status", .string action.status.asStr),
    ("request_hash", .string action.requestHash),
    ("committed", committed),
    ("message", .string message)]

/-- Where an execution that returned an outcome leaves the action. -/
def settledStatus (outcome : ExecutionOutcome) : Result ActionStatus :=
  if outcome.uncertain then transition .executing .needsReconciliation
  else do
    let begun ← transition .executing .verifying
    let checked ← transition begun
      (if outcome.verified then .succeeded else .verificationFailed)
    if checked = .verificationFailed then transition .verificationFailed .rollbackProposed
    else return checked

/-- Execute an action that this call has claimed. -/
def executeClaimed (claimed : ActionRecord) : Async ActionRecord := do
  let _ ← emitAction deployment claimed.threadId claimed
  match ← (checkPreconditions claimed).attempt with
  | .error error =>
      let action ← moveTo claimed .preconditionCheck .stale
      Async.write (.putAction action)
      let _ ← emitAction deployment action.threadId action
      throw error
  | .ok () =>
      let action ← moveTo claimed .preconditionCheck .executing
      Async.write (.putAction action)
      let _ ← emitAction deployment action.threadId action
      match ← (runAction deployment action false).attempt with
      | .error error =>
          let message := s!"action runner failed after execution began: {error}"
          let action ← moveTo action .executing .needsReconciliation
          Async.write (.putAction action)
          audit deployment "action.needs_reconciliation" (some action.workspaceId.asStr)
            (executionSummary action .null message)
          let _ ← emitAction deployment action.threadId action
          throw (.needsReconciliation message)
      | .ok outcome =>
          (if outcome.committed then Async.ask .countMutation else pure () : Async Unit)
          let status ← Async.ofResult (settledStatus outcome)
          let now ← Async.ask .now
          let action := { action with
            rollbackSpec :=
              if status = ActionStatus.rollbackProposed then some (rollbackSpec action)
              else action.rollbackSpec }.moveTo status now
          Async.write (.putAction action)
          audit deployment s!"action.{action.status.asStr}" (some action.workspaceId.asStr)
            (executionSummary action (.bool outcome.committed) outcome.message)
          let _ ← emitAction deployment action.threadId action
          if action.status = .needsReconciliation then
            throw (.needsReconciliation outcome.message)
          else return action

def executeAction (actionId : ActionId) : Async ActionRecord := do
  let killSwitch ← Async.ask .killSwitchEnabled
  if killSwitch || !deployment.remediation.enabled then
    throw (.policy "kill switch is blocking change operations")
  else
    let now ← Async.ask .now
    match ← Async.write (.claimActionForExecution actionId now) with
    | some claimed => executeClaimed deployment claimed
    | none =>
        match ← Async.read (.getAction actionId) with
        | none => throw (.notFound s!"action {actionId}")
        | some action =>
            throw (.policy
              s!"action {action.actionId} is {action.status.asStr} and cannot be executed")

def setKillSwitch (enabled : Bool) : Async Unit := Async.ask (.setKillSwitch enabled)

end

end OpsCodex.Runtime
