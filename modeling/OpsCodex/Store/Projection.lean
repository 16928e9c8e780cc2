import OpsCodex.Store.Continuity

/-! What the store derives from an event: the thread's status and title. -/

set_option autoImplicit false

namespace OpsCodex.Action.ActionStatus

def parse (value : String) : Result ActionStatus :=
  let statuses : List ActionStatus := [
    .proposed, .policyDenied, .dryRun, .invalid, .awaitingApproval, .expired, .rejected,
    .authorized, .preconditionCheck, .stale, .executing, .verifying, .succeeded,
    .verificationFailed, .rollbackProposed, .needsReconciliation]
  match statuses.find? fun status => decide (status.asStr = value) with
  | some status => .ok status
  | none => .error (.protocol s!"unknown action status `{value}`")

theorem parse_asStr (status : ActionStatus) : parse status.asStr = .ok status := by
  cases status <;> rfl

end OpsCodex.Action.ActionStatus

namespace OpsCodex.Store

open OpsCodex.Json OpsCodex.Runtime OpsCodex.Action OpsCodex.Evidence

/-- Text and payload transformations whose results the runtime only stores,
forwards to the model or shows; nothing of what it decides depends on them. -/
structure Content where
  modelItemsFromEvents : List EventEnvelope → List ModelItem
  buildModelContext : List ModelItem → ContextBudget → List ModelItem
  contextInputHash : List ModelItem → String
  localSummary : List EventEnvelope → String
  composeInstructions : WorkspaceId → TurnInput → String
  parseDiagnosis : Uuid → String → Diagnosis
  validateIncident : IncidentContext → Result Unit
  redactJson : Value → Value
  valueText : Value → String
  summarizeValue : Value → Nat → String
  artifactTopologyProjection : String → Value → Option Value

/-- Transformations that change nothing. -/
def Content.plain : Content where
  modelItemsFromEvents := fun _ => []
  buildModelContext := fun items _ => items
  contextInputHash := fun _ => "context"
  localSummary := fun _ => ""
  composeInstructions := fun _ _ => ""
  parseDiagnosis := fun _ summary => {
    summary := summary, claims := [], recommendedActions := [], limitations := [] }
  validateIncident := fun _ => .ok ()
  redactJson := id
  valueText := fun _ => ""
  summarizeValue := fun _ _ => ""
  artifactTopologyProjection := fun _ _ => none

def titleFromEvent : RuntimeEvent → Option String
  | .userMessage content _ => some (String.ofList (content.toList.take 120))
  | _ => none

def statusAfter (status : ThreadStatus) : RuntimeEvent → ThreadStatus
  | .approvalRequired .. => .waitingApproval
  | .approvalResolved .. | .turnStarted => .running
  | .turnCompleted | .turnCancelled => .idle
  | .turnFailed _ => .failed
  | .actionUpdated _ _ actionStatus _ _ _ =>
      match ActionStatus.parse actionStatus with
      | .ok .awaitingApproval => .waitingApproval
      | .ok .needsReconciliation => .needsReconciliation
      | .ok actionStatus => if actionStatus.isTerminal then .idle else .running
      | .error _ => status
  | _ => status

end OpsCodex.Store
