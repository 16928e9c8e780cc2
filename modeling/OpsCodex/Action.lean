import OpsCodex.Extensions.Capability
import OpsCodex.Policy

/-! Remediation actions: their life cycle, request hash and policy. -/

set_option autoImplicit false

namespace OpsCodex.Action

open OpsCodex.Json OpsCodex.Runtime OpsCodex.Extensions OpsCodex.Policy

def demoFaultTool : String := "demo_fault_reset"

def k8sScaleTool : String := "k8s_scale"

def toolVersion : String := "1.0.0"

inductive ActionStatus where
  | proposed
  | policyDenied
  | dryRun
  | invalid
  | awaitingApproval
  | expired
  | rejected
  | authorized
  | preconditionCheck
  | stale
  | executing
  | verifying
  | succeeded
  | verificationFailed
  | rollbackProposed
  | needsReconciliation
  deriving DecidableEq, Repr

namespace ActionStatus

def asStr : ActionStatus → String
  | .proposed => "proposed"
  | .policyDenied => "policy_denied"
  | .dryRun => "dry_run"
  | .invalid => "invalid"
  | .awaitingApproval => "awaiting_approval"
  | .expired => "expired"
  | .rejected => "rejected"
  | .authorized => "authorized"
  | .preconditionCheck => "precondition_check"
  | .stale => "stale"
  | .executing => "executing"
  | .verifying => "verifying"
  | .succeeded => "succeeded"
  | .verificationFailed => "verification_failed"
  | .rollbackProposed => "rollback_proposed"
  | .needsReconciliation => "needs_reconciliation"

def isTerminal : ActionStatus → Bool
  | .policyDenied | .invalid | .expired | .rejected | .stale | .succeeded
  | .rollbackProposed | .needsReconciliation => true
  | _ => false

def canTransition : ActionStatus → ActionStatus → Bool
  | .proposed, .policyDenied | .proposed, .dryRun => true
  | .dryRun, .awaitingApproval | .dryRun, .invalid => true
  | .awaitingApproval, .expired | .awaitingApproval, .rejected
  | .awaitingApproval, .authorized => true
  | .authorized, .expired | .authorized, .preconditionCheck => true
  | .preconditionCheck, .stale | .preconditionCheck, .executing
  | .preconditionCheck, .needsReconciliation => true
  | .executing, .verifying | .executing, .needsReconciliation => true
  | .verifying, .succeeded | .verifying, .verificationFailed
  | .verifying, .needsReconciliation => true
  | .verificationFailed, .rollbackProposed => true
  | _, _ => false

/-- A terminal status has no way out. -/
theorem not_canTransition_of_isTerminal {status : ActionStatus}
    (terminal : status.isTerminal = true) (next : ActionStatus) :
    status.canTransition next = false := by
  cases status <;> first | rfl | cases terminal

end ActionStatus

def transition (source target : ActionStatus) : Result ActionStatus :=
  if source.canTransition target then .ok target
  else .error (.protocol s!"illegal action transition {source.asStr} -> {target.asStr}")

structure ActionRecord where
  actionId : ActionId
  planId : PlanId
  workspaceId : WorkspaceId
  threadId : ThreadId
  toolId : String
  toolVersion : String
  schemaHash : String
  effect : String
  normalizedTarget : String
  normalizedParameters : Value
  preconditions : List String
  expectedEffect : String
  dryRunResult : Option String
  verificationSpec : String
  rollbackSpec : Option String
  blastRadius : String
  operationId : String
  requestHash : String
  status : ActionStatus
  approvalId : Option ApprovalId
  consumedApproval : Bool
  expiresAt : DateTime
  updatedAt : DateTime

/-- The record at a new status and update time. -/
def ActionRecord.moveTo (action : ActionRecord) (status : ActionStatus) (updatedAt : DateTime) :
    ActionRecord :=
  { action with status := status, updatedAt := updatedAt }

@[simp] theorem ActionRecord.moveTo_actionId (action : ActionRecord) (status : ActionStatus)
    (updatedAt : DateTime) : (action.moveTo status updatedAt).actionId = action.actionId := rfl

@[simp] theorem ActionRecord.moveTo_status (action : ActionRecord) (status : ActionStatus)
    (updatedAt : DateTime) : (action.moveTo status updatedAt).status = status := rfl

structure ActionPlan where
  planId : PlanId
  workspaceId : WorkspaceId
  threadId : ThreadId
  diagnosisClaimIds : List ClaimId
  actions : List ActionRecord
  createdAt : DateTime
  expiresAt : DateTime

/-- Encodings that come from libraries: digests, JSON text and timestamps. -/
structure Codec where
  sha256Hex : List UInt8 → String
  toVec : Value → List UInt8
  toRfc3339 : DateTime → String

def ActionRecord.reviewSummary (codec : Codec) (action : ActionRecord) : Value :=
  .object [
    ("action_id", .string (toString action.actionId)),
    ("tool_id", .string action.toolId),
    ("tool_version", .string action.toolVersion),
    ("effect", .string action.effect),
    ("target", .string action.normalizedTarget),
    ("parameters", action.normalizedParameters),
    ("preconditions", .ofStrings action.preconditions),
    ("expected_effect", .string action.expectedEffect),
    ("dry_run", .ofOption .string action.dryRunResult),
    ("verification", .string action.verificationSpec),
    ("rollback", .ofOption .string action.rollbackSpec),
    ("blast_radius", .string action.blastRadius),
    ("operation_id", .string action.operationId),
    ("request_hash", .string action.requestHash),
    ("expires_at", .string (codec.toRfc3339 action.expiresAt)),
    ("status", .string action.status.asStr)]

section Hash

def utf8 (text : String) : List UInt8 := text.toUTF8.toList

/-- The eight bytes of a length, most significant first. -/
def lengthBytes (length : Nat) : List UInt8 :=
  [7, 6, 5, 4, 3, 2, 1, 0].map fun place => UInt8.ofNat (length / 256 ^ place)

def lengthPrefixed (value : List UInt8) : List UInt8 := lengthBytes value.length ++ value

def hashField (name value : List UInt8) : List UInt8 :=
  lengthPrefixed name ++ lengthPrefixed value

def hashStringList (name : List UInt8) (values : List String) : List UInt8 :=
  lengthPrefixed name ++ lengthBytes values.length ++
    values.flatMap fun value => lengthPrefixed (utf8 value)

def hashOptionalField (name : List UInt8) : Option (List UInt8) → List UInt8
  | some value => lengthPrefixed name ++ [1] ++ lengthPrefixed value
  | none => lengthPrefixed name ++ [0]

def canonicalPreimage (domain : String) : List UInt8 :=
  utf8 "opscodex/hash-preimage/v1" ++ lengthPrefixed (utf8 domain)

def actionRequestPreimage (codec : Codec) (action : ActionRecord) : List UInt8 :=
  canonicalPreimage "action-request" ++
  hashField (utf8 "workspace_id") (utf8 action.workspaceId.asStr) ++
  hashField (utf8 "tool_id") (utf8 action.toolId) ++
  hashField (utf8 "tool_version") (utf8 action.toolVersion) ++
  hashField (utf8 "schema_hash") (utf8 action.schemaHash) ++
  hashField (utf8 "normalized_target") (utf8 action.normalizedTarget) ++
  hashField (utf8 "normalized_parameters") (codec.toVec action.normalizedParameters) ++
  hashStringList (utf8 "preconditions") action.preconditions ++
  hashField (utf8 "verification_spec") (utf8 action.verificationSpec) ++
  hashField (utf8 "effect") (utf8 action.effect) ++
  hashField (utf8 "operation_id") (utf8 action.operationId) ++
  hashField (utf8 "expires_at") (utf8 (codec.toRfc3339 action.expiresAt))

def actionRequestHash (codec : Codec) (action : ActionRecord) : String :=
  codec.sha256Hex (actionRequestPreimage codec action)

def auditRecordHash (codec : Codec) (previousHash actor : String)
    (workspaceId : Option String) (operation : String) (summary : Value)
    (createdAt : DateTime) : String :=
  codec.sha256Hex (canonicalPreimage "audit-record" ++
    hashField (utf8 "previous_hash") (utf8 previousHash) ++
    hashField (utf8 "actor") (utf8 actor) ++
    hashOptionalField (utf8 "workspace_id") (workspaceId.map utf8) ++
    hashField (utf8 "operation") (utf8 operation) ++
    hashField (utf8 "summary") (codec.toVec summary) ++
    hashField (utf8 "created_at") (utf8 (codec.toRfc3339 createdAt)))

end Hash

/-- The parameter schema of a remediation tool. -/
def schemaFor (toolId : String) : Value :=
  if toolId = demoFaultTool then
    .object [
      ("type", .string "object"),
      ("required", .ofStrings ["service", "mode"]),
      ("properties", .object [
        ("service", .object [("const", .string "order-service")]),
        ("mode", .object [("const", .string "normal")])])]
  else if toolId = k8sScaleTool then
    .object [
      ("type", .string "object"),
      ("required", .ofStrings ["kind", "namespace", "name", "replicas"]),
      ("properties", .object [
        ("kind", .object [("enum", .ofStrings ["Deployment", "StatefulSet"])]),
        ("namespace", .object [("type", .string "string")]),
        ("name", .object [("type", .string "string")]),
        ("replicas", .object [("type", .string "integer"),
          ("minimum", .number (.posInt 1)), ("maximum", .number (.posInt 16))])])]
  else .object [("type", .string "object")]

def schemaHashFor (codec : Codec) (toolId : String) : String :=
  codec.sha256Hex (codec.toVec (schemaFor toolId))

def isExtensionTool (toolId : String) : Bool :=
  "mcp/".toList.isPrefixOf toolId.toList || "custom/".toList.isPrefixOf toolId.toList

def denyExtensionRemediation (toolId : String) : Bool :=
  isExtensionTool toolId || toolId = "exec"

structure ActionPolicyInput where
  workspaceId : WorkspaceId
  allowRemediation : Bool
  maxEffect : Option CapabilityEffect
  toolId : String
  effect : CapabilityEffect
  productionSafe : Bool
  killSwitch : Bool
  remediationEnabled : Bool

def evaluateAction (input : ActionPolicyInput) : PolicyDecision :=
  if input.killSwitch || !input.remediationEnabled || !input.allowRemediation then .deny
  else if denyExtensionRemediation input.toolId then .deny
  else if input.maxEffect = some .observe ∧ input.effect ≠ .observe then .deny
  else
    match input.effect with
    | .observe => .allow
    | .changeReversible => .ask
    | .changeIrreversible | .externalSideEffect => .deny

/-- What a dry run or an execution of a remediation tool reports. -/
structure ExecutionOutcome where
  committed : Bool
  verified : Bool
  uncertain : Bool
  before : Value
  after : Value
  message : String

end OpsCodex.Action
