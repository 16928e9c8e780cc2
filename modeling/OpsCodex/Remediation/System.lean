import OpsCodex.Runtime.Frame

/-! The remediation operations as concurrent callers of one runtime. -/

set_option autoImplicit false

namespace OpsCodex.Remediation

open OpsCodex.Json OpsCodex.Action OpsCodex.Store OpsCodex.Runtime

/-- The calls a process can make on its remediation runtime. -/
inductive Job where
  | propose (threadId : ThreadId) (kind : String) (parameters : Value)
      (claimIds : List ClaimId)
  | approve (actionId : ActionId) (requestHash : String) (approved : Bool)
  | execute (actionId : ActionId)
  | recover
  | setKillSwitch (enabled : Bool)

inductive Returned where
  | action (record : ActionRecord)
  | reports (reports : List RecoveryReport)
  | done

def Job.run (deployment : Deployment) : Job → Async Returned
  | .propose threadId kind parameters claimIds =>
      .action <$> proposeActionPlan deployment threadId kind parameters claimIds
  | .approve actionId requestHash approved =>
      .action <$> approveAction deployment actionId requestHash approved
  | .execute actionId => .action <$> executeAction deployment actionId
  | .recover => .reports <$> Runtime.recover deployment
  | .setKillSwitch enabled => (fun _ => .done) <$> Runtime.setKillSwitch enabled

def system (deployment : Deployment) : Effect.System serviceInterface where
  State := World
  Choice := Choice
  perform := World.perform deployment.content deployment.codec
  Startup := Catalog
  restart := World.restart
  Job := Job
  Result := Result Returned
  program := fun job => (job.run deployment).run

abbrev Pool (deployment : Deployment) := Effect.Pool (system deployment)

/-- A process that starts on a store without actions. -/
def Boots (deployment : Deployment) (pool : Pool deployment) : Prop :=
  ∃ world : World, world.db.actions = [] ∧ pool = Effect.Pool.boot world

/-- A step without a crash and without a fault of the store. -/
def undisturbed {deployment : Deployment} : Effect.Label (system deployment) → Bool
  | .crash _ | .perform _ (.fault _) | .perform _ (.partialFault _) => false
  | _ => true

/-- An answered start of the non-dry-run runner of an action. -/
def startedRunner : Op → Option ActionId
  | .startRunner action false => some action.actionId
  | _ => none

/-- How often the non-dry-run runner of an action was started. -/
def starts {deployment : Deployment} (actionId : ActionId)
    (trace : List (Effect.Entry (system deployment))) : Nat :=
  trace.countP fun entry => decide (startedRunner entry.op = some actionId)

/-- The action that a request claimed, if it is a successful claim. -/
def claimedBy : (op : Op) → op.Answer → Option ActionRecord
  | .command (.claimActionForExecution _ _), .ok claimed => claimed
  | _, _ => none

/-- How often an action was claimed for execution. -/
def claims {deployment : Deployment} (actionId : ActionId)
    (trace : List (Effect.Entry (system deployment))) : Nat :=
  trace.countP fun entry =>
    decide ((claimedBy entry.op entry.answer).map ActionRecord.actionId = some actionId)

/-! A deployment with one demo workspace, and the steps of its calls. Its digest
is constant: nothing in a run of it compares two different preimages. -/

namespace Demo

def deployment : Deployment where
  config := {
    maxSteps := 1
    context := { maxItems := 0, maxTokens := 0, maxBytes := 0, maxEvidence := 0,
                 maxToolCalls := 0, maxCostMicros := 0 }
    inlineArtifactBytes := 0
    approvalTtl := 0
    leaseTtl := 0 }
  remediation := {
    enabled := true, productionSafe := false, demoFaultUrl := .ok (), approvalTtl := 1
    operator := "operator" }
  content := .plain
  codec := { sha256Hex := fun _ => "digest", toVec := fun _ => [], toRfc3339 := fun _ => "" }

def workspace : WorkspaceId := ⟨"local-demo"⟩

def thread : ThreadId := ⟨0⟩

def catalog : Catalog where
  workspaces := [(workspace, { allowRemediation := true, maxEffect := none })]
  tools := { descriptors := fun _ => none, schemas := [] }
  workspaceTools := []
  kube := []
  ownerId := 0
  killSwitch := false
  maxConcurrentTurns := 1

def world : World where
  db := {
    threads := [{ id := thread, workspaceId := workspace, status := .idle, title := none,
                  updatedAt := 0 }]
    events := [{
      schemaVersion := eventSchemaVersion, streamKind := .domain, eventId := ⟨0⟩, seq := 1
      workspaceId := workspace, threadId := thread, turnId := none, itemId := none
      causationId := none, timestamp := 0, event := .threadCreated }]
    turns := [], checkpoints := [], approvals := [], leases := [], resumeOps := []
    actionPlans := [], actions := [], auditLog := [] }
  process := Process.boot catalog
  nextId := 1

def pool : Pool deployment := Effect.Pool.boot world

theorem boots : Boots deployment pool := ⟨world, rfl, rfl⟩

/-- The action that the first proposal creates. -/
def action : ActionId := ⟨1⟩

abbrev Step := Effect.Label (system deployment)

def spawn (job : Job) : Step := .spawn job

/-- A caller's request is answered by the store, the process or the clock. -/
def settle (caller : Nat) : Step := .perform caller (.settle 0)

def reply (caller : Nat) : Step := .perform caller (.cluster (.ok (.object [])))

def propose (caller : Nat) : List Step :=
  spawn (.propose thread Action.demoFaultTool (.object []) []) ::
    List.replicate 7 (settle caller) ++ [reply caller] ++ List.replicate 5 (settle caller)

def crash : Step := .crash catalog

def approval : Step := spawn (.approve action "digest" true)

/-- An approval up to the write of its record, and the rest of it. -/
def weigh (caller : Nat) : List Step := List.replicate 3 (settle caller)

def decide (caller : Nat) : List Step := List.replicate 3 (settle caller)

/-- An execution up to and including the start of its runner. -/
def execute (caller : Nat) : List Step :=
  spawn (.execute action) :: List.replicate 8 (settle caller)

end Demo

end OpsCodex.Remediation
