import OpsCodex.Runtime.Frame

/-! The operations on turns as concurrent callers of one runtime. -/

set_option autoImplicit false

namespace OpsCodex.Turn

open OpsCodex.Extensions OpsCodex.Store OpsCodex.Runtime

/-- The calls a process can make on its agent runtime. -/
inductive Job where
  | runTurn (threadId : ThreadId) (turnId : TurnId) (input : TurnInput)
  | resumeTurn (turnId : TurnId) (idempotencyKey : Option String)
  | recover
  | resolveApproval (id : ApprovalId) (approved : Bool)

inductive Returned where
  | done
  | report (report : RecoveryReport)
  | reports (reports : List RecoveryReport)

def Job.run (deployment : Deployment) : Job → Async Returned
  | .runTurn threadId turnId input =>
      (fun _ => .done) <$> Runtime.runTurn deployment threadId turnId input
  | .resumeTurn turnId idempotencyKey =>
      .report <$> Runtime.resumeTurn deployment turnId idempotencyKey
  | .recover => .reports <$> Runtime.recover deployment
  | .resolveApproval id approved => (fun _ => .done) <$> Runtime.resolveApproval id approved

def system (deployment : Deployment) : Effect.System serviceInterface where
  State := World
  Choice := Choice
  perform := World.perform deployment.content deployment.codec
  Startup := Catalog
  restart := World.restart
  Job := Job
  Result := Result Returned
  program := fun job => (job.run deployment).run

abbrev Pool (deployment : Deployment) := Effect.Pool (system deployment)

abbrev Entry (deployment : Deployment) := Effect.Entry (system deployment)

/-- The calls that drive or classify turns; the user's decisions run beside them. -/
def Job.drives : Job → Bool
  | .resolveApproval .. => false
  | _ => true

/-- The call of a turn that a request starts the execution of. -/
def startedCall : Op → Option CallSite
  | .executeTool site _ _ _ _ => some site
  | _ => none

/-- How often the execution of a call was started. -/
def starts {deployment : Deployment} (site : CallSite) (trace : List (Entry deployment)) : Nat :=
  trace.countP fun entry => decide (startedCall entry.op = some site)

/-- Does a request start a tool that may not be run again? -/
def startsChange (world : World) : Op → Bool
  | .executeTool _ workspaceId _ name _ =>
      match world.process.catalog.toolsFor workspaceId with
      | .ok tools =>
          match tools.descriptor name with
          | .ok descriptor => !toolIsRetryable descriptor.effect descriptor.recovery
          | .error _ => false
      | .error _ => false
  | _ => false

/-- A tool that may not be run again was started for a call. -/
def Changed {deployment : Deployment} (site : CallSite) (trace : List (Entry deployment)) : Prop :=
  ∃ entry ∈ trace, startedCall entry.op = some site ∧ startsChange entry.before entry.op = true

/-- The log holds the proposal of a call. -/
def Proposed (site : CallSite) (db : Database) : Prop :=
  ∃ envelope ∈ db.events, envelope.turnId = some site.turnId ∧
    envelope.event.proposedCall = some site.callId

/-- The log holds the result of a call. -/
def Completed (site : CallSite) (db : Database) : Prop :=
  ∃ envelope ∈ db.events, envelope.turnId = some site.turnId ∧
    envelope.event.completedCall = some site.callId

/-! A deployment with two tools and one thread, and the steps of its calls. Its
digest is constant: nothing in a run of it compares two different preimages. -/

namespace Demo

def deployment : Deployment where
  config := {
    maxSteps := 2
    context := { maxItems := 0, maxTokens := 0, maxBytes := 0, maxEvidence := 0,
                 maxToolCalls := 0, maxCostMicros := 0 }
    inlineArtifactBytes := 0
    approvalTtl := 1000
    leaseTtl := 1000 }
  remediation := {
    enabled := false, productionSafe := false, demoFaultUrl := .ok (), approvalTtl := 1000
    operator := "operator" }
  content := .plain
  codec := { sha256Hex := fun _ => "digest", toVec := fun _ => [], toRfc3339 := fun _ => "" }

def descriptor (name : String) (effect : CapabilityEffect) : CapabilityDescriptor where
  id := name
  source := .builtin
  name := name
  description := ""
  inputSchema := .null
  outputSchema := none
  effect := effect
  targetRequirements := []
  timeoutSeconds := 30
  maxOutputBytes := 65536
  recovery := none
  provenance := { source := .builtin, version := "1", schemaHash := "schema",
                  binaryHash := none, origin := none }
  contentSensitivity := .internal
  enabled := true
  trustedLocal := false

/-- A command that needs the user's approval, and a read that does not. -/
def tools : ToolRegistry where
  descriptors
    | "exec" => some (descriptor "exec" .externalSideEffect)
    | "list" => some (descriptor "list" .observe)
    | _ => none
  schemas := []

def catalog : Catalog where
  workspaces := []
  tools := tools
  workspaceTools := []
  kube := []
  ownerId := 0
  killSwitch := false
  maxConcurrentTurns := 2

def thread : ThreadId := ⟨0⟩

def turn : TurnId := ⟨0⟩

def world : World where
  db := {
    threads := [{ id := thread, workspaceId := .default, status := .idle, title := none,
                  updatedAt := 0 }]
    events := [{
      schemaVersion := eventSchemaVersion, streamKind := .domain, eventId := ⟨0⟩, seq := 1
      workspaceId := .default, threadId := thread, turnId := none, itemId := none
      causationId := none, timestamp := 0, event := .threadCreated }]
    turns := [], checkpoints := [], approvals := [], leases := [], resumeOps := []
    actionPlans := [], actions := [], auditLog := [] }
  process := Process.boot catalog
  nextId := 1

def pool : Pool deployment := Effect.Pool.boot world

/-- A step whose clock reading follows from its position in the run. -/
abbrev Step := DateTime → Effect.Label (system deployment)

def labels (start : DateTime) (steps : List Step) : List (Effect.Label (system deployment)) :=
  steps.mapIdx fun position step => step (start + position)

def spawn (job : Job) : List Step := [fun _ => .spawn job]

def crash : List Step := [fun _ => .crash catalog]

/-- Requests of a caller that the store, the process or the clock answers. -/
def settle (caller count : Nat) : List Step :=
  List.replicate count fun clock => .perform caller (.settle clock)

def model (caller : Nat) (outputs : List ModelOutput) : List Step :=
  [fun _ => .perform caller (.model { deltas := [], ending := .finished (.ok outputs) })]

def tool (caller : Nat) (ending : ToolEnding) : List Step :=
  [fun _ => .perform caller (.tool ending)]

def call (callId name : String) : ModelOutput := .toolCall callId name .null

def run : List Step := spawn (.runTurn thread turn { content := "", incidentContext := none })

def resume : List Step := spawn (.resumeTurn turn none)

end Demo

end OpsCodex.Turn
