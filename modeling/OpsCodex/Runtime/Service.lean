import OpsCodex.Effect.Pool
import OpsCodex.Store.Sqlite

/-! The runtime's service: every await point of the runtime as a request. A
request is answered by the store, by the memory of the process, or by the world
outside (the model, the tools, the clusters), whose answers are arbitrary. -/

set_option autoImplicit false

namespace OpsCodex.Runtime

open OpsCodex.Json OpsCodex.Evidence OpsCodex.Extensions OpsCodex.Policy OpsCodex.Action
open OpsCodex.Store

/-- Reads of the store. -/
inductive Query where
  | getThread (threadId : ThreadId)
  | eventsAfter (threadId : ThreadId) (afterSeq : Nat)
  | lastSeq (threadId : ThreadId)
  | modelContext (threadId : ThreadId) (budget : ContextBudget)
  | getTurn (turnId : TurnId)
  | listOpenTurns
  | lastCheckpoint (turnId : TurnId)
  | getApproval (id : ApprovalId)
  | listPendingApprovals
  | approvalForTurn (turnId : TurnId)
  | getAction (actionId : ActionId)
  | listActionRecoveryCandidates

namespace Query

abbrev Value : Query → Type
  | .getThread _ => Thread
  | .eventsAfter _ _ => List EventEnvelope
  | .lastSeq _ => Nat
  | .modelContext _ _ => List ModelItem
  | .getTurn _ => Option TurnRecord
  | .listOpenTurns => List TurnRecord
  | .lastCheckpoint _ => Option CheckpointRecord
  | .getApproval _ => Option DurableApproval
  | .listPendingApprovals => List DurableApproval
  | .approvalForTurn _ => Option DurableApproval
  | .getAction _ => Option ActionRecord
  | .listActionRecoveryCandidates => List ActionRecord

def run (content : Content) (db : Database) : (query : Query) → Result query.Value
  | .getThread threadId => db.getThread threadId
  | .eventsAfter threadId afterSeq => db.loadEvents threadId afterSeq
  | .lastSeq threadId => db.lastSeqOf threadId
  | .modelContext threadId budget => db.modelContext content threadId budget
  | .getTurn turnId => .ok (db.getTurn turnId)
  | .listOpenTurns => .ok db.listOpenTurns
  | .lastCheckpoint turnId => .ok (db.lastCheckpoint turnId)
  | .getApproval id => .ok (db.getApproval id)
  | .listPendingApprovals => .ok db.listPendingApprovals
  | .approvalForTurn turnId => .ok (db.approvalForTurn turnId)
  | .getAction actionId => .ok (db.getAction actionId)
  | .listActionRecoveryCandidates => .ok db.listActionRecoveryCandidates

end Query

/-- Writes to the store. -/
inductive Command where
  | appendEvent (command : AppendEvent)
  | upsertTurn (record : TurnRecord)
  | putCheckpoint (checkpoint : CheckpointRecord)
  | putApproval (approval : DurableApproval)
  | acquireLease (turnId : TurnId) (threadId : ThreadId) (ownerId : Uuid) (ttl : Duration)
  | refreshLease (leaseId : Uuid) (fencingToken : Nat) (ttl : Duration)
  | releaseLease (leaseId : Uuid) (fencingToken : Nat)
  | forceReleaseTurnLease (turnId : TurnId)
  | rememberResume (key : String) (turnId : TurnId) (payload : RecoveryReport)
  | putActionPlan (plan : ActionPlan)
  | putAction (action : ActionRecord)
  | claimActionForExecution (actionId : ActionId) (now : DateTime)
  | appendAudit (actor : String) (workspaceId : Option String) (operation : String)
      (summary : Value)

namespace Command

abbrev Value : Command → Type
  | .appendEvent _ => EventEnvelope
  | .acquireLease .. => Lease
  | .rememberResume .. => Option RecoveryReport
  | .claimActionForExecution .. => Option ActionRecord
  | _ => Unit

/-- A completed write, at a clock reading and with a fresh identifier. -/
def run (codec : Codec) (clock : DateTime) (fresh : Uuid) (db : Database) :
    (command : Command) → Result command.Value × Database
  | .appendEvent command => db.appendEvent command clock fresh
  | .upsertTurn record => db.upsertTurn record
  | .putCheckpoint checkpoint => (.ok (), db.putCheckpoint checkpoint)
  | .putApproval approval => (.ok (), db.putApproval approval)
  | .acquireLease turnId threadId ownerId ttl =>
      db.acquireLease turnId threadId ownerId ttl clock fresh
  | .refreshLease leaseId fencingToken ttl => db.refreshLease leaseId fencingToken ttl clock
  | .releaseLease leaseId fencingToken => (.ok (), db.releaseLease leaseId fencingToken)
  | .forceReleaseTurnLease turnId => (.ok (), db.forceReleaseTurnLease turnId)
  | .rememberResume key turnId payload =>
      ((db.rememberResume key turnId payload).1 |> .ok, (db.rememberResume key turnId payload).2)
  | .putActionPlan plan => (.ok (), db.putActionPlan plan)
  | .putAction action => (.ok (), db.putAction action)
  | .claimActionForExecution actionId now => db.claimActionForExecution codec actionId now
  | .appendAudit actor workspaceId operation summary =>
      (.ok (), db.appendAudit codec actor workspaceId operation summary clock)

/-- What a failed write leaves behind when it makes two statements and the
second one fails. -/
def interrupted (db : Database) : Command → Option Database
  | .putCheckpoint checkpoint => some (db.insertCheckpoint checkpoint)
  | .upsertTurn record =>
      match db.writeTurn record with
      | (.ok (), written) => some written
      | (.error _, _) => none
  | _ => none

end Command

structure WorkspaceSettings where
  allowRemediation : Bool
  maxEffect : Option CapabilityEffect

structure ToolRegistry where
  descriptors : String → Option CapabilityDescriptor
  schemas : List ToolSchema

def ToolRegistry.descriptor (tools : ToolRegistry) (name : String) :
    Result CapabilityDescriptor :=
  match tools.descriptors name with
  | some descriptor => .ok descriptor
  | none => .error (.tool s!"unknown tool `{name}`")

/-- What a process loads at its start. -/
structure Catalog where
  workspaces : List (WorkspaceId × WorkspaceSettings)
  tools : ToolRegistry
  workspaceTools : List (WorkspaceId × ToolRegistry)
  kube : List WorkspaceId
  ownerId : Uuid
  killSwitch : Bool
  maxConcurrentTurns : Nat

namespace Catalog

def require (catalog : Catalog) (id : WorkspaceId) : Result WorkspaceSettings :=
  match catalog.workspaces.lookup id with
  | some settings => .ok settings
  | none => .error (.notFound s!"workspace {id.asStr}")

/-- A workspace must be configured when any workspace is. -/
def admits (catalog : Catalog) (id : WorkspaceId) : Result Unit :=
  if catalog.workspaces.isEmpty then .ok ()
  else (fun _ => ()) <$> catalog.require id

def toolsFor (catalog : Catalog) (workspace : WorkspaceId) : Result ToolRegistry :=
  if catalog.workspaceTools.isEmpty then .ok catalog.tools
  else
    match catalog.workspaceTools.lookup workspace with
    | some tools => .ok tools
    | none => .error (.policy s!"workspace `{workspace.asStr}` is not configured")

end Catalog

/-- The one-shot channel on which a waiting call receives a decision. -/
structure DecisionChannel where
  sent : Option Bool
  senderOpen : Bool
  receiverOpen : Bool

structure BrokerEntry where
  request : PendingApproval
  channel : Nat

/-- The memory of the running process, lost at a crash. -/
structure Process where
  catalog : Catalog
  permits : Nat
  activeThreads : List ThreadId
  killSwitch : Bool
  mutations : Nat
  pending : List BrokerEntry
  channels : List DecisionChannel

namespace Process

def boot (catalog : Catalog) : Process where
  catalog := catalog
  permits := catalog.maxConcurrentTurns
  activeThreads := []
  killSwitch := catalog.killSwitch
  mutations := 0
  pending := []
  channels := []

/-- Drop the sender of the request that an insertion replaces. -/
def dropReplaced (process : Process) (id : ApprovalId) : List DecisionChannel :=
  match process.pending.find? fun entry => decide (entry.request.id = id) with
  | some entry => process.channels.modify entry.channel fun channel =>
      { channel with senderOpen := false }
  | none => process.channels

/-- Register a request; the answer is the receiving end of its channel. -/
def brokerInsert (process : Process) (request : PendingApproval) : Nat × Process :=
  (process.channels.length, { process with
    pending := { request := request, channel := process.channels.length } ::
      process.pending.filter fun entry => decide (entry.request.id ≠ request.id)
    channels := process.dropReplaced request.id ++
      [{ sent := none, senderOpen := true, receiverOpen := true }] })

def brokerResolve (process : Process) (id : ApprovalId) (approved : Bool) :
    Result Unit × Process :=
  match process.pending.find? fun entry => decide (entry.request.id = id) with
  | none => (.error (.notFound s!"approval {id}"), process)
  | some entry =>
      let removed := process.pending.filter fun other => decide (other.request.id ≠ id)
      match process.channels[entry.channel]? with
      | some channel =>
          if channel.receiverOpen then
            (.ok (), { process with
              pending := removed
              channels := process.channels.modify entry.channel fun channel =>
                { channel with sent := some approved, senderOpen := false } })
          else (.error (.policy s!"approval {id} is no longer waiting"),
            { process with pending := removed })
      | none => (.error (.policy s!"approval {id} is no longer waiting"),
          { process with pending := removed })

def closeReceiver (process : Process) (receiver : Nat) : Process :=
  { process with
    channels := process.channels.modify receiver fun channel =>
      { channel with receiverOpen := false } }

end Process

/-- How waiting for a decision ended. -/
inductive Decision where
  | cancelled
  | elapsed
  | answered (approved : Bool)
  | closed

/-- A model request with its whole stream: the deltas in order and the end. -/
inductive ModelOutput where
  | message (content : String)
  | toolCall (callId name : String) (arguments : Value)

structure ModelRequest where
  instructions : String
  input : List ModelItem
  tools : List ToolSchema

inductive ModelEnding where
  | cancelled
  | elapsed
  | finished (outcome : Result (List ModelOutput))

structure ModelRun where
  deltas : List String
  ending : ModelEnding

structure ToolOutput where
  content : Value
  evidence : EvidenceMeta

inductive ToolEnding where
  | cancelled
  | elapsed
  | finished (outcome : Result ToolOutput) (durationMs : UInt64)

/-- Which tool call of which turn an execution belongs to. The tool is not told;
the site names the call in the history. -/
structure CallSite where
  turnId : TurnId
  callId : String
  deriving DecidableEq, Repr

inductive Op where
  | query (query : Query)
  | command (command : Command)
  | now
  | newId
  | catalog
  | acquirePermit (cancellable : Bool)
  | releasePermit
  | enterThread (threadId : ThreadId)
  | leaveThread (threadId : ThreadId)
  | killSwitchEnabled
  | setKillSwitch (enabled : Bool)
  | countMutation
  | brokerInsert (request : PendingApproval)
  | brokerResolve (id : ApprovalId) (approved : Bool)
  | awaitDecision (receiver : Nat) (ttl : Option Duration)
  | dropReceiver (receiver : Nat)
  | completeModel (request : ModelRequest)
  | executeTool (site : CallSite) (workspaceId : WorkspaceId) (threadId : ThreadId)
      (name : String) (arguments : Value)
  | putArtifact (workspaceId : WorkspaceId) (bytes : List UInt8)
  | startRunner (action : ActionRecord) (dryRun : Bool)
  | getWorkload (workspaceId : WorkspaceId) (kind namespaceName name : String)
  | patchReplicas (workspaceId : WorkspaceId) (kind namespaceName name : String)
      (replicas : UInt32) (resourceVersion operationId : String) (dryRun : Bool)
  | demoHealth
  | demoReset

abbrev Op.Answer : Op → Type
  | .query read => Result read.Value
  | .command write => Result write.Value
  | .now => DateTime
  | .newId => Uuid
  | .catalog => Catalog
  | .acquirePermit _ => Result Unit
  | .enterThread _ => Bool
  | .killSwitchEnabled => Bool
  | .brokerInsert _ => Nat
  | .brokerResolve _ _ => Result Unit
  | .awaitDecision _ _ => Decision
  | .completeModel _ => ModelRun
  | .executeTool .. => ToolEnding
  | .putArtifact _ _ => Result String
  | .getWorkload .. | .patchReplicas .. | .demoHealth | .demoReset => Result Value
  | _ => Unit

def serviceInterface : Effect.Interface where
  Op := Op
  Answer := Op.Answer

/-- The store, the process and the supply of identifiers. -/
structure World where
  db : Database
  process : Process
  nextId : Uuid

/-- What the environment decides about one request. -/
inductive Choice where
  | settle (clock : DateTime)
  | fault (message : String)
  | partialFault (message : String)
  | cancel
  | elapse
  | model (run : ModelRun)
  | tool (ending : ToolEnding)
  | artifact (stored : Result String)
  | cluster (reply : Result Value)

namespace World

/-- A waiting call receives what was sent, or sees that nothing can come. -/
def awaitDecision (world : World) (receiver : Nat) (ttl : Option Duration) :
    Choice → Option (Decision × World)
  | .cancel => some (.cancelled, closed)
  | .elapse => if ttl.isSome then some (.elapsed, closed) else none
  | .settle _ =>
      match world.process.channels[receiver]? with
      | some channel =>
          match channel.sent, channel.senderOpen with
          | some approved, _ => some (.answered approved, closed)
          | none, false => some (.closed, closed)
          | none, true => none
      | none => none
  | _ => none
where
  closed : World := { world with process := world.process.closeReceiver receiver }

/-- A request answered under a choice of the environment. -/
def perform (content : Content) (codec : Codec) :
    (op : Op) → Choice → World → Option (op.Answer × World)
  | .query query, .settle _, world => some (query.run content world.db, world)
  | .query _, .fault message, world => some (.error (.storage message), world)
  | .command command, .settle clock, world =>
      some ((command.run codec clock world.nextId world.db).1, { world with
        db := (command.run codec clock world.nextId world.db).2
        nextId := world.nextId + 1 })
  | .command _, .fault message, world => some (.error (.storage message), world)
  | .command command, .partialFault message, world =>
      (command.interrupted world.db).map fun db =>
        (.error (.storage message), { world with db := db })
  | .now, .settle clock, world => some (clock, world)
  | .newId, .settle _, world => some (world.nextId, { world with nextId := world.nextId + 1 })
  | .catalog, .settle _, world => some (world.process.catalog, world)
  | .acquirePermit _, .settle _, world =>
      if 0 < world.process.permits then
        some (.ok (), { world with
          process := { world.process with permits := world.process.permits - 1 } })
      else none
  | .acquirePermit true, .cancel, world => some (.error .cancelled, world)
  | .releasePermit, .settle _, world =>
      some ((), { world with
        process := { world.process with permits := world.process.permits + 1 } })
  | .enterThread threadId, .settle _, world =>
      if threadId ∈ world.process.activeThreads then some (false, world)
      else some (true, { world with
        process := { world.process with
          activeThreads := threadId :: world.process.activeThreads } })
  | .leaveThread threadId, .settle _, world =>
      some ((), { world with
        process := { world.process with
          activeThreads := world.process.activeThreads.filter (· ≠ threadId) } })
  | .killSwitchEnabled, .settle _, world => some (world.process.killSwitch, world)
  | .setKillSwitch enabled, .settle _, world =>
      some ((), { world with process := { world.process with killSwitch := enabled } })
  | .countMutation, .settle _, world =>
      some ((), { world with
        process := { world.process with mutations := world.process.mutations + 1 } })
  | .brokerInsert request, .settle _, world =>
      some ((world.process.brokerInsert request).1, { world with
        process := (world.process.brokerInsert request).2 })
  | .brokerResolve id approved, .settle _, world =>
      some ((world.process.brokerResolve id approved).1, { world with
        process := (world.process.brokerResolve id approved).2 })
  | .awaitDecision receiver ttl, choice, world => world.awaitDecision receiver ttl choice
  | .dropReceiver receiver, .settle _, world =>
      some ((), { world with process := world.process.closeReceiver receiver })
  | .completeModel _, .model run, world => some (run, world)
  | .executeTool .., .tool ending, world => some (ending, world)
  | .putArtifact _ _, .artifact stored, world => some (stored, world)
  | .startRunner _ _, .settle _, world => some ((), world)
  | .getWorkload .., .cluster reply, world => some (reply, world)
  | .patchReplicas .., .cluster reply, world => some (reply, world)
  | .demoHealth, .cluster reply, world => some (reply, world)
  | .demoReset, .cluster reply, world => some (reply, world)
  | _, _, _ => none

/-- A crash keeps the store; the next process starts from its own catalog. -/
def restart (catalog : Catalog) (world : World) : World :=
  { world with process := Process.boot catalog }

end World

/-- Code of the runtime: it may suspend at a request and may fail. -/
abbrev Async (Value : Type) : Type := Effect.Fallible serviceInterface OpsCodexError Value

namespace Async

def read (query : Query) : Async query.Value :=
  ExceptT.mk (Effect.Program.perform (I := serviceInterface) (.query query))

def write (command : Command) : Async command.Value :=
  ExceptT.mk (Effect.Program.perform (I := serviceInterface) (.command command))

/-- A request that cannot fail. -/
def ask (op : Op) : Async op.Answer :=
  ExceptT.lift (Effect.Program.perform (I := serviceInterface) op)

def acquirePermit (cancellable : Bool) : Async Unit :=
  ExceptT.mk (Effect.Program.perform (I := serviceInterface) (.acquirePermit cancellable))

def brokerResolve (id : ApprovalId) (approved : Bool) : Async Unit :=
  ExceptT.mk (Effect.Program.perform (I := serviceInterface) (.brokerResolve id approved))

def putArtifact (workspaceId : WorkspaceId) (bytes : List UInt8) : Async String :=
  ExceptT.mk (Effect.Program.perform (I := serviceInterface) (.putArtifact workspaceId bytes))

def getWorkload (workspaceId : WorkspaceId) (kind namespaceName name : String) :
    Async Json.Value :=
  ExceptT.mk (Effect.Program.perform (I := serviceInterface)
    (.getWorkload workspaceId kind namespaceName name))

def patchReplicas (workspaceId : WorkspaceId) (kind namespaceName name : String)
    (replicas : UInt32) (resourceVersion operationId : String) (dryRun : Bool) :
    Async Json.Value :=
  ExceptT.mk (Effect.Program.perform (I := serviceInterface)
    (.patchReplicas workspaceId kind namespaceName name replicas resourceVersion
      operationId dryRun))

def demoHealth : Async Json.Value :=
  ExceptT.mk (Effect.Program.perform (I := serviceInterface) .demoHealth)

def demoReset : Async Json.Value :=
  ExceptT.mk (Effect.Program.perform (I := serviceInterface) .demoReset)

def ofResult {Value : Type} (result : Result Value) : Async Value :=
  ExceptT.mk (pure result)

end Async

end OpsCodex.Runtime
