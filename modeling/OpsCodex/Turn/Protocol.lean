import OpsCodex.Turn.System

/-! The control points of calls on turns. Each call of the runtime follows this
protocol, so invariants are proved from the protocol and not from the code. -/

set_option autoImplicit false

namespace OpsCodex.Turn

open Effect OpsCodex.Action OpsCodex.Evidence OpsCodex.Extensions OpsCodex.Store
open OpsCodex.Runtime

structure Call where
  callId : String
  tool : String
  arguments : Json.Value

def Call.ofOperation (operation : PendingOperation) : Call where
  callId := operation.callId
  tool := operation.tool
  arguments := operation.arguments

/-- Where a drive of a turn comes from. -/
inductive Origin where
  | fresh
  | resumed (checkpoint : CheckpointRecord) (events : List EventEnvelope)

structure Drive where
  threadId : ThreadId
  turnId : TurnId
  origin : Origin

structure Session extends Drive where
  workspaceId : WorkspaceId
  tools : ToolRegistry

/-- The points inside the loop of a driven turn. -/
inductive Stage where
  | driving
  | proposed (call : Call)
  | named (call : Call) (approvalId : ApprovalId)
  | asking (call : Call) (approvalId : ApprovalId)
  | asked (call : Call) (approvalId : ApprovalId)
  | parked (call : Call) (approvalId : ApprovalId)
  | announced (call : Call) (approvalId : ApprovalId)
  | decided (call : Call) (approvalId : ApprovalId) (approved : Bool)
  | settling (call : Call) (approvalId : ApprovalId) (approved : Bool)
      (durable : DurableApproval)
  | resolved (call : Call) (approvalId : ApprovalId) (approved : Bool)
  | allowed (call : Call) (grant : Option ApprovalId)
  | denied (call : Call)
  | authorizing (call : Call)
  | selected (call : Call) (stored : DurableApproval)
  | granted (call : Call) (grant : Option ApprovalId)
  | readied (call : Call) (grant : Option ApprovalId)
  | begun (call : Call) (grant : Option ApprovalId)
  | running (call : Call)
  | answered

namespace Stage

/-- The call that may be started next, with the approval that allows it. -/
def startable : Stage → Option (Call × Option ApprovalId)
  | .allowed call grant => some (call, grant)
  | .granted call grant => some (call, grant)
  | _ => none

/-- The call whose result may be written next. -/
def completable : Stage → Option Call
  | .proposed call | .allowed call _ | .denied call | .selected call _ | .granted call _
  | .running call => some call
  | _ => none

def isRunning : Stage → Bool
  | .running _ => true
  | _ => false

theorem completable_of_startable {stage : Stage} {call : Call} {grant : Option ApprovalId}
    (startable : stage.startable = some (call, grant)) : stage.completable = some call := by
  cases stage <;> simp_all [Stage.startable, completable]

theorem resting_of_startable {stage : Stage} {call : Call} {grant : Option ApprovalId}
    (startable : stage.startable = some (call, grant)) : stage.isRunning = false := by
  cases stage <;> simp_all [Stage.startable, isRunning]

end Stage

/-- The first stage of a drive. -/
def Drive.opening (drive : Drive) : Stage :=
  match drive.origin with
  | .fresh => .driving
  | .resumed checkpoint events =>
      match checkpoint.pendingOperation, (classifyCheckpoint checkpoint events).resumePolicy with
      | some operation, .retryObserve => .granted (.ofOperation operation) none
      | some operation, .waitApproval => .authorizing (.ofOperation operation)
      | _, _ => .driving

theorem Drive.opening_resting (drive : Drive) : drive.opening.isRunning = false := by
  unfold Drive.opening
  split
  · rfl
  · split <;> rfl

/-- A resume that need not repeat a call goes on with the model. -/
theorem Drive.opening_free {threadId : ThreadId} {turnId : TurnId}
    {checkpoint : CheckpointRecord} {events : List EventEnvelope}
    (free : ∀ operation, checkpoint.pendingOperation = some operation →
      (classifyCheckpoint checkpoint events).resumePolicy ≠ .retryObserve ∧
      (classifyCheckpoint checkpoint events).resumePolicy ≠ .waitApproval) :
    Drive.opening ⟨threadId, turnId, .resumed checkpoint events⟩ = .driving := by
  cases pending : checkpoint.pendingOperation with
  | none => simp [opening, pending]
  | some operation =>
      obtain ⟨retry, wait⟩ := free operation pending
      simp [opening, pending, retry, wait]

inductive Control where
  /-- Nothing of a turn is touched any more. -/
  | idle
  | resuming (turnId : TurnId)
  | tracing (turnId : TurnId) (threadId : ThreadId)
  | reporting (turnId : TurnId) (threadId : ThreadId) (checkpoint : CheckpointRecord)
  | waiting (drive : Drive)
  | guarded (drive : Drive)
  | leased (drive : Drive)
  | entered (drive : Drive)
  | situated (drive : Drive) (workspaceId : WorkspaceId)
  | within (session : Session) (stage : Stage)
  /-- Only the record of the turn is left to write. -/
  | failing (drive : Drive)
  | resolving (id : ApprovalId)
  | recalled (durable : DurableApproval)
  | scanning
  | expiring (pending : List DurableApproval)
  | sweeping (todo : List TurnRecord)
  | examining (turn : TurnRecord) (checkpoint : CheckpointRecord) (rest : List TurnRecord)
  | judged (turn : TurnRecord) (status : TurnStatus) (rest : List TurnRecord)

namespace Control

/-- The drive that holds the guard of its thread. -/
def guards : Control → Option Drive
  | .guarded drive | .leased drive | .entered drive | .situated drive _ | .failing drive =>
      some drive
  | .within session _ => some session.toDrive
  | _ => none

/-- The drive whose end can be recorded: no tool of it is running. -/
def closable : Control → Option Drive
  | .entered drive | .situated drive _ | .failing drive => some drive
  | .within session stage => if stage.isRunning then none else some session.toDrive
  | _ => none

/-- The drive that can give up the guard of its thread: no tool of it is running. -/
def leavable : Control → Option Drive
  | .guarded drive | .leased drive => some drive
  | control => control.closable

theorem guards_of_leavable {control : Control} {drive : Drive}
    (leavable : control.leavable = some drive) : control.guards = some drive := by
  cases control with
  | within session stage =>
      simp only [Control.leavable, Control.closable] at leavable
      split at leavable
      · cases leavable
      · exact leavable
  | _ => exact leavable

theorem leavable_of_closable {control : Control} {drive : Drive}
    (closable : control.closable = some drive) : control.leavable = some drive := by
  cases control with
  | guarded => cases closable
  | leased => cases closable
  | _ => exact closable

end Control

/-- Requests that no control point depends on. -/
def Quiet : Op → Prop
  | .query (.lastCheckpoint _) => False
  | .command (.appendEvent command) => command.event.decisive = false
  | .command (.upsertTurn _) => False
  | .command (.putCheckpoint _) => False
  | .command (.putApproval _) => False
  | .command (.acquireLease ..) => False
  | .enterThread _ => False
  | .leaveThread _ => False
  | .brokerInsert _ => False
  | .awaitDecision .. => False
  | .executeTool .. => False
  | _ => True

def operationOf (turnId : TurnId) (call : Call) (descriptor : CapabilityDescriptor) :
    PendingOperation where
  operationId := pendingOperationId turnId call.callId
  callId := call.callId
  tool := call.tool
  arguments := call.arguments
  effect := descriptor.effect.asStr
  recovery := descriptor.recovery.map RecoveryMode.asStr

/-- A checkpoint between tool calls. -/
structure Plain (drive : Drive) (checkpoint : CheckpointRecord) : Prop where
  turn : checkpoint.turnId = drive.turnId
  thread : checkpoint.threadId = drive.threadId
  phase : checkpoint.phase ≠ .waitingApproval ∧ checkpoint.phase ≠ .toolRunning
  free : checkpoint.pendingOperation = none

/-- A checkpoint in a phase of one call. -/
structure Marks (session : Session) (call : Call) (phase : CheckpointPhase)
    (checkpoint : CheckpointRecord) : Prop where
  turn : checkpoint.turnId = session.turnId
  thread : checkpoint.threadId = session.threadId
  phase : checkpoint.phase = phase
  pending : ∃ descriptor, session.tools.descriptor call.tool = .ok descriptor ∧
    checkpoint.pendingOperation = some (operationOf session.turnId call descriptor)

/-- The checkpoints that a stage writes, with the stage after each. -/
inductive Puts (session : Session) : Stage → CheckpointRecord → Stage → Prop where
  | plain {stage checkpoint} (between : stage = .driving ∨ stage = .answered)
      (plain : Plain session.toDrive checkpoint) : Puts session stage checkpoint .driving
  | park {call approvalId checkpoint}
      (marks : Marks session call .waitingApproval checkpoint) :
      Puts session (.asked call approvalId) checkpoint (.parked call approvalId)
  | ready {stage call grant checkpoint} (startable : stage.startable = some (call, grant))
      (marks : Marks session call .toolRunning checkpoint) :
      Puts session stage checkpoint (.readied call grant)

/-- The events about a call that a stage appends, with the stage after each. -/
inductive Appends (session : Session) : Stage → AppendEvent → Stage → Prop where
  | propose {call command} (thread : command.threadId = session.threadId)
      (turn : command.turnId = some session.turnId)
      (event : command.event = .toolProposed call.callId call.tool call.arguments) :
      Appends session .driving command (.proposed call)
  | complete {stage call command} (completable : stage.completable = some call)
      (thread : command.threadId = session.threadId)
      (turn : command.turnId = some session.turnId)
      (result : command.event.completedCall = some call.callId)
      (unproposed : command.event.proposedCall = none) :
      Appends session stage command .answered
  | announce {call approvalId command} (thread : command.threadId = session.threadId)
      (turn : command.turnId = some session.turnId)
      (event : command.event = .approvalRequired approvalId call.tool call.arguments) :
      Appends session (.parked call approvalId) command (.announced call approvalId)
  | resolve {call approvalId approved command} (thread : command.threadId = session.threadId)
      (turn : command.turnId = some session.turnId)
      (event : command.event = .approvalResolved approvalId approved) :
      Appends session (.decided call approvalId approved) command
        (.resolved call approvalId approved)
  | allow {call command} (thread : command.threadId = session.threadId)
      (turn : command.turnId = some session.turnId)
      (event : command.event = .toolAuthorized call.callId call.tool "allow") :
      Appends session (.proposed call) command (.allowed call none)
  | deny {call command} (thread : command.threadId = session.threadId)
      (turn : command.turnId = some session.turnId)
      (event : command.event = .toolAuthorized call.callId call.tool "deny") :
      Appends session (.proposed call) command (.denied call)
  | allowApproved {call approvalId command} (thread : command.threadId = session.threadId)
      (turn : command.turnId = some session.turnId)
      (event : command.event = .toolAuthorized call.callId call.tool "allow") :
      Appends session (.resolved call approvalId true) command (.allowed call (some approvalId))
  | denyRefused {call approvalId command} (thread : command.threadId = session.threadId)
      (turn : command.turnId = some session.turnId)
      (event : command.event = .toolAuthorized call.callId call.tool "deny") :
      Appends session (.resolved call approvalId false) command (.denied call)
  | begin {call grant command} (thread : command.threadId = session.threadId)
      (turn : command.turnId = some session.turnId)
      (event : command.event = .toolExecutionStarted call.callId call.tool) :
      Appends session (.readied call grant) command (.begun call grant)

/-- The answers of the user that a resumed drive appends without waiting for the
store. -/
inductive Notes (session : Session) : Stage → AppendEvent → Prop where
  | selected {call stored approved command} (pending : stored.status = .pending)
      (thread : command.threadId = session.threadId)
      (turn : command.turnId = some session.turnId)
      (event : command.event = .approvalResolved stored.approvalId approved) :
      Notes session (.selected call stored) command
  | granted {call approvalId command} (thread : command.threadId = session.threadId)
      (turn : command.turnId = some session.turnId)
      (event : command.event = .approvalResolved approvalId true) :
      Notes session (.granted call (some approvalId)) command

/-- An approval is bound to a call by its request hash. -/
def Bound (codec : Codec) (call : Call) (stored : DurableApproval) : Prop :=
  approvalRequestHash codec call.tool call.arguments stored.schemaHash = stored.requestHash

inductive Advance (codec : Codec) :
    Control → (op : Op) → op.Answer → Control → Prop where
  | quiet {control op answer} (quiet : Quiet op) : Advance codec control op answer control
  | trace {turnId turn} :
      Advance codec (.resuming turnId) (.query (.getTurn turnId)) (.ok (some turn))
        (.tracing turnId turn.threadId)
  | report {turnId threadId checkpoint} :
      Advance codec (.tracing turnId threadId) (.query (.lastCheckpoint turnId))
        (.ok (some checkpoint)) (.reporting turnId threadId checkpoint)
  | unreported {turnId threadId answer}
      (missing : ∀ checkpoint, answer ≠ .ok (some checkpoint)) :
      Advance codec (.tracing turnId threadId) (.query (.lastCheckpoint turnId)) answer .idle
  | classify {turnId threadId checkpoint events}
      (drivable : (classifyCheckpoint checkpoint events).resumePolicy ≠ .reconcile) :
      Advance codec (.reporting turnId threadId checkpoint) (.query (.eventsAfter threadId 0))
        (.ok events) (.waiting ⟨checkpoint.threadId, turnId, .resumed checkpoint events⟩)
  | enter {drive} :
      Advance codec (.waiting drive) (.enterThread drive.threadId) true (.guarded drive)
  | barred {drive} : Advance codec (.waiting drive) (.enterThread drive.threadId) false .idle
  | lease {drive ownerId ttl lease} (fresh : drive.origin = .fresh) :
      Advance codec (.guarded drive)
        (.command (.acquireLease drive.turnId drive.threadId ownerId ttl)) (.ok lease)
        (.leased drive)
  | leaseResumed {threadId turnId checkpoint events ownerId ttl lease} :
      Advance codec (.guarded ⟨threadId, turnId, .resumed checkpoint events⟩)
        (.command (.acquireLease turnId threadId ownerId ttl)) (.ok lease)
        (.entered ⟨threadId, turnId, .resumed checkpoint events⟩)
  | unleased {drive ownerId ttl error} :
      Advance codec (.guarded drive)
        (.command (.acquireLease drive.turnId drive.threadId ownerId ttl)) (.error error)
        (.guarded drive)
  | begin {drive record} (turn : record.id = drive.turnId)
      (thread : record.threadId = drive.threadId) (status : record.status = .running) :
      Advance codec (.leased drive) (.command (.upsertTurn record)) (.ok ()) (.entered drive)
  | beginFailed {drive record error} (turn : record.id = drive.turnId)
      (thread : record.threadId = drive.threadId) (status : record.status = .running) :
      Advance codec (.leased drive) (.command (.upsertTurn record)) (.error error)
        (.failing drive)
  | situate {drive thread} :
      Advance codec (.entered drive) (.query (.getThread drive.threadId)) (.ok thread)
        (.situated drive thread.workspaceId)
  | equip {drive workspaceId catalog tools} (found : catalog.toolsFor workspaceId = .ok tools) :
      Advance codec (.situated drive workspaceId) .catalog catalog
        (.within ⟨drive, workspaceId, tools⟩ drive.opening)
  | checkpoint {session stage checkpoint after} (puts : Puts session stage checkpoint after) :
      Advance codec (.within session stage) (.command (.putCheckpoint checkpoint)) (.ok ())
        (.within session after)
  | checkpointFailed {session stage checkpoint after error}
      (puts : Puts session stage checkpoint after) :
      Advance codec (.within session stage) (.command (.putCheckpoint checkpoint))
        (.error error) (.failing session.toDrive)
  | append {session stage command after envelope} (appends : Appends session stage command after) :
      Advance codec (.within session stage) (.command (.appendEvent command)) (.ok envelope)
        (.within session after)
  | appendFailed {session stage command after error}
      (appends : Appends session stage command after) :
      Advance codec (.within session stage) (.command (.appendEvent command)) (.error error)
        (.failing session.toDrive)
  | note {session stage command answer} (notes : Notes session stage command) :
      Advance codec (.within session stage) (.command (.appendEvent command)) answer
        (.within session stage)
  | artifactLost {session stage workspaceId bytes error} :
      Advance codec (.within session stage) (.putArtifact workspaceId bytes) (.error error)
        (.failing session.toDrive)
  | identify {session call fresh} :
      Advance codec (.within session (.proposed call)) .newId fresh
        (.within session (.named call ⟨fresh⟩))
  | ask {session call approvalId request receiver} (id : request.id = approvalId) :
      Advance codec (.within session (.named call approvalId)) (.brokerInsert request) receiver
        (.within session (.asking call approvalId))
  | file {session call approvalId approval} (id : approval.approvalId = approvalId)
      (turn : approval.turnId = some session.turnId) (status : approval.status = .pending) :
      Advance codec (.within session (.asking call approvalId))
        (.command (.putApproval approval)) (.ok ()) (.within session (.asked call approvalId))
  | fileFailed {session call approvalId approval error} :
      Advance codec (.within session (.asking call approvalId))
        (.command (.putApproval approval)) (.error error) (.failing session.toDrive)
  | answer {session call approvalId receiver ttl approved} :
      Advance codec (.within session (.announced call approvalId)) (.awaitDecision receiver ttl)
        (.answered approved) (.within session (.decided call approvalId approved))
  | elapse {session call approvalId receiver ttl} :
      Advance codec (.within session (.announced call approvalId)) (.awaitDecision receiver ttl)
        .elapsed (.within session (.decided call approvalId false))
  | unanswered {session call approvalId receiver ttl decision}
      (lost : decision = .closed ∨ decision = .cancelled) :
      Advance codec (.within session (.announced call approvalId)) (.awaitDecision receiver ttl)
        decision (.failing session.toDrive)
  | reread {session call approvalId approved durable} :
      Advance codec (.within session (.decided call approvalId approved))
        (.query (.getApproval approvalId)) (.ok (some durable))
        (.within session (.settling call approvalId approved durable))
  | settle {session call approvalId approved durable status answer}
      (agrees : status = .approved ↔ approved = true) (settled : status ≠ .pending) :
      Advance codec (.within session (.settling call approvalId approved durable))
        (.command (.putApproval { durable with status := status })) answer
        (.within session (.decided call approvalId approved))
  | settleMissing {session call approvalId approval answer}
      (id : approval.approvalId = approvalId) (status : approval.status = .expired) :
      Advance codec (.within session (.decided call approvalId false))
        (.command (.putApproval approval)) answer
        (.within session (.decided call approvalId false))
  | select {session call stored} :
      Advance codec (.within session (.authorizing call))
        (.query (.approvalForTurn session.turnId)) (.ok (some stored))
        (.within session (.selected call stored))
  | trust {session call stored} (approved : stored.status = .approved)
      (bound : Bound codec call stored) :
      Advance codec (.within session (.authorizing call))
        (.query (.approvalForTurn session.turnId)) (.ok (some stored))
        (.within session (.granted call (some stored.approvalId)))
  | restore {session call stored request receiver} (pending : stored.status = .pending)
      (same : request.id = stored.approvalId) :
      Advance codec (.within session (.selected call stored)) (.brokerInsert request) receiver
        (.within session (.selected call stored))
  | wait {session call stored receiver ttl decision} (pending : stored.status = .pending) :
      Advance codec (.within session (.selected call stored)) (.awaitDecision receiver ttl)
        decision (.within session (.selected call stored))
  | refuse {session call stored status answer} (pending : stored.status = .pending) :
      Advance codec (.within session (.selected call stored))
        (.command (.putApproval { stored with status := status })) answer
        (.within session (.selected call stored))
  | grant {session call stored} (pending : stored.status = .pending)
      (bound : Bound codec call stored) :
      Advance codec (.within session (.selected call stored))
        (.command (.putApproval { stored with status := .approved })) (.ok ())
        (.within session (.granted call (some stored.approvalId)))
  | start {session call grant ending} (ran : ending ≠ .cancelled) :
      Advance codec (.within session (.begun call grant))
        (.executeTool ⟨session.turnId, call.callId⟩ session.workspaceId session.threadId
          call.tool call.arguments) ending
        (.within session (.running call))
  | abandon {session call grant} :
      Advance codec (.within session (.begun call grant))
        (.executeTool ⟨session.turnId, call.callId⟩ session.workspaceId session.threadId
          call.tool call.arguments) .cancelled
        (.failing session.toDrive)
  | close {control drive record answer} (closable : control.closable = some drive)
      (fresh : drive.origin = .fresh) (turn : record.id = drive.turnId) :
      Advance codec control (.command (.upsertTurn record)) answer (.failing drive)
  | leave {control drive} (leavable : control.leavable = some drive) :
      Advance codec control (.leaveThread drive.threadId) () .idle
  | recall {id durable} :
      Advance codec (.resolving id) (.query (.getApproval id)) (.ok (some durable))
        (.recalled durable)
  | resolve {durable status answer} (pending : durable.status = .pending) :
      Advance codec (.recalled durable)
        (.command (.putApproval { durable with status := status })) answer .idle
  | scan {approvals} :
      Advance codec .scanning (.query .listPendingApprovals) (.ok approvals) (.expiring approvals)
  | expire {approvals approval answer} (member : approval ∈ approvals) :
      Advance codec (.expiring approvals)
        (.command (.putApproval { approval with status := .expired })) answer
        (.expiring approvals)
  | sweep {approvals turns} :
      Advance codec (.expiring approvals) (.query .listOpenTurns) (.ok turns) (.sweeping turns)
  | examine {turn rest checkpoint} :
      Advance codec (.sweeping (turn :: rest)) (.query (.lastCheckpoint turn.id))
        (.ok (some checkpoint)) (.examining turn checkpoint rest)
  | unexamined {turn rest error} :
      Advance codec (.sweeping (turn :: rest)) (.query (.lastCheckpoint turn.id)) (.error error)
        .idle
  | unstarted {turn rest} :
      Advance codec (.sweeping (turn :: rest)) (.query (.lastCheckpoint turn.id)) (.ok none)
        (.judged turn .interrupted rest)
  | judge {turn checkpoint rest events} :
      Advance codec (.examining turn checkpoint rest) (.query (.eventsAfter turn.threadId 0))
        (.ok events) (.judged turn (classifyCheckpoint checkpoint events).status rest)
  | mark {turn status rest record} (turn' : record.id = turn.id)
      (status' : record.status = status) :
      Advance codec (.judged turn status rest) (.command (.upsertTurn record)) (.ok ())
        (.sweeping rest)
  | markFailed {turn status rest record error} (turn' : record.id = turn.id)
      (status' : record.status = status) :
      Advance codec (.judged turn status rest) (.command (.upsertTurn record)) (.error error)
        .idle

def protocol (codec : Codec) : Protocol serviceInterface where
  Control := Control
  Advance := Advance codec

/-- The control point at which a call begins. -/
def begins : Job → Control
  | .runTurn threadId turnId _ => .waiting ⟨threadId, turnId, .fresh⟩
  | .resumeTurn turnId _ => .resuming turnId
  | .recover => .scanning
  | .resolveApproval id _ => .resolving id

/-- A call that returns guards no thread; a recovery has judged every open turn. -/
def ends : Job → Result Returned → Control → Prop
  | .recover, .ok _, control => control = .sweeping []
  | _, _, control => control.guards = none

end OpsCodex.Turn
