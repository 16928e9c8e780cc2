import Mathlib.Data.List.Sort
import OpsCodex.Store.Projection
import OpsCodex.Store.Table

/-! The SQLite event store: its tables and the statements run on them. Every
function here runs on one connection and is atomic, or is one of the two that
make two statements without a transaction. -/

set_option autoImplicit false

namespace OpsCodex.Store

open OpsCodex.Json OpsCodex.Runtime OpsCodex.Action

structure ThreadRow where
  id : ThreadId
  workspaceId : WorkspaceId
  status : ThreadStatus
  title : Option String
  updatedAt : DateTime

/-- An approval with the turn column it was inserted under. -/
structure ApprovalRow where
  turnId : Option TurnId
  payload : DurableApproval

/-- The answer remembered for an idempotency key; the table holds it as JSON. -/
structure ResumeOp where
  idempotencyKey : String
  turnId : TurnId
  payload : RecoveryReport

structure AuditRecord where
  seq : Nat
  recordHash : String
  previousHash : String
  actor : String
  workspaceId : Option String
  operation : String
  summary : Value
  createdAt : DateTime

structure Database where
  threads : List ThreadRow
  events : List EventEnvelope
  turns : List TurnRecord
  checkpoints : List CheckpointRecord
  approvals : List ApprovalRow
  leases : List Lease
  resumeOps : List ResumeOp
  actionPlans : List ActionPlan
  actions : List ActionRecord
  auditLog : List AuditRecord

def ApprovalRow.approvalId (row : ApprovalRow) : ApprovalId := row.payload.approvalId

structure AppendEvent where
  threadId : ThreadId
  turnId : Option TurnId
  itemId : Option ItemId
  causationId : Option EventId
  streamKind : Option StreamKind
  event : RuntimeEvent

namespace Database

section Events

def thread (db : Database) (threadId : ThreadId) : Option ThreadRow :=
  Table.lookup ThreadRow.id threadId db.threads

def threadEvents (db : Database) (threadId : ThreadId) : List EventEnvelope :=
  db.events.filter fun envelope => decide (envelope.threadId = threadId)

/-- A sequence number as the signed column and parameter hold it. -/
def asI64 (value : Nat) : Int := ((value : Int) + 2 ^ 63) % 2 ^ 64 - 2 ^ 63

theorem asI64_of_lt {seq : Nat} (small : seq < 2 ^ 63) : asI64 seq = seq := by
  unfold asI64
  omega

def loadEvents (db : Database) (threadId : ThreadId) (afterSeq : Nat) :
    Result (List EventEnvelope) :=
  match db.thread threadId with
  | none => .error (.notFound s!"thread {threadId}")
  | some _ =>
      .ok (((db.threadEvents threadId).filter fun envelope =>
        decide (asI64 afterSeq < asI64 envelope.seq)).insertionSort fun left right =>
          left.seq ≤ right.seq)

def lastSeq (db : Database) (threadId : ThreadId) : Nat :=
  (db.threadEvents threadId).foldl (fun last envelope => max last envelope.seq) 0

def getThread (db : Database) (threadId : ThreadId) : Result Thread := do
  reconstructThread threadId (← db.loadEvents threadId 0)

def lastSeqOf (db : Database) (threadId : ThreadId) : Result Nat :=
  match db.thread threadId with
  | none => .error (.notFound s!"thread {threadId}")
  | some _ => .ok (db.lastSeq threadId)

def modelContext (content : Content) (db : Database) (threadId : ThreadId)
    (budget : ContextBudget) : Result (List ModelItem) := do
  let events ← db.loadEvents threadId 0
  return content.buildModelContext (content.modelItemsFromEvents events) budget

def appendEvent (db : Database) (command : AppendEvent) (clock : DateTime) (fresh : Uuid) :
    Result EventEnvelope × Database :=
  match db.thread command.threadId with
  | none => (.error (.notFound s!"thread {command.threadId}"), db)
  | some row =>
      let envelope : EventEnvelope := {
        schemaVersion := eventSchemaVersion
        streamKind := command.streamKind.getD (streamKindFor command.event)
        eventId := ⟨fresh⟩
        seq := db.lastSeq command.threadId + 1
        workspaceId := row.workspaceId
        threadId := command.threadId
        turnId := command.turnId
        itemId := command.itemId
        causationId := command.causationId
        timestamp := clock
        event := command.event }
      (.ok envelope, { db with
        events := db.events ++ [envelope]
        threads := Table.update (fun other => decide (other.id = command.threadId))
          (fun other => { other with
            status := statusAfter row.status command.event
            title := row.title.or (titleFromEvent command.event)
            updatedAt := clock }) db.threads })

end Events

section Turns

def mergeTurn (current row : TurnRecord) : TurnRecord :=
  { row with threadId := current.threadId, createdAt := current.createdAt }

/-- The first statement of a turn upsert. -/
def writeTurn (db : Database) (record : TurnRecord) : Result Unit × Database :=
  match db.thread record.threadId with
  | none => (.error (.storage "sqlite upsert turn failed: FOREIGN KEY constraint failed"), db)
  | some _ => (.ok (), { db with
      turns := Table.upsert TurnRecord.id mergeTurn record db.turns })

def threadStatusOf : TurnStatus → Option ThreadStatus
  | .waitingApproval => some .waitingApproval
  | .needsReconciliation => some .needsReconciliation
  | .interrupted => some .interrupted
  | _ => none

/-- The second statement: some turn statuses are shown on the thread. -/
def syncThreadStatus (db : Database) (record : TurnRecord) : Database :=
  match threadStatusOf record.status with
  | none => db
  | some status => { db with
      threads := Table.update (fun row => decide (row.id = record.threadId))
        (fun row => { row with status := status, updatedAt := record.updatedAt }) db.threads }

def upsertTurn (db : Database) (record : TurnRecord) : Result Unit × Database :=
  match db.writeTurn record with
  | (.ok (), written) => (.ok (), written.syncThreadStatus record)
  | failed => failed

def getTurn (db : Database) (turnId : TurnId) : Option TurnRecord :=
  Table.lookup TurnRecord.id turnId db.turns

/-- A turn whose record still allows the recovery scan to look at it. -/
def isOpen (status : TurnStatus) : Bool :=
  match status with
  | .completed | .failed | .cancelled => false
  | _ => true

def listOpenTurns (db : Database) : List TurnRecord :=
  db.turns.filter fun record => isOpen record.status

/-- The first statement of a checkpoint write. -/
def insertCheckpoint (db : Database) (checkpoint : CheckpointRecord) : Database :=
  { db with checkpoints := db.checkpoints ++ [checkpoint] }

/-- The second statement points the turn at its new checkpoint. -/
def pointAtCheckpoint (db : Database) (checkpoint : CheckpointRecord) : Database :=
  { db with
    turns := Table.update (fun record => decide (record.id = checkpoint.turnId))
      (fun record => { record with
        lastCheckpointId := some checkpoint.checkpointId
        updatedAt := checkpoint.createdAt }) db.turns }

def putCheckpoint (db : Database) (checkpoint : CheckpointRecord) : Database :=
  (db.insertCheckpoint checkpoint).pointAtCheckpoint checkpoint

/-- `ORDER BY created_at DESC, step DESC`: does the right row come first? -/
def checkpointNewer (left right : CheckpointRecord) : Bool :=
  decide (left.createdAt < right.createdAt) ||
    (decide (left.createdAt = right.createdAt) && decide (left.step < right.step))

def newestCheckpoint (best : Option CheckpointRecord) (row : CheckpointRecord) :
    Option CheckpointRecord :=
  match best with
  | none => some row
  | some current => if checkpointNewer current row then some row else some current

def turnCheckpoints (db : Database) (turnId : TurnId) : List CheckpointRecord :=
  db.checkpoints.filter fun row => decide (row.turnId = turnId)

def lastCheckpoint (db : Database) (turnId : TurnId) : Option CheckpointRecord :=
  (db.turnCheckpoints turnId).foldl newestCheckpoint none

end Turns

section Approvals

def mergeApproval (current row : ApprovalRow) : ApprovalRow :=
  { row with turnId := current.turnId }

def putApproval (db : Database) (approval : DurableApproval) : Database :=
  { db with
    approvals := Table.upsert ApprovalRow.approvalId mergeApproval
      { turnId := approval.turnId, payload := approval } db.approvals }

def getApproval (db : Database) (id : ApprovalId) : Option DurableApproval :=
  (Table.lookup ApprovalRow.approvalId id db.approvals).map ApprovalRow.payload

def listPendingApprovals (db : Database) : List DurableApproval :=
  (db.approvals.map ApprovalRow.payload).filter fun approval =>
    decide (approval.status = .pending)

/-- The order in which the approvals of a turn are looked at. -/
def approvalRank : ApprovalStatus → Nat
  | .pending => 0
  | .approved => 1
  | .rejected => 2
  | .expired => 3

def turnApprovals (db : Database) (turnId : TurnId) : List DurableApproval :=
  (db.approvals.filter fun row => decide (row.turnId = some turnId)).map ApprovalRow.payload

/-- The head of the stable sort by rank: the first row of the least rank. -/
def approvalForTurn (db : Database) (turnId : TurnId) : Option DurableApproval :=
  ((db.turnApprovals turnId).insertionSort fun left right =>
    approvalRank left.status ≤ approvalRank right.status).head?

end Approvals

section Leases

def acquireLease (db : Database) (turnId : TurnId) (threadId : ThreadId) (ownerId : Uuid)
    (ttl : Duration) (clock : DateTime) (fresh : Uuid) : Result Lease × Database :=
  let expiresAt := clock + fromStd ttl (seconds 30)
  match db.leases.find? fun lease => decide (lease.turnId = turnId) with
  | some existing =>
      if existing.expiresAt > clock then (.error .turnAlreadyRunning, db)
      else
        let next : Lease := {
          leaseId := existing.leaseId, turnId := turnId, threadId := threadId,
          ownerId := ownerId, expiresAt := expiresAt,
          fencingToken := existing.fencingToken + 1 }
        (.ok next, { db with
          leases := Table.update (fun lease => decide (lease.leaseId = existing.leaseId))
            (fun lease => { lease with
              ownerId := ownerId, expiresAt := expiresAt,
              fencingToken := existing.fencingToken + 1, threadId := threadId }) db.leases })
  | none =>
      let lease : Lease := {
        leaseId := fresh, turnId := turnId, threadId := threadId, ownerId := ownerId,
        expiresAt := expiresAt, fencingToken := 1 }
      (.ok lease, { db with leases := db.leases ++ [lease] })

def holdsLease (leaseId : Uuid) (fencingToken : Nat) (lease : Lease) : Bool :=
  decide (lease.leaseId = leaseId ∧ lease.fencingToken = fencingToken)

def refreshLease (db : Database) (leaseId : Uuid) (fencingToken : Nat) (ttl : Duration)
    (clock : DateTime) : Result Unit × Database :=
  if db.leases.any (holdsLease leaseId fencingToken) then
    (.ok (), { db with
      leases := Table.update (holdsLease leaseId fencingToken)
        (fun lease => { lease with expiresAt := clock + fromStd ttl (seconds 30) }) db.leases })
  else (.error (.storage "lease fencing token mismatch"), db)

def releaseLease (db : Database) (leaseId : Uuid) (fencingToken : Nat) : Database :=
  { db with leases := db.leases.filter fun lease => !holdsLease leaseId fencingToken lease }

def forceReleaseTurnLease (db : Database) (turnId : TurnId) : Database :=
  { db with leases := db.leases.filter fun lease => decide (lease.turnId ≠ turnId) }

def rememberResume (db : Database) (key : String) (turnId : TurnId)
    (payload : RecoveryReport) : Option RecoveryReport × Database :=
  match Table.lookup ResumeOp.idempotencyKey key db.resumeOps with
  | some existing => (some existing.payload, db)
  | none => (none, { db with
      resumeOps := db.resumeOps ++
        [{ idempotencyKey := key, turnId := turnId, payload := payload }] })

end Leases

section Actions

def putActionPlan (db : Database) (plan : ActionPlan) : Database :=
  { db with actionPlans := Table.upsert ActionPlan.planId (fun _ row => row) plan db.actionPlans }

def putAction (db : Database) (action : ActionRecord) : Database :=
  { db with actions := Table.upsert ActionRecord.actionId (fun _ row => row) action db.actions }

def getAction (db : Database) (actionId : ActionId) : Option ActionRecord :=
  Table.lookup ActionRecord.actionId actionId db.actions

/-- Replace an action whose stored status is still the expected one, and say
whether there was one. -/
def updateActionStatusCas (db : Database) (action : ActionRecord) (expected : ActionStatus) :
    Bool × Database :=
  let matching (row : ActionRecord) : Bool :=
    decide (row.actionId = action.actionId ∧ row.status = expected)
  (db.actions.any matching,
    { db with actions := Table.update matching (fun _ => action) db.actions })

def claimActionForExecution (codec : Codec) (db : Database) (actionId : ActionId)
    (now : DateTime) : Result (Option ActionRecord) × Database :=
  match db.getAction actionId with
  | none => (.error (.notFound s!"action {actionId}"), db)
  | some action =>
      if action.status ≠ .authorized then (.ok none, db)
      else if action.expiresAt ≤ now then
        match transition .authorized .expired with
        | .error error => (.error error, db)
        | .ok status =>
            (.ok none, (db.updateActionStatusCas (action.moveTo status now) .authorized).2)
      else if !action.consumedApproval then (.ok none, db)
      else if actionRequestHash codec action ≠ action.requestHash then
        (.error (.policy "action changed after approval"), db)
      else
        match transition .authorized .preconditionCheck with
        | .error error => (.error error, db)
        | .ok status =>
            match db.updateActionStatusCas (action.moveTo status now) .authorized with
            | (true, written) => (.ok (some (action.moveTo status now)), written)
            | (false, written) => (.ok none, written)

/-- The statuses that the recovery scan looks at. -/
def isRecoveryCandidate : ActionStatus → Bool
  | .awaitingApproval | .authorized | .preconditionCheck | .executing | .verifying => true
  | _ => false

def listActionRecoveryCandidates (db : Database) : List ActionRecord :=
  db.actions.filter fun action => isRecoveryCandidate action.status

def appendAudit (codec : Codec) (db : Database) (actor : String) (workspaceId : Option String)
    (operation : String) (summary : Value) (clock : DateTime) : Database :=
  let previous := match db.auditLog.getLast? with
    | some record => record.recordHash
    | none => "genesis"
  { db with auditLog := db.auditLog ++ [{
      seq := db.auditLog.length + 1
      recordHash := auditRecordHash codec previous actor workspaceId operation summary clock
      previousHash := previous
      actor := actor
      workspaceId := workspaceId
      operation := operation
      summary := summary
      createdAt := clock }] }

end Actions

end Database

end OpsCodex.Store
