import OpsCodex.Action
import OpsCodex.Runtime.Event

/-! Durable records that let a turn continue after a crash. -/

set_option autoImplicit false

namespace OpsCodex.Store

open OpsCodex.Json OpsCodex.Runtime OpsCodex.Action

inductive CheckpointPhase where
  | queued
  | modelRunning
  | waitingApproval
  | toolRunning
  | toolCompleted
  | interrupted
  | needsReconciliation
  | completed
  | failed
  | cancelled
  deriving DecidableEq, Repr

inductive ResumePolicy where
  | replayModel
  | waitApproval
  | retryObserve
  | skipCompletedTool
  | reconcile
  | none
  deriving DecidableEq, Repr

structure PendingOperation where
  operationId : String
  callId : String
  tool : String
  arguments : Value
  effect : String
  recovery : Option String

structure CheckpointRecord where
  checkpointId : Uuid
  turnId : TurnId
  threadId : ThreadId
  step : UInt32
  phase : CheckpointPhase
  contextInputHash : Option String
  pendingOperation : Option PendingOperation
  lastCommittedSeq : Nat
  resumePolicy : ResumePolicy
  createdAt : DateTime

structure TurnRecord where
  id : TurnId
  threadId : ThreadId
  status : TurnStatus
  activeLeaseId : Option Uuid
  lastCheckpointId : Option Uuid
  createdAt : DateTime
  updatedAt : DateTime

inductive ApprovalStatus where
  | pending
  | approved
  | rejected
  | expired
  deriving DecidableEq, Repr

def ApprovalStatus.asStr : ApprovalStatus → String
  | .pending => "pending"
  | .approved => "approved"
  | .rejected => "rejected"
  | .expired => "expired"

structure DurableApproval where
  approvalId : ApprovalId
  threadId : Option ThreadId
  turnId : Option TurnId
  tool : String
  arguments : Value
  requestHash : String
  schemaHash : Option String
  status : ApprovalStatus
  expiresAt : Option DateTime

structure Lease where
  leaseId : Uuid
  turnId : TurnId
  threadId : ThreadId
  ownerId : Uuid
  expiresAt : DateTime
  fencingToken : Nat

structure RecoveryReport where
  turnId : TurnId
  threadId : ThreadId
  status : TurnStatus
  phase : CheckpointPhase
  resumePolicy : ResumePolicy
  risk : String
  userAction : String
  skippedTools : List String
  checkpoint : Option CheckpointRecord

def approvalRequestHash (codec : Codec) (tool : String) (arguments : Value)
    (schemaHash : Option String) : String :=
  codec.sha256Hex (utf8 tool ++ codec.toVec arguments ++
    match schemaHash with
    | some schemaHash => utf8 schemaHash
    | none => [])

/-- A message that was forwarded to the model or returned by it. -/
inductive ModelItem where
  | userMessage (content : String)
  | assistantMessage (content : String)
  | toolCall (callId name : String) (arguments : Value)
  | toolResult (callId : String) (output : Value)

structure ContextBudget where
  maxItems : Nat
  maxTokens : Nat
  maxBytes : Nat
  maxEvidence : Nat
  maxToolCalls : Nat
  maxCostMicros : UInt64
  deriving DecidableEq, Repr

end OpsCodex.Store
