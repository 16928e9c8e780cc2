import OpsCodex.Error
import OpsCodex.Evidence
import OpsCodex.Json.Text

/-! Runtime events and the envelopes under which the log stores them. -/

set_option autoImplicit false

namespace OpsCodex.Runtime

open OpsCodex.Json OpsCodex.Evidence

def eventSchemaVersion : UInt32 := 2

inductive StreamKind where
  | domain
  | delivery
  deriving DecidableEq, Repr

structure IncidentSource where
  kind : String
  fingerprint : Option String
  deriving DecidableEq, Repr

structure IncidentContext where
  service : Option String
  environment : Option String
  startsAt : Option DateTime
  endsAt : Option DateTime
  labels : List (String × String)
  annotations : List (String × String)
  source : Option IncidentSource
  deriving DecidableEq, Repr

inductive RuntimeEvent where
  | threadCreated
  | userMessage (content : String) (incidentContext : Option IncidentContext)
  | turnStarted
  | assistantDelta (delta : String)
  | assistantCompleted (content : String) (diagnosis : Option Diagnosis)
  | toolStarted (callId tool : String) (arguments : Value)
  | toolProposed (callId tool : String) (arguments : Value)
  | toolAuthorized (callId tool decision : String)
  | toolExecutionStarted (callId tool : String)
  | toolCompleted (callId tool : String) (output : Value) (evidence : EvidenceMeta)
      (success : Bool)
  | approvalRequired (approvalId : ApprovalId) (tool : String) (arguments : Value)
  | approvalResolved (approvalId : ApprovalId) (approved : Bool)
  | turnCompleted
  | turnFailed (error : String)
  | turnCancelled
  | contextCompacted (summaryId : String) (coversSeqStart coversSeqEnd : Nat)
      (sourceItemIds sourceEvidenceIds : List String) (inputHash : String)
      (modelProvider model promptVersion : Option String) (summary : String)
  | actionUpdated (actionId : ActionId) (planId : PlanId) (status tool requestHash : String)
      (review : Value)

def streamKindFor : RuntimeEvent → StreamKind
  | .assistantDelta _ => .delivery
  | _ => .domain

structure EventEnvelope where
  schemaVersion : UInt32
  streamKind : StreamKind
  eventId : EventId
  seq : Nat
  workspaceId : WorkspaceId
  threadId : ThreadId
  turnId : Option TurnId
  itemId : Option ItemId
  causationId : Option EventId
  timestamp : DateTime
  event : RuntimeEvent

/-- An event as the log gives it back. -/
def RuntimeEvent.reread : RuntimeEvent → RuntimeEvent
  | .toolCompleted callId tool output evidence success =>
      .toolCompleted callId tool output evidence.reread success
  | event => event

def EventEnvelope.reread (envelope : EventEnvelope) : EventEnvelope :=
  { envelope with event := envelope.event.reread }

/-- The value of any form that an event carries. -/
def RuntimeEvent.payload : RuntimeEvent → Option Value
  | .toolStarted _ _ payload | .toolProposed _ _ payload | .toolCompleted _ _ payload _ _
  | .approvalRequired _ _ payload | .actionUpdated _ _ _ _ _ payload => some payload
  | _ => none

/-- An event with the numbers of its payload mapped. -/
def RuntimeEvent.mapNumbers (number : Number → Number) : RuntimeEvent → RuntimeEvent
  | .toolStarted callId tool arguments => .toolStarted callId tool (arguments.mapNumbers number)
  | .toolProposed callId tool arguments => .toolProposed callId tool (arguments.mapNumbers number)
  | .toolCompleted callId tool output evidence success =>
      .toolCompleted callId tool (output.mapNumbers number) evidence success
  | .approvalRequired approvalId tool arguments =>
      .approvalRequired approvalId tool (arguments.mapNumbers number)
  | .actionUpdated actionId planId status tool requestHash review =>
      .actionUpdated actionId planId status tool requestHash (review.mapNumbers number)
  | event => event

/-- The record of an event can be read: its payload, which stands two levels deep in the
record, is not nested too deep. -/
def RuntimeEvent.Legible (event : RuntimeEvent) : Prop :=
  ∀ payload ∈ event.payload, payload.depth + 2 < recursionLimit

instance (event : RuntimeEvent) : Decidable event.Legible :=
  inferInstanceAs (Decidable (∀ payload ∈ event.payload, _))

def EventEnvelope.mapNumbers (number : Number → Number) (envelope : EventEnvelope) :
    EventEnvelope :=
  { envelope with event := envelope.event.mapNumbers number }

/-- An envelope as the log gives it back, with the numbers that it gives back. -/
def EventEnvelope.restored (number : Number → Number) (envelope : EventEnvelope) :
    EventEnvelope :=
  (envelope.mapNumbers number).reread

/-- The events that become items of the model context. -/
def RuntimeEvent.contributes : RuntimeEvent → Bool
  | .userMessage .. | .assistantCompleted .. | .toolStarted .. | .toolProposed ..
  | .toolCompleted .. => true
  | _ => false

/-- The call a tool result belongs to. -/
def RuntimeEvent.completedCall : RuntimeEvent → Option String
  | .toolCompleted callId _ _ _ _ => some callId
  | _ => none

/-- The diagnosis that the event of an answer carries. -/
def RuntimeEvent.diagnosis : RuntimeEvent → Option Diagnosis
  | .assistantCompleted _ diagnosis => diagnosis
  | _ => none

/-- The call a tool proposal introduces. -/
def RuntimeEvent.proposedCall : RuntimeEvent → Option String
  | .toolProposed callId _ _ => some callId
  | _ => none

/-- The events that say what became of a tool call. -/
def RuntimeEvent.decisive : RuntimeEvent → Bool
  | .toolProposed .. | .toolAuthorized .. | .approvalRequired .. | .approvalResolved ..
  | .toolExecutionStarted .. | .toolCompleted .. => true
  | _ => false

/-- The events that say that a turn did not complete. -/
def RuntimeEvent.fails : RuntimeEvent → Bool
  | .turnFailed _ | .turnCancelled => true
  | _ => false

/-- The events that end a turn. -/
def RuntimeEvent.terminal : RuntimeEvent → Bool
  | .turnCompleted => true
  | event => event.fails

inductive TurnStatus where
  | running
  | waitingApproval
  | completed
  | failed
  | cancelled
  | interrupted
  | needsReconciliation
  deriving DecidableEq, Repr

/-- The statuses of a turn that ended without completing. -/
def TurnStatus.fails : TurnStatus → Bool
  | .failed | .cancelled | .needsReconciliation => true
  | _ => false

/-- The final statuses that an event at the end of a turn stands for. A turn that
needs reconciliation has failed for the readers of its log. -/
def RuntimeEvent.Agrees : RuntimeEvent → TurnStatus → Prop
  | .turnCompleted, status => status = .completed
  | .turnCancelled, status => status = .cancelled
  | .turnFailed _, status => status = .failed ∨ status = .needsReconciliation
  | _, _ => False

inductive ThreadStatus where
  | idle
  | running
  | waitingApproval
  | interrupted
  | needsReconciliation
  | failed
  deriving DecidableEq, Repr

/-- A thread as far as the runtime reads it back from its log. -/
structure Thread where
  id : ThreadId
  workspaceId : WorkspaceId

def reconstructThread (threadId : ThreadId) (events : List EventEnvelope) :
    Result Thread :=
  match events with
  | [] => .error (.storage s!"thread {threadId} has an empty event log")
  | first :: _ =>
      match first.event with
      | .threadCreated => .ok { id := threadId, workspaceId := first.workspaceId }
      | _ => .error (.storage s!"thread {threadId} does not start with thread_created")

structure TurnInput where
  content : String
  incidentContext : Option IncidentContext

end OpsCodex.Runtime
