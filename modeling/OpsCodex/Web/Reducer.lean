import OpsCodex.Json

/-! The reducer of the web client: the view that it folds runtime events into. -/

set_option autoImplicit false

namespace OpsCodex.Web

open OpsCodex.Json

abbrev Fields := List (String × Value)

inductive RuntimeEventType where
  | threadCreated
  | userMessage
  | turnStarted
  | assistantDelta
  | assistantCompleted
  | toolStarted
  | toolProposed
  | toolAuthorized
  | toolExecutionStarted
  | toolCompleted
  | approvalRequired
  | approvalResolved
  | turnCompleted
  | turnFailed
  | turnCancelled
  | contextCompacted
  | actionUpdated
  | unknown
  deriving DecidableEq, Repr

structure NormalizedEvent where
  seq : Nat
  threadId : String
  turnId : Option String
  timestamp : Option String
  type : RuntimeEventType
  data : Fields

inductive Role where
  | user
  | assistant
  deriving DecidableEq, Repr

structure Claim where
  claimId : Option String
  kind : String
  statement : String
  evidenceIds : List String
  confidence : Option String

structure Diagnosis where
  summary : String
  claims : List Claim
  recommendedActions : List String
  limitations : List String

structure MessageItem where
  id : String
  role : Role
  content : String
  streaming : Bool
  optimistic : Bool
  turnId : Option String
  timestamp : Option String
  incidentContext : Option Fields
  diagnosis : Option Diagnosis

inductive ToolStatus where
  | proposed
  | authorized
  | running
  | completed
  | failed
  deriving DecidableEq, Repr

structure ToolItem where
  id : String
  callId : String
  name : String
  arguments : Fields
  status : ToolStatus
  output : Option Value
  evidence : Option Fields
  durationMs : Option Number
  error : Option String
  turnId : Option String
  timestamp : Option String

inductive ApprovalStatus where
  | pending
  | approved
  | rejected
  deriving DecidableEq, Repr

structure ApprovalItem where
  id : String
  approvalId : String
  tool : String
  arguments : Fields
  status : ApprovalStatus
  turnId : Option String
  timestamp : Option String

structure ActionItem where
  id : String
  actionId : String
  planId : String
  tool : String
  status : String
  requestHash : String
  review : Fields
  turnId : Option String
  timestamp : Option String

inductive TimelineItem where
  | message (item : MessageItem)
  | tool (item : ToolItem)
  | approval (item : ApprovalItem)
  | action (item : ActionItem)

inductive TurnStatus where
  | idle
  | running
  | failed
  | cancelled
  | interrupted
  | needsReconciliation
  deriving DecidableEq, Repr

/-- A listed thread; its title is in the code units that slicing counts. -/
structure ThreadSummary where
  id : String
  status : String
  title : Option (List UInt16)

structure OpsState where
  threads : List ThreadSummary
  activeThreadId : Option String
  activeTurnId : Option String
  items : List TimelineItem
  turnStatus : TurnStatus
  lastSeq : Nat
  error : Option String
  clientUpgradeHint : Option String

def TimelineItem.id : TimelineItem → String
  | .message item => item.id
  | .tool item => item.id
  | .approval item => item.id
  | .action item => item.id

def stringValue : Option Value → Option String
  | some (.string value) => some value
  | _ => none

/-- Numbers that a JSON text of the server spells are finite. -/
def numberValue : Option Value → Option Number
  | some (.number value) => some value
  | _ => none

def booleanValue : Option Value → Option Bool
  | some (.bool value) => some value
  | _ => none

def recordValue : Option Value → Fields
  | some (.object fields) => fields
  | _ => []

/-- The first operand that is neither null nor undefined, else the last one. -/
def coalesce : List (Option Value) → Option Value
  | [] => none
  | [last] => last
  | none :: rest => coalesce rest
  | some .null :: rest => coalesce rest
  | some value :: _ => some value

def strings : Value → List String
  | .array items => items.filterMap fun item => stringValue (some item)
  | _ => []

def asClaim (claim : Value) : Claim :=
  let item := recordValue (some claim)
  { claimId := stringValue (item.lookup "claim_id")
    kind := (stringValue (item.lookup "kind")).getD "inferred"
    statement := (stringValue (item.lookup "statement")).getD ""
    evidenceIds := ((item.lookup "evidence_ids").map strings).getD []
    confidence := stringValue (item.lookup "confidence") }

def asDiagnosis (value : Option Value) : Option Diagnosis :=
  let record := recordValue value
  let summary := (stringValue (record.lookup "summary")).getD ""
  let rest : List Claim → Diagnosis := fun claims =>
    { summary := summary
      claims := claims
      recommendedActions := ((record.lookup "recommended_actions").map strings).getD []
      limitations := ((record.lookup "limitations").map strings).getD [] }
  match record.lookup "claims" with
  | some (.array claims) => some (rest (claims.map asClaim))
  | _ => if summary = "" then none else some (rest [])

def asIncidentContext (value : Option Value) : Option Fields :=
  let record := recordValue value
  if record.isEmpty then none else some record

def eventText (data : Fields) : String :=
  (stringValue (data.lookup "delta") <|> stringValue (data.lookup "content") <|>
    stringValue (data.lookup "text") <|>
    stringValue ((recordValue (data.lookup "message")).lookup "content")).getD ""

def toolCallId (event : NormalizedEvent) : String :=
  (stringValue (event.data.lookup "tool_call_id") <|> stringValue (event.data.lookup "call_id") <|>
    stringValue (event.data.lookup "id")).getD
      ("tool:" ++ event.turnId.getD "unknown" ++ ":" ++ toString event.seq)

def toolName (data : Fields) : String :=
  (stringValue (data.lookup "tool") <|> stringValue (data.lookup "name")).getD "tool"

def argumentsOf (data : Fields) : Fields :=
  recordValue (coalesce [data.lookup "arguments", data.lookup "input"])

def isStreamingAssistant (turnId : Option String) : TimelineItem → Bool
  | .message item => item.role = .assistant && item.streaming && item.turnId = turnId
  | _ => false

/-- The index of the last item that satisfies the condition. -/
def lastIndex (condition : TimelineItem → Bool) (items : List TimelineItem) : Option Nat :=
  (items.reverse.findIdx? condition).map fun index => items.length - 1 - index

def lastStreamingAssistantIndex (items : List TimelineItem) (turnId : Option String) :
    Option Nat :=
  lastIndex (isStreamingAssistant turnId) items

def modifyMessage (change : MessageItem → MessageItem) : TimelineItem → TimelineItem
  | .message item => .message (change item)
  | other => other

def modifyTool (change : ToolItem → ToolItem) : TimelineItem → TimelineItem
  | .tool item => .tool (change item)
  | other => other

/-- Assistant messages stop streaming. -/
def settle : TimelineItem → TimelineItem :=
  modifyMessage fun item =>
    if item.role = .assistant then { item with streaming := false } else item

def onTool (callId : String) (change : ToolItem → ToolItem) : TimelineItem → TimelineItem :=
  modifyTool fun item => if item.callId = callId then change item else item

def withThreadStatus (state : OpsState) (status : String) : OpsState :=
  match state.activeThreadId.filter fun active => active ≠ "" with
  | none => state
  | some active =>
      { state with threads := state.threads.map fun thread =>
          if thread.id = active then { thread with status := status } else thread }

def utf16 (text : String) : List UInt16 :=
  text.toList.flatMap fun ch =>
    if ch.toNat < 0x10000 then [UInt16.ofNat ch.toNat]
    else
      [UInt16.ofNat (0xd800 + (ch.toNat - 0x10000) / 0x400),
        UInt16.ofNat (0xdc00 + (ch.toNat - 0x10000) % 0x400)]

/-- The first message of a thread without a title gives it one. -/
def withTitle (state : OpsState) (content : String) : OpsState :=
  if content = "" then state
  else
    match state.activeThreadId.filter fun active => active ≠ "" with
    | none => state
    | some active =>
        { state with threads := state.threads.map fun thread =>
            if thread.id = active ∧ thread.title.getD [] = [] then
              { thread with title := some ((utf16 content).take 64) }
            else thread }

def isOptimistic (content : String) : TimelineItem → Bool
  | .message item => item.role = .user && item.optimistic && item.content = content
  | _ => false

def userMessage (base : OpsState) (event : NormalizedEvent) : OpsState :=
  let content := eventText event.data
  let message : TimelineItem := .message
    { id := (stringValue (event.data.lookup "message_id")).getD
        ("user:" ++ event.turnId.getD (toString event.seq) ++ ":" ++ toString event.seq)
      role := .user
      content := content
      streaming := false
      optimistic := false
      turnId := event.turnId
      timestamp := event.timestamp
      incidentContext := asIncidentContext (event.data.lookup "incident_context")
      diagnosis := none }
  let items :=
    match base.items.findIdx? (isOptimistic content) with
    | some index => base.items.set index message
    | none => base.items ++ [message]
  withTitle { base with items := items } content

def assistantMessage (event : NormalizedEvent) (content : String) (streaming : Bool)
    (diagnosis : Option Diagnosis) : TimelineItem :=
  .message
    { id := "assistant:" ++ event.turnId.getD "unknown" ++ ":" ++ toString event.seq
      role := .assistant
      content := content
      streaming := streaming
      optimistic := false
      turnId := event.turnId
      timestamp := event.timestamp
      incidentContext := none
      diagnosis := diagnosis }

def assistantDelta (base : OpsState) (event : NormalizedEvent) : OpsState :=
  let delta := eventText event.data
  let items :=
    match lastStreamingAssistantIndex base.items event.turnId with
    | none => base.items ++ [assistantMessage event delta true none]
    | some index => base.items.modify index (modifyMessage fun existing =>
        { existing with content := existing.content ++ delta, streaming := true })
  { base with items := items, turnStatus := .running }

def assistantCompleted (base : OpsState) (event : NormalizedEvent) : OpsState :=
  let content := eventText event.data
  let diagnosis := asDiagnosis (event.data.lookup "diagnosis")
  let items :=
    match lastStreamingAssistantIndex base.items event.turnId with
    | none => base.items ++ [assistantMessage event content false diagnosis]
    | some index => base.items.modify index (modifyMessage fun existing =>
        { existing with
          content := if content = "" then existing.content else content
          streaming := false
          diagnosis := diagnosis <|> existing.diagnosis })
  { base with items := items }

/-- A proposed tool and, in older logs, a started one; each adds an item. -/
def toolAdded (base : OpsState) (event : NormalizedEvent) (status : ToolStatus) : OpsState :=
  let callId := toolCallId event
  { base with
    items := base.items.map settle ++ [.tool
      { id := "tool:" ++ callId
        callId := callId
        name := toolName event.data
        arguments := argumentsOf event.data
        status := status
        output := none
        evidence := none
        durationMs := none
        error := none
        turnId := event.turnId
        timestamp := event.timestamp }]
    turnStatus := .running }

def toolAuthorized (base : OpsState) (event : NormalizedEvent) : OpsState :=
  { base with items := base.items.map (onTool (toolCallId event) fun item =>
      if item.status = .completed ∨ item.status = .failed then item
      else { item with status := .authorized }) }

def toolExecutionStarted (base : OpsState) (event : NormalizedEvent) : OpsState :=
  { base with
    turnStatus := .running
    items := base.items.map (onTool (toolCallId event) fun item =>
      { item with status := .running }) }

def hasCallId (callId : String) : TimelineItem → Bool
  | .tool item => item.callId = callId
  | _ => false

def isOpenNamed (name : String) : TimelineItem → Bool
  | .tool item =>
      (item.status = .running || item.status = .proposed || item.status = .authorized) &&
        item.name = name
  | _ => false

def toolCompleted (base : OpsState) (event : NormalizedEvent) : OpsState :=
  let callId := toolCallId event
  let name := toolName event.data
  let existing := base.items.findIdx? (hasCallId callId) <|> lastIndex (isOpenNamed name) base.items
  let rawOutput :=
    coalesce [event.data.lookup "output", event.data.lookup "result", event.data.lookup "content"]
  let outputRecord := recordValue rawOutput
  let evidence :=
    recordValue (coalesce [event.data.lookup "evidence", outputRecord.lookup "evidence"])
  let durationMs :=
    numberValue (event.data.lookup "duration_ms") <|> numberValue (evidence.lookup "duration_ms")
  let failure :=
    if booleanValue (event.data.lookup "success") = some false then some "Tool execution failed."
    else none
  let error :=
    stringValue (event.data.lookup "error") <|> stringValue (outputRecord.lookup "error") <|>
      failure
  let status : ToolStatus := if error.getD "" = "" then .completed else .failed
  let items :=
    match existing with
    | none => base.items ++ [.tool
        { id := "tool:" ++ callId
          callId := callId
          name := name
          arguments := argumentsOf event.data
          status := status
          output := rawOutput
          evidence := some evidence
          durationMs := durationMs
          error := error
          turnId := event.turnId
          timestamp := event.timestamp }]
    | some index => base.items.modify index (modifyTool fun item =>
        { item with
          status := status
          output := rawOutput
          evidence := some evidence
          durationMs := durationMs
          error := error })
  { base with items := items }

def approvalRequired (base : OpsState) (event : NormalizedEvent) : OpsState :=
  let approvalId :=
    (stringValue (event.data.lookup "approval_id") <|> stringValue (event.data.lookup "id")).getD
      ("approval:" ++ toString event.seq)
  { base with
    items := base.items ++ [.approval
      { id := "approval:" ++ approvalId
        approvalId := approvalId
        tool := toolName event.data
        arguments := argumentsOf event.data
        status := .pending
        turnId := event.turnId
        timestamp := event.timestamp }]
    turnStatus := .running }

def resolveApproval (approvalId : Option String) (approved : Bool) : TimelineItem → TimelineItem
  | .approval item =>
      if some item.approvalId = approvalId then
        .approval { item with status := if approved then .approved else .rejected }
      else .approval item
  | other => other

def approvalResolved (base : OpsState) (event : NormalizedEvent) : OpsState :=
  let approvalId :=
    stringValue (event.data.lookup "approval_id") <|> stringValue (event.data.lookup "id")
  let approved := (booleanValue (event.data.lookup "approved")).getD false
  { base with items := base.items.map (resolveApproval approvalId approved) }

def contextCompacted (base : OpsState) (event : NormalizedEvent) : OpsState :=
  { base with items := base.items ++ [.message
      { id := "summary:" ++ toString event.seq
        role := .assistant
        content := (stringValue (event.data.lookup "summary")).getD
          "Earlier context was compacted. Original events are retained."
        streaming := false
        optimistic := false
        turnId := event.turnId
        timestamp := event.timestamp
        incidentContext := none
        diagnosis := none }] }

def isAction (actionId : String) : TimelineItem → Bool
  | .action item => item.actionId = actionId
  | _ => false

def actionItem (event : NormalizedEvent) (actionId status id : String) : TimelineItem :=
  let review := recordValue (event.data.lookup "review")
  .action
    { id := id
      actionId := actionId
      planId := (stringValue (event.data.lookup "plan_id") <|>
        stringValue (event.data.lookup "planId")).getD ""
      tool := toolName event.data
      status := status
      requestHash := (stringValue (event.data.lookup "request_hash") <|>
        stringValue (event.data.lookup "requestHash") <|>
        stringValue (review.lookup "request_hash")).getD ""
      review := review
      turnId := event.turnId
      timestamp := event.timestamp }

def actionUpdated (base : OpsState) (event : NormalizedEvent) : OpsState :=
  let actionId :=
    (stringValue (event.data.lookup "action_id") <|>
      stringValue (event.data.lookup "actionId")).getD ("action:" ++ toString event.seq)
  let status := (stringValue (event.data.lookup "status")).getD "proposed"
  let items :=
    match base.items.findIdx? (isAction actionId) with
    | some index => base.items.modify index fun existing =>
        actionItem event actionId status existing.id
    | none => base.items ++ [actionItem event actionId status ("action:" ++ actionId)]
  let next := { base with items := items }
  if status = "needs_reconciliation" then
    withThreadStatus { next with turnStatus := .needsReconciliation } "needs_reconciliation"
  else if status = "awaiting_approval" then withThreadStatus next "waiting_approval"
  else next

/-- An event with a number that the view has already passed is dropped. -/
def isDropped (state : OpsState) (event : NormalizedEvent) : Bool :=
  decide (0 < event.seq) && decide (event.seq ≤ state.lastSeq)

def baseOf (state : OpsState) (event : NormalizedEvent) : OpsState :=
  { state with
    activeThreadId := state.activeThreadId <|> some event.threadId
    lastSeq := max state.lastSeq event.seq
    error := none }

/-- What an event that is not dropped makes of the view. -/
def reduceEvent (base : OpsState) (event : NormalizedEvent) : OpsState :=
  match event.type with
  | .threadCreated => base
  | .userMessage => userMessage base event
  | .turnStarted =>
      withThreadStatus
        { base with
          activeTurnId := event.turnId <|> stringValue (event.data.lookup "turn_id") <|>
            base.activeTurnId
          turnStatus := .running } "running"
  | .assistantDelta => assistantDelta base event
  | .assistantCompleted => assistantCompleted base event
  | .toolProposed => toolAdded base event .proposed
  | .toolStarted => toolAdded base event .running
  | .toolAuthorized => toolAuthorized base event
  | .toolExecutionStarted => toolExecutionStarted base event
  | .toolCompleted => toolCompleted base event
  | .approvalRequired => approvalRequired base event
  | .approvalResolved => approvalResolved base event
  | .turnCompleted =>
      withThreadStatus
        { base with
          activeTurnId := none
          turnStatus := .idle
          items := base.items.map settle } "completed"
  | .turnFailed =>
      withThreadStatus
        { base with
          activeTurnId := none
          turnStatus := .failed
          error := some ((stringValue (event.data.lookup "error") <|>
            stringValue (event.data.lookup "message")).getD "The turn failed.") } "failed"
  | .turnCancelled =>
      withThreadStatus { base with activeTurnId := none, turnStatus := .cancelled } "cancelled"
  | .contextCompacted => contextCompacted base event
  | .actionUpdated => actionUpdated base event
  | .unknown =>
      { base with clientUpgradeHint := some ("Client upgrade required for event " ++
          (stringValue (event.data.lookup "_event_type")).getD "unknown") }

def applyRuntimeEvent (state : OpsState) (event : NormalizedEvent) : OpsState :=
  if isDropped state event then state else reduceEvent (baseOf state event) event

variable {base state : OpsState} {event : NormalizedEvent}

@[simp] theorem lastSeq_withThreadStatus (status : String) :
    (withThreadStatus state status).lastSeq = state.lastSeq := by
  unfold withThreadStatus
  split
  · rfl
  · rfl

theorem lastSeq_withTitle (content : String) :
    (withTitle state content).lastSeq = state.lastSeq := by
  unfold withTitle
  split
  · rfl
  · split
    · rfl
    · rfl

theorem lastSeq_actionUpdated : (actionUpdated base event).lastSeq = base.lastSeq := by
  unfold actionUpdated
  dsimp only
  split
  · exact lastSeq_withThreadStatus _
  · split
    · exact lastSeq_withThreadStatus _
    · rfl

/-- No kind of event changes the number that the view has passed. -/
theorem lastSeq_reduceEvent : (reduceEvent base event).lastSeq = base.lastSeq := by
  unfold reduceEvent
  cases event.type with
  | userMessage => exact lastSeq_withTitle _
  | actionUpdated => exact lastSeq_actionUpdated
  | turnStarted => exact lastSeq_withThreadStatus _
  | turnCompleted => exact lastSeq_withThreadStatus _
  | turnFailed => exact lastSeq_withThreadStatus _
  | turnCancelled => exact lastSeq_withThreadStatus _
  | _ => rfl

theorem applyRuntimeEvent_dropped (dropped : isDropped state event = true) :
    applyRuntimeEvent state event = state :=
  if_pos dropped

theorem lastSeq_applyRuntimeEvent :
    (applyRuntimeEvent state event).lastSeq = max state.lastSeq event.seq := by
  unfold applyRuntimeEvent
  split
  · rename_i dropped
    simp only [isDropped, Bool.and_eq_true, decide_eq_true_eq] at dropped
    exact (Nat.max_eq_left dropped.2).symm
  · exact lastSeq_reduceEvent

end OpsCodex.Web
