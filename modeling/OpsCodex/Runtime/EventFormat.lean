import OpsCodex.Json.Record
import OpsCodex.Runtime.Event

/-! The JSON form of event envelopes. -/

set_option autoImplicit false

namespace OpsCodex

open OpsCodex.Json OpsCodex.Runtime OpsCodex.Evidence

/-- The text forms of identifiers and times, and what is read in place of what an old
record does not have. -/
structure Format where
  uuidText : Uuid → String
  readUuid : String → Except String Uuid
  timeText : DateTime → String
  readTime : String → Except String DateTime
  now : DateTime
  v1EventId : ThreadId → Nat → EventId

namespace Format

structure Lawful (format : Format) : Prop where
  uuid : ∀ id, format.readUuid (format.uuidText id) = .ok id
  time : ∀ time, format.readTime (format.timeText time) = .ok time

variable (format : Format)

def ofUuid (id : Uuid) : Value := .string (format.uuidText id)

def toUuid (value : Value) : Except String Uuid := do format.readUuid (← readString value)

def ofTime (time : DateTime) : Value := .string (format.timeText time)

def toTime (value : Value) : Except String DateTime := do format.readTime (← readString value)

end Format

/-- A number of the source's unsigned type. -/
def ofU64 (number : UInt64) : Value := .number (.posInt number)

def toU64 (value : Value) : Except String Nat := (readU64 value).map UInt64.toNat

/-- A text that is left out when it is empty. -/
def nonEmpty (text : String) : Option Value := if text ≠ "" then some (.string text) else none

section

variable {format : Format} (lawful : format.Lawful)

include lawful

theorem reads_uuid (id : Uuid) : Reads format.ofUuid format.toUuid id := by
  constructor
  · exact lawful.uuid id
  · simp [Format.ofUuid, Value.canonical]

theorem reads_time (time : DateTime) : Reads format.ofTime format.toTime time := by
  constructor
  · exact lawful.time time
  · simp [Format.ofTime, Value.canonical]

theorem reads_evidenceId (id : EvidenceId) :
    Reads (fun id : EvidenceId => format.ofUuid id.uuid)
      (fun value => (format.toUuid value).map EvidenceId.mk) id := by
  obtain ⟨read, present⟩ := reads_uuid lawful id.uuid
  constructor
  · rw [read]
    rfl
  · exact present

end

theorem defaulted_nonEmpty (text : String) :
    defaulted "" readString ((nonEmpty text).map Value.canonical) = .ok text := by
  unfold nonEmpty
  exact defaulted_unless _ rfl fun empty => not_not.mp empty

namespace Evidence

def Sensitivity.names : List (String × Sensitivity) := [
  ("public", .publicLevel), ("internal", .internal), ("confidential", .confidential),
  ("secret", .secret)]

def Sensitivity.toValue : Sensitivity → Value
  | .publicLevel => .string "public"
  | .internal => .string "internal"
  | .confidential => .string "confidential"
  | .secret => .string "secret"

def TimeRange.slots (format : Format) (range : TimeRange) : List (String × Option Value) := [
  ("start", some (format.ofTime range.start)),
  ("end", some (format.ofTime range.stop))]

def TimeRange.toValue (format : Format) (range : TimeRange) : Value := record (range.slots format)

def TimeRange.ofValue (format : Format) (value : Value) : Except String TimeRange := do
  return {
    start := ← required "start" format.toTime (value.get? "start")
    stop := ← required "end" format.toTime (value.get? "end") }

def EvidenceMeta.slots (format : Format) (evidence : EvidenceMeta) :
    List (String × Option Value) := [
  ("source", some (.string evidence.source)),
  ("query", some (Value.ofOption .string evidence.query)),
  ("timestamp", some (format.ofTime evidence.timestamp)),
  ("duration_ms", some (ofU64 evidence.durationMs)),
  ("truncated", if evidence.truncated = true then some (.bool evidence.truncated) else none),
  ("evidence_id", evidence.evidenceId.map fun id => format.ofUuid id.uuid),
  ("source_kind", evidence.sourceKind.map .string),
  ("source_ref", evidence.sourceRef.map .string),
  ("query_or_operation", evidence.queryOrOperation.map .string),
  ("observed_at", evidence.observedAt.map format.ofTime),
  ("time_range", evidence.timeRange.map (TimeRange.toValue format)),
  ("summary", nonEmpty evidence.summary),
  ("artifact_ref", evidence.artifactRef.map .string),
  ("content_type",
    if ¬ (evidence.contentType = "" ∨ evidence.contentType = EvidenceMeta.defaultContentType)
    then some (.string evidence.contentType) else none),
  ("byte_size", if evidence.byteSize ≠ 0 then some (ofU64 evidence.byteSize) else none),
  ("sensitivity",
    if evidence.sensitivity ≠ .internal then some evidence.sensitivity.toValue else none),
  ("sha256", nonEmpty evidence.sha256)]

def EvidenceMeta.toValue (format : Format) (evidence : EvidenceMeta) : Value :=
  record (evidence.slots format)

def EvidenceMeta.ofValue (format : Format) (value : Value) : Except String EvidenceMeta := do
  return {
    source := ← required "source" readString (value.get? "source")
    query := ← optional readString (value.get? "query")
    timestamp := ← required "timestamp" format.toTime (value.get? "timestamp")
    durationMs := ← required "duration_ms" readU64 (value.get? "duration_ms")
    truncated := ← defaulted false readBool (value.get? "truncated")
    evidenceId := ← optional (fun value => (format.toUuid value).map EvidenceId.mk)
      (value.get? "evidence_id")
    sourceKind := ← optional readString (value.get? "source_kind")
    sourceRef := ← optional readString (value.get? "source_ref")
    queryOrOperation := ← optional readString (value.get? "query_or_operation")
    observedAt := ← optional format.toTime (value.get? "observed_at")
    timeRange := ← optional (TimeRange.ofValue format) (value.get? "time_range")
    summary := ← defaulted "" readString (value.get? "summary")
    artifactRef := ← optional readString (value.get? "artifact_ref")
    contentType := ← defaulted "" readString (value.get? "content_type")
    byteSize := ← defaulted 0 readU64 (value.get? "byte_size")
    sensitivity := ← defaulted .internal (readNamed Sensitivity.names)
      (value.get? "sensitivity")
    sha256 := ← defaulted "" readString (value.get? "sha256") }

section

variable {format : Format} (lawful : format.Lawful)

theorem Sensitivity.read (sensitivity : Sensitivity) :
    readNamed Sensitivity.names sensitivity.toValue.canonical = .ok sensitivity := by
  cases sensitivity <;> rfl

theorem defaulted_contentType (contentType : String) :
    defaulted "" readString ((if ¬ (contentType = "" ∨ contentType =
        EvidenceMeta.defaultContentType) then some (Value.string contentType) else none).map
          Value.canonical) =
      .ok (if contentType = EvidenceMeta.defaultContentType then "" else contentType) := by
  by_cases default : contentType = EvidenceMeta.defaultContentType
  · simp [default, defaulted]
  · rw [if_neg default]
    exact defaulted_unless _ rfl fun hidden => by simpa [default] using hidden

include lawful

theorem TimeRange.reads (range : TimeRange) :
    Reads (TimeRange.toValue format) (TimeRange.ofValue format) range := by
  constructor
  · have distinct : ((range.slots format).map Prod.fst).Nodup :=
      show (["start", "end"] : List String).Nodup by decide
    simp only [TimeRange.ofValue, TimeRange.toValue, get?_record distinct]
    simp [TimeRange.slots, List.lookup_cons, required, (reads_time lawful _).read]
    rfl
  · simp [TimeRange.toValue, record, Value.canonical]

theorem EvidenceMeta.read (evidence : EvidenceMeta) :
    EvidenceMeta.ofValue format (evidence.toValue format).canonical = .ok evidence.reread := by
  have distinct : ((evidence.slots format).map Prod.fst).Nodup :=
    show (["source", "query", "timestamp", "duration_ms", "truncated", "evidence_id",
      "source_kind", "source_ref", "query_or_operation", "observed_at", "time_range", "summary",
      "artifact_ref", "content_type", "byte_size", "sensitivity", "sha256"] : List String).Nodup
    by decide
  simp only [EvidenceMeta.ofValue, EvidenceMeta.toValue, get?_record distinct]
  simp only [EvidenceMeta.slots, List.lookup_cons, beq_self_eq_true, String.reduceBEq,
    Option.join_some]
  have source : required "source" readString ((some (Value.string evidence.source)).map
      Value.canonical) = .ok evidence.source := rfl
  have query := optional_ofOption fun text (_ : text ∈ evidence.query) => reads_string text
  have timestamp : required "timestamp" format.toTime
      ((some (format.ofTime evidence.timestamp)).map Value.canonical) = .ok evidence.timestamp :=
    lawful.time evidence.timestamp
  have durationMs : required "duration_ms" readU64 ((some (ofU64 evidence.durationMs)).map
      Value.canonical) = .ok evidence.durationMs := rfl
  have truncated := defaulted_unless (evidence.truncated = true)
    (show readBool (Value.bool evidence.truncated).canonical = .ok evidence.truncated from rfl)
    fun hidden => (Bool.not_eq_true _).mp hidden
  have evidenceId := optional_map fun id (_ : id ∈ evidence.evidenceId) =>
    reads_evidenceId lawful id
  have text (field : Option String) := optional_map fun text (_ : text ∈ field) => reads_string text
  have observedAt := optional_map fun time (_ : time ∈ evidence.observedAt) =>
    reads_time lawful time
  have timeRange := optional_map fun range (_ : range ∈ evidence.timeRange) =>
    TimeRange.reads lawful range
  have byteSize := defaulted_unless (evidence.byteSize ≠ 0)
    (show readU64 (ofU64 evidence.byteSize).canonical = .ok evidence.byteSize from rfl)
    fun hidden => not_not.mp hidden
  have sensitivity := defaulted_unless (evidence.sensitivity ≠ .internal)
    (Sensitivity.read evidence.sensitivity) fun hidden => not_not.mp hidden
  simp only [source, query, timestamp, durationMs, truncated, evidenceId, text, observedAt,
    timeRange, byteSize, sensitivity, defaulted_nonEmpty, defaulted_contentType, bind, Except.bind]
  by_cases default : evidence.contentType = defaultContentType
  · simp only [reread, if_pos default]
    rfl
  · simp only [reread, if_neg default]
    rfl

end

theorem EvidenceMeta.toValue_reread (format : Format) (evidence : EvidenceMeta) :
    evidence.reread.toValue format = evidence.toValue format := by
  by_cases default : evidence.contentType = defaultContentType
  · have hidden : evidence.contentType = "" ∨ evidence.contentType = defaultContentType :=
      .inr default
    simp only [toValue, slots, reread, if_pos default, hidden, not_true, if_false, true_or]
  · simp only [reread, if_neg default]

theorem EvidenceMeta.reread_eq_iff (evidence : EvidenceMeta) :
    evidence.reread = evidence ↔ evidence.contentType ≠ defaultContentType := by
  by_cases default : evidence.contentType = defaultContentType
  · rw [reread, if_pos default]
    refine iff_of_false ?_ (not_not.mpr default)
    intro same
    have empty : "" = evidence.contentType := congrArg EvidenceMeta.contentType same
    rw [default] at empty
    exact absurd empty (by decide)
  · rw [reread, if_neg default]
    exact iff_of_true rfl default

def ClaimKind.names : List (String × ClaimKind) := [
  ("observed", .observed), ("inferred", .inferred), ("recommended", .recommended)]

def ClaimKind.toValue : ClaimKind → Value
  | .observed => .string "observed"
  | .inferred => .string "inferred"
  | .recommended => .string "recommended"

def Confidence.names : List (String × Confidence) := [
  ("low", .low), ("medium", .medium), ("high", .high)]

def Confidence.toValue : Confidence → Value
  | .low => .string "low"
  | .medium => .string "medium"
  | .high => .string "high"

def Claim.slots (format : Format) (claim : Claim) : List (String × Option Value) := [
  ("claim_id", some (format.ofUuid claim.claimId.uuid)),
  ("kind", some claim.kind.toValue),
  ("statement", some (.string claim.statement)),
  ("evidence_ids", some (.array (claim.evidenceIds.map fun id => format.ofUuid id.uuid))),
  ("confidence", some claim.confidence.toValue)]

def Claim.toValue (format : Format) (claim : Claim) : Value := record (claim.slots format)

def Claim.ofValue (format : Format) (value : Value) : Except String Claim := do
  return {
    claimId := ⟨← required "claim_id" format.toUuid (value.get? "claim_id")⟩
    kind := ← required "kind" (readNamed ClaimKind.names) (value.get? "kind")
    statement := ← required "statement" readString (value.get? "statement")
    evidenceIds := ← defaulted [] (readList fun value => (format.toUuid value).map EvidenceId.mk)
      (value.get? "evidence_ids")
    confidence := ← required "confidence" (readNamed Confidence.names)
      (value.get? "confidence") }

def Diagnosis.slots (format : Format) (diagnosis : Diagnosis) : List (String × Option Value) := [
  ("summary", some (.string diagnosis.summary)),
  ("claims", some (.array (diagnosis.claims.map (Claim.toValue format)))),
  ("recommended_actions", some (.array (diagnosis.recommendedActions.map .string))),
  ("limitations", some (.array (diagnosis.limitations.map .string)))]

def Diagnosis.toValue (format : Format) (diagnosis : Diagnosis) : Value :=
  record (diagnosis.slots format)

def Diagnosis.ofValue (format : Format) (value : Value) : Except String Diagnosis := do
  return {
    summary := ← required "summary" readString (value.get? "summary")
    claims := ← defaulted [] (readList (Claim.ofValue format)) (value.get? "claims")
    recommendedActions := ← defaulted [] (readList readString) (value.get? "recommended_actions")
    limitations := ← defaulted [] (readList readString) (value.get? "limitations") }

theorem ClaimKind.read (kind : ClaimKind) :
    readNamed ClaimKind.names kind.toValue.canonical = .ok kind := by
  cases kind <;> rfl

theorem Confidence.read (confidence : Confidence) :
    readNamed Confidence.names confidence.toValue.canonical = .ok confidence := by
  cases confidence <;> rfl

section

variable {format : Format} (lawful : format.Lawful)

include lawful

theorem Claim.read (claim : Claim) :
    Claim.ofValue format (claim.toValue format).canonical = .ok claim := by
  have distinct : ((claim.slots format).map Prod.fst).Nodup :=
    show (["claim_id", "kind", "statement", "evidence_ids", "confidence"] : List String).Nodup
    by decide
  simp only [Claim.ofValue, Claim.toValue, get?_record distinct]
  simp only [Claim.slots, List.lookup_cons, beq_self_eq_true, String.reduceBEq, Option.join_some,
    Option.map_some, required, defaulted]
  have ids : readList (fun value => (format.toUuid value).map EvidenceId.mk)
      (Value.array (claim.evidenceIds.map fun id => format.ofUuid id.uuid)).canonical =
        .ok claim.evidenceIds :=
    readList_canonical fun id _ => (reads_evidenceId lawful id).read
  simp only [(reads_uuid lawful _).read, ClaimKind.read, (reads_string _).read, ids,
    Confidence.read, bind, Except.bind, pure, Except.pure]

theorem Diagnosis.reads (diagnosis : Diagnosis) :
    Reads (Diagnosis.toValue format) (Diagnosis.ofValue format) diagnosis := by
  constructor
  · have distinct : ((diagnosis.slots format).map Prod.fst).Nodup :=
      show (["summary", "claims", "recommended_actions", "limitations"] : List String).Nodup
      by decide
    simp only [Diagnosis.ofValue, Diagnosis.toValue, get?_record distinct]
    simp only [Diagnosis.slots, List.lookup_cons, beq_self_eq_true, String.reduceBEq,
      Option.join_some, Option.map_some, required, defaulted]
    have claims := readList_canonical fun claim (_ : claim ∈ diagnosis.claims) =>
      Claim.read lawful claim
    have texts (items : List String) := readList_canonical fun text (_ : text ∈ items) =>
      (reads_string text).read
    simp only [(reads_string _).read, claims, texts, bind, Except.bind, pure, Except.pure]
  · simp [Diagnosis.toValue, record, Value.canonical]

end

end Evidence

namespace Runtime

def IncidentSource.slots (source : IncidentSource) : List (String × Option Value) := [
  ("kind", some (.string source.kind)),
  ("fingerprint", source.fingerprint.map .string)]

def IncidentSource.toValue (source : IncidentSource) : Value := record source.slots

def IncidentSource.ofValue (value : Value) : Except String IncidentSource := do
  return {
    kind := ← required "kind" readString (value.get? "kind")
    fingerprint := ← optional readString (value.get? "fingerprint") }

def IncidentContext.slots (format : Format) (context : IncidentContext) :
    List (String × Option Value) := [
  ("service", context.service.map .string),
  ("environment", context.environment.map .string),
  ("starts_at", context.startsAt.map format.ofTime),
  ("ends_at", context.endsAt.map format.ofTime),
  ("labels", if context.labels ≠ [] then some (ofMap context.labels) else none),
  ("annotations", if context.annotations ≠ [] then some (ofMap context.annotations) else none),
  ("source", context.source.map IncidentSource.toValue)]

def IncidentContext.toValue (format : Format) (context : IncidentContext) : Value :=
  record (context.slots format)

def IncidentContext.ofValue (format : Format) (value : Value) : Except String IncidentContext := do
  return {
    service := ← optional readString (value.get? "service")
    environment := ← optional readString (value.get? "environment")
    startsAt := ← optional format.toTime (value.get? "starts_at")
    endsAt := ← optional format.toTime (value.get? "ends_at")
    labels := ← defaulted [] readMap (value.get? "labels")
    annotations := ← defaulted [] readMap (value.get? "annotations")
    source := ← optional IncidentSource.ofValue (value.get? "source") }

namespace RuntimeEvent

def eventName : RuntimeEvent → String
  | .threadCreated => "thread_created"
  | .userMessage .. => "user_message"
  | .turnStarted => "turn_started"
  | .assistantDelta .. => "assistant_delta"
  | .assistantCompleted .. => "assistant_completed"
  | .toolStarted .. => "tool_started"
  | .toolProposed .. => "tool_proposed"
  | .toolAuthorized .. => "tool_authorized"
  | .toolExecutionStarted .. => "tool_execution_started"
  | .toolCompleted .. => "tool_completed"
  | .approvalRequired .. => "approval_required"
  | .approvalResolved .. => "approval_resolved"
  | .turnCompleted => "turn_completed"
  | .turnFailed .. => "turn_failed"
  | .turnCancelled => "turn_cancelled"
  | .contextCompacted .. => "context_compacted"
  | .actionUpdated .. => "action_updated"

/-- The fields of an event besides its type. -/
def slots (format : Format) : RuntimeEvent → List (String × Option Value)
  | .threadCreated | .turnStarted | .turnCompleted | .turnCancelled => []
  | .userMessage content incidentContext => [
      ("content", some (.string content)),
      ("incident_context", incidentContext.map (IncidentContext.toValue format))]
  | .assistantDelta delta => [("delta", some (.string delta))]
  | .assistantCompleted content diagnosis => [
      ("content", some (.string content)),
      ("diagnosis", diagnosis.map (Diagnosis.toValue format))]
  | .toolStarted callId tool arguments | .toolProposed callId tool arguments => [
      ("call_id", some (.string callId)),
      ("tool", some (.string tool)),
      ("arguments", some arguments)]
  | .toolAuthorized callId tool decision => [
      ("call_id", some (.string callId)),
      ("tool", some (.string tool)),
      ("decision", some (.string decision))]
  | .toolExecutionStarted callId tool => [
      ("call_id", some (.string callId)),
      ("tool", some (.string tool))]
  | .toolCompleted callId tool output evidence success => [
      ("call_id", some (.string callId)),
      ("tool", some (.string tool)),
      ("output", some output),
      ("evidence", some (evidence.toValue format)),
      ("success", some (.bool success))]
  | .approvalRequired approvalId tool arguments => [
      ("approval_id", some (format.ofUuid approvalId.uuid)),
      ("tool", some (.string tool)),
      ("arguments", some arguments)]
  | .approvalResolved approvalId approved => [
      ("approval_id", some (format.ofUuid approvalId.uuid)),
      ("approved", some (.bool approved))]
  | .turnFailed error => [("error", some (.string error))]
  | .contextCompacted summaryId coversSeqStart coversSeqEnd sourceItemIds sourceEvidenceIds
      inputHash modelProvider model promptVersion summary => [
      ("summary_id", some (.string summaryId)),
      ("covers_seq_start", some (ofU64 (.ofNat coversSeqStart))),
      ("covers_seq_end", some (ofU64 (.ofNat coversSeqEnd))),
      ("source_item_ids", some (.array (sourceItemIds.map .string))),
      ("source_evidence_ids", some (.array (sourceEvidenceIds.map .string))),
      ("input_hash", some (.string inputHash)),
      ("model_provider", modelProvider.map .string),
      ("model", model.map .string),
      ("prompt_version", promptVersion.map .string),
      ("summary", some (.string summary))]
  | .actionUpdated actionId planId status tool requestHash review => [
      ("action_id", some (format.ofUuid actionId.uuid)),
      ("plan_id", some (format.ofUuid planId.uuid)),
      ("status", some (.string status)),
      ("tool", some (.string tool)),
      ("request_hash", some (.string requestHash)),
      ("review", some review)]

def toValue (format : Format) (event : RuntimeEvent) : Value :=
  record (("type", some (.string event.eventName)) :: event.slots format)

/-- The reader of the fields of each type of event. -/
def readers (format : Format) : List (String × (Value → Except String RuntimeEvent)) := [
  ("thread_created", fun _ => .ok .threadCreated),
  ("user_message", fun value => do
    return .userMessage
      (← required "content" readString (value.get? "content"))
      (← optional (IncidentContext.ofValue format) (value.get? "incident_context"))),
  ("turn_started", fun _ => .ok .turnStarted),
  ("assistant_delta", fun value => do
    return .assistantDelta
      (← required "delta" readString (value.get? "delta"))),
  ("assistant_completed", fun value => do
    return .assistantCompleted
      (← required "content" readString (value.get? "content"))
      (← optional (Diagnosis.ofValue format) (value.get? "diagnosis"))),
  ("tool_started", fun value => do
    return .toolStarted
      (← required "call_id" readString (value.get? "call_id"))
      (← required "tool" readString (value.get? "tool"))
      (← required "arguments" .ok (value.get? "arguments"))),
  ("tool_proposed", fun value => do
    return .toolProposed
      (← required "call_id" readString (value.get? "call_id"))
      (← required "tool" readString (value.get? "tool"))
      (← required "arguments" .ok (value.get? "arguments"))),
  ("tool_authorized", fun value => do
    return .toolAuthorized
      (← required "call_id" readString (value.get? "call_id"))
      (← required "tool" readString (value.get? "tool"))
      (← required "decision" readString (value.get? "decision"))),
  ("tool_execution_started", fun value => do
    return .toolExecutionStarted
      (← required "call_id" readString (value.get? "call_id"))
      (← required "tool" readString (value.get? "tool"))),
  ("tool_completed", fun value => do
    return .toolCompleted
      (← required "call_id" readString (value.get? "call_id"))
      (← required "tool" readString (value.get? "tool"))
      (← required "output" .ok (value.get? "output"))
      (← required "evidence" (EvidenceMeta.ofValue format) (value.get? "evidence"))
      (← required "success" readBool (value.get? "success"))),
  ("approval_required", fun value => do
    return .approvalRequired
      ⟨← required "approval_id" format.toUuid (value.get? "approval_id")⟩
      (← required "tool" readString (value.get? "tool"))
      (← required "arguments" .ok (value.get? "arguments"))),
  ("approval_resolved", fun value => do
    return .approvalResolved
      ⟨← required "approval_id" format.toUuid (value.get? "approval_id")⟩
      (← required "approved" readBool (value.get? "approved"))),
  ("turn_completed", fun _ => .ok .turnCompleted),
  ("turn_failed", fun value => do
    return .turnFailed
      (← required "error" readString (value.get? "error"))),
  ("turn_cancelled", fun _ => .ok .turnCancelled),
  ("context_compacted", fun value => do
    return .contextCompacted
      (← required "summary_id" readString (value.get? "summary_id"))
      (← required "covers_seq_start" toU64 (value.get? "covers_seq_start"))
      (← required "covers_seq_end" toU64 (value.get? "covers_seq_end"))
      (← required "source_item_ids" (readList readString) (value.get? "source_item_ids"))
      (← required "source_evidence_ids" (readList readString) (value.get? "source_evidence_ids"))
      (← required "input_hash" readString (value.get? "input_hash"))
      (← optional readString (value.get? "model_provider"))
      (← optional readString (value.get? "model"))
      (← optional readString (value.get? "prompt_version"))
      (← required "summary" readString (value.get? "summary"))),
  ("action_updated", fun value => do
    return .actionUpdated
      ⟨← required "action_id" format.toUuid (value.get? "action_id")⟩
      ⟨← required "plan_id" format.toUuid (value.get? "plan_id")⟩
      (← required "status" readString (value.get? "status"))
      (← required "tool" readString (value.get? "tool"))
      (← required "request_hash" readString (value.get? "request_hash"))
      (← required "review" .ok (value.get? "review")))]

def ofValue (format : Format) (value : Value) : Except String RuntimeEvent := do
  let read ← required "type" (readNamed (readers format)) (value.get? "type")
  read value

/-- What the types of the source guarantee: numbers are in range and maps are sorted. -/
def WellTyped : RuntimeEvent → Prop
  | .userMessage _ incidentContext => ∀ context ∈ incidentContext,
      (ofMap context.labels).canonical = ofMap context.labels ∧
        (ofMap context.annotations).canonical = ofMap context.annotations
  | .toolStarted _ _ payload | .toolProposed _ _ payload | .toolCompleted _ _ payload _ _
  | .approvalRequired _ _ payload | .actionUpdated _ _ _ _ _ payload =>
      payload.canonical = payload
  | .contextCompacted _ coversSeqStart coversSeqEnd _ _ _ _ _ _ _ =>
      coversSeqStart < 2 ^ 64 ∧ coversSeqEnd < 2 ^ 64
  | _ => True

end RuntimeEvent

section

variable {format : Format} (lawful : format.Lawful)

theorem IncidentSource.reads (source : IncidentSource) :
    Reads IncidentSource.toValue IncidentSource.ofValue source := by
  constructor
  · have distinct : (source.slots.map Prod.fst).Nodup :=
      show (["kind", "fingerprint"] : List String).Nodup by decide
    simp only [IncidentSource.ofValue, IncidentSource.toValue, get?_record distinct]
    have fingerprint := optional_map fun text (_ : text ∈ source.fingerprint) => reads_string text
    simp only [IncidentSource.slots, List.lookup_cons, beq_self_eq_true, String.reduceBEq,
      Option.join_some, fingerprint, Option.map_some, required, (reads_string _).read, bind,
      Except.bind, pure, Except.pure]
  · simp [IncidentSource.toValue, record, Value.canonical]

theorem toU64_ofU64 {number : Nat} (small : number < 2 ^ 64) :
    toU64 (ofU64 (.ofNat number)).canonical = .ok number := by
  change Except.ok (UInt64.ofNat number).toNat = Except.ok number
  rw [UInt64.toNat_ofNat_of_lt' small]

include lawful

theorem IncidentContext.reads {context : IncidentContext}
    (labels : (ofMap context.labels).canonical = ofMap context.labels)
    (annotations : (ofMap context.annotations).canonical = ofMap context.annotations) :
    Reads (IncidentContext.toValue format) (IncidentContext.ofValue format) context := by
  constructor
  · have distinct : ((context.slots format).map Prod.fst).Nodup :=
      show (["service", "environment", "starts_at", "ends_at", "labels", "annotations",
        "source"] : List String).Nodup by decide
    simp only [IncidentContext.ofValue, IncidentContext.toValue, get?_record distinct]
    simp only [IncidentContext.slots, List.lookup_cons, beq_self_eq_true, String.reduceBEq,
      Option.join_some]
    have text (field : Option String) := optional_map fun text (_ : text ∈ field) =>
      reads_string text
    have time (field : Option DateTime) := optional_map fun time (_ : time ∈ field) =>
      reads_time lawful time
    have source := optional_map fun source (_ : source ∈ context.source) =>
      IncidentSource.reads source
    have labelled := defaulted_unless (context.labels ≠ [])
      (show readMap (ofMap context.labels).canonical = .ok context.labels by
        rw [labels, readMap_ofMap]) fun hidden => not_not.mp hidden
    have annotated := defaulted_unless (context.annotations ≠ [])
      (show readMap (ofMap context.annotations).canonical = .ok context.annotations by
        rw [annotations, readMap_ofMap]) fun hidden => not_not.mp hidden
    simp only [text, time, source, labelled, annotated, bind, Except.bind, pure, Except.pure]
  · simp [IncidentContext.toValue, record, Value.canonical]

namespace RuntimeEvent

omit lawful in
theorem get?_toValue (event : RuntimeEvent) (key : String) :
    (event.toValue format).canonical.get? key =
      (((("type", some (.string event.eventName)) :: event.slots format).lookup
        key).join).map Value.canonical := by
  apply get?_record
  cases event <;> simp [slots]

omit lawful in
/-- The type of an event selects its reader. -/
theorem ofValue_toValue (event : RuntimeEvent) {read : Value → Except String RuntimeEvent}
    (selected : (readers format).lookup event.eventName = some read) :
    ofValue format (event.toValue format).canonical = read (event.toValue format).canonical := by
  simp only [ofValue, get?_toValue, List.lookup_cons_self, Option.join_some, Option.map_some,
    required, readNamed, Value.canonical, readString, bind, Except.bind, selected]

theorem read {event : RuntimeEvent} (typed : event.WellTyped) :
    ofValue format (event.toValue format).canonical = .ok event.reread := by
  cases event with
  | threadCreated | turnStarted | turnCompleted | turnCancelled =>
      rw [ofValue_toValue _ rfl]
      rfl
  | userMessage content context =>
      have incident := optional_map fun context' (member : context' ∈ context) =>
        IncidentContext.reads lawful (typed context' member).1 (typed context' member).2
      rw [ofValue_toValue _ rfl]
      simp only [get?_toValue, slots, List.lookup_cons, beq_self_eq_true, String.reduceBEq,
        Option.join_some, Option.map_some, required, (reads_string _).read, incident, bind,
        Except.bind]
      rfl
  | assistantCompleted content diagnosis =>
      have diagnosed := optional_map fun one (_ : one ∈ diagnosis) => Diagnosis.reads lawful one
      rw [ofValue_toValue _ rfl]
      simp only [get?_toValue, slots, List.lookup_cons, beq_self_eq_true, String.reduceBEq,
        Option.join_some, Option.map_some, required, (reads_string _).read, diagnosed, bind,
        Except.bind]
      rfl
  | toolStarted callId tool payload | toolProposed callId tool payload
  | approvalRequired approvalId tool payload =>
      have same : payload.canonical = payload := typed
      rw [ofValue_toValue _ rfl]
      simp only [get?_toValue, slots, List.lookup_cons, beq_self_eq_true, String.reduceBEq,
        Option.join_some, Option.map_some, required, (reads_string _).read,
        (reads_uuid lawful _).read, same, bind, Except.bind]
      rfl
  | assistantDelta | toolAuthorized | toolExecutionStarted | approvalResolved | turnFailed =>
      rw [ofValue_toValue _ rfl]
      simp only [get?_toValue, slots, List.lookup_cons, beq_self_eq_true, String.reduceBEq,
        Option.join_some, Option.map_some, required, (reads_uuid lawful _).read, Value.canonical,
        readBool, bind, Except.bind]
      rfl
  | toolCompleted callId tool output evidence success =>
      have same : output.canonical = output := typed
      rw [ofValue_toValue _ rfl]
      simp only [get?_toValue, slots, List.lookup_cons, beq_self_eq_true, String.reduceBEq,
        Option.join_some, Option.map_some, required, same, EvidenceMeta.read lawful,
        Value.canonical, readBool, bind, Except.bind]
      rfl
  | contextCompacted summaryId coversSeqStart coversSeqEnd sourceItemIds sourceEvidenceIds
      inputHash modelProvider model promptVersion summary =>
      have strings (items : List String) := readList_canonical fun text (_ : text ∈ items) =>
        (reads_string text).read
      have text (field : Option String) := optional_map fun text (_ : text ∈ field) =>
        reads_string text
      rw [ofValue_toValue _ rfl]
      simp only [get?_toValue, slots, List.lookup_cons, beq_self_eq_true, String.reduceBEq,
        Option.join_some, Option.map_some, required, (reads_string _).read, strings,
        toU64_ofU64 typed.1, toU64_ofU64 typed.2, bind, Except.bind]
      simp only [text]
      rfl
  | actionUpdated actionId planId status tool requestHash review =>
      have same : review.canonical = review := typed
      rw [ofValue_toValue _ rfl]
      simp only [get?_toValue, slots, List.lookup_cons, beq_self_eq_true, String.reduceBEq,
        Option.join_some, Option.map_some, required, (reads_string _).read,
        (reads_uuid lawful _).read, same, bind, Except.bind]
      rfl

end RuntimeEvent

end

def StreamKind.names : List (String × StreamKind) := [
  ("domain", .domain), ("delivery", .delivery)]

def StreamKind.toValue : StreamKind → Value
  | .domain => .string "domain"
  | .delivery => .string "delivery"

theorem StreamKind.read (kind : StreamKind) :
    readNamed StreamKind.names kind.toValue.canonical = .ok kind := by
  cases kind <;> rfl

namespace EventEnvelope

def envelopeKeys : List String := [
  "schema_version", "stream_kind", "event_id", "seq", "workspace_id", "thread_id", "turn_id",
  "item_id", "causation_id", "timestamp", "event"]

def slots (format : Format) (envelope : EventEnvelope) : List (String × Option Value) := [
  ("schema_version", some (ofU64 envelope.schemaVersion.toUInt64)),
  ("stream_kind", some envelope.streamKind.toValue),
  ("event_id", some (format.ofUuid envelope.eventId.uuid)),
  ("seq", some (ofU64 (.ofNat envelope.seq))),
  ("workspace_id", some (.string envelope.workspaceId.asStr)),
  ("thread_id", some (format.ofUuid envelope.threadId.uuid)),
  ("turn_id", envelope.turnId.map fun id => format.ofUuid id.uuid),
  ("item_id", envelope.itemId.map fun id => format.ofUuid id.uuid),
  ("causation_id", envelope.causationId.map fun id => format.ofUuid id.uuid),
  ("timestamp", some (format.ofTime envelope.timestamp)),
  ("type", some (.string envelope.event.eventName)),
  ("event", some (envelope.event.toValue format))]

def toValue (format : Format) (envelope : EventEnvelope) : Value := record (envelope.slots format)

/-- The event is nested, or in old records flattened into the envelope. -/
def parseEvent (format : Format) (value : Value) : Except String RuntimeEvent :=
  match value.get? "event", value with
  | some (.object fields), _ => RuntimeEvent.ofValue format (.object fields)
  | _, .object fields =>
      RuntimeEvent.ofValue format (.object (fields.filter fun field =>
        !envelopeKeys.contains field.1))
  | _, _ => RuntimeEvent.ofValue format (.object [])

def ofObject (format : Format) (value : Value) : Except String EventEnvelope := do
  let schemaVersion := (((value.get? "schema_version").bind Value.asU64?).getD 1).toUInt32
  let seq ← match (value.get? "seq").bind Value.asU64? with
    | some seq => .ok seq.toNat
    | none => .error "event envelope missing seq"
  let threadId ← match value.get? "thread_id" with
    | some threadId => (format.toUuid threadId).map ThreadId.mk
    | none => .error "event envelope missing thread_id"
  let turnId ← optional (fun value => (format.toUuid value).map TurnId.mk) (value.get? "turn_id")
  let itemId ← optional (fun value => (format.toUuid value).map ItemId.mk) (value.get? "item_id")
  let causationId ← optional (fun value => (format.toUuid value).map EventId.mk)
    (value.get? "causation_id")
  let timestamp ← defaulted format.now format.toTime (value.get? "timestamp")
  let workspaceId :=
    (((value.get? "workspace_id").bind Value.asStr?).map WorkspaceId.mk).getD .default
  let event ← parseEvent format value
  let streamKind ← defaulted (streamKindFor event) (readNamed StreamKind.names)
    (value.get? "stream_kind")
  let eventId ← defaulted (format.v1EventId threadId seq)
    (fun value => (format.toUuid value).map EventId.mk) (value.get? "event_id")
  return {
    schemaVersion := schemaVersion
    streamKind := streamKind
    eventId := eventId
    seq := seq
    workspaceId := workspaceId
    threadId := threadId
    turnId := turnId
    itemId := itemId
    causationId := causationId
    timestamp := timestamp
    event := event }

def ofValue (format : Format) : Value → Except String EventEnvelope
  | .object fields => ofObject format (.object fields)
  | _ => .error "event envelope must be an object"

/-- What the types of the source guarantee of an envelope. -/
def WellTyped (envelope : EventEnvelope) : Prop :=
  envelope.seq < 2 ^ 64 ∧ envelope.event.WellTyped

section

variable {format : Format}

theorem get?_toValue (envelope : EventEnvelope) (key : String) :
    (envelope.toValue format).canonical.get? key =
      (((envelope.slots format).lookup key).join).map Value.canonical := by
  apply get?_record
  simp [slots]

theorem parseEvent_toValue (envelope : EventEnvelope) :
    parseEvent format (envelope.toValue format).canonical =
      RuntimeEvent.ofValue format (envelope.event.toValue format).canonical := by
  simp only [parseEvent, get?_toValue, slots, List.lookup_cons, beq_self_eq_true,
    String.reduceBEq, Option.join_some, Option.map_some]
  rfl

theorem optional_uuid (lawful : format.Lawful) {Id : Type} (make : Uuid → Id) (uuid : Id → Uuid)
    (inverse : ∀ id, make (uuid id) = id) (id : Option Id) :
    optional (fun value => (format.toUuid value).map make)
      ((id.map fun id => format.ofUuid (uuid id)).map Value.canonical) = .ok id := by
  apply optional_map
  intro one _
  obtain ⟨read, present⟩ := reads_uuid lawful (uuid one)
  constructor
  · rw [read, Except.map, inverse]
  · exact present

/-- An envelope is read back from its JSON form with the event that the log gives back. -/
theorem read (lawful : format.Lawful) {envelope : EventEnvelope} (typed : envelope.WellTyped) :
    ofValue format (envelope.toValue format).canonical = .ok envelope.reread := by
  have number : (some (ofU64 (.ofNat envelope.seq)).canonical).bind Value.asU64? =
      some (.ofNat envelope.seq) := rfl
  have version : ((some (ofU64 envelope.schemaVersion.toUInt64).canonical).bind
      Value.asU64?).getD 1 = envelope.schemaVersion.toUInt64 := rfl
  have workspace : ((some (Value.string envelope.workspaceId.asStr).canonical).bind
      Value.asStr?).map WorkspaceId.mk = some envelope.workspaceId := rfl
  have turnId := optional_uuid lawful TurnId.mk TurnId.uuid (fun _ => rfl) envelope.turnId
  have itemId := optional_uuid lawful ItemId.mk ItemId.uuid (fun _ => rfl) envelope.itemId
  have causationId := optional_uuid lawful EventId.mk EventId.uuid (fun _ => rfl)
    envelope.causationId
  change ofObject format (envelope.toValue format).canonical = _
  simp only [ofObject, parseEvent_toValue, get?_toValue, slots, List.lookup_cons,
    beq_self_eq_true, String.reduceBEq, Option.join_some, Option.map_some, defaulted]
  simp only [number, version, workspace, turnId, itemId, causationId, (reads_uuid lawful _).read,
    (reads_time lawful _).read, RuntimeEvent.read lawful typed.2, StreamKind.read,
    UInt64.toNat_ofNat_of_lt' typed.1, UInt32.toUInt32_toUInt64, Option.getD_some]
  rfl

/-- What is read back is written as it was. -/
theorem toValue_reread (envelope : EventEnvelope) :
    envelope.reread.toValue format = envelope.toValue format := by
  have event : envelope.event.reread.toValue format = envelope.event.toValue format := by
    cases envelope.event with
    | toolCompleted callId tool output evidence success =>
        simp only [RuntimeEvent.reread, RuntimeEvent.toValue, RuntimeEvent.slots,
          evidence.toValue_reread]
        rfl
    | _ => rfl
  have name : envelope.event.reread.eventName = envelope.event.eventName := by
    cases envelope.event <;> rfl
  simp only [toValue, slots, EventEnvelope.reread, event, name]

/-- The envelopes that are read back as they were. -/
theorem reread_eq_iff (envelope : EventEnvelope) :
    envelope.reread = envelope ↔ ∀ callId tool output evidence success,
      envelope.event = .toolCompleted callId tool output evidence success →
        evidence.contentType ≠ EvidenceMeta.defaultContentType := by
  obtain ⟨schemaVersion, streamKind, eventId, seq, workspaceId, threadId, turnId, itemId,
    causationId, timestamp, event⟩ := envelope
  cases event with
  | toolCompleted callId tool output evidence success =>
      have same : EventEnvelope.reread ⟨schemaVersion, streamKind, eventId, seq, workspaceId,
            threadId, turnId, itemId, causationId, timestamp,
            .toolCompleted callId tool output evidence success⟩ =
          ⟨schemaVersion, streamKind, eventId, seq, workspaceId, threadId, turnId, itemId,
            causationId, timestamp, .toolCompleted callId tool output evidence success⟩ ↔
          evidence.reread = evidence := by
        simp [EventEnvelope.reread, RuntimeEvent.reread]
      rw [same, evidence.reread_eq_iff]
      constructor
      · intro different _ _ _ _ _ equal
        cases equal
        exact different
      · intro each
        exact each callId tool output evidence success rfl
  | _ =>
      refine iff_of_true rfl ?_
      intro _ _ _ _ _ equal
      cases equal

end

end EventEnvelope

end Runtime

end OpsCodex
