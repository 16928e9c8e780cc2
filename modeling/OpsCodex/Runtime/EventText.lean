import OpsCodex.Runtime.EventFormat
import OpsCodex.Store.Table

/-! The text of event envelopes: which of them the log gives back, and with which numbers. -/

set_option autoImplicit false

namespace OpsCodex

open OpsCodex.Json OpsCodex.Runtime OpsCodex.Evidence

section

variable {format : Format} {number : Number → Number}

@[simp] theorem plain_ofUuid {bound : Nat} (id : Uuid) : (format.ofUuid id).Plain number bound :=
  plain_string _

@[simp] theorem plain_ofTime {bound : Nat} (time : DateTime) :
    (format.ofTime time).Plain number bound :=
  plain_string _

theorem plain_nonEmpty {bound : Nat} {text : String} {value : Value}
    (written : nonEmpty text = some value) : value.Plain number bound := by
  unfold nonEmpty at written
  split at written
  · cases written
    exact plain_string text
  · cases written

namespace Evidence

theorem plain_sensitivity {bound : Nat} (sensitivity : Sensitivity) :
    sensitivity.toValue.Plain number bound := by
  cases sensitivity <;> exact plain_string _

theorem TimeRange.plain (range : TimeRange) : (range.toValue format).Plain number 1 := by
  apply plain_record
  simp [slots]

theorem Claim.plain (claim : Claim) : (claim.toValue format).Plain number 2 := by
  have kind : claim.kind.toValue.Plain number 1 := by
    cases claim.kind <;> exact plain_string _
  have confidence : claim.confidence.toValue.Plain number 1 := by
    cases claim.confidence <;> exact plain_string _
  have ids : (Value.array (claim.evidenceIds.map fun id => format.ofUuid id.uuid)).Plain
      number (0 + 1) := plain_array fun id _ => plain_ofUuid id.uuid
  apply plain_record
  simp [slots, kind, confidence, ids]

theorem Diagnosis.plain (diagnosis : Diagnosis) :
    (diagnosis.toValue format).Plain number 4 := by
  have claims : (Value.array (diagnosis.claims.map (Claim.toValue format))).Plain number 3 :=
    plain_array fun claim _ => claim.plain
  have texts (items : List String) : (Value.array (items.map .string)).Plain number (2 + 1) :=
    plain_array fun text _ => plain_string text
  apply plain_record
  simp [slots, claims, texts]

end Evidence

section

variable (integer : ∀ value, number (.posInt value) = .posInt value)

include integer

theorem plain_ofU64 {bound : Nat} (value : UInt64) : (ofU64 value).Plain number bound :=
  ⟨congrArg Value.number (integer value), Nat.zero_le _⟩

theorem Evidence.EvidenceMeta.plain (evidence : EvidenceMeta) :
    (evidence.toValue format).Plain number 2 := by
  have query : (Value.ofOption .string evidence.query).Plain number 1 := by
    cases evidence.query
    · exact ⟨rfl, Nat.zero_le _⟩
    · exact plain_string _
  have range (range : TimeRange) : (range.toValue format).Plain number 1 := range.plain
  have numbers (value : UInt64) : (ofU64 value).Plain number 1 := plain_ofU64 integer value
  have texts (text : String) : ∀ value, nonEmpty text = some value → value.Plain number 1 :=
    fun _ => plain_nonEmpty
  apply plain_record
  simp +contextual [slots, query, range, numbers, texts evidence.summary, texts evidence.sha256,
    plain_sensitivity]

namespace Runtime

omit integer in
theorem IncidentSource.plain (source : IncidentSource) : source.toValue.Plain number 1 := by
  apply plain_record
  simp [slots]

omit integer in
theorem IncidentContext.plain (context : IncidentContext) :
    (context.toValue format).Plain number 2 := by
  have source (source : IncidentSource) : source.toValue.Plain number 1 := source.plain
  have maps (entries : List (String × String)) : (ofMap entries).Plain number 1 :=
    plain_ofMap entries
  apply plain_record
  simp [slots, source, maps]

namespace RuntimeEvent

/-- Every field of an event is plain but the payload. -/
theorem slots_plain (event : RuntimeEvent) : ∀ slot ∈ event.slots format, ∀ value ∈ slot.2,
    event.payload = some value ∨ value.Plain number 4 := by
  have numbers (value : UInt64) : (ofU64 value).Plain number 4 := plain_ofU64 integer value
  have texts (items : List String) : (Value.array (items.map .string)).Plain number (3 + 1) :=
    plain_array fun text _ => plain_string text
  cases event with
  | toolCompleted callId tool output evidence success =>
      have evidence : (evidence.toValue format).Plain number 4 :=
        (evidence.plain integer).mono (by decide)
      simp [slots, payload, evidence]
  | userMessage content incidentContext =>
      have context (context : IncidentContext) : (context.toValue format).Plain number 4 :=
        context.plain.mono (by decide)
      simp [slots, payload, context]
  | assistantCompleted content diagnosis =>
      have diagnosed (diagnosis : Diagnosis) : (diagnosis.toValue format).Plain number 4 :=
        diagnosis.plain
      simp [slots, payload, diagnosed]
  | _ => simp [slots, payload, numbers, texts]

theorem plain_toValue {event : RuntimeEvent} (bare : event.payload = none) :
    (event.toValue format).Plain number 5 := by
  apply plain_record
  intro slot member value written
  rcases List.mem_cons.mp member with rfl | member
  · cases written
    exact plain_string _
  · rcases slots_plain integer event slot member value written with carried | plain
    · rw [bare] at carried
      cases carried
    · exact plain

theorem mapNumbers_toValue (event : RuntimeEvent) :
    (event.toValue format).mapNumbers number = (event.mapNumbers number).toValue format := by
  cases event with
  | toolCompleted callId tool output evidence success =>
      have fixed : (evidence.toValue format).mapNumbers number = evidence.toValue format :=
        (evidence.plain integer).fixed
      simp [toValue, mapNumbers_record, slots, RuntimeEvent.mapNumbers, eventName, fixed,
        Value.mapNumbers]
  | toolStarted | toolProposed | approvalRequired | actionUpdated =>
      simp [toValue, mapNumbers_record, slots, RuntimeEvent.mapNumbers, eventName,
        Value.mapNumbers, Format.ofUuid]
  | _ => exact (plain_toValue integer rfl).fixed

omit integer in
theorem payload_slot {event : RuntimeEvent} {payload : Value}
    (carried : event.payload = some payload) :
    ∃ key, (key, some payload) ∈ event.slots format := by
  cases event with
  | toolStarted | toolProposed | approvalRequired =>
      cases carried
      exact ⟨"arguments", by simp [slots]⟩
  | toolCompleted =>
      cases carried
      exact ⟨"output", by simp [slots]⟩
  | actionUpdated =>
      cases carried
      exact ⟨"review", by simp [slots]⟩
  | _ => cases carried

theorem depth_toValue_lt_iff (event : RuntimeEvent) :
    (event.toValue format).depth + 1 < recursionLimit ↔ event.Legible := by
  constructor
  · intro shallow payload carried
    obtain ⟨key, member⟩ : ∃ key, (key, some payload) ∈ event.slots format :=
      payload_slot carried
    have deeper : payload.depth < (event.toValue format).depth :=
      depth_lt_record (List.mem_cons_of_mem _ member)
    omega
  · intro legible
    have shallow : (event.toValue format).depth ≤ 125 + 1 := by
      apply depth_record_le
      intro slot member value written
      rcases List.mem_cons.mp member with rfl | member
      · cases written
        exact Nat.zero_le _
      · rcases slots_plain integer event slot member value written with carried | plain
        · exact Nat.le_of_lt_succ (Nat.lt_of_add_lt_add_right (legible value carried))
        · exact Nat.le_trans plain.shallow (by decide)
    exact Nat.lt_of_le_of_lt (Nat.succ_le_succ shallow) (by decide)

end RuntimeEvent

namespace EventEnvelope

/-- Every field of an envelope is plain but the event. -/
theorem slots_plain (envelope : EventEnvelope) : ∀ slot ∈ envelope.slots format,
    ∀ value ∈ slot.2, slot.1 = "event" ∧ value = envelope.event.toValue format ∨
      value.Plain number 0 := by
  have numbers (value : UInt64) : (ofU64 value).Plain number 0 := plain_ofU64 integer value
  have kind : envelope.streamKind.toValue.Plain number 0 := by
    cases envelope.streamKind <;> exact plain_string _
  simp [slots, numbers, kind]

theorem mapNumbers_toValue (envelope : EventEnvelope) :
    (envelope.toValue format).mapNumbers number = (envelope.mapNumbers number).toValue format := by
  have name : (envelope.event.mapNumbers number).eventName = envelope.event.eventName := by
    cases envelope.event <;> rfl
  have kind : envelope.streamKind.toValue.mapNumbers number = envelope.streamKind.toValue := by
    cases envelope.streamKind <;> rfl
  have numbers (value : UInt64) : (ofU64 value).mapNumbers number = ofU64 value :=
    congrArg Value.number (integer value)
  simp [toValue, mapNumbers_record, slots, mapNumbers, name, kind, numbers,
    RuntimeEvent.mapNumbers_toValue integer, Value.mapNumbers, Format.ofUuid, Format.ofTime,
    Function.comp_def]

theorem depth_toValue_lt_iff (envelope : EventEnvelope) :
    (envelope.toValue format).depth < recursionLimit ↔ envelope.event.Legible := by
  have event : (envelope.event.toValue format).depth + 1 < recursionLimit ↔
      envelope.event.Legible := envelope.event.depth_toValue_lt_iff integer
  rw [← event]
  constructor
  · intro shallow
    have deeper : (envelope.event.toValue format).depth < (envelope.toValue format).depth :=
      depth_lt_record (show ("event", some (envelope.event.toValue format)) ∈ envelope.slots format
        by simp [slots])
    omega
  · intro shallow
    have bounded : (envelope.toValue format).depth ≤ (envelope.event.toValue format).depth + 1 := by
      apply depth_record_le
      intro slot member value written
      rcases slots_plain integer envelope slot member value written with ⟨_, rfl⟩ | plain
      · exact Nat.le_refl _
      · exact Nat.le_trans plain.shallow (Nat.zero_le _)
    omega

end EventEnvelope

end Runtime

end

end

namespace Runtime

section

variable {number : Number → Number}

theorem RuntimeEvent.WellTyped.mapNumbers {event : RuntimeEvent} (typed : event.WellTyped) :
    (event.mapNumbers number).WellTyped := by
  have sorted {payload : Value} (sorted : payload.canonical = payload) :
      (payload.mapNumbers number).canonical = payload.mapNumbers number := by
    rw [Value.canonical_mapNumbers, sorted]
  cases event with
  | toolStarted | toolProposed | toolCompleted | approvalRequired | actionUpdated =>
      exact sorted typed
  | _ => exact typed

theorem RuntimeEvent.mapNumbers_exact (exact : ∀ value, number value = value)
    (event : RuntimeEvent) : event.mapNumbers number = event := by
  have same : number = id := funext exact
  cases event <;> simp [RuntimeEvent.mapNumbers, same, Value.mapNumbers_id]

end

/-- The text of an event alone. -/
def RuntimeEvent.toVec (text : JsonText) (format : Format) (event : RuntimeEvent) : List UInt8 :=
  text.print (event.toValue format)

namespace EventEnvelope

theorem restored_exact {number : Number → Number} (exact : ∀ value, number value = value)
    (envelope : EventEnvelope) : envelope.restored number = envelope.reread := by
  rw [restored, mapNumbers, RuntimeEvent.mapNumbers_exact exact]

/-- The envelopes that are given back as they were. -/
theorem restored_eq_iff (number : Number → Number) (envelope : EventEnvelope) :
    envelope.restored number = envelope ↔
      envelope.reread = envelope ∧ envelope.event.mapNumbers number = envelope.event := by
  obtain ⟨schemaVersion, streamKind, eventId, seq, workspaceId, threadId, turnId, itemId,
    causationId, timestamp, event⟩ := envelope
  cases event with
  | toolCompleted callId tool output evidence success =>
      simp [restored, mapNumbers, reread, RuntimeEvent.mapNumbers, RuntimeEvent.reread, and_comm]
  | _ => simp [restored, mapNumbers, reread, RuntimeEvent.mapNumbers, RuntimeEvent.reread]

/-- The text of an envelope. -/
def toVec (text : JsonText) (format : Format) (envelope : EventEnvelope) : List UInt8 :=
  text.print (envelope.toValue format)

def fromSlice (text : JsonText) (format : Format) (bytes : List UInt8) :
    Except String EventEnvelope := do
  ofValue format (← text.parse bytes)

section

variable {text : JsonText} {format : Format} {envelope : EventEnvelope}
  (restores : text.Restores (envelope.toValue format))

include restores

theorem fromSlice_toVec (lawful : format.Lawful) (typed : envelope.WellTyped)
    (legible : envelope.event.Legible) :
    fromSlice text format (toVec text format envelope) = .ok (envelope.restored text.number) := by
  have parsed := restores.within ((depth_toValue_lt_iff text.integer envelope).mpr legible)
  rw [mapNumbers_toValue text.integer] at parsed
  have numbered : (envelope.mapNumbers text.number).WellTyped := ⟨typed.1, typed.2.mapNumbers⟩
  simp only [fromSlice, toVec, parsed, bind, Except.bind]
  exact read lawful numbered

theorem fromSlice_toVec_beyond (deep : ¬ envelope.event.Legible) :
    ∃ error, fromSlice text format (toVec text format envelope) = .error error := by
  have beyond : ¬ (envelope.toValue format).depth < recursionLimit := fun shallow =>
    deep ((depth_toValue_lt_iff text.integer envelope).mp shallow)
  obtain ⟨error, failed⟩ := restores.beyond (Nat.le_of_not_lt beyond)
  exact ⟨error, by simp only [fromSlice, toVec, failed, bind, Except.bind]⟩

/-- Decoding undoes encoding for every envelope but one nested too deep, and a tool result
whose evidence has the default content type. -/
theorem fromSlice_toVec_iff (exact : ∀ value, text.number value = value)
    (lawful : format.Lawful) (typed : envelope.WellTyped) :
    fromSlice text format (toVec text format envelope) = .ok envelope ↔
      envelope.event.Legible ∧ ∀ callId tool output evidence success,
        envelope.event = .toolCompleted callId tool output evidence success →
          evidence.contentType ≠ "application/json" := by
  by_cases legible : envelope.event.Legible
  · rw [fromSlice_toVec restores lawful typed legible, restored_exact exact, Except.ok.injEq,
      reread_eq_iff]
    exact ⟨fun kept => ⟨legible, kept⟩, fun kept => kept.2⟩
  · obtain ⟨error, failed⟩ := fromSlice_toVec_beyond restores legible
    refine iff_of_false ?_ fun kept => legible kept.1
    rw [failed]
    intro same
    cases same

end

end EventEnvelope

/-! Texts of two identifiers and one time, and padding for all others. -/

namespace Demo.EventText

def padding (count : Nat) (symbol : Char) : String :=
  String.ofList (List.replicate (count + 40) symbol)

def uuid (id : Nat) : String := "00000000-0000-0000-0000-00000000000" ++ toString id

def epoch : String := "1970-01-01T00:00:00Z"

def format : Format where
  uuidText id := if id = 1 ∨ id = 2 then uuid id else padding id '0'
  readUuid text :=
    if text = uuid 1 then .ok 1
    else if text = uuid 2 then .ok 2
    else .ok (text.toList.length - 40)
  timeText time :=
    if time = 0 then epoch
    else if 0 < time then padding time.toNat '+' else padding (-time).toNat '-'
  readTime text :=
    if text = epoch then .ok 0
    else if text.toList.head? = some '+' then .ok ((text.toList.length - 40 : Nat) : Int)
    else .ok (-((text.toList.length - 40 : Nat) : Int))
  now := 0
  v1EventId := fun threadId _ => ⟨threadId.uuid⟩

theorem toList_padding (count : Nat) (symbol : Char) :
    (padding count symbol).toList = symbol :: List.replicate (count + 39) symbol := by
  rw [padding, String.toList_ofList, List.replicate_succ]

theorem padding_ne (count : Nat) (symbol : Char) {text : String}
    (short : text.toList.length < 40) : padding count symbol ≠ text := by
  intro same
  rw [← same, toList_padding, List.length_cons, List.length_replicate] at short
  omega

theorem lawful : format.Lawful := by
  constructor
  · intro id
    by_cases known : id = 1 ∨ id = 2
    · rcases known with rfl | rfl
      · rfl
      · rfl
    · have one := padding_ne id '0' (show (uuid 1).toList.length < 40 by decide)
      have two := padding_ne id '0' (show (uuid 2).toList.length < 40 by decide)
      simp only [format, if_neg known, if_neg one, if_neg two, toList_padding, List.length_cons,
        List.length_replicate]
      rfl
  · intro time
    by_cases known : time = 0
    · subst known
      rfl
    · by_cases positive : 0 < time
      · have other := padding_ne time.toNat '+' (show epoch.toList.length < 40 by decide)
        simp only [format, if_neg known, if_pos positive, if_neg other, toList_padding,
          List.length_cons, List.length_replicate, List.head?_cons, if_true]
        have back : (time.toNat : Int) = time := Int.toNat_of_nonneg (Int.le_of_lt positive)
        rw [show time.toNat + 39 + 1 - 40 = time.toNat by omega, back]
      · have other := padding_ne (-time).toNat '-' (show epoch.toList.length < 40 by decide)
        have minus : ¬ some '-' = some '+' := by decide
        simp only [format, if_neg known, if_neg positive, if_neg other, toList_padding,
          List.length_cons, List.length_replicate, List.head?_cons, if_neg minus]
        have back : ((-time).toNat : Int) = -time :=
          Int.toNat_of_nonneg (Int.neg_nonneg_of_nonpos (Int.not_lt.mp positive))
        rw [show (-time).toNat + 39 + 1 - 40 = (-time).toNat by omega, back, Int.neg_neg]

/-- A text with its value. -/
structure Sample where
  json : List Char
  value : Value

def Sample.bytes (sample : Sample) : List UInt8 := sample.json.map Char.toUInt8

def seqOf (value : Value) : Option UInt64 := (value.get? "seq").bind Value.asU64?

def Sample.seq (sample : Sample) : Option UInt64 := seqOf sample.value

/-- A library of which only the texts of a few records are known, by their numbers. -/
def known (samples : List Sample) : JsonText where
  print value := ((Table.lookup Sample.seq (seqOf value) samples).map Sample.bytes).getD []
  parse bytes :=
    match Table.lookup Sample.bytes bytes samples with
    | some sample =>
        if sample.value.depth < recursionLimit then .ok sample.value.canonical
        else .error "recursion limit exceeded"
    | none => .error "expected value"
  number := id
  integer := JsonText.integer_id

theorem known_restores {samples : List Sample} {sample : Sample}
    (seqs : (samples.map Sample.seq).Nodup) (texts : (samples.map Sample.bytes).Nodup)
    (member : sample ∈ samples) : (known samples).Restores sample.value := by
  have printed : Table.lookup Sample.seq (seqOf sample.value) samples = some sample :=
    Table.lookup_of_mem seqs member
  have parsed := Table.lookup_of_mem texts member
  constructor
  · intro shallow
    have fixed : sample.value.mapNumbers (known samples).number = sample.value :=
      sample.value.mapNumbers_id
    rw [fixed]
    simp only [known, printed, Option.map_some, Option.getD_some, parsed, if_pos shallow]
  · intro deep
    refine ⟨"recursion limit exceeded", ?_⟩
    simp only [known, printed, Option.map_some, Option.getD_some, parsed,
      if_neg (Nat.not_lt.mpr deep)]

def envelope (seq : Nat) (event : RuntimeEvent) : EventEnvelope where
  schemaVersion := eventSchemaVersion
  streamKind := .domain
  eventId := ⟨seq⟩
  seq := seq
  workspaceId := ⟨"team"⟩
  threadId := ⟨1⟩
  turnId := none
  itemId := none
  causationId := none
  timestamp := 0
  event := event

/-- The text of an envelope, from the parts in which the examples differ. -/
def envelopeText (seq event fields : List Char) : List Char :=
  "\x7b\"schema_version\":2,\"stream_kind\":\"domain\",\"event_id\":".toList ++
    "\"00000000-0000-0000-0000-00000000000".toList ++ seq ++ "\",\"seq\":".toList ++ seq ++
    ",\"workspace_id\":\"team\",\"thread_id\":".toList ++
    "\"00000000-0000-0000-0000-000000000001\",".toList ++
    "\"timestamp\":\"1970-01-01T00:00:00Z\",\"type\":\"".toList ++ event ++
    "\",\"event\":\x7b\"type\":\"".toList ++ event ++ "\"".toList ++ fields ++
    "\x7d\x7d".toList

def created : EventEnvelope := envelope 1 .threadCreated

/-- A successful result with fresh evidence. -/
def completed : EventEnvelope :=
  envelope 2 (.toolCompleted "call" "list" (.array []) (.new "shell" 0 0) true)

def createdSample : Sample where
  json := envelopeText "1".toList "thread_created".toList []
  value := created.toValue format

theorem completed_legible : completed.event.Legible := by decide

def completedSample : Sample where
  json := envelopeText "2".toList "tool_completed".toList (
    ",\"call_id\":\"call\",\"tool\":\"list\",\"output\":[],".toList ++
    "\"evidence\":\x7b\"source\":\"shell\",\"query\":null,".toList ++
    "\"timestamp\":\"1970-01-01T00:00:00Z\",\"duration_ms\":0,".toList ++
    "\"source_kind\":\"shell\",\"source_ref\":\"shell\",".toList ++
    "\"observed_at\":\"1970-01-01T00:00:00Z\"\x7d,\"success\":true".toList)
  value := completed.toValue format

def samples : List Sample := [createdSample, completedSample]

theorem samples_seq : (samples.map Sample.seq).Nodup := by decide +kernel

set_option maxRecDepth 20000 in
theorem samples_bytes : (samples.map Sample.bytes).Nodup := by decide +kernel

theorem created_restores : (known samples).Restores createdSample.value :=
  have member : createdSample ∈ samples := List.mem_cons_self
  known_restores samples_seq samples_bytes member

theorem completed_restores : (known samples).Restores completedSample.value :=
  have member : completedSample ∈ samples := List.mem_cons_of_mem _ List.mem_cons_self
  known_restores samples_seq samples_bytes member

/-- A successful result with evidence that is plain text. -/
def reported : EventEnvelope :=
  envelope 2 (.toolCompleted "call" "list" (.array [])
    { EvidenceMeta.new "shell" 0 0 with contentType := "text/plain" } true)

def reportedSample : Sample where
  json := envelopeText "2".toList "tool_completed".toList (
    ",\"call_id\":\"call\",\"tool\":\"list\",\"output\":[],".toList ++
    "\"evidence\":\x7b\"source\":\"shell\",\"query\":null,".toList ++
    "\"timestamp\":\"1970-01-01T00:00:00Z\",\"duration_ms\":0,".toList ++
    "\"source_kind\":\"shell\",\"source_ref\":\"shell\",".toList ++
    "\"observed_at\":\"1970-01-01T00:00:00Z\",\"content_type\":\"text/plain\"".toList ++
    "\x7d,\"success\":true".toList)
  value := reported.toValue format

theorem reported_restores : (known [reportedSample]).Restores reportedSample.value :=
  known_restores (by simp) (by simp) List.mem_cons_self

/-- So many arrays around nothing. -/
def nested : Nat → Value
  | 0 => .null
  | depth + 1 => .array [nested depth]

/-- A proposal whose arguments are nested too deep for its record to be read. -/
def buried : EventEnvelope := envelope 2 (.toolProposed "call" "list" (nested 126))

def buriedSample : Sample where
  json := envelopeText "2".toList "tool_proposed".toList (
    ",\"call_id\":\"call\",\"tool\":\"list\",\"arguments\":".toList ++
    List.replicate 126 '[' ++ "null".toList ++ List.replicate 126 ']')
  value := buried.toValue format

def buriedSamples : List Sample := [createdSample, buriedSample]

theorem buriedSamples_seq : (buriedSamples.map Sample.seq).Nodup := by decide +kernel

set_option maxRecDepth 20000 in
theorem buriedSamples_bytes : (buriedSamples.map Sample.bytes).Nodup := by decide +kernel

theorem buriedSamples_restore : ∀ sample ∈ buriedSamples,
    (known buriedSamples).Restores sample.value := fun _ =>
  known_restores buriedSamples_seq buriedSamples_bytes

theorem not_legible_buried : ¬ buried.event.Legible := by decide +kernel

end Demo.EventText

open Demo.EventText in
theorem fromSlice_toVec_iff_reported :
    EventEnvelope.fromSlice (known [reportedSample]) format
      (reported.toVec (known [reportedSample]) format) = .ok reported := by
  have typed : reported.WellTyped := ⟨by decide, rfl⟩
  refine (EventEnvelope.fromSlice_toVec_iff reported_restores (fun _ => rfl) lawful typed).mpr
    ⟨by decide, ?_⟩
  intro callId tool output evidence success same
  cases same
  decide

open Demo.EventText in
/-- Evidence as it is made anew loses its content type. -/
theorem not_fromSlice_toVec : completed.WellTyped ∧ completed.event.Legible ∧
    (known samples).Restores (completed.toValue format) ∧
    EventEnvelope.fromSlice (known samples) format (completed.toVec (known samples) format) ≠
      .ok completed := by
  have typed : completed.WellTyped := ⟨by decide, rfl⟩
  refine ⟨typed, completed_legible, completed_restores, fun same => ?_⟩
  have kept := (EventEnvelope.fromSlice_toVec_iff completed_restores (fun _ => rfl) lawful
    typed).mp same
  exact kept.2 "call" "list" (.array []) (.new "shell" 0 0) true rfl rfl

end Runtime

end OpsCodex
