import OpsCodex.Evidence.SummaryKeys
import OpsCodex.Turn.ToolResults

/-! Which texts of a tool reach the log and the artifacts of its results unredacted. -/

set_option autoImplicit false

namespace OpsCodex.Turn

open Effect OpsCodex.Json OpsCodex.Evidence OpsCodex.Action OpsCodex.Store OpsCodex.Runtime
open OpsCodex.Evidence.Redact

/-- A logged text is what redaction makes of the tool's own. -/
def RedactionOf (own logged : String) : Prop := ∃ changed, redactText own = some (logged, changed)

/-- The strings that a tool sets in its evidence. -/
def toolStrings (own : EvidenceMeta) : List String :=
  own.source :: own.contentType :: own.summary ::
    [own.query, own.sourceKind, own.sourceRef, own.queryOrOperation].filterMap id

/-- The content that reports an error of a tool. -/
def errorContent (error : OpsCodexError) : Value := .object [
  ("error", .string error.toString),
  ("class", .string error.connectorClass.asStr),
  ("retryable", .bool error.connectorClass.retryable)]

/-- A string that the model is told of a result is taken from the recorded evidence, is
redacted from the tool's content, or is of the projection of the redacted content. -/
inductive Told (content : Content) (name : String) (own redacted : Value)
    (evidence : EvidenceMeta) : String → Prop where
  | summary : Told content name own redacted evidence evidence.summary
  | sha256 : Told content name own redacted evidence evidence.sha256
  | evidenceId {id} (recorded : evidence.evidenceId = some id) :
      Told content name own redacted evidence (toString id)
  | artifactRef {ref} (recorded : evidence.artifactRef = some ref) :
      Told content name own redacted evidence ref
  | redacted {text} (redacts : Redacts (leaves own) text) :
      Told content name own redacted evidence text
  | projection {projection text}
      (projected : content.artifactTopologyProjection name redacted = some projection)
      (member : text ∈ leaves projection) : Told content name own redacted evidence text

/-- Every string logged of a successful result is redacted from the tool's, or is made from
its redacted content. -/
structure SuccessRedacted (deployment : Deployment) (name : String) (output : ToolOutput)
    (redacted again described : Value) (evidence : EvidenceMeta) : Prop where
  source : RedactionOf output.evidence.source evidence.source
  contentType : RedactionOf output.evidence.contentType evidence.contentType
  query : ∀ text ∈ evidence.query, ∃ own ∈ output.evidence.query, RedactionOf own text
  sourceKind : ∀ text ∈ evidence.sourceKind,
    RedactionOf (output.evidence.sourceKind.getD output.evidence.source) text
  sourceRef : ∀ text ∈ evidence.sourceRef,
    RedactionOf (output.evidence.sourceRef.getD output.evidence.source) text
  queryOrOperation : ∀ text ∈ evidence.queryOrOperation,
    ∃ own ∈ output.evidence.queryOrOperation.or output.evidence.query, RedactionOf own text
  summary : if output.evidence.summary.isEmpty then
      SummaryRedacted again evidence.summary
    else RedactionOf output.evidence.summary evidence.summary
  sha256 : evidence.sha256 = deployment.codec.sha256Hex (deployment.codec.toVec again)
  artifactRef : ∀ ref ∈ evidence.artifactRef,
    ref = deployment.codec.sha256Hex (deployment.codec.toVec redacted)
  told : ∀ text ∈ leaves described,
    Told deployment.content name output.content redacted evidence text
  keys : ∀ shown, described.get? "content" = some shown →
    List.Forall₂ RedactionOf (shownKeys output.content) (shownKeys shown)

/-- Every string logged of an error is redacted from the error's or the arguments' text; the
rest of its evidence names the tool. -/
structure ErrorRedacted (name arguments : String) (error : OpsCodexError) (described : Value)
    (evidence : EvidenceMeta) : Prop where
  told : ∀ text ∈ leaves described, Redacts (leaves (errorContent error)) text
  query : ∀ text ∈ evidence.query, RedactionOf arguments text
  queryOrOperation : ∀ text ∈ evidence.queryOrOperation, RedactionOf arguments text
  rest : ∃ observed stamped, evidence =
    { EvidenceMeta.new name observed stamped with
      query := evidence.query, queryOrOperation := evidence.queryOrOperation }

/-- What a program logs of a tool result, and what it stores. -/
structure Persists (codec : Codec) (program : Async EventId) (callId name : String)
    (success : Bool) (logged : Value → EvidenceMeta → Prop) (stored : List UInt8 → Prop) :
    Prop where
  logged : ∀ command described evidence,
    Asks (I := serviceInterface) (ToolResults.Digests codec) program.run
      (.command (.appendEvent command)) →
    command.event = .toolCompleted callId name described evidence success →
    logged described evidence
  stored : ∀ workspaceId bytes,
    Asks (I := serviceInterface) (ToolResults.Digests codec) program.run
      (.putArtifact workspaceId bytes) → stored bytes

namespace ToolResults

section

variable {deployment : Deployment} {context : TurnEventContext} {causation : Option EventId}
  {callId name : String} {output : ToolOutput} {evidence : EvidenceMeta}

theorem recorded_appendEvent (command : AppendEvent) :
    ¬ Unrecorded (.command (.appendEvent command)) := id

theorem recorded_putArtifact (workspaceId : WorkspaceId) (bytes : List UInt8) :
    ¬ Unrecorded (.putArtifact workspaceId bytes) := id

theorem asks_emitToolResult_false {asked : Op}
    (recorded : ¬ Unrecorded asked) :
    Asks (I := serviceInterface) (Digests deployment.codec)
        (emitToolResult deployment context causation callId name output false).run asked ↔
      asked = .command (.appendEvent (completion context causation callId name output.evidence
        (deployment.content.redactJson output.content) false)) := by
  unfold emitToolResult
  refine Fallible.asks_bind.trans ⟨?_, ?_⟩
  · rintro (describes | ⟨⟨evidence, described⟩, returns, later⟩)
    · cases describes
    · have same := Fallible.returns_pure.mp returns
      cases same
      rcases Fallible.asks_bind.mp later with appends | ⟨envelope, -, rest⟩
      · rcases asks_request.mp appends with same | ⟨answer, -, done⟩
        · exact same
        · cases done
      · rcases Fallible.asks_bind.mp rest with checkpoint | ⟨done, -, rest⟩
        · exact absurd (checkpoint.allowed (uses_writeCheckpoint ..)) recorded
        · cases rest
  · rintro rfl
    exact .inr ⟨_, Fallible.returns_pure.mpr rfl, Fallible.asks_bind.mpr (.inl .now)⟩

theorem returns_now {codec : Codec} (now : DateTime) :
    Effect.Returns (I := serviceInterface) (Digests codec) (Async.ask .now : Async DateTime).run
      (.ok now) := .request trivial .pure

/-- An error of a tool is logged as a result that did not succeed. -/
theorem asks_emitToolError {arguments : Value} {error : OpsCodexError} {asked : Op}
    (recorded : ¬ Unrecorded asked) :
    Asks (I := serviceInterface) (Digests deployment.codec)
        (emitToolError deployment context causation callId name arguments error).run asked ↔
      ∃ observed stamped, asked = .command (.appendEvent (completion context causation callId name
        ((EvidenceMeta.new name observed stamped).withQuery
          (deployment.content.valueText arguments))
        (deployment.content.redactJson (errorContent error)) false)) := by
  unfold emitToolError
  have clock : ∀ {asked : Op}, ¬ Unrecorded asked →
      ¬ Asks (I := serviceInterface) (Digests deployment.codec)
        (Async.ask .now : Async DateTime).run asked := by
    intro asked recorded asks
    exact recorded (asks.allowed (Span.uses_ask trivial))
  constructor
  · intro asks
    rcases Fallible.asks_bind.mp asks with first | ⟨observed, -, later⟩
    · exact absurd first (clock recorded)
    · rcases Fallible.asks_bind.mp later with second | ⟨stamped, -, emits⟩
      · exact absurd second (clock recorded)
      · exact ⟨observed, stamped, (asks_emitToolResult_false recorded).mp emits⟩
  · rintro ⟨observed, stamped, same⟩
    exact Fallible.asks_bind.mpr (.inr ⟨observed, returns_now observed,
      Fallible.asks_bind.mpr (.inr ⟨stamped, returns_now stamped,
        (asks_emitToolResult_false recorded).mpr same⟩)⟩)

theorem told_modelContent {own redacted : Value}
    (redacts : ∀ text ∈ leaves redacted, Redacts (leaves own) text) :
    ∀ text ∈ leaves (modelContent deployment name evidence redacted),
      Told deployment.content name own redacted evidence text := by
  intro text member
  have identified : ∀ text ∈ leaves (.ofOption (fun id => .string (toString id))
      evidence.evidenceId), Told deployment.content name own redacted evidence text := by
    intro text member
    cases recorded : evidence.evidenceId with
    | none =>
        rw [recorded] at member
        cases member
    | some id =>
        rw [recorded] at member
        rw [List.mem_singleton.mp member]
        exact .evidenceId recorded
  cases stored : evidence.artifactRef with
  | none =>
      simp only [modelContent, modelToolOutput, stored, setField, leaves, fieldLeaves,
        List.nil_append, List.append_nil, List.mem_append, List.mem_cons,
        List.cons_append] at member
      rcases member with id | rfl | rfl | content
      · exact identified text id
      · exact .summary
      · exact .sha256
      · exact .redacted (redacts text content)
  | some ref =>
      cases projected : deployment.content.artifactTopologyProjection name redacted with
      | none =>
          simp only [modelContent, modelToolOutput, stored, projected, setField, leaves,
            fieldLeaves, List.nil_append, List.append_nil, List.mem_append, List.mem_cons,
            List.not_mem_nil, or_false, List.cons_append] at member
          rcases member with id | rfl | rfl | rfl
          · exact identified text id
          · exact .summary
          · exact .sha256
          · exact .artifactRef stored
      | some projection =>
          simp only [modelContent, modelToolOutput, stored, projected, setField, leaves,
            fieldLeaves, List.nil_append, List.append_nil, List.mem_append, List.mem_cons,
            List.cons_append] at member
          rcases member with id | rfl | rfl | rfl | projects
          · exact identified text id
          · exact .summary
          · exact .sha256
          · exact .artifactRef stored
          · exact .projection projected projects

theorem get?_content_modelContent {redacted : Value} :
    (modelContent deployment name evidence redacted).get? "content" =
      if evidence.artifactRef = none then some redacted else none := by
  cases stored : evidence.artifactRef with
  | none => exact content_modelContent stored
  | some ref =>
      unfold modelContent modelToolOutput
      rw [stored]
      cases deployment.content.artifactTopologyProjection name redacted with
      | none => rfl
      | some projection => rfl

theorem mem_toolStrings {own : EvidenceMeta} {text : String} : text ∈ toolStrings own ↔
    text = own.source ∨ text = own.contentType ∨ text = own.summary ∨ own.query = some text ∨
      own.sourceKind = some text ∨ own.sourceRef = some text ∨
      own.queryOrOperation = some text := by
  simp only [toolStrings, List.mem_cons, List.mem_filterMap, id, List.not_mem_nil, or_false,
    exists_eq_right, eq_comm (a := some text)]

theorem redactionOf_empty : RedactionOf "" "" := ⟨false, rfl⟩

theorem artifactRefOf_eq_none_iff {redacted : Value} :
    artifactRefOf deployment redacted = none ↔
      (deployment.codec.toVec redacted).length ≤ deployment.config.inlineArtifactBytes := by
  unfold artifactRefOf
  split
  · rename_i large
    exact ⟨fun stored => (Option.some_ne_none _ stored).elim, fun small => by omega⟩
  · rename_i small
    exact ⟨fun _ => Nat.le_of_not_lt small, fun _ => rfl⟩

/-- What is logged of a successful result. -/
abbrev FinalRedacted (deployment : Deployment) (name : String) (output : ToolOutput)
    (redacted again : Value) (fresh : Uuid) : Prop :=
  SuccessRedacted deployment name output redacted again
    (modelContent deployment name
      (finalizeEvidence deployment output.evidence redacted (artifactRefOf deployment redacted)
        fresh) redacted)
    (finalizeEvidence deployment output.evidence redacted (artifactRefOf deployment redacted) fresh)

section

variable {redacted again : Value × Bool} {fresh : Uuid}

/-- The texts that the tool has set are logged as they are. -/
theorem unchanged_of_finalRedacted
    (shown : FinalRedacted deployment name output redacted.1 again.1 fresh) :
    ∀ text ∈ toolStrings output.evidence, RedactionOf text text := by
  intro text member
  rcases mem_toolStrings.mp member with rfl | rfl | rfl | query | kind | ref | operation
  · exact shown.source
  · exact shown.contentType
  · have summary := shown.summary
    simp only [finalizeEvidence] at summary
    split at summary
    · rename_i empty
      rw [String.isEmpty_iff.mp empty]
      exact redactionOf_empty
    · exact summary
  · obtain ⟨own, found, redaction⟩ := shown.query text query
    rw [Option.mem_def.mp found] at query
    cases query
    exact redaction
  · have redaction := shown.sourceKind _ rfl
    rw [kind] at redaction
    exact redaction
  · have redaction := shown.sourceRef _ rfl
    rw [ref] at redaction
    exact redaction
  · have logged : output.evidence.queryOrOperation.or output.evidence.query = some text := by
      rw [operation]
      rfl
    obtain ⟨own, found, redaction⟩ := shown.queryOrOperation text logged
    rw [Option.mem_def.mp found] at logged
    cases logged
    exact redaction

/-- The keys of a value that is not stored apart are logged as they are. -/
theorem keys_of_finalRedacted (first : Redact.redactJson output.content = some redacted)
    (shown : FinalRedacted deployment name output redacted.1 again.1 fresh)
    (small : (deployment.codec.toVec redacted.1).length ≤ deployment.config.inlineArtifactBytes) :
    ∀ key ∈ shownKeys output.content, RedactionOf key key := by
  have unstored := artifactRefOf_eq_none_iff.mpr small
  have keys := shown.keys redacted.1 (content_modelContent unstored)
  rw [shownKeys_redactValue first] at keys
  exact List.forall₂_same.mp keys

/-- A summary that the tool has left to be made shows no key that redaction changes. -/
theorem summary_of_finalRedacted (twice : deployment.content.redactJson redacted.1 = again.1)
    (shown : FinalRedacted deployment name output redacted.1 again.1 fresh)
    (empty : output.evidence.summary.isEmpty = true) :
    SummaryRedacted again.1 (deployment.content.summarizeValue again.1 280) := by
  have summary := shown.summary
  simpa only [finalizeEvidence, empty, if_true, twice] using summary

theorem finalRedacted_of_unchanged (first : Redact.redactJson output.content = some redacted)
    (twice : deployment.content.redactJson redacted.1 = again.1)
    (unchanged : ∀ text ∈ toolStrings output.evidence, RedactionOf text text)
    (summarized : output.evidence.summary.isEmpty = true →
      SummaryRedacted again.1 (deployment.content.summarizeValue again.1 280))
    (keys : (deployment.codec.toVec redacted.1).length ≤ deployment.config.inlineArtifactBytes →
      ∀ key ∈ shownKeys output.content, RedactionOf key key) :
    FinalRedacted deployment name output redacted.1 again.1 fresh := by
  have set : ∀ {text}, text ∈ toolStrings output.evidence → RedactionOf text text :=
    fun member => unchanged _ member
  have named : RedactionOf output.evidence.source output.evidence.source :=
    set (mem_toolStrings.mpr (.inl rfl))
  constructor
  case source => exact named
  case contentType => exact set (mem_toolStrings.mpr (.inr (.inl rfl)))
  case query =>
    intro text query
    exact ⟨text, query, set (mem_toolStrings.mpr (.inr (.inr (.inr (.inl query)))))⟩
  case sourceKind =>
    rintro text ⟨⟩
    cases kind : output.evidence.sourceKind with
    | none => exact named
    | some kind' =>
        exact set (mem_toolStrings.mpr (.inr (.inr (.inr (.inr (.inl kind))))))
  case sourceRef =>
    rintro text ⟨⟩
    cases ref : output.evidence.sourceRef with
    | none => exact named
    | some ref' =>
        exact set (mem_toolStrings.mpr (.inr (.inr (.inr (.inr (.inr (.inl ref)))))))
  case queryOrOperation =>
    intro text logged
    refine ⟨text, logged, ?_⟩
    cases operation : output.evidence.queryOrOperation with
    | none =>
        have query : output.evidence.query = some text := by
          simpa only [finalizeEvidence, operation, Option.none_or, Option.mem_def] using logged
        exact set (mem_toolStrings.mpr (.inr (.inr (.inr (.inl query)))))
    | some own =>
        have same : own = text := by
          simpa only [finalizeEvidence, operation, Option.some_or, Option.mem_def,
            Option.some.injEq] using logged
        subst same
        exact set (mem_toolStrings.mpr (.inr (.inr (.inr (.inr (.inr (.inr operation)))))))
  case summary =>
    simp only [finalizeEvidence, twice]
    split
    · rename_i empty
      exact summarized empty
    · exact set (mem_toolStrings.mpr (.inr (.inr (.inl rfl))))
  case sha256 => simp only [finalizeEvidence, twice]
  case artifactRef =>
    intro ref stored
    have recorded : artifactRefOf deployment redacted.1 = some ref := stored
    unfold artifactRefOf at recorded
    split at recorded
    · exact (Option.some.inj recorded).symm
    · cases recorded
  case told => exact told_modelContent fun text member => leaves_redactValue first text member
  case keys =>
    intro shown found
    rw [get?_content_modelContent] at found
    split at found
    · rename_i unstored
      cases found
      rw [shownKeys_redactValue first]
      exact List.forall₂_same.mpr (keys (artifactRefOf_eq_none_iff.mp unstored))
    · cases found

end

/-- The log of a successful result shows the tool's evidence as the tool set it, and the keys of
its content. -/
theorem successRedacted_iff (name : String) {redacted again : Value × Bool}
    (summarizes : ∀ value summary, summarizeValue Value.print value 280 = some summary →
      deployment.content.summarizeValue value 280 = String.ofList summary)
    (first : Redact.redactJson output.content = some redacted)
    (twice : deployment.content.redactJson redacted.1 = again.1)
    (summarized : output.evidence.summary.isEmpty = true →
      (summarizeValue Value.print again.1 280).isSome = true) (fresh : Uuid) :
    SuccessRedacted deployment name output redacted.1 again.1
        (modelContent deployment name
          (finalizeEvidence deployment output.evidence redacted.1
            (artifactRefOf deployment redacted.1) fresh) redacted.1)
        (finalizeEvidence deployment output.evidence redacted.1
          (artifactRefOf deployment redacted.1) fresh) ↔
      (∀ text ∈ toolStrings output.evidence, RedactionOf text text) ∧
        (output.evidence.summary.isEmpty = true →
          ∀ place ∈ summaryKeys again.1 280, KeyKept place) ∧
        ((deployment.codec.toVec redacted.1).length ≤ deployment.config.inlineArtifactBytes →
          ∀ key ∈ shownKeys output.content, RedactionOf key key) := by
  have shows (empty : output.evidence.summary.isEmpty = true) :
      SummaryRedacted again.1 (deployment.content.summarizeValue again.1 280) ↔
        ∀ place ∈ summaryKeys again.1 280, KeyKept place := by
    obtain ⟨summary, found⟩ := Option.isSome_iff_exists.mp (summarized empty)
    rw [summarizes _ _ found]
    exact summaryRedacted_iff found
  constructor
  · intro shown
    exact ⟨unchanged_of_finalRedacted shown,
      fun empty => (shows empty).mp (summary_of_finalRedacted twice shown empty),
      keys_of_finalRedacted first shown⟩
  · rintro ⟨unchanged, kept, keys⟩
    exact finalRedacted_of_unchanged first twice unchanged
      (fun empty => (shows empty).mpr (kept empty)) keys

theorem errorRedacted_iff (name arguments : String) {error : OpsCodexError} {failed : Value × Bool}
    (redacts : Redact.redactJson (errorContent error) = some failed) (observed stamped : DateTime) :
    ErrorRedacted name arguments error failed.1
        ((EvidenceMeta.new name observed stamped).withQuery arguments) ↔
      RedactionOf arguments arguments := by
  constructor
  · intro shown
    exact shown.query arguments rfl
  · intro unchanged
    constructor
    case told => exact fun text member => leaves_redactValue redacts text member
    case query =>
      rintro text ⟨⟩
      exact unchanged
    case queryOrOperation =>
      rintro text ⟨⟩
      exact unchanged
    case rest => exact ⟨observed, stamped, rfl⟩

end

end ToolResults

open ToolResults

namespace ToolResults

/-- A command's result, whose evidence has the command as its query. -/
def commandOutput (command : String) : ToolOutput where
  content := .string "ok"
  evidence := (EvidenceMeta.new "exec" 0 0).withQuery command

/-- A listing, of which a summary is left to be made. -/
def listing : ToolOutput where
  content := .object [("file", .string "notes")]
  evidence := (EvidenceMeta.new "exec" 0 0).withQuery "ls"

def summarizing : Deployment :=
  { deployment with
    content := { deployment.content with
      summarizeValue := fun value maxChars =>
        String.ofList ((summarizeValue Value.print value maxChars).getD []) } }

theorem summarizes_summarizing (value : Value) (summary : List Char)
    (found : summarizeValue Value.print value 280 = some summary) :
    summarizing.content.summarizeValue value 280 = String.ofList summary := by
  simp only [summarizing, found, Option.getD_some]

end ToolResults

end OpsCodex.Turn
