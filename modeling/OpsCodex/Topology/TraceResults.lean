import OpsCodex.Topology.ArtifactProjection
import OpsCodex.Topology.Invariant
import OpsCodex.Turn.ToolResults

/-! The way of a trace from the tool that fetches it to the topology. -/

set_option autoImplicit false

namespace OpsCodex.Evidence.Redact

open OpsCodex.Json

/-- Redaction keeps the fields of an object. -/
theorem keys_redactFields {fields : List (String × Value)}
    {result : List (String × Value) × Bool} (found : redactFields fields = some result) :
    result.1.map Prod.fst = fields.map Prod.fst := by
  induction fields generalizing result with
  | nil =>
      cases found
      rfl
  | cons field fields ih =>
      obtain ⟨key, value⟩ := field
      rw [redactFields] at found
      split at found
      · obtain ⟨rest, later, same⟩ := Option.bind_eq_some_iff.mp found
        cases same
        simp only [List.map_cons, ih later]
      · obtain ⟨first, -, found⟩ := Option.bind_eq_some_iff.mp found
        obtain ⟨rest, later, same⟩ := Option.bind_eq_some_iff.mp found
        cases same
        simp only [List.map_cons, ih later]

end OpsCodex.Evidence.Redact

namespace OpsCodex.Topology

open OpsCodex.Json OpsCodex.Evidence OpsCodex.Store OpsCodex.Runtime OpsCodex.Turn.ToolResults
  Keyed

/-- The output of the tool `trace_get` for a response of Tempo. -/
def traceGetContent (traceId summary : String) (truncated : Bool) (raw : Value) : Value :=
  .object [("trace_id", .string traceId), ("summary", .string summary),
    ("truncated", .bool truncated), ("raw", raw)]

/-- The calls that a graph knows from some evidence. -/
def callsFrom (evidence : EvidenceMeta) (graph : TopologyGraph) :
    List (String × String × String × String) :=
  (graph.edges.filter fun edge =>
    decide (edge.relation = "calls" ∧ evidenceText evidence ∈ edge.evidenceIds)).map
      TopologyEdge.key

section Recorded

variable {value : Value}

/-- A value that a trace projection finds nothing in. -/
structure Traceless (value : Value) : Prop where
  traces : value.get? "traces" = none
  batches : value.get? "batches" = none

theorem Traceless.changes (traceless : Traceless value) (cut : String → String) :
    traceChanges cut value = [] := by
  unfold traceChanges batchServices itemsAt
  rw [traceless.traces, traceless.batches]
  rfl

theorem Traceless.projection (traceless : Traceless value) (toVec : Value → List UInt8) :
    artifactTopologyProjection toVec "trace_get" value = none := by
  have nothing : traceArtifactProjection value = none := by
    unfold traceArtifactProjection projectedTraces projectedBatches itemsAt
    rw [traceless.traces, traceless.batches]
    rfl
  rw [artifactTopologyProjection, if_pos (.inr rfl), nothing]
  rfl

theorem lookup_eq_none {fields : List (String × Value)} {key : String}
    (absent : key ∉ fields.map Prod.fst) : fields.lookup key = none := by
  induction fields with
  | nil => rfl
  | cons field fields ih =>
      rw [List.map_cons, List.mem_cons, not_or] at absent
      have differs : (key == field.1) = false := beq_eq_false_iff_ne.mpr absent.1
      rw [List.lookup_cons, differs]
      exact ih absent.2

/-- The raw response is one level too deep for the projection of a trace. -/
theorem traceless_content {traceId summary : String} {truncated : Bool} {raw : Value}
    {redacted : Value × Bool}
    (redacts : Redact.redactJson (traceGetContent traceId summary truncated raw) =
      some redacted) : Traceless redacted.1 := by
  obtain ⟨fields, shown, same⟩ := Option.bind_eq_some_iff.mp redacts
  cases same
  have keys : fields.1.map Prod.fst = ["trace_id", "summary", "truncated", "raw"] :=
    Redact.keys_redactFields shown
  constructor
  · exact lookup_eq_none (by rw [keys]; decide)
  · exact lookup_eq_none (by rw [keys]; decide)

variable {deployment : Deployment} {evidence : EvidenceMeta}

/-- The payload of a recorded result is the content, or the record of the artifact. -/
theorem traceless_payload (projects : deployment.content.artifactTopologyProjection =
      artifactTopologyProjection deployment.codec.toVec) (traceless : Traceless value) :
    Traceless (projectionPayload (modelContent deployment "trace_get" evidence value)) := by
  have none : deployment.content.artifactTopologyProjection "trace_get" value = none := by
    rw [projects]
    exact traceless.projection _
  unfold modelContent modelToolOutput
  rw [none]
  cases evidence.artifactRef with
  | none => exact traceless
  | some ref => exact ⟨rfl, rfl⟩

end Recorded

section Calls

variable {workspaceId : WorkspaceId} {evidence : EvidenceMeta} {now : DateTime}
  {graph : TopologyGraph} {key : String × String × String × String}

/-- A graph with an edge that holds the evidence. -/
def Holds (evidence : EvidenceMeta) (key : String × String × String × String)
    (graph : TopologyGraph) : Prop :=
  ∃ edge ∈ graph.edges, edge.key = key ∧ evidenceText evidence ∈ edge.evidenceIds

theorem mem_addEvidence {text : String} {evidenceIds : List String} (named : text ≠ "") :
    text ∈ addEvidence text evidenceIds := by
  unfold addEvidence
  split
  · exact List.mem_append_right _ List.mem_cons_self
  · rename_i there
    exact not_not.mp fun absent => there ⟨named, absent⟩

theorem subset_addEvidence (text : String) (evidenceIds : List String) :
    evidenceIds ⊆ addEvidence text evidenceIds := by
  unfold addEvidence
  split
  · exact List.subset_append_left _ _
  · exact List.Subset.refl _

theorem Holds.apply (holds : Holds evidence key graph) (change : Change) :
    Holds evidence key (change.apply workspaceId evidence now graph) := by
  cases change with
  | node kind name => exact holds
  | edge fromId toId relation confidence source =>
      obtain ⟨edge, member, same, held⟩ := holds
      rcases kept_or_changed TopologyEdge.key member with kept | changed
      · exact ⟨edge, kept, same, held⟩
      · exact ⟨_, changed, same, subset_addEvidence _ _ held⟩

theorem Holds.applyAll (holds : Holds evidence key graph) (changes : List Change) :
    Holds evidence key (applyAll workspaceId evidence now graph changes) := by
  induction changes generalizing graph with
  | nil => exact holds
  | cons change changes ih => exact ih (holds.apply change)

/-- An edge that is asked for holds the evidence afterwards. -/
theorem holds_apply (named : evidenceText evidence ≠ "") {change : Change}
    (asked : change.key? = some key) :
    Holds evidence key (change.apply workspaceId evidence now graph) := by
  cases change with
  | node kind name => cases asked
  | edge fromId toId relation confidence source =>
      cases asked
      obtain ⟨edge, member, rfl | ⟨old, -, same, rfl⟩⟩ :=
        exists_upsert TopologyEdge.key graph.edges
      · exact ⟨_, member, rfl, mem_addEvidence named⟩
      · exact ⟨_, member, same, mem_addEvidence named⟩

theorem holds_applyAll (named : evidenceText evidence ≠ "") {changes : List Change}
    (asked : key ∈ changes.filterMap Change.key?) :
    Holds evidence key (applyAll workspaceId evidence now graph changes) := by
  obtain ⟨change, member, own⟩ := List.mem_filterMap.mp asked
  obtain ⟨before, after, rfl⟩ := List.append_of_mem member
  rw [applyAll_append]
  exact (holds_apply named own).applyAll after

/-- A raw response with two services gives a call. -/
theorem callsFrom_projectTrace_ne_nil {raw : Value} (named : evidenceText evidence ≠ "")
    (two : 2 ≤ (batchServices raw).length) :
    callsFrom evidence (projectTrace workspaceId evidence now graph raw) ≠ [] := by
  obtain ⟨caller, callee, rest, services⟩ : ∃ caller callee rest,
      batchServices raw = caller :: callee :: rest := by
    cases first : batchServices raw with
    | nil => rw [first] at two; cases two
    | cons caller others =>
        cases others with
        | nil => rw [first] at two; cases two; contradiction
        | cons callee rest => exact ⟨caller, callee, rest, rfl⟩
  have asked : (nodeId "service" caller, nodeId "service" callee, "calls", "trace") ∈
      (traceChanges id raw).filterMap Change.key? := by
    refine List.mem_filterMap.mpr ⟨.edge (nodeId "service" caller) (nodeId "service" callee)
      "calls" "high" "trace", ?_, rfl⟩
    refine List.mem_append_right _ (List.mem_flatMap.mpr ⟨(caller, callee), ?_, ?_⟩)
    · rw [services]
      exact List.mem_cons_self
    · exact List.mem_cons_of_mem _ (List.mem_cons_of_mem _ List.mem_cons_self)
  have holds : Holds evidence
      (nodeId "service" caller, nodeId "service" callee, "calls", "trace")
      (applyAll workspaceId evidence now graph (traceChanges id raw)) :=
    holds_applyAll named asked
  obtain ⟨edge, member, same, held⟩ := holds
  simp only [TopologyEdge.key, Prod.mk.injEq] at same
  rw [projectTrace_eq]
  refine List.ne_nil_of_mem (List.mem_map_of_mem (List.mem_filter.mpr ⟨member, ?_⟩))
  exact decide_eq_true ⟨same.2.2.1, held⟩

/-- Evidence that has an identifier. -/
theorem evidenceText_ne (fresh : Uuid) (known : evidence.evidenceId = some ⟨fresh⟩) :
    evidenceText evidence ≠ "" := by
  rw [evidenceText, known]
  exact Nat.repr_ne_empty

end Calls

section Traces

variable {deployment : Deployment} {context : TurnEventContext} {causation : Option EventId}
  {callId traceId summary : String} {truncated : Bool} {raw : Value} {own : EvidenceMeta}
  {redacted : Value × Bool} {command : AppendEvent} {evidence : EvidenceMeta} {described : Value}

/-- The recorded event of a fetched trace leaves the topology as it is, with evidence that has
an identifier. -/
theorem projectEvent_traceGet
    (redacts : ∀ value redacted, Redact.redactJson value = some redacted →
      deployment.content.redactJson value = redacted.1)
    (projects : deployment.content.artifactTopologyProjection =
      artifactTopologyProjection deployment.codec.toVec)
    (first : Redact.redactJson (traceGetContent traceId summary truncated raw) = some redacted)
    (asks : Effect.Asks (I := serviceInterface) (Digests deployment.codec)
      (emitToolResult deployment context causation callId "trace_get"
        ⟨traceGetContent traceId summary truncated raw, own⟩ true).run
      (.command (.appendEvent command)))
    (completed : command.event = .toolCompleted callId "trace_get" described evidence true)
    {envelope : EventEnvelope} (logged : envelope.event = command.event)
    (workspaceId : WorkspaceId) (now : DateTime) (graph : TopologyGraph) :
    projectEvent workspaceId now graph envelope = graph ∧ evidenceText evidence ≠ "" := by
  obtain ⟨fresh, rfl⟩ := asks_emitToolResult.mp asks
  rw [redacts _ _ first] at completed logged
  cases completed
  refine ⟨?_, evidenceText_ne fresh rfl⟩
  have traceless : Traceless (projectionPayload (modelContent deployment "trace_get"
      (finalizeEvidence deployment own redacted.1 (artifactRefOf deployment redacted.1) fresh)
      redacted.1)) :=
    traceless_payload projects (traceless_content first)
  rw [projectEvent_eq, logged]
  change applyAll _ _ _ _ (toolChanges id "trace_get" (projectionPayload _)) = graph
  rw [toolChanges, if_neg (by decide), if_pos (.inr rfl), traceless.changes]
  rfl

/-- Whatever Tempo answers, if its batches carry two service names, the recorded event of
`trace_get` does not add the calls that the raw response gives. -/
theorem callsFrom_traceGet_ne
    (redacts : ∀ value redacted, Redact.redactJson value = some redacted →
      deployment.content.redactJson value = redacted.1)
    (projects : deployment.content.artifactTopologyProjection =
      artifactTopologyProjection deployment.codec.toVec)
    (first : Redact.redactJson (traceGetContent traceId summary truncated raw) = some redacted)
    (two : 2 ≤ (batchServices raw).length)
    (asks : Effect.Asks (I := serviceInterface) (Digests deployment.codec)
      (emitToolResult deployment context causation callId "trace_get"
        ⟨traceGetContent traceId summary truncated raw, own⟩ true).run
      (.command (.appendEvent command)))
    (completed : command.event = .toolCompleted callId "trace_get" described evidence true)
    {envelope : EventEnvelope} (logged : envelope.event = command.event)
    (workspaceId : WorkspaceId) (now : DateTime) {graph : TopologyGraph}
    (unknown : callsFrom evidence graph = []) :
    callsFrom evidence (projectEvent workspaceId now graph envelope) ≠
      callsFrom evidence (projectTrace workspaceId evidence now graph raw) := by
  obtain ⟨same, named⟩ := projectEvent_traceGet redacts projects first asks completed logged
    workspaceId now graph
  rw [same, unknown]
  exact (callsFrom_projectTrace_ne_nil named two).symm

end Traces

namespace Demo.Traces

/-- A response of Tempo with two services. -/
def raw : Value := .object [("batches", .array
  [.object [("resource", .object [("service.name", .string "gateway")])],
    .object [("resource", .object [("service.name", .string "orders")])]])]

def tracing : Deployment :=
  { Turn.ToolResults.deployment with
    content := { Turn.ToolResults.deployment.content with
      artifactTopologyProjection :=
        artifactTopologyProjection Turn.ToolResults.deployment.codec.toVec } }

def content : Value := traceGetContent "4bf9" "2 batches" false raw

def output : ToolOutput := ⟨content, EvidenceMeta.new "tempo" 0 0⟩

def evidence : EvidenceMeta :=
  finalizeEvidence tracing output.evidence (tracing.content.redactJson content)
    (artifactRefOf tracing (tracing.content.redactJson content)) 0

def event : RuntimeEvent := .toolCompleted "call" "trace_get"
  (modelContent tracing "trace_get" evidence (tracing.content.redactJson content))
  evidence true

def envelope : EventEnvelope := { Demo.Graph.seen with event := event }

theorem redacts (value : Value) (redacted : Value × Bool)
    (found : Redact.redactJson value = some redacted) :
    tracing.content.redactJson value = redacted.1 :=
  redacts_deployment value redacted found

theorem redacted_content : ∃ redacted, Redact.redactJson content = some redacted :=
  Option.isSome_iff_exists.mp (by decide +kernel)

theorem asks : Effect.Asks (I := serviceInterface) (Digests tracing.codec)
    (emitToolResult tracing Turn.ToolResults.context none "call" "trace_get" output true).run
    (.command (.appendEvent (completion Turn.ToolResults.context none "call" "trace_get"
      evidence (modelContent tracing "trace_get" evidence
        (tracing.content.redactJson content)) true))) :=
  asks_emitToolResult.mpr ⟨0, rfl⟩

end Demo.Traces

open Demo.Traces in
theorem callsFrom_traceGet_ne_call :
    callsFrom evidence (projectEvent .default 0 .empty envelope) ≠
      callsFrom evidence (projectTrace .default evidence 0 .empty raw) := by
  obtain ⟨redacted, first⟩ := redacted_content
  exact callsFrom_traceGet_ne Demo.Traces.redacts rfl first (by decide) asks rfl rfl .default 0
    rfl

open Demo.Traces in
/-- The calls of a response with two services do not reach the topology. -/
theorem trace_get_loses_calls : ¬ ∀ command described evidence (envelope : EventEnvelope),
    Effect.Asks (I := serviceInterface) (Digests tracing.codec)
      (emitToolResult tracing Turn.ToolResults.context none "call" "trace_get" output true).run
      (.command (.appendEvent command)) →
    command.event = .toolCompleted "call" "trace_get" described evidence true →
    envelope.event = command.event →
    callsFrom evidence (projectEvent .default 0 .empty envelope) =
      callsFrom evidence (projectTrace .default evidence 0 .empty raw) := by
  intro always
  obtain ⟨redacted, first⟩ := redacted_content
  have same := always _ _ evidence envelope asks rfl rfl
  obtain ⟨kept, named⟩ := projectEvent_traceGet Demo.Traces.redacts rfl first asks rfl
    (show envelope.event = event from rfl) .default 0 .empty
  rw [kept] at same
  exact callsFrom_projectTrace_ne_nil named (by decide) same.symm

end OpsCodex.Topology
