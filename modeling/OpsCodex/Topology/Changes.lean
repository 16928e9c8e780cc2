import OpsCodex.Topology

/-! A projection as the list of the nodes and edges that it asks for. -/

set_option autoImplicit false

namespace OpsCodex.Topology

open OpsCodex.Json OpsCodex.Evidence OpsCodex.Runtime Keyed

inductive Change where
  | node (kind name : String)
  | edge (fromId toId relation confidence source : String)

namespace Change

/-- The identifier of the node that a change asks for. -/
def id? : Change → Option String
  | .node kind name => some (nodeId kind name)
  | .edge .. => none

/-- The key of the edge that a change asks for. -/
def key? : Change → Option (String × String × String × String)
  | .node .. => none
  | .edge fromId toId relation _ source => some (fromId, toId, relation, source)

def apply (workspaceId : WorkspaceId) (evidence : EvidenceMeta) (now : DateTime)
    (graph : TopologyGraph) : Change → TopologyGraph
  | .node kind name => (upsertNode workspaceId evidence now graph kind name).1
  | .edge fromId toId relation confidence source =>
      pushEdge evidence now graph fromId toId relation confidence source

end Change

section

-- What becomes of the kinds and names of an output before they are used.
variable (cut : String → String)

def ownerChanges (node : String) (owner : Value) : List Change :=
  let kind := cut ((stringAt owner "kind").getD "Owner")
  let name := cut ((stringAt owner "name").getD "unknown")
  [.node kind name, .edge (nodeId kind name) node "owns" "high" "kubernetes"]

def selectorChanges (node : String) (entry : String × Value) : List Change :=
  match entry.2.asStr? with
  | none => []
  | some label =>
      let selector := cut entry.1 ++ "=" ++ cut label
      [.node "selector" selector,
        .edge node (nodeId "selector" selector) "selects" "medium" "kubernetes"]

def k8sChanges (output : Value) : List Change :=
  match k8sName output with
  | none => []
  | some name =>
      let node := nodeId (cut (k8sKind output)) (cut name)
      .node (cut (k8sKind output)) (cut name) ::
        ((k8sOwners output).flatMap (ownerChanges cut node) ++
          if Strings.eqIgnoreAsciiCase (k8sKind output).toList "Service".toList then
            (k8sSelector output).flatMap (selectorChanges cut node)
          else [])

def callChanges (client server : String) : List Change :=
  [.node "service" (cut client), .node "service" (cut server),
    .edge (nodeId "service" (cut client)) (nodeId "service" (cut server)) "calls" "high" "trace"]

def serviceChanges (service : Option String) : List Change :=
  match service with
  | some service => [.node "service" (cut service)]
  | none => []

def traceEntryChanges (trace : Value) : List Change :=
  serviceChanges cut (traceService trace) ++
    match stringAt trace "client", stringAt trace "server" with
    | some client, some server => callChanges cut client server
    | _, _ => []

def traceChanges (output : Value) : List Change :=
  (itemsAt output "traces").flatMap (traceEntryChanges cut) ++
    (windows (batchServices output)).flatMap fun pair => callChanges cut pair.1 pair.2

def toolChanges (tool : String) (output : Value) : List Change :=
  if tool = "k8s_get" then k8sChanges cut output
  else if tool = "trace_search" ∨ tool = "trace_get" then traceChanges cut output
  else serviceChanges cut (stringAt output "service")

end

def eventChanges (event : RuntimeEvent) : List Change :=
  match event with
  | .toolCompleted _ tool output _ true => toolChanges id tool (projectionPayload output)
  | .userMessage _ (some context) => serviceChanges id context.service
  | _ => []

def eventEvidence (now : DateTime) (event : RuntimeEvent) : EvidenceMeta :=
  match event with
  | .toolCompleted _ _ _ evidence _ => evidence
  | _ => alertEvidence now

/-- What a projection does to a graph. -/
def applyAll (workspaceId : WorkspaceId) (evidence : EvidenceMeta) (now : DateTime)
    (graph : TopologyGraph) (changes : List Change) : TopologyGraph :=
  changes.foldl (Change.apply workspaceId evidence now) graph

section

variable {workspaceId : WorkspaceId} {evidence : EvidenceMeta} {now : DateTime}
  {graph : TopologyGraph}

theorem applyAll_append (changes later : List Change) :
    applyAll workspaceId evidence now graph (changes ++ later) =
      applyAll workspaceId evidence now (applyAll workspaceId evidence now graph changes) later :=
  List.foldl_append

/-- A loop whose rounds each apply some changes applies them all. -/
theorem foldl_eq_applyAll {Item : Type} {project : TopologyGraph → Item → TopologyGraph}
    {changes : Item → List Change}
    (each : ∀ graph item, project graph item =
      applyAll workspaceId evidence now graph (changes item)) (items : List Item) :
    items.foldl project graph =
      applyAll workspaceId evidence now graph (items.flatMap changes) := by
  induction items generalizing graph with
  | nil => rfl
  | cons item items ih =>
      rw [List.foldl_cons, ih, each, List.flatMap_cons, applyAll_append]

theorem projectOwner_eq (node : String) (owner : Value) :
    projectOwner workspaceId evidence now node graph owner =
      applyAll workspaceId evidence now graph (ownerChanges id node owner) := rfl

theorem projectCall_eq (client server : String) :
    projectCall workspaceId evidence now graph client server =
      applyAll workspaceId evidence now graph (callChanges id client server) := rfl

theorem projectSelector_eq (node : String) (entry : String × Value) :
    projectSelector workspaceId evidence now node graph entry =
      applyAll workspaceId evidence now graph (selectorChanges id node entry) := by
  unfold projectSelector selectorChanges
  cases entry.2.asStr? with
  | none => rfl
  | some label => rfl

theorem projectK8sObject_eq (output : Value) :
    projectK8sObject workspaceId evidence now graph output =
      applyAll workspaceId evidence now graph (k8sChanges id output) := by
  unfold projectK8sObject k8sChanges
  cases k8sName output with
  | none => rfl
  | some name =>
      dsimp only
      rw [foldl_eq_applyAll (fun graph owner => projectOwner_eq _ owner)]
      split
      · rw [foldl_eq_applyAll (fun graph entry => projectSelector_eq _ entry), ← applyAll_append]
        rfl
      · rw [List.append_nil]
        rfl

theorem projectTraceEntry_eq (trace : Value) :
    projectTraceEntry workspaceId evidence now graph trace =
      applyAll workspaceId evidence now graph (traceEntryChanges id trace) := by
  unfold projectTraceEntry traceEntryChanges
  cases traceService trace with
  | none =>
      cases stringAt trace "client" with
      | none => rfl
      | some client => cases stringAt trace "server" <;> rfl
  | some service =>
      cases stringAt trace "client" with
      | none => rfl
      | some client => cases stringAt trace "server" <;> rfl

theorem projectTrace_eq (output : Value) :
    projectTrace workspaceId evidence now graph output =
      applyAll workspaceId evidence now graph (traceChanges id output) := by
  unfold projectTrace traceChanges
  dsimp only
  rw [applyAll_append, foldl_eq_applyAll (fun graph trace => projectTraceEntry_eq trace),
    foldl_eq_applyAll (fun graph pair => projectCall_eq pair.1 pair.2)]

theorem projectTool_eq (tool : String) (output : Value) :
    projectTool workspaceId now graph tool evidence output =
      applyAll workspaceId evidence now graph (toolChanges id tool output) := by
  unfold projectTool toolChanges
  split
  · exact projectK8sObject_eq output
  · split
    · exact projectTrace_eq output
    · cases stringAt output "service" with
      | none => rfl
      | some service => rfl

/-- The projection of an event applies the changes that the event asks for. -/
theorem projectEvent_eq (envelope : EventEnvelope) :
    projectEvent workspaceId now graph envelope =
      applyAll workspaceId (eventEvidence now envelope.event) now graph
        (eventChanges envelope.event) := by
  unfold projectEvent eventChanges eventEvidence
  cases envelope.event with
  | toolCompleted callId tool output evidence success =>
      cases success with
      | true => exact projectTool_eq tool (projectionPayload output)
      | false => rfl
  | userMessage content context =>
      cases context with
      | none => rfl
      | some context =>
          dsimp only
          cases context.service with
          | none => rfl
          | some service => rfl
  | _ => rfl

end

section

variable {workspaceId : WorkspaceId} {evidence : EvidenceMeta} {now : DateTime}
  {graph : TopologyGraph} {changes : List Change}

def TopologyGraph.ids (graph : TopologyGraph) : List String := graph.nodes.map TopologyNode.id

def TopologyGraph.keys (graph : TopologyGraph) : List (String × String × String × String) :=
  graph.edges.map TopologyEdge.key

theorem ids_upsertNode (kind name : String) :
    (upsertNode workspaceId evidence now graph kind name).1.ids =
      insertKey (nodeId kind name) graph.ids := by
  refine map_upsert ?_ ?_ graph.nodes
  · intro node
    rfl
  · rfl

theorem keys_pushEdge (fromId toId relation confidence source : String) :
    (pushEdge evidence now graph fromId toId relation confidence source).keys =
      insertKey (fromId, toId, relation, source) graph.keys := by
  refine map_upsert ?_ ?_ graph.edges
  · intro edge
    rfl
  · rfl

theorem ids_apply (change : Change) :
    (change.apply workspaceId evidence now graph).ids =
      match change.id? with
      | some id => insertKey id graph.ids
      | none => graph.ids := by
  cases change with
  | node kind name => exact ids_upsertNode kind name
  | edge fromId toId relation confidence source => rfl

theorem keys_apply (change : Change) :
    (change.apply workspaceId evidence now graph).keys =
      match change.key? with
      | some key => insertKey key graph.keys
      | none => graph.keys := by
  cases change with
  | node kind name => rfl
  | edge fromId toId relation confidence source =>
      exact keys_pushEdge fromId toId relation confidence source

/-- The nodes of a projected graph are the old ones and those that were asked for. -/
theorem mem_ids_applyAll {id : String} :
    id ∈ (applyAll workspaceId evidence now graph changes).ids ↔
      id ∈ graph.ids ∨ id ∈ changes.filterMap Change.id? := by
  unfold applyAll
  induction changes generalizing graph with
  | nil => simp
  | cons change changes ih =>
      rw [List.foldl_cons, ih, ids_apply, List.filterMap_cons]
      cases change.id? with
      | none => exact Iff.rfl
      | some own => simp only [mem_insertKey, List.mem_cons, or_assoc]

/-- The edges of a projected graph are the old ones and those that were asked for. -/
theorem mem_keys_applyAll {key : String × String × String × String} :
    key ∈ (applyAll workspaceId evidence now graph changes).keys ↔
      key ∈ graph.keys ∨ key ∈ changes.filterMap Change.key? := by
  unfold applyAll
  induction changes generalizing graph with
  | nil => simp
  | cons change changes ih =>
      rw [List.foldl_cons, ih, keys_apply, List.filterMap_cons]
      cases change.key? with
      | none => exact Iff.rfl
      | some own => simp only [mem_insertKey, List.mem_cons, or_assoc]

end

end OpsCodex.Topology
