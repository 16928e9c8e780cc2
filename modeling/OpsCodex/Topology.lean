import OpsCodex.Runtime.Event
import OpsCodex.Sequence.BoundedSearch
import OpsCodex.Sequence.Keyed
import OpsCodex.Strings

/-! The topology of a workspace: a graph that is projected from the events of its log, and the
part of it that a query shows. -/

set_option autoImplicit false

namespace OpsCodex

def Json.Value.asArray? : Json.Value → Option (List Json.Value)
  | .array items => some items
  | _ => none

def Json.Value.asObject? : Json.Value → Option (List (String × Json.Value))
  | .object fields => some fields
  | _ => none

namespace Topology

open OpsCodex.Json OpsCodex.Evidence OpsCodex.Runtime

structure TopologyNode where
  id : String
  kind : String
  workspaceId : WorkspaceId
  labels : List (String × String)
  evidenceIds : List String
  observedAt : DateTime

/-- The ends of an edge are `from` and `to` in its serialised form. -/
structure TopologyEdge where
  fromId : String
  toId : String
  relation : String
  confidence : String
  source : String
  evidenceIds : List String
  observedAt : DateTime
  expiresAt : DateTime
  stale : Bool

structure TopologyGraph where
  nodes : List TopologyNode
  edges : List TopologyEdge

structure TopologyQuery where
  depth : Nat
  maxNodes : Nat
  includeStale : Bool

def TopologyGraph.empty : TopologyGraph where
  nodes := []
  edges := []

def TopologyQuery.default : TopologyQuery where
  depth := 2
  maxNodes := 32
  includeStale := false

/-- Thirty minutes. -/
def ttl : Int := seconds (30 * 60)

/-- What makes two edges one. -/
def TopologyEdge.key (edge : TopologyEdge) : String × String × String × String :=
  (edge.fromId, edge.toId, edge.relation, edge.source)

def evidenceText (evidence : EvidenceMeta) : String :=
  (evidence.evidenceId.map fun id => toString id).getD ""

def addEvidence (text : String) (evidenceIds : List String) : List String :=
  if text ≠ "" ∧ text ∉ evidenceIds then evidenceIds ++ [text] else evidenceIds

def nodeId (kind name : String) : String := kind ++ ":" ++ name

section

variable (workspaceId : WorkspaceId) (evidence : EvidenceMeta) (now : DateTime)

def newNode (kind name : String) : TopologyNode where
  id := nodeId kind name
  kind := kind
  workspaceId := workspaceId
  labels := []
  evidenceIds := addEvidence (evidenceText evidence) []
  observedAt := now

/-- The graph with the node, and the identifier of the node. -/
def upsertNode (graph : TopologyGraph) (kind name : String) : TopologyGraph × String :=
  let touch (node : TopologyNode) : TopologyNode :=
    { node with
      evidenceIds := addEvidence (evidenceText evidence) node.evidenceIds
      observedAt := now }
  ({ graph with
      nodes := Keyed.upsert TopologyNode.id (nodeId kind name) touch
        (newNode workspaceId evidence now kind name) graph.nodes },
    nodeId kind name)

def newEdge (fromId toId relation confidence source : String) : TopologyEdge where
  fromId := fromId
  toId := toId
  relation := relation
  confidence := confidence
  source := source
  evidenceIds := addEvidence (evidenceText evidence) []
  observedAt := now
  expiresAt := now + ttl
  stale := false

def pushEdge (graph : TopologyGraph) (fromId toId relation confidence source : String) :
    TopologyGraph :=
  let touch (edge : TopologyEdge) : TopologyEdge :=
    { edge with
      evidenceIds := addEvidence (evidenceText evidence) edge.evidenceIds
      observedAt := now
      expiresAt := now + ttl
      stale := false }
  { graph with
    edges := Keyed.upsert TopologyEdge.key (fromId, toId, relation, source) touch
      (newEdge evidence now fromId toId relation confidence source) graph.edges }

/-- The string under a key. -/
def stringAt (value : Value) (key : String) : Option String :=
  (value.get? key).bind Value.asStr?

/-- The string under a path. -/
def stringAtPath (value : Value) (path : List String) : Option String :=
  (value.pointer? path).bind Value.asStr?

/-- The array under a key; nothing where there is none. -/
def itemsAt (value : Value) (key : String) : List Value :=
  ((value.get? key).bind Value.asArray?).getD []

def k8sObject (output : Value) : Value := (output.get? "object").getD output

def k8sKind (output : Value) : String :=
  (stringAt (k8sObject output) "kind" <|> stringAt output "kind").getD "Object"

def k8sName (output : Value) : Option String :=
  stringAtPath (k8sObject output) ["metadata", "name"] <|> stringAt output "name"

def k8sOwners (output : Value) : List Value :=
  (((k8sObject output).pointer? ["metadata", "ownerReferences"]).bind Value.asArray?).getD []

def k8sSelector (output : Value) : List (String × Value) :=
  (((k8sObject output).pointer? ["spec", "selector"]).bind Value.asObject?).getD []

def projectOwner (node : String) (graph : TopologyGraph) (owner : Value) : TopologyGraph :=
  let (graph, ownerId) := upsertNode workspaceId evidence now graph
    ((stringAt owner "kind").getD "Owner") ((stringAt owner "name").getD "unknown")
  pushEdge evidence now graph ownerId node "owns" "high" "kubernetes"

def projectSelector (node : String) (graph : TopologyGraph) (entry : String × Value) :
    TopologyGraph :=
  match entry.2.asStr? with
  | none => graph
  | some label =>
      let (graph, target) := upsertNode workspaceId evidence now graph "selector"
        (entry.1 ++ "=" ++ label)
      pushEdge evidence now graph node target "selects" "medium" "kubernetes"

def projectK8sObject (graph : TopologyGraph) (output : Value) : TopologyGraph :=
  match k8sName output with
  | none => graph
  | some name =>
      let (graph, node) := upsertNode workspaceId evidence now graph (k8sKind output) name
      let graph := (k8sOwners output).foldl (projectOwner workspaceId evidence now node) graph
      if Strings.eqIgnoreAsciiCase (k8sKind output).toList "Service".toList then
        (k8sSelector output).foldl (projectSelector workspaceId evidence now node) graph
      else graph

def projectCall (graph : TopologyGraph) (client server : String) : TopologyGraph :=
  let (graph, caller) := upsertNode workspaceId evidence now graph "service" client
  let (graph, callee) := upsertNode workspaceId evidence now graph "service" server
  pushEdge evidence now graph caller callee "calls" "high" "trace"

/-- The service of a trace: a root service that is no string hides the other field. -/
def traceService (trace : Value) : Option String :=
  (trace.get? "rootServiceName" <|> trace.get? "service").bind Value.asStr?

def projectTraceEntry (graph : TopologyGraph) (trace : Value) : TopologyGraph :=
  let graph := match traceService trace with
    | some service => (upsertNode workspaceId evidence now graph "service" service).1
    | none => graph
  match stringAt trace "client", stringAt trace "server" with
  | some client, some server => projectCall workspaceId evidence now graph client server
  | _, _ => graph

/-- The service names of the batches of a trace. -/
def batchServices (output : Value) : List String :=
  (itemsAt output "batches").filterMap fun batch =>
    stringAtPath batch ["resource", "service.name"]

/-- Neighbouring items. -/
def windows {Item : Type} (items : List Item) : List (Item × Item) := items.zip items.tail

def projectTrace (graph : TopologyGraph) (output : Value) : TopologyGraph :=
  let graph := (itemsAt output "traces").foldl (projectTraceEntry workspaceId evidence now) graph
  (windows (batchServices output)).foldl
    (fun graph pair => projectCall workspaceId evidence now graph pair.1 pair.2) graph

end

/-- The part of a recorded output that the topology is read from. -/
def projectionPayload (output : Value) : Value :=
  match output.get? "success" with
  | some (.bool true) =>
      (output.get? "content" <|> output.get? "topology_projection").getD output
  | _ => output

def projectTool (workspaceId : WorkspaceId) (now : DateTime) (graph : TopologyGraph)
    (tool : String) (evidence : EvidenceMeta) (output : Value) : TopologyGraph :=
  if tool = "k8s_get" then projectK8sObject workspaceId evidence now graph output
  else if tool = "trace_search" ∨ tool = "trace_get" then
    projectTrace workspaceId evidence now graph output
  else
    match stringAt output "service" with
    | some service => (upsertNode workspaceId evidence now graph "service" service).1
    | none => graph

/-- The evidence of an alert has no identifier. -/
def alertEvidence (now : DateTime) : EvidenceMeta :=
  { EvidenceMeta.new "alert" now now with evidenceId := none }

/-- One event of the log; the clock is the projection's, not the event's. -/
def projectEvent (workspaceId : WorkspaceId) (now : DateTime) (graph : TopologyGraph)
    (envelope : EventEnvelope) : TopologyGraph :=
  match envelope.event with
  | .toolCompleted _ tool output evidence true =>
      projectTool workspaceId now graph tool evidence (projectionPayload output)
  | .userMessage _ (some context) =>
      match context.service with
      | some service =>
          (upsertNode workspaceId (alertEvidence now) now graph "service" service).1
      | none => graph
  | _ => graph

def sourceRank (source : String) : Nat :=
  if source = "trace" then 3 else if source = "kubernetes" then 2 else 1

/-- Edges of better sources come first, then edges by where they start. -/
def edgeBefore (left right : TopologyEdge) : Bool :=
  decide (sourceRank right.source < sourceRank left.source ∨
    sourceRank left.source = sourceRank right.source ∧ ¬ right.fromId < left.fromId)

def projectTopology (workspaceId : WorkspaceId) (events : List EventEnvelope) (now : DateTime) :
    TopologyGraph :=
  let graph := events.foldl (projectEvent workspaceId now) .empty
  { graph with edges := graph.edges.mergeSort edgeBefore }

def markStale (now : DateTime) (edge : TopologyEdge) : TopologyEdge :=
  if edge.expiresAt ≤ now then { edge with stale := true } else edge

/-- The edges that pass the staleness filter. -/
def liveEdges (query : TopologyQuery) (now : DateTime) (edges : List TopologyEdge) :
    List TopologyEdge :=
  let edges := edges.map (markStale now)
  if query.includeStale then edges else edges.filter fun edge => !edge.stale

/-- The other ends of the edges of a node, in both directions, each once and in order. -/
def neighbors (edges : List TopologyEdge) (id : String) : List String :=
  (Sequence.firstSeen (fun other => other) (edges.flatMap fun edge =>
    (if edge.fromId = id then [edge.toId] else []) ++
      (if edge.toId = id then [edge.fromId] else []))).mergeSort fun left right =>
        decide (¬ right < left)

/-- The nodes with evidence, or all nodes when no node has any. -/
def seeds (nodes : List TopologyNode) : List String :=
  let evidenced := nodes.filter fun node => !node.evidenceIds.isEmpty
  if evidenced.isEmpty then nodes.map TopologyNode.id else evidenced.map TopologyNode.id

def queryTopology (graph : TopologyGraph) (query : TopologyQuery) (now : DateTime) :
    TopologyGraph :=
  let edges := liveEdges query now graph.edges
  let allowed := BoundedSearch.search (neighbors edges) (max query.depth 1) (max query.maxNodes 1)
    (seeds graph.nodes)
  { nodes := graph.nodes.filter fun node => decide (node.id ∈ allowed)
    edges := edges.filter fun edge => decide (edge.fromId ∈ allowed ∧ edge.toId ∈ allowed) }

end Topology

end OpsCodex
