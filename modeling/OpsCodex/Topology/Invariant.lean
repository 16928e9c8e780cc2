import Mathlib.Data.List.Perm.Subperm
import OpsCodex.Topology.Changes

/-! The invariant of the topology graph, and what a query keeps of it. -/

set_option autoImplicit false

namespace OpsCodex.Topology

open OpsCodex.Json OpsCodex.Evidence OpsCodex.Runtime Keyed

/-- A graph with one node per identifier and one edge per key, whose edges end at nodes. -/
structure TopologyGraph.Invariant (graph : TopologyGraph) : Prop where
  ids : graph.ids.Nodup
  keys : graph.keys.Nodup
  ends : ∀ edge ∈ graph.edges, edge.fromId ∈ graph.ids ∧ edge.toId ∈ graph.ids
  nodeEvidence : ∀ node ∈ graph.nodes, node.evidenceIds.Nodup
  edgeEvidence : ∀ edge ∈ graph.edges, edge.evidenceIds.Nodup

/-- The part of the invariant that each change keeps by itself. -/
structure TopologyGraph.Keyed (graph : TopologyGraph) : Prop where
  ids : graph.ids.Nodup
  keys : graph.keys.Nodup
  nodeEvidence : ∀ node ∈ graph.nodes, node.evidenceIds.Nodup
  edgeEvidence : ∀ edge ∈ graph.edges, edge.evidenceIds.Nodup

/-- Every edge that is asked for ends at nodes that are asked for. -/
def Grounded (changes : List Change) : Prop :=
  ∀ key ∈ changes.filterMap Change.key?,
    key.1 ∈ changes.filterMap Change.id? ∧ key.2.1 ∈ changes.filterMap Change.id?

section

variable {workspaceId : WorkspaceId} {evidence : EvidenceMeta} {now : DateTime}
  {graph : TopologyGraph} {changes : List Change}

theorem nodup_addEvidence (text : String) {evidenceIds : List String}
    (nodup : evidenceIds.Nodup) : (addEvidence text evidenceIds).Nodup := by
  unfold addEvidence
  split
  · rename_i fresh
    rw [List.nodup_append]
    refine ⟨nodup, List.nodup_singleton text, ?_⟩
    intro first member second last same
    exact fresh.2 (List.mem_singleton.mp last ▸ same ▸ member)
  · exact nodup

theorem TopologyGraph.Keyed.apply (keyed : graph.Keyed) (change : Change) :
    (change.apply workspaceId evidence now graph).Keyed := by
  cases change with
  | node kind name =>
      refine ⟨?_, keyed.keys, ?_, keyed.edgeEvidence⟩
      · rw [ids_apply]
        exact nodup_insertKey keyed.ids
      · exact forall_upsert keyed.nodeEvidence (fun node good => nodup_addEvidence _ good)
          (nodup_addEvidence _ List.nodup_nil)
  | edge fromId toId relation confidence source =>
      refine ⟨keyed.ids, ?_, keyed.nodeEvidence, ?_⟩
      · rw [keys_apply]
        exact nodup_insertKey keyed.keys
      · exact forall_upsert keyed.edgeEvidence (fun edge good => nodup_addEvidence _ good)
          (nodup_addEvidence _ List.nodup_nil)

theorem TopologyGraph.Keyed.applyAll (keyed : graph.Keyed) (changes : List Change) :
    (applyAll workspaceId evidence now graph changes).Keyed := by
  induction changes generalizing graph with
  | nil => exact keyed
  | cons change changes ih => exact ih (keyed.apply change)

/-- Grounded changes keep the invariant. -/
theorem TopologyGraph.Invariant.applyAll (invariant : graph.Invariant)
    (grounded : Grounded changes) :
    (applyAll workspaceId evidence now graph changes).Invariant := by
  have start : graph.Keyed :=
    ⟨invariant.ids, invariant.keys, invariant.nodeEvidence, invariant.edgeEvidence⟩
  have keyed : (Topology.applyAll workspaceId evidence now graph changes).Keyed :=
    start.applyAll changes
  refine ⟨keyed.ids, keyed.keys, ?_, keyed.nodeEvidence, keyed.edgeEvidence⟩
  intro edge member
  rcases mem_keys_applyAll.mp (List.mem_map_of_mem member) with old | asked
  · obtain ⟨other, inside, same⟩ := List.mem_map.mp old
    have ends := invariant.ends other inside
    simp only [TopologyEdge.key, Prod.mk.injEq] at same
    rw [← same.1, ← same.2.1]
    exact ⟨mem_ids_applyAll.mpr (.inl ends.1), mem_ids_applyAll.mpr (.inl ends.2)⟩
  · have ends := grounded edge.key asked
    exact ⟨mem_ids_applyAll.mpr (.inr ends.1), mem_ids_applyAll.mpr (.inr ends.2)⟩

end

section Grounded

variable {cut : String → String}

theorem Grounded.nil : Grounded [] := by
  intro key member
  exact absurd member List.not_mem_nil

theorem Grounded.append {first second : List Change} (one : Grounded first)
    (two : Grounded second) : Grounded (first ++ second) := by
  intro key member
  rw [List.filterMap_append] at member ⊢
  rcases List.mem_append.mp member with member | member
  · have ends := one key member
    exact ⟨List.mem_append_left _ ends.1, List.mem_append_left _ ends.2⟩
  · have ends := two key member
    exact ⟨List.mem_append_right _ ends.1, List.mem_append_right _ ends.2⟩

theorem Grounded.flatMap {Item : Type} {changes : Item → List Change} (items : List Item)
    (each : ∀ item, Grounded (changes item)) : Grounded (items.flatMap changes) := by
  induction items with
  | nil => exact .nil
  | cons item items ih =>
      rw [List.flatMap_cons]
      exact (each item).append ih

theorem grounded_call (client server : String) : Grounded (callChanges cut client server) := by
  intro key member
  simp only [callChanges, List.filterMap_cons, Change.key?, List.filterMap_nil,
    List.mem_singleton] at member
  subst member
  simp [callChanges, Change.id?]

theorem grounded_service (service : Option String) : Grounded (serviceChanges cut service) := by
  cases service with
  | none => exact .nil
  | some service =>
      intro key member
      exact absurd member (by simp [serviceChanges, Change.key?])

theorem grounded_trace (output : Value) : Grounded (traceChanges cut output) := by
  refine (Grounded.flatMap _ fun trace => ?_).append (Grounded.flatMap _ fun pair => ?_)
  · refine (grounded_service _).append ?_
    split
    · exact grounded_call _ _
    · exact .nil
  · exact grounded_call _ _

/-- The changes of an owner or a selector are grounded next to the node of their object. -/
def GroundedAt (node : String) (changes : List Change) : Prop :=
  ∀ key ∈ changes.filterMap Change.key?,
    (key.1 = node ∨ key.1 ∈ changes.filterMap Change.id?) ∧
      (key.2.1 = node ∨ key.2.1 ∈ changes.filterMap Change.id?)

theorem GroundedAt.append {node : String} {first second : List Change}
    (one : GroundedAt node first) (two : GroundedAt node second) :
    GroundedAt node (first ++ second) := by
  intro key member
  rw [List.filterMap_append] at member ⊢
  simp only [List.mem_append] at member ⊢
  rcases member with member | member
  · have ends := one key member
    exact ⟨ends.1.imp id .inl, ends.2.imp id .inl⟩
  · have ends := two key member
    exact ⟨ends.1.imp id .inr, ends.2.imp id .inr⟩

theorem GroundedAt.flatMap {node : String} {Item : Type} {changes : Item → List Change}
    (items : List Item) (each : ∀ item, GroundedAt node (changes item)) :
    GroundedAt node (items.flatMap changes) := by
  induction items with
  | nil => exact fun key member => absurd member List.not_mem_nil
  | cons item items ih =>
      rw [List.flatMap_cons]
      exact (each item).append ih

theorem GroundedAt.cons {kind name : String} {changes : List Change}
    (grounded : GroundedAt (nodeId kind name) changes) :
    Grounded (.node kind name :: changes) := by
  intro key member
  rw [List.filterMap_cons] at member
  have ends := grounded key member
  simp only [List.filterMap_cons, Change.id?, List.mem_cons]
  exact ends

theorem groundedAt_owner (node : String) (owner : Value) :
    GroundedAt node (ownerChanges cut node owner) := by
  intro key member
  simp only [ownerChanges, List.filterMap_cons, Change.key?, List.filterMap_nil,
    List.mem_singleton] at member
  subst member
  simp [ownerChanges, Change.id?]

theorem groundedAt_selector (node : String) (entry : String × Value) :
    GroundedAt node (selectorChanges cut node entry) := by
  unfold selectorChanges
  split
  · exact fun key member => absurd member List.not_mem_nil
  · intro key member
    simp only [List.filterMap_cons, Change.key?, List.filterMap_nil, List.mem_singleton] at member
    subst member
    simp [Change.id?]

theorem grounded_k8s (output : Value) : Grounded (k8sChanges cut output) := by
  unfold k8sChanges
  split
  · exact .nil
  · refine GroundedAt.cons ((GroundedAt.flatMap _ (groundedAt_owner _)).append ?_)
    split
    · exact GroundedAt.flatMap _ (groundedAt_selector _)
    · exact fun key member => absurd member List.not_mem_nil

theorem grounded_event (event : RuntimeEvent) : Grounded (eventChanges event) := by
  unfold eventChanges
  split
  · unfold toolChanges
    split
    · exact grounded_k8s _
    · split
      · exact grounded_trace _
      · exact grounded_service _
  · exact grounded_service _
  · exact .nil

end Grounded

section Project

variable {workspaceId : WorkspaceId} {now : DateTime}

theorem invariant_events {graph : TopologyGraph} (invariant : graph.Invariant)
    (events : List EventEnvelope) :
    (events.foldl (projectEvent workspaceId now) graph).Invariant := by
  induction events generalizing graph with
  | nil => exact invariant
  | cons envelope events ih =>
      refine ih ?_
      rw [projectEvent_eq]
      exact invariant.applyAll (grounded_event envelope.event)

theorem invariant_empty : TopologyGraph.empty.Invariant :=
  ⟨List.nodup_nil, List.nodup_nil, fun _ member => absurd member List.not_mem_nil,
    fun _ member => absurd member List.not_mem_nil, fun _ member => absurd member List.not_mem_nil⟩

/-- The order of the edges does not matter to the invariant. -/
theorem TopologyGraph.Invariant.perm {graph : TopologyGraph} (invariant : graph.Invariant)
    {edges : List TopologyEdge} (perm : edges.Perm graph.edges) :
    ({ graph with edges := edges } : TopologyGraph).Invariant where
  ids := invariant.ids
  keys := (perm.map TopologyEdge.key).nodup_iff.mpr invariant.keys
  ends edge member := invariant.ends edge (perm.mem_iff.mp member)
  nodeEvidence := invariant.nodeEvidence
  edgeEvidence edge member := invariant.edgeEvidence edge (perm.mem_iff.mp member)

theorem invariant_projectTopology (events : List EventEnvelope) :
    (projectTopology workspaceId events now).Invariant :=
  (invariant_events invariant_empty events).perm (List.mergeSort_perm _ _)

end Project

section Query

variable {graph : TopologyGraph} {query : TopologyQuery} {now : DateTime}

theorem key_markStale (edge : TopologyEdge) : (markStale now edge).key = edge.key := by
  unfold markStale
  split
  · rfl
  · rfl

theorem evidenceIds_markStale (edge : TopologyEdge) :
    (markStale now edge).evidenceIds = edge.evidenceIds := by
  unfold markStale
  split
  · rfl
  · rfl

theorem liveEdges_sublist (edges : List TopologyEdge) :
    (liveEdges query now edges).Sublist (edges.map (markStale now)) := by
  unfold liveEdges
  dsimp only
  split
  · exact List.Sublist.refl _
  · exact List.filter_sublist

/-- Two nodes that a live edge joins, in either direction. -/
def Adjacent (edges : List TopologyEdge) (node next : String) : Prop :=
  ∃ edge ∈ edges, (edge.fromId = node ∧ edge.toId = next) ∨
    (edge.toId = node ∧ edge.fromId = next)

theorem adjacent_of_mem_neighbors {edges : List TopologyEdge} {node next : String}
    (member : next ∈ neighbors edges node) : Adjacent edges node next := by
  have found := (Sequence.firstSeen_sublist _).subset (List.mem_mergeSort.mp member)
  obtain ⟨edge, inside, ends⟩ := List.mem_flatMap.mp found
  refine ⟨edge, inside, ?_⟩
  rcases List.mem_append.mp ends with ends | ends
  · split at ends
    · rename_i same
      exact .inl ⟨same, (List.mem_singleton.mp ends).symm⟩
    · exact absurd ends List.not_mem_nil
  · split at ends
    · rename_i same
      exact .inr ⟨same, (List.mem_singleton.mp ends).symm⟩
    · exact absurd ends List.not_mem_nil

/-- Where a query starts: at a node with evidence, or anywhere when no node has any. -/
def Seed (nodes : List TopologyNode) (id : String) : Prop :=
  ∃ node ∈ nodes, node.id = id ∧
    (node.evidenceIds ≠ [] ∨ ∀ other ∈ nodes, other.evidenceIds = [])

theorem seed_of_mem_seeds {nodes : List TopologyNode} {id : String}
    (member : id ∈ seeds nodes) : Seed nodes id := by
  unfold seeds at member
  dsimp only at member
  split at member
  · rename_i none
    obtain ⟨node, inside, rfl⟩ := List.mem_map.mp member
    refine ⟨node, inside, rfl, .inr ?_⟩
    intro other within
    have bare := List.filter_eq_nil_iff.mp (List.isEmpty_iff.mp none) other within
    simpa using bare
  · obtain ⟨node, inside, rfl⟩ := List.mem_map.mp member
    obtain ⟨within, evidenced⟩ := List.mem_filter.mp inside
    exact ⟨node, within, rfl, .inl (by simpa using evidenced)⟩

/-- What a query shows of a graph. -/
structure Shows (graph : TopologyGraph) (query : TopologyQuery) (now : DateTime)
    (shown : TopologyGraph) : Prop where
  nodes : shown.nodes.Sublist graph.nodes
  edges : shown.edges.Sublist (liveEdges query now graph.edges)
  invariant : shown.Invariant
  bounded : shown.nodes.length ≤ max query.maxNodes 1
  near : ∀ node ∈ shown.nodes, BoundedSearch.Near (Adjacent (liveEdges query now graph.edges))
    (Seed graph.nodes) (max query.depth 1) node.id

theorem shows_queryTopology (invariant : graph.Invariant) (query : TopologyQuery)
    (now : DateTime) : Shows graph query now (queryTopology graph query now) := by
  have live : (liveEdges query now graph.edges).Sublist (graph.edges.map (markStale now)) :=
    liveEdges_sublist graph.edges
  have marked : ∀ edge ∈ liveEdges query now graph.edges, ∃ own ∈ graph.edges,
      edge = markStale now own := by
    intro edge member
    obtain ⟨own, inside, rfl⟩ := List.mem_map.mp (live.subset member)
    exact ⟨own, inside, rfl⟩
  have ids : ((queryTopology graph query now).nodes.map TopologyNode.id).Nodup :=
    invariant.ids.sublist (List.filter_sublist.map _)
  refine ⟨List.filter_sublist, List.filter_sublist, ⟨ids, ?_, ?_, ?_, ?_⟩, ?_, ?_⟩
  · have same : (graph.edges.map (markStale now)).map TopologyEdge.key = graph.keys := by
      rw [List.map_map]
      exact List.map_congr_left fun edge _ => key_markStale edge
    refine List.Nodup.sublist ((List.filter_sublist.trans live).map TopologyEdge.key) ?_
    rw [same]
    exact invariant.keys
  · intro edge member
    obtain ⟨inside, allowed⟩ := List.mem_filter.mp member
    obtain ⟨own, within, rfl⟩ := marked edge inside
    have ends := invariant.ends own within
    have key : (markStale now own).key = own.key := key_markStale own
    simp only [TopologyEdge.key, Prod.mk.injEq] at key
    have kept := of_decide_eq_true allowed
    have shown : ∀ id ∈ graph.ids, id ∈ BoundedSearch.search
        (neighbors (liveEdges query now graph.edges)) (max query.depth 1)
        (max query.maxNodes 1) (seeds graph.nodes) →
        id ∈ (queryTopology graph query now).ids := by
      intro id member allowed
      obtain ⟨node, inside, rfl⟩ := List.mem_map.mp member
      exact List.mem_map_of_mem (List.mem_filter.mpr ⟨inside, decide_eq_true allowed⟩)
    exact ⟨shown _ (key.1 ▸ ends.1) kept.1, shown _ (key.2.1 ▸ ends.2) kept.2⟩
  · intro node member
    exact invariant.nodeEvidence node (List.mem_filter.mp member).1
  · intro edge member
    obtain ⟨own, within, rfl⟩ := marked edge (List.mem_filter.mp member).1
    rw [evidenceIds_markStale]
    exact invariant.edgeEvidence own within
  · have within : ((queryTopology graph query now).nodes.map TopologyNode.id) ⊆
        BoundedSearch.search (neighbors (liveEdges query now graph.edges)) (max query.depth 1)
          (max query.maxNodes 1) (seeds graph.nodes) := by
      intro id member
      obtain ⟨node, inside, rfl⟩ := List.mem_map.mp member
      exact of_decide_eq_true (List.mem_filter.mp inside).2
    have bound := (List.subperm_of_subset ids within).length_le
    rw [List.length_map] at bound
    exact Nat.le_trans bound (BoundedSearch.length_search_le _ _)
  · intro node member
    exact BoundedSearch.near_of_mem_search (fun _ _ => adjacent_of_mem_neighbors)
      (fun _ => seed_of_mem_seeds) (of_decide_eq_true (List.mem_filter.mp member).2)

/-- The projection of any log has the invariant, and every query of a graph with the
invariant shows a part of it with the invariant. -/
theorem topology_invariant :
    (∀ (workspaceId : WorkspaceId) (events : List EventEnvelope) (now : DateTime),
      (projectTopology workspaceId events now).Invariant) ∧
    ∀ graph : TopologyGraph, graph.Invariant → ∀ (query : TopologyQuery) (now : DateTime),
      Shows graph query now (queryTopology graph query now) :=
  ⟨fun _ events _ => invariant_projectTopology events,
    fun _ invariant query now => shows_queryTopology invariant query now⟩

namespace Demo.Graph

/-- A call between two services, seen at time zero. -/
def seen : EventEnvelope where
  schemaVersion := 2
  streamKind := .domain
  eventId := ⟨1⟩
  seq := 1
  workspaceId := .default
  threadId := ⟨1⟩
  turnId := none
  itemId := none
  causationId := none
  timestamp := 0
  event := .toolCompleted "call" "trace_search"
    (.object [("traces", .array [.object [("client", .string "gateway"),
      ("server", .string "orders")]])])
    { EvidenceMeta.new "tempo" 0 0 with evidenceId := some ⟨1⟩ } true

end Demo.Graph

theorem topology_invariant_call :
    Shows (projectTopology .default [Demo.Graph.seen] 0) .default 0
      (queryTopology (projectTopology .default [Demo.Graph.seen] 0) .default 0) :=
  topology_invariant.2 _ (topology_invariant.1 .default [Demo.Graph.seen] 0) .default 0

end Query

end OpsCodex.Topology
