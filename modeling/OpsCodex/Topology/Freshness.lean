import OpsCodex.Topology.Invariant

/-! When an old observation is stale in the topology: the projection takes its own clock for
the time of every observation. -/

set_option autoImplicit false

namespace OpsCodex.Topology

open OpsCodex.Json OpsCodex.Evidence OpsCodex.Runtime Keyed

/-- An event that shows the edge with this key. -/
def Observes (envelope : EventEnvelope) (key : String × String × String × String) : Prop :=
  key ∈ (eventChanges envelope.event).filterMap Change.key?

/-- By the timestamps of the events, every observation of the edge is longer than the time to
live before `now`. -/
def AllOld (events : List EventEnvelope) (now : DateTime)
    (key : String × String × String × String) : Prop :=
  ∀ envelope ∈ events, Observes envelope key → envelope.timestamp + ttl < now

/-- An edge with old observations only is marked stale at `now`, and no query shows it as
anything but a stale edge that was asked for. -/
def StaleWhenOld (workspaceId : WorkspaceId) (events : List EventEnvelope)
    (projected now : DateTime) : Prop :=
  ∀ edge ∈ (projectTopology workspaceId events projected).edges, AllOld events now edge.key →
    (markStale now edge).stale = true ∧
      ∀ query, ∀ shown ∈ (queryTopology (projectTopology workspaceId events projected) query
        now).edges, shown.key = edge.key → shown.stale = true ∧ query.includeStale = true

section

variable {workspaceId : WorkspaceId} {events : List EventEnvelope} {projected now : DateTime}

/-- An edge as the projection leaves it. -/
structure JustObserved (projected : DateTime) (edge : TopologyEdge) : Prop where
  expiresAt : edge.expiresAt = projected + ttl
  stale : edge.stale = false

theorem justObserved_apply {graph : TopologyGraph} {evidence : EvidenceMeta}
    (all : ∀ edge ∈ graph.edges, JustObserved projected edge) (change : Change) :
    ∀ edge ∈ (change.apply workspaceId evidence projected graph).edges,
      JustObserved projected edge := by
  cases change with
  | node kind name => exact all
  | edge fromId toId relation confidence source =>
      exact forall_upsert all (fun edge _ => ⟨rfl, rfl⟩) ⟨rfl, rfl⟩

theorem justObserved_applyAll {graph : TopologyGraph} {evidence : EvidenceMeta}
    (all : ∀ edge ∈ graph.edges, JustObserved projected edge) (changes : List Change) :
    ∀ edge ∈ (applyAll workspaceId evidence projected graph changes).edges,
      JustObserved projected edge := by
  induction changes generalizing graph with
  | nil => exact all
  | cons change changes ih => exact ih (justObserved_apply all change)

theorem justObserved_events {graph : TopologyGraph}
    (all : ∀ edge ∈ graph.edges, JustObserved projected edge) (events : List EventEnvelope) :
    ∀ edge ∈ (events.foldl (projectEvent workspaceId projected) graph).edges,
      JustObserved projected edge := by
  induction events generalizing graph with
  | nil => exact all
  | cons envelope events ih =>
      refine ih ?_
      rw [projectEvent_eq]
      exact justObserved_applyAll all _

/-- Every edge of a projection looks as if it had been observed when the log was projected. -/
theorem justObserved_projectTopology {edge : TopologyEdge}
    (member : edge ∈ (projectTopology workspaceId events projected).edges) :
    JustObserved projected edge := by
  have none : ∀ edge ∈ TopologyGraph.empty.edges, JustObserved projected edge :=
    fun _ inside => absurd inside List.not_mem_nil
  exact justObserved_events none events edge (List.mem_mergeSort.mp member)

theorem mem_keys_events {graph : TopologyGraph} {key : String × String × String × String}
    (events : List EventEnvelope) :
    key ∈ (events.foldl (projectEvent workspaceId projected) graph).keys ↔
      key ∈ graph.keys ∨ ∃ envelope ∈ events, Observes envelope key := by
  induction events generalizing graph with
  | nil => simp
  | cons envelope events ih =>
      rw [List.foldl_cons, ih, projectEvent_eq, mem_keys_applyAll, or_assoc]
      simp only [List.mem_cons, exists_eq_or_imp]
      exact Iff.rfl

/-- The edges of a projection are those that some event shows. -/
theorem exists_edge_iff {key : String × String × String × String} :
    (∃ edge ∈ (projectTopology workspaceId events projected).edges, edge.key = key) ↔
      ∃ envelope ∈ events, Observes envelope key := by
  have keys : key ∈ (events.foldl (projectEvent workspaceId projected) .empty).keys ↔
      key ∈ TopologyGraph.empty.keys ∨ ∃ envelope ∈ events, Observes envelope key :=
    mem_keys_events events
  have none : key ∉ TopologyGraph.empty.keys := List.not_mem_nil
  simp only [none, false_or] at keys
  rw [← keys]
  constructor
  · rintro ⟨edge, member, rfl⟩
    exact List.mem_map_of_mem (List.mem_mergeSort.mp member)
  · intro member
    obtain ⟨edge, inside, same⟩ := List.mem_map.mp member
    exact ⟨edge, List.mem_mergeSort.mpr inside, same⟩

theorem shown_of_expired {query : TopologyQuery} {shown : TopologyEdge}
    (expired : projected + ttl ≤ now)
    (member : shown ∈ (queryTopology (projectTopology workspaceId events projected) query
      now).edges) :
    shown.stale = true ∧ query.includeStale = true := by
  have live := (List.mem_filter.mp member).1
  have marked := (liveEdges_sublist _).subset live
  obtain ⟨own, inside, rfl⟩ := List.mem_map.mp marked
  have stale : (markStale now own).stale = true := by
    have observed := justObserved_projectTopology inside
    rw [markStale, if_pos (by rw [observed.expiresAt]; exact expired)]
  refine ⟨stale, ?_⟩
  by_contra excluded
  unfold liveEdges at live
  simp only [excluded] at live
  have kept := (List.mem_filter.mp live).2
  rw [stale] at kept
  exact absurd kept (by decide)

/-- Where the projection is too recent, old observations look fresh. -/
theorem recent_of_staleWhenOld (honest : StaleWhenOld workspaceId events projected now)
    (recent : ¬ projected + ttl ≤ now) {key : String × String × String × String}
    (observed : ∃ envelope ∈ events, Observes envelope key) :
    ∃ envelope ∈ events, Observes envelope key ∧ now ≤ envelope.timestamp + ttl := by
  by_contra none
  obtain ⟨edge, member, rfl⟩ := exists_edge_iff.mpr observed
  have old : AllOld events now edge.key := by
    intro envelope inside observes
    by_contra fresh
    exact none ⟨envelope, inside, observes, Int.not_lt.mp fresh⟩
  have stale := (honest edge member old).1
  have own := justObserved_projectTopology member
  rw [markStale, own.expiresAt, if_neg recent, own.stale] at stale
  exact absurd stale (by decide)

/-- Old observations are stale if and only if the log was projected longer than the time to
live before the query, or every edge has a recent observation. -/
theorem staleWhenOld_iff (workspaceId : WorkspaceId) (events : List EventEnvelope)
    (projected now : DateTime) :
    StaleWhenOld workspaceId events projected now ↔
      projected + ttl ≤ now ∨ ∀ key, (∃ envelope ∈ events, Observes envelope key) →
        ∃ envelope ∈ events, Observes envelope key ∧ now ≤ envelope.timestamp + ttl := by
  constructor
  · intro honest
    by_cases expired : projected + ttl ≤ now
    · exact .inl expired
    · exact .inr fun key observed => recent_of_staleWhenOld honest expired observed
  · rintro (expired | recent) edge member old
    · refine ⟨?_, fun query shown inside _ => shown_of_expired expired inside⟩
      have observed := justObserved_projectTopology member
      rw [markStale, if_pos (by rw [observed.expiresAt]; exact expired)]
    · have observed := exists_edge_iff.mp ⟨edge, member, rfl⟩
      obtain ⟨envelope, inside, observes, fresh⟩ := recent edge.key observed
      exact absurd (old envelope inside observes) (Int.not_lt.mpr fresh)

end

/-- A call that was seen a day ago looks fresh when the log is projected now. -/
theorem not_staleWhenOld : ¬ ∀ (workspaceId : WorkspaceId) (events : List EventEnvelope)
    (projected now : DateTime), projected ≤ now →
    StaleWhenOld workspaceId events projected now := by
  intro always
  have honest := always .default [Demo.Graph.seen] (seconds 86400) (seconds 86400)
    (Int.le_refl _)
  have observed : Observes Demo.Graph.seen
      ("service:gateway", "service:orders", "calls", "trace") := by
    unfold Observes
    decide
  obtain ⟨envelope, inside, -, fresh⟩ := recent_of_staleWhenOld honest (by decide)
    ⟨_, List.mem_cons_self, observed⟩
  obtain rfl := List.mem_singleton.mp inside
  exact absurd fresh (by decide)

end OpsCodex.Topology
