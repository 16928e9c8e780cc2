import OpsCodex.Sequence.FirstSeen

/-! Breadth-first search that stops at a number of nodes and at a distance. -/

set_option autoImplicit false

namespace BoundedSearch

variable {Node : Type}

/-- A path of some length along a relation. -/
inductive Walk (adjacent : Node → Node → Prop) (start : Node) : Nat → Node → Prop
  | here : Walk adjacent start 0 start
  | step {length : Nat} {node next : Node} (walk : Walk adjacent start length node)
      (along : adjacent node next) : Walk adjacent start (length + 1) next

/-- A node that a start reaches within a distance. -/
def Near (adjacent : Node → Node → Prop) (Start : Node → Prop) (distance : Nat)
    (node : Node) : Prop :=
  ∃ start length, Start start ∧ length ≤ distance ∧ Walk adjacent start length node

variable [DecidableEq Node] (neighbors : Node → List Node) (depth : Nat)

/-- The loop: at most `budget` more nodes, from a queue with distances. -/
def visit : Nat → List (Node × Nat) → List Node → List Node
  | 0, _, _ => []
  | _ + 1, [], _ => []
  | budget + 1, (node, distance) :: queue, seen =>
      if distance < depth then
        let fresh := (neighbors node).filter fun other => decide (other ∉ seen)
        node :: visit budget (queue ++ fresh.map fun other => (other, distance + 1))
          (seen ++ fresh)
      else node :: visit budget queue seen

def search (budget : Nat) (seeds : List Node) : List Node :=
  visit neighbors depth budget ((Sequence.firstSeen id seeds).map fun seed => (seed, 0))
    (Sequence.firstSeen id seeds)

variable {neighbors depth}

theorem length_visit_le (budget : Nat) (queue : List (Node × Nat)) (seen : List Node) :
    (visit neighbors depth budget queue seen).length ≤ budget := by
  induction budget generalizing queue seen with
  | zero => exact Nat.le_refl 0
  | succ budget ih =>
      cases queue with
      | nil => exact Nat.zero_le _
      | cons entry queue =>
          obtain ⟨node, distance⟩ := entry
          rw [visit]
          split
          · exact Nat.succ_le_succ (ih _ _)
          · exact Nat.succ_le_succ (ih _ _)

theorem length_search_le (budget : Nat) (seeds : List Node) :
    (search neighbors depth budget seeds).length ≤ budget :=
  length_visit_le budget _ _

section

variable {adjacent : Node → Node → Prop} {Start : Node → Prop}

/-- An entry of the queue that a start reaches in as many steps as its distance says. -/
def Placed (adjacent : Node → Node → Prop) (Start : Node → Prop) (depth : Nat)
    (entry : Node × Nat) : Prop :=
  entry.2 ≤ depth ∧ ∃ start, Start start ∧ Walk adjacent start entry.2 entry.1

theorem near_of_mem_visit (sound : ∀ node, ∀ next ∈ neighbors node, adjacent node next)
    {budget : Nat} {queue : List (Node × Nat)} {seen : List Node}
    (placed : ∀ entry ∈ queue, Placed adjacent Start depth entry) {node : Node}
    (member : node ∈ visit neighbors depth budget queue seen) :
    Near adjacent Start depth node := by
  induction budget generalizing queue seen with
  | zero => exact absurd member List.not_mem_nil
  | succ budget ih =>
      cases queue with
      | nil => exact absurd member List.not_mem_nil
      | cons entry queue =>
          obtain ⟨first, distance⟩ := entry
          have own := placed _ List.mem_cons_self
          have others : ∀ entry ∈ queue, Placed adjacent Start depth entry :=
            fun entry inside => placed entry (List.mem_cons_of_mem _ inside)
          have here : Near adjacent Start depth first := by
            obtain ⟨within, start, starts, walk⟩ := own
            exact ⟨start, distance, starts, within, walk⟩
          rw [visit] at member
          split at member
          · rename_i below
            rcases List.mem_cons.mp member with rfl | member
            · exact here
            · refine ih ?_ member
              intro entry inside
              rcases List.mem_append.mp inside with inside | inside
              · exact others entry inside
              · obtain ⟨next, fresh, rfl⟩ := List.mem_map.mp inside
                obtain ⟨-, start, starts, walk⟩ := own
                have along := sound first next (List.mem_filter.mp fresh).1
                exact ⟨below, start, starts, walk.step along⟩
          · rcases List.mem_cons.mp member with rfl | member
            · exact here
            · exact ih others member

/-- Every node found lies within the depth of a seed. -/
theorem near_of_mem_search (sound : ∀ node, ∀ next ∈ neighbors node, adjacent node next)
    {budget : Nat} {seeds : List Node} (starts : ∀ seed ∈ seeds, Start seed) {node : Node}
    (member : node ∈ search neighbors depth budget seeds) : Near adjacent Start depth node := by
  refine near_of_mem_visit sound ?_ member
  intro entry inside
  obtain ⟨seed, first, rfl⟩ := List.mem_map.mp inside
  have given : seed ∈ seeds := (Sequence.firstSeen_sublist seeds).subset first
  exact ⟨Nat.zero_le _, seed, starts seed given, .here⟩

end

end BoundedSearch
