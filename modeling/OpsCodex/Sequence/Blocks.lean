import Mathlib.Data.List.Basic

/-! Lists in which equal elements stand next to each other. -/

set_option autoImplicit false

namespace Blocks

variable {Key : Type}

/-- The occurrences of every element form one contiguous block. -/
def Contiguous (keys : List Key) : Prop :=
  ∀ before key between after, keys = before ++ key :: between ++ key :: after →
    ∀ other ∈ between, other = key

theorem contiguous_nil : Contiguous ([] : List Key) := by
  intro before key between after split
  simp at split

/-- The last element may be repeated, and a new one begins a block. -/
theorem Contiguous.append {keys : List Key} {key : Key} (contiguous : Contiguous keys)
    (continues : key ∉ keys ∨ keys.getLast? = some key) : Contiguous (keys ++ [key]) := by
  intro before first between after split other member
  obtain rfl | ⟨rest, last, rfl⟩ := List.eq_nil_or_concat after
  · obtain ⟨rfl, same⟩ := List.append_inj' split rfl
    obtain rfl := (List.cons.inj same).1
    obtain fresh | repeated := continues
    · simp at fresh
    · obtain rfl | ⟨front, last, rfl⟩ := List.eq_nil_or_concat between
      · cases member
      · have ends : last = key := by
          have regrouped : before ++ key :: (front ++ [last]) =
              (before ++ key :: front) ++ [last] := by simp
          rw [List.concat_eq_append, regrouped, List.getLast?_append] at repeated
          simpa using repeated
        subst ends
        rw [List.concat_eq_append, List.mem_append, List.mem_singleton] at member
        obtain inner | rfl := member
        · exact contiguous before last front [] (by simp) other inner
        · rfl
  · have regrouped : keys ++ [key] = (before ++ first :: between ++ first :: rest) ++ [last] := by
      simpa using split
    exact contiguous before first between rest (List.append_inj' regrouped rfl).1 other member

/-- An element that comes back after another one is not contiguous. -/
theorem not_contiguous {before between after : List Key} {key other : Key}
    (member : other ∈ between) (different : other ≠ key) :
    ¬ Contiguous (before ++ key :: between ++ key :: after) := fun contiguous =>
  different (contiguous before key between after rfl other member)

end Blocks
