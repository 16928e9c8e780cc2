import Mathlib.Data.List.Nodup

/-! The entries of a list that are the first under their key. -/

set_option autoImplicit false

namespace Sequence

section

variable {Item Key : Type} [DecidableEq Key] (key : Item → Key)

/-- Each entry without the later ones under its key. -/
def firstSeen : List Item → List Item
  | [] => []
  | item :: items => item :: (firstSeen items).filter fun other => key other ≠ key item

end

section

variable {Item Key : Type} [DecidableEq Key] {key : Item → Key} {items : List Item} {item : Item}

theorem firstSeen_sublist (items : List Item) : (firstSeen key items).Sublist items := by
  induction items with
  | nil => exact .slnil
  | cons item items ih => exact (List.filter_sublist.trans ih).cons_cons item

theorem nodup_keys_firstSeen (items : List Item) : ((firstSeen key items).map key).Nodup := by
  induction items with
  | nil => exact List.nodup_nil
  | cons item items ih =>
      rw [firstSeen, List.map_cons, List.nodup_cons]
      constructor
      · intro member
        obtain ⟨other, kept, same⟩ := List.mem_map.mp member
        have different := (List.mem_filter.mp kept).2
        simp [same] at different
      · exact ih.sublist (List.filter_sublist.map key)

theorem mem_keys_firstSeen {own : Key} :
    own ∈ (firstSeen key items).map key ↔ own ∈ items.map key := by
  induction items with
  | nil => exact Iff.rfl
  | cons item items ih =>
      rw [firstSeen, List.map_cons, List.map_cons, List.mem_cons, List.mem_cons, ← ih]
      by_cases same : own = key item
      · simp [same]
      · refine or_congr Iff.rfl ⟨fun member => ?_, fun member => ?_⟩
        · exact (List.filter_sublist.map key).subset member
        · obtain ⟨other, kept, rfl⟩ := List.mem_map.mp member
          exact List.mem_map_of_mem (List.mem_filter.mpr ⟨kept, by simpa using same⟩)

/-- What is kept under a key is what a search from the front finds. -/
theorem find_of_mem_firstSeen (kept : item ∈ firstSeen key items) :
    (items.find? fun other => key other = key item) = some item := by
  induction items with
  | nil => cases kept
  | cons first items ih =>
      rw [firstSeen] at kept
      obtain rfl | later := List.mem_cons.mp kept
      · rw [List.find?_cons_of_pos (by simp)]
      · obtain ⟨member, different⟩ := List.mem_filter.mp later
        have other : ¬ key first = key item := by
          intro same
          simp [same] at different
        rw [List.find?_cons_of_neg (by simpa using other), ih member]

/-- One more entry is kept unless its key has been seen. -/
theorem firstSeen_snoc (items : List Item) (item : Item) :
    firstSeen key (items ++ [item]) =
      if key item ∈ items.map key then firstSeen key items
      else firstSeen key items ++ [item] := by
  induction items with
  | nil => rfl
  | cons first items ih =>
      rw [List.cons_append, firstSeen, firstSeen, ih, List.map_cons]
      by_cases same : key item = key first
      · have seen : key item ∈ key first :: items.map key := same ▸ List.mem_cons_self
        rw [if_pos seen]
        split
        · rfl
        · rw [List.filter_append]
          simp [same]
      · by_cases seen : key item ∈ items.map key
        · rw [if_pos seen, if_pos (List.mem_cons_of_mem _ seen)]
        · have unseen : key item ∉ key first :: items.map key := by
            rw [List.mem_cons]
            exact not_or.mpr ⟨same, seen⟩
          rw [if_neg seen, if_neg unseen, List.filter_append]
          simp [same]

end

end Sequence
