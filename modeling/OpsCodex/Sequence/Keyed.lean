import Mathlib.Data.List.Nodup

/-! Lists with one item per key, in the order in which the keys first came. -/

set_option autoImplicit false

namespace Keyed

variable {Item Key : Type} [DecidableEq Key]

/-- One more key, unless it is there. -/
def insertKey (key : Key) (keys : List Key) : List Key :=
  if key ∈ keys then keys else keys ++ [key]

/-- Changes the first item under a key, or appends a fresh one. -/
def upsert (keyOf : Item → Key) (key : Key) (change : Item → Item) (fresh : Item) :
    List Item → List Item
  | [] => [fresh]
  | item :: items =>
      if keyOf item = key then change item :: items
      else item :: upsert keyOf key change fresh items

section

variable {key other : Key} {keys : List Key}

@[simp] theorem mem_insertKey : other ∈ insertKey key keys ↔ other ∈ keys ∨ other = key := by
  unfold insertKey
  split
  · rename_i present
    exact ⟨.inl, fun member => member.elim id fun same => same ▸ present⟩
  · rw [List.mem_append, List.mem_singleton]

theorem nodup_insertKey (nodup : keys.Nodup) : (insertKey key keys).Nodup := by
  unfold insertKey
  split
  · exact nodup
  · rename_i absent
    rw [List.nodup_append]
    refine ⟨nodup, List.nodup_singleton key, ?_⟩
    intro first member second last same
    exact absent (List.mem_singleton.mp last ▸ same ▸ member)

end

section

variable {keyOf : Item → Key} {key : Key} {change : Item → Item} {fresh : Item}

theorem map_upsert (keeps : ∀ item, keyOf (change item) = keyOf item)
    (freshKey : keyOf fresh = key) (items : List Item) :
    (upsert keyOf key change fresh items).map keyOf = insertKey key (items.map keyOf) := by
  induction items with
  | nil => simp [upsert, insertKey, freshKey]
  | cons item items ih =>
      rw [upsert]
      by_cases same : keyOf item = key
      · rw [if_pos same]
        simp [insertKey, keeps, same]
      · rw [if_neg same, List.map_cons, ih, List.map_cons]
        by_cases later : key ∈ items.map keyOf
        · rw [insertKey, insertKey, if_pos later, if_pos (List.mem_cons_of_mem _ later)]
        · have absent : key ∉ keyOf item :: items.map keyOf := by
            rw [List.mem_cons, not_or]
            exact ⟨Ne.symm same, later⟩
          rw [insertKey, insertKey, if_neg later, if_neg absent, List.cons_append]

/-- Where an item comes from. -/
theorem mem_upsert {item : Item} {items : List Item}
    (member : item ∈ upsert keyOf key change fresh items) :
    item ∈ items ∨ (∃ old ∈ items, keyOf old = key ∧ item = change old) ∨ item = fresh := by
  induction items with
  | nil => exact .inr (.inr (List.mem_singleton.mp member))
  | cons first items ih =>
      rw [upsert] at member
      split at member
      · rename_i same
        rcases List.mem_cons.mp member with rfl | member
        · exact .inr (.inl ⟨first, List.mem_cons_self, same, rfl⟩)
        · exact .inl (List.mem_cons_of_mem _ member)
      · rcases List.mem_cons.mp member with rfl | member
        · exact .inl List.mem_cons_self
        · rcases ih member with kept | ⟨old, inside, same, changed⟩ | new
          · exact .inl (List.mem_cons_of_mem _ kept)
          · exact .inr (.inl ⟨old, List.mem_cons_of_mem _ inside, same, changed⟩)
          · exact .inr (.inr new)

/-- What holds of all items is kept when the change keeps it and the fresh item has it. -/
theorem forall_upsert {Good : Item → Prop} {items : List Item}
    (all : ∀ item ∈ items, Good item) (changed : ∀ item, Good item → Good (change item))
    (new : Good fresh) : ∀ item ∈ upsert keyOf key change fresh items, Good item := by
  intro item member
  rcases mem_upsert member with kept | ⟨old, inside, -, rfl⟩ | rfl
  · exact all item kept
  · exact changed old (all old inside)
  · exact new

variable (keyOf) in
/-- An item stays as it is, or is changed in its place. -/
theorem kept_or_changed {item : Item} {items : List Item} (member : item ∈ items) :
    item ∈ upsert keyOf key change fresh items ∨
      change item ∈ upsert keyOf key change fresh items := by
  induction items with
  | nil => exact absurd member List.not_mem_nil
  | cons first items ih =>
      rw [upsert]
      rcases List.mem_cons.mp member with rfl | member
      · split
        · exact .inr List.mem_cons_self
        · exact .inl List.mem_cons_self
      · split
        · exact .inl (List.mem_cons_of_mem _ member)
        · exact (ih member).imp (List.mem_cons_of_mem _) (List.mem_cons_of_mem _)

variable (keyOf) in
/-- Some item under the key is the changed one or the fresh one. -/
theorem exists_upsert (items : List Item) : ∃ item ∈ upsert keyOf key change fresh items,
    item = fresh ∨ ∃ old ∈ items, keyOf old = key ∧ item = change old := by
  induction items with
  | nil => exact ⟨fresh, List.mem_cons_self, .inl rfl⟩
  | cons first items ih =>
      rw [upsert]
      split
      · rename_i same
        exact ⟨change first, List.mem_cons_self, .inr ⟨first, List.mem_cons_self, same, rfl⟩⟩
      · obtain ⟨item, member, origin⟩ := ih
        refine ⟨item, List.mem_cons_of_mem _ member, origin.imp id ?_⟩
        rintro ⟨old, inside, same, changed⟩
        exact ⟨old, List.mem_cons_of_mem _ inside, same, changed⟩

end

end Keyed
