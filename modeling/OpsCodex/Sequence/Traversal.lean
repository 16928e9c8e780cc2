import Mathlib.Data.List.Forall2

/-! Reading a list element by element, until one cannot be read. -/

set_option autoImplicit false

namespace Traversal

variable {Item Value Error : Type} {read : Item → Except Error Value}

/-- A step that succeeds and continues has a value that the rest succeeds on. -/
theorem bind_ok {Outcome : Type} {step : Except Error Value} {rest : Value → Except Error Outcome}
    {outcome : Outcome} (success : step >>= rest = .ok outcome) :
    ∃ value, step = .ok value ∧ rest value = .ok outcome := by
  cases step with
  | error error => cases success
  | ok value => exact ⟨value, rfl, success⟩

/-- A list that is read is read element by element. -/
theorem forall₂_of_mapM {items : List Item} {values : List Value}
    (all : items.mapM read = .ok values) :
    List.Forall₂ (fun item value => read item = .ok value) items values := by
  induction items generalizing values with
  | nil =>
      cases all
      exact .nil
  | cons item items ih =>
      cases first : read item with
      | error error => simp [List.mapM_cons, first, bind, Except.bind] at all
      | ok value =>
          cases rest : items.mapM read with
          | error error => simp [List.mapM_cons, first, rest, bind, Except.bind] at all
          | ok others =>
              simp only [List.mapM_cons, first, rest, bind, Except.bind, pure, Except.pure,
                Except.ok.injEq] at all
              subst all
              exact .cons first (ih rest)

/-- What is read has the parts of what it is read from. -/
theorem map_eq_of_forall₂ {Part : Type} {items : List Item} {values : List Value}
    (part : Item → Part) (part' : Value → Part) {Reads : Item → Value → Prop}
    (each : List.Forall₂ Reads items values)
    (same : ∀ {item value}, Reads item value → part item = part' value) :
    items.map part = values.map part' := by
  induction each with
  | nil => rfl
  | cons first _ ih => rw [List.map_cons, List.map_cons, same first, ih]

theorem exists_value {items : List Item} {values : List Value} {Reads : Item → Value → Prop}
    (each : List.Forall₂ Reads items values) {item : Item} (inside : item ∈ items) :
    ∃ value ∈ values, Reads item value := by
  induction each with
  | nil => cases inside
  | cons first _ ih =>
      obtain rfl | later := List.mem_cons.mp inside
      · exact ⟨_, List.mem_cons_self, first⟩
      · obtain ⟨value, within, reads⟩ := ih later
        exact ⟨value, List.mem_cons_of_mem _ within, reads⟩

theorem exists_item {items : List Item} {values : List Value} {Reads : Item → Value → Prop}
    (each : List.Forall₂ Reads items values) {value : Value} (inside : value ∈ values) :
    ∃ item ∈ items, Reads item value :=
  exists_value each.flip inside

end Traversal
