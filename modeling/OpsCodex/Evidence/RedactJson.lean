import OpsCodex.Evidence.Masking

/-! Redaction of JSON values: every string, and the whole value of a sensitive key. -/

set_option autoImplicit false

namespace OpsCodex.Evidence.Redact

open OpsCodex.Json

mutual

def redactValue : Value → Option (Value × Bool)
  | .string text => do
      let (redacted, changed) ← redactText text
      return (.string redacted, changed)
  | .array items => do
      let (redacted, changed) ← redactItems items
      return (.array redacted, changed)
  | .object fields => do
      let (redacted, changed) ← redactFields fields
      return (.object redacted, changed)
  | .null => some (.null, false)
  | .bool value => some (.bool value, false)
  | .number value => some (.number value, false)

def redactItems : List Value → Option (List Value × Bool)
  | [] => some ([], false)
  | item :: items => do
      let (redacted, changed) ← redactValue item
      let (rest, later) ← redactItems items
      return (redacted :: rest, changed || later)

def redactFields : List (String × Value) → Option (List (String × Value) × Bool)
  | [] => some ([], false)
  | (key, value) :: fields =>
      if isSensitiveKey key then do
        let (rest, _) ← redactFields fields
        return ((key, .string "[REDACTED]") :: rest, true)
      else do
        let (redacted, changed) ← redactValue value
        let (rest, later) ← redactFields fields
        return ((key, redacted) :: rest, changed || later)

end

/-- A redacted value, with whether anything was redacted; nothing when a string of it makes
the redaction panic. -/
def redactJson (value : Value) : Option (Value × Bool) := redactValue value

mutual

/-- The strings of a value, without the keys of its objects. -/
def leaves : Value → List String
  | .string text => [text]
  | .array items => itemLeaves items
  | .object fields => fieldLeaves fields
  | _ => []

def itemLeaves : List Value → List String
  | [] => []
  | item :: items => leaves item ++ itemLeaves items

def fieldLeaves : List (String × Value) → List String
  | [] => []
  | (_, value) :: fields => leaves value ++ fieldLeaves fields

end

mutual

/-- The keys of a value that are shown: what is under a sensitive key is not. -/
def shownKeys : Value → List String
  | .array items => itemKeys items
  | .object fields => fieldKeys fields
  | _ => []

def itemKeys : List Value → List String
  | [] => []
  | item :: items => shownKeys item ++ itemKeys items

def fieldKeys : List (String × Value) → List String
  | [] => []
  | (key, value) :: fields =>
      if isSensitiveKey key then key :: fieldKeys fields
      else key :: (shownKeys value ++ fieldKeys fields)

end

mutual

/-- A value with its keys renamed, wherever they stand. -/
def renameKeys (rename : String → String) : Value → Value
  | .array items => .array (renameItemKeys rename items)
  | .object fields => .object (renameFieldKeys rename fields)
  | value => value

def renameItemKeys (rename : String → String) : List Value → List Value
  | [] => []
  | item :: items => renameKeys rename item :: renameItemKeys rename items

def renameFieldKeys (rename : String → String) : List (String × Value) → List (String × Value)
  | [] => []
  | (key, value) :: fields =>
      (rename key, renameKeys rename value) :: renameFieldKeys rename fields

end

mutual

/-- The strings of a value that are not under a sensitive key. -/
def shownLeaves : Value → List String
  | .string text => [text]
  | .array items => shownItemLeaves items
  | .object fields => shownFieldLeaves fields
  | _ => []

def shownItemLeaves : List Value → List String
  | [] => []
  | item :: items => shownLeaves item ++ shownItemLeaves items

def shownFieldLeaves : List (String × Value) → List String
  | [] => []
  | (key, value) :: fields =>
      if isSensitiveKey key then shownFieldLeaves fields
      else shownLeaves value ++ shownFieldLeaves fields

end

mutual

theorem shownLeaves_subset : ∀ value : Value, shownLeaves value ⊆ leaves value
  | .string text => List.Subset.refl [text]
  | .array items => shownItemLeaves_subset items
  | .object fields => shownFieldLeaves_subset fields
  | .null => List.Subset.refl []
  | .bool _ => List.Subset.refl []
  | .number _ => List.Subset.refl []

theorem shownItemLeaves_subset : ∀ items : List Value, shownItemLeaves items ⊆ itemLeaves items
  | [] => List.Subset.refl []
  | item :: items => List.append_subset.mpr
      ⟨List.subset_append_of_subset_left _ (shownLeaves_subset item),
        List.subset_append_of_subset_right _ (shownItemLeaves_subset items)⟩

theorem shownFieldLeaves_subset : ∀ fields : List (String × Value),
    shownFieldLeaves fields ⊆ fieldLeaves fields
  | [] => List.Subset.refl []
  | (key, value) :: fields => by
      have later := List.subset_append_of_subset_right (leaves value)
        (shownFieldLeaves_subset fields)
      rw [shownFieldLeaves]
      split
      · exact later
      · exact List.append_subset.mpr
          ⟨List.subset_append_of_subset_left _ (shownLeaves_subset value), later⟩

end

/-- A text is what redaction makes of one of some texts, or says that a value is redacted. -/
def Redacts (own : List String) (text : String) : Prop :=
  text = "[REDACTED]" ∨ ∃ mine ∈ own, ∃ changed, redactText mine = some (text, changed)

theorem Redacts.mono {own more : List String} {text : String} (redacts : Redacts own text)
    (subset : own ⊆ more) : Redacts more text :=
  redacts.imp id fun ⟨mine, member, changed, found⟩ => ⟨mine, subset member, changed, found⟩

mutual

/-- Every string of a redacted value is a redacted string of those that are not under a
sensitive key. -/
theorem shown_redactValue : ∀ {value : Value} {result : Value × Bool},
    redactValue value = some result → ∀ text ∈ leaves result.1, Redacts (shownLeaves value) text
  | .string own, result, found, text, member => by
      obtain ⟨⟨redacted, changed⟩, redacts, same⟩ := Option.bind_eq_some_iff.mp found
      cases same
      rw [List.mem_singleton.mp member]
      exact .inr ⟨own, List.mem_singleton_self own, changed, redacts⟩
  | .array items, result, found, text, member => by
      obtain ⟨⟨redacted, changed⟩, redacts, same⟩ := Option.bind_eq_some_iff.mp found
      cases same
      exact shown_redactItems redacts text member
  | .object fields, result, found, text, member => by
      obtain ⟨⟨redacted, changed⟩, redacts, same⟩ := Option.bind_eq_some_iff.mp found
      cases same
      exact shown_redactFields redacts text member
  | .null, result, found, text, member => by
      cases found
      cases member
  | .bool _, result, found, text, member => by
      cases found
      cases member
  | .number _, result, found, text, member => by
      cases found
      cases member

theorem shown_redactItems : ∀ {items : List Value} {result : List Value × Bool},
    redactItems items = some result →
      ∀ text ∈ itemLeaves result.1, Redacts (shownItemLeaves items) text
  | [], result, found, text, member => by
      cases found
      cases member
  | item :: items, result, found, text, member => by
      obtain ⟨first, redacts, found⟩ := Option.bind_eq_some_iff.mp found
      obtain ⟨rest, later, same⟩ := Option.bind_eq_some_iff.mp found
      cases same
      obtain head | tail := List.mem_append.mp member
      · exact (shown_redactValue redacts text head).mono (List.subset_append_left _ _)
      · exact (shown_redactItems later text tail).mono (List.subset_append_right _ _)

theorem shown_redactFields : ∀ {fields : List (String × Value)}
    {result : List (String × Value) × Bool}, redactFields fields = some result →
      ∀ text ∈ fieldLeaves result.1, Redacts (shownFieldLeaves fields) text
  | [], result, found, text, member => by
      cases found
      cases member
  | (key, value) :: fields, result, found, text, member => by
      rw [redactFields] at found
      rw [shownFieldLeaves]
      split at found
      · rename_i sensitive
        rw [if_pos sensitive]
        obtain ⟨rest, later, same⟩ := Option.bind_eq_some_iff.mp found
        cases same
        obtain head | tail := List.mem_append.mp member
        · exact .inl (List.mem_singleton.mp head)
        · exact shown_redactFields later text tail
      · rename_i shown
        rw [if_neg shown]
        obtain ⟨first, redacts, found⟩ := Option.bind_eq_some_iff.mp found
        obtain ⟨rest, later, same⟩ := Option.bind_eq_some_iff.mp found
        cases same
        obtain head | tail := List.mem_append.mp member
        · exact (shown_redactValue redacts text head).mono (List.subset_append_left _ _)
        · exact (shown_redactFields later text tail).mono (List.subset_append_right _ _)

end

/-- Every string of a redacted value is a redacted string. -/
theorem leaves_redactValue {value : Value} {result : Value × Bool}
    (redacts : redactValue value = some result) (text : String) (member : text ∈ leaves result.1) :
    Redacts (leaves value) text :=
  (shown_redactValue redacts text member).mono (shownLeaves_subset value)

mutual

/-- Redaction leaves the keys of a value as they are. -/
theorem shownKeys_redactValue : ∀ {value : Value} {result : Value × Bool},
    redactValue value = some result → shownKeys result.1 = shownKeys value
  | .string own, result, found => by
      obtain ⟨⟨redacted, changed⟩, -, same⟩ := Option.bind_eq_some_iff.mp found
      cases same
      rfl
  | .array items, result, found => by
      obtain ⟨⟨redacted, changed⟩, redacts, same⟩ := Option.bind_eq_some_iff.mp found
      cases same
      exact itemKeys_redactItems redacts
  | .object fields, result, found => by
      obtain ⟨⟨redacted, changed⟩, redacts, same⟩ := Option.bind_eq_some_iff.mp found
      cases same
      exact fieldKeys_redactFields redacts
  | .null, result, found => by
      cases found
      rfl
  | .bool _, result, found => by
      cases found
      rfl
  | .number _, result, found => by
      cases found
      rfl

theorem itemKeys_redactItems : ∀ {items : List Value} {result : List Value × Bool},
    redactItems items = some result → itemKeys result.1 = itemKeys items
  | [], result, found => by
      cases found
      rfl
  | item :: items, result, found => by
      obtain ⟨first, redacts, found⟩ := Option.bind_eq_some_iff.mp found
      obtain ⟨rest, later, same⟩ := Option.bind_eq_some_iff.mp found
      cases same
      simp only [itemKeys, shownKeys_redactValue redacts, itemKeys_redactItems later]

theorem fieldKeys_redactFields : ∀ {fields : List (String × Value)}
    {result : List (String × Value) × Bool}, redactFields fields = some result →
      fieldKeys result.1 = fieldKeys fields
  | [], result, found => by
      cases found
      rfl
  | (key, value) :: fields, result, found => by
      rw [redactFields] at found
      split at found
      · rename_i sensitive
        obtain ⟨rest, later, same⟩ := Option.bind_eq_some_iff.mp found
        cases same
        simp only [fieldKeys, sensitive, if_true, fieldKeys_redactFields later]
      · rename_i shown
        obtain ⟨first, redacts, found⟩ := Option.bind_eq_some_iff.mp found
        obtain ⟨rest, later, same⟩ := Option.bind_eq_some_iff.mp found
        cases same
        simp only [fieldKeys, shown, if_false, shownKeys_redactValue redacts,
          fieldKeys_redactFields later, Bool.false_eq_true]

end

end OpsCodex.Evidence.Redact
