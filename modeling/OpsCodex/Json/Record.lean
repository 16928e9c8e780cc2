import OpsCodex.Json

/-! Records as JSON objects: fields that may be left out when they are written, and
defaults for what is missing when they are read. -/

set_option autoImplicit false

namespace OpsCodex.Json

/-- Put a field into a sorted map unless a later field has its key. -/
def insertField (key : String) (value : Value) :
    List (String × Value) → List (String × Value)
  | [] => [(key, value)]
  | (other, kept) :: fields =>
      if key = other then (other, kept) :: fields
      else if key < other then (key, value) :: (other, kept) :: fields
      else (other, kept) :: insertField key value fields

namespace Value

mutual

/-- A value as it is read back from its text: maps are sorted by their keys. -/
def canonical : Value → Value
  | .null => .null
  | .bool value => .bool value
  | .number value => .number value
  | .string value => .string value
  | .array items => .array (canonicalItems items)
  | .object fields => .object (canonicalFields fields)

def canonicalItems : List Value → List Value
  | [] => []
  | item :: items => item.canonical :: canonicalItems items

def canonicalFields : List (String × Value) → List (String × Value)
  | [] => []
  | (key, value) :: fields => insertField key value.canonical (canonicalFields fields)

end

end Value

section Lookup

variable {Item : Type}

theorem lookup_cons_other {key own : String} (different : key ≠ own) (item : Item)
    (fields : List (String × Item)) :
    ((own, item) :: fields).lookup key = fields.lookup key := by
  rw [List.lookup_cons, beq_false_of_ne different]

theorem lookup_of_absent {key : String} {fields : List (String × Item)}
    (absent : key ∉ fields.map Prod.fst) : fields.lookup key = none := by
  rw [List.lookup_eq_none_iff]
  intro other member
  apply bne_iff_ne.mpr
  intro equal
  exact absent (List.mem_map.mpr ⟨other, member, equal.symm⟩)

end Lookup

theorem lookup_insertField_same {key : String} {value : Value} {fields : List (String × Value)}
    (absent : fields.lookup key = none) :
    (insertField key value fields).lookup key = some value := by
  induction fields with
  | nil => exact List.lookup_cons_self
  | cons field fields ih =>
      obtain ⟨other, kept⟩ := field
      by_cases same : key = other
      · subst same
        rw [List.lookup_cons_self] at absent
        cases absent
      · rw [lookup_cons_other same] at absent
        by_cases before : key < other
        · rw [insertField, if_neg same, if_pos before, List.lookup_cons_self]
        · rw [insertField, if_neg same, if_neg before, lookup_cons_other same, ih absent]

theorem lookup_insertField_other {key wanted : String} (different : wanted ≠ key)
    (value : Value) (fields : List (String × Value)) :
    (insertField key value fields).lookup wanted = fields.lookup wanted := by
  induction fields with
  | nil => exact lookup_cons_other different value []
  | cons field fields ih =>
      obtain ⟨other, kept⟩ := field
      rw [insertField]
      split
      · rfl
      · split
        · exact lookup_cons_other different value _
        · rw [List.lookup_cons, List.lookup_cons, ih]

/-- Sorting a map with different keys does not change what is under a key. -/
theorem lookup_canonicalFields {fields : List (String × Value)}
    (distinct : (fields.map Prod.fst).Nodup) (key : String) :
    (Value.canonicalFields fields).lookup key = (fields.lookup key).map Value.canonical := by
  induction fields with
  | nil => rfl
  | cons field fields ih =>
      obtain ⟨own, value⟩ := field
      obtain ⟨absent, rest⟩ := List.nodup_cons.mp distinct
      rw [Value.canonicalFields]
      by_cases same : key = own
      · subst same
        rw [lookup_insertField_same (by rw [ih rest, lookup_of_absent absent]; rfl),
          List.lookup_cons_self]
        rfl
      · rw [lookup_insertField_other same, ih rest, lookup_cons_other same]

/-- An object of the fields that are written. -/
def record (slots : List (String × Option Value)) : Value :=
  .object (slots.filterMap fun slot => slot.2.map fun value => (slot.1, value))

theorem keys_record_sublist (slots : List (String × Option Value)) :
    ((slots.filterMap fun slot => slot.2.map fun value => (slot.1, value)).map Prod.fst).Sublist
      (slots.map Prod.fst) := by
  induction slots with
  | nil => exact .slnil
  | cons slot slots ih =>
      obtain ⟨key, value⟩ := slot
      cases value with
      | none => exact ih.cons key
      | some value => exact ih.cons_cons key

theorem lookup_record {slots : List (String × Option Value)} {key : String}
    (distinct : (slots.map Prod.fst).Nodup) :
    (slots.filterMap fun slot => slot.2.map fun value => (slot.1, value)).lookup key =
      (slots.lookup key).join := by
  induction slots with
  | nil => rfl
  | cons slot slots ih =>
      obtain ⟨own, value⟩ := slot
      obtain ⟨absent, rest⟩ := List.nodup_cons.mp distinct
      by_cases same : key = own
      · subst same
        rw [List.lookup_cons_self, List.filterMap_cons]
        cases value with
        | none =>
            have later := ih rest
            rw [lookup_of_absent absent] at later
            exact later
        | some value => exact List.lookup_cons_self
      · rw [lookup_cons_other same, List.filterMap_cons, ← ih rest]
        cases value with
        | none => rfl
        | some value => exact lookup_cons_other same value _

/-- What a reader finds under a key of a record. -/
theorem get?_record {slots : List (String × Option Value)}
    (distinct : (slots.map Prod.fst).Nodup) (key : String) :
    (record slots).canonical.get? key = ((slots.lookup key).join).map Value.canonical := by
  rw [record, Value.canonical, Value.get?,
    lookup_canonicalFields (distinct.sublist (keys_record_sublist slots)), lookup_record distinct]

section Slots

variable {Item : Type}

/-- A field that must be there. -/
def required (key : String) (read : Value → Except String Item) :
    Option Value → Except String Item
  | none => .error s!"missing field `{key}`"
  | some value => read value

/-- A field that may be missing or null. -/
def optional (read : Value → Except String Item) : Option Value → Except String (Option Item)
  | none | some .null => .ok none
  | some value => (read value).map some

/-- A field with a default. -/
def defaulted (default : Item) (read : Value → Except String Item) :
    Option Value → Except String Item
  | none => .ok default
  | some value => read value

/-- A reader undoes a writer for an item, and the writer does not write null. -/
structure Reads (encode : Item → Value) (read : Value → Except String Item) (item : Item) :
    Prop where
  read : read (encode item).canonical = .ok item
  present : (encode item).canonical ≠ .null

variable {encode : Item → Value} {read : Value → Except String Item}

theorem optional_some {value : Value} (present : value ≠ .null) :
    optional read (some value) = (read value).map some := by
  cases value <;> first | rfl | exact absurd rfl present

theorem optional_map {item : Option Item} (reads : ∀ one ∈ item, Reads encode read one) :
    optional read ((item.map encode).map Value.canonical) = .ok item := by
  cases item with
  | none => rfl
  | some one =>
      obtain ⟨known, present⟩ := reads one rfl
      rw [Option.map_some, Option.map_some, optional_some present, known]
      rfl

/-- An optional field that is written as null when it is absent. -/
theorem optional_ofOption {item : Option Item} (reads : ∀ one ∈ item, Reads encode read one) :
    optional read ((some (Value.ofOption encode item)).map Value.canonical) = .ok item := by
  cases item with
  | none => rfl
  | some one =>
      obtain ⟨known, present⟩ := reads one rfl
      rw [Value.ofOption, Option.map_some, optional_some present, known]
      rfl

/-- A field that is left out exactly when it has its default. -/
theorem defaulted_unless {item default : Item} (written : Prop) [Decidable written]
    (known : read (encode item).canonical = .ok item) (skipped : ¬ written → item = default) :
    defaulted default read ((if written then some (encode item) else none).map Value.canonical) =
      .ok item := by
  by_cases shown : written
  · rw [if_pos shown]
    exact known
  · rw [if_neg shown, skipped shown]
    rfl

end Slots

section Readers

def readBool : Value → Except String Bool
  | .bool value => .ok value
  | _ => .error "invalid type, expected a boolean"

def readString : Value → Except String String
  | .string value => .ok value
  | _ => .error "invalid type, expected a string"

def readU64 (value : Value) : Except String UInt64 :=
  match value.asU64? with
  | some number => .ok number
  | none => .error "invalid type, expected u64"

def readEach {Item : Type} (read : Value → Except String Item) :
    List Value → Except String (List Item)
  | [] => .ok []
  | value :: values => do return (← read value) :: (← readEach read values)

def readList {Item : Type} (read : Value → Except String Item) :
    Value → Except String (List Item)
  | .array items => readEach read items
  | _ => .error "invalid type, expected a sequence"

def readFields : List (String × Value) → Except String (List (String × String))
  | [] => .ok []
  | (key, value) :: fields => do return (key, ← readString value) :: (← readFields fields)

/-- A map of texts. -/
def readMap : Value → Except String (List (String × String))
  | .object fields => readFields fields
  | _ => .error "invalid type, expected a map"

def ofMap (entries : List (String × String)) : Value :=
  .object (entries.map fun entry => (entry.1, .string entry.2))

/-- One of a list of named items. -/
def readNamed {Item : Type} (names : List (String × Item)) (value : Value) :
    Except String Item := do
  let name ← readString value
  match names.lookup name with
  | some item => .ok item
  | none => .error s!"unknown variant `{name}`"

theorem reads_string (text : String) : Reads .string readString text := by
  constructor
  · rfl
  · simp [Value.canonical]

theorem readEach_canonical {Item : Type} {encode : Item → Value}
    {read : Value → Except String Item} {items : List Item}
    (reads : ∀ item ∈ items, read (encode item).canonical = .ok item) :
    readEach read (Value.canonicalItems (items.map encode)) = .ok items := by
  induction items with
  | nil => rfl
  | cons item items ih =>
      have rest := ih fun other member => reads other (List.mem_cons_of_mem item member)
      simp only [List.map_cons, Value.canonicalItems, readEach, reads item List.mem_cons_self,
        rest, bind, Except.bind, pure, Except.pure]

theorem readList_canonical {Item : Type} {encode : Item → Value}
    {read : Value → Except String Item} {items : List Item}
    (reads : ∀ item ∈ items, read (encode item).canonical = .ok item) :
    readList read (Value.array (items.map encode)).canonical = .ok items :=
  readEach_canonical reads

theorem readMap_ofMap (entries : List (String × String)) :
    readMap (ofMap entries) = .ok entries := by
  rw [ofMap, readMap]
  induction entries with
  | nil => rfl
  | cons entry entries ih =>
      simp only [List.map_cons, readFields, readString, ih, bind, Except.bind, pure, Except.pure]

end Readers

end OpsCodex.Json
