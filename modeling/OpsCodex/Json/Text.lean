import Mathlib.Logic.Basic
import OpsCodex.Json.Record

/-! The text of JSON values: how deep a value is nested, what becomes of its numbers, and what
a library gives back of a value that it has printed. -/

set_option autoImplicit false

namespace OpsCodex.Json

namespace Value

mutual

/-- How deep a value is nested: what is neither an array nor an object is not. -/
def depth : Value → Nat
  | .array items => itemsDepth items + 1
  | .object fields => fieldsDepth fields + 1
  | _ => 0

def itemsDepth : List Value → Nat
  | [] => 0
  | item :: items => max item.depth (itemsDepth items)

def fieldsDepth : List (String × Value) → Nat
  | [] => 0
  | (_, value) :: fields => max value.depth (fieldsDepth fields)

end

mutual

/-- A value with its numbers mapped. -/
def mapNumbers (number : Number → Number) : Value → Value
  | .null => .null
  | .bool value => .bool value
  | .number value => .number (number value)
  | .string value => .string value
  | .array items => .array (mapItems number items)
  | .object fields => .object (mapFields number fields)

def mapItems (number : Number → Number) : List Value → List Value
  | [] => []
  | item :: items => item.mapNumbers number :: mapItems number items

def mapFields (number : Number → Number) : List (String × Value) → List (String × Value)
  | [] => []
  | (key, value) :: fields => (key, value.mapNumbers number) :: mapFields number fields

end

variable {number : Number → Number}

theorem mapItems_eq (items : List Value) :
    mapItems number items = items.map (mapNumbers number) := by
  induction items with
  | nil => rfl
  | cons item items ih => rw [mapItems, ih, List.map_cons]

theorem mapFields_eq (fields : List (String × Value)) :
    mapFields number fields = fields.map fun field => (field.1, field.2.mapNumbers number) := by
  induction fields with
  | nil => rfl
  | cons field fields ih => rw [mapFields, ih, List.map_cons]

mutual

theorem depth_mapNumbers : ∀ value : Value, (value.mapNumbers number).depth = value.depth
  | .null => rfl
  | .bool _ => rfl
  | .number _ => rfl
  | .string _ => rfl
  | .array items => congrArg (· + 1) (itemsDepth_mapItems items)
  | .object fields => congrArg (· + 1) (fieldsDepth_mapFields fields)

theorem itemsDepth_mapItems : ∀ items : List Value,
    itemsDepth (mapItems number items) = itemsDepth items
  | [] => rfl
  | item :: items => congrArg₂ max (depth_mapNumbers item) (itemsDepth_mapItems items)

theorem fieldsDepth_mapFields : ∀ fields : List (String × Value),
    fieldsDepth (mapFields number fields) = fieldsDepth fields
  | [] => rfl
  | (_, value) :: fields => congrArg₂ max (depth_mapNumbers value) (fieldsDepth_mapFields fields)

end

theorem mapFields_insertField (key : String) (value : Value) (fields : List (String × Value)) :
    mapFields number (insertField key value fields) =
      insertField key (value.mapNumbers number) (mapFields number fields) := by
  induction fields with
  | nil => rfl
  | cons field fields ih =>
      obtain ⟨other, kept⟩ := field
      simp only [insertField, mapFields]
      split
      · rfl
      · split
        · rfl
        · rw [mapFields, ih]

mutual

theorem canonical_mapNumbers : ∀ value : Value,
    (value.mapNumbers number).canonical = value.canonical.mapNumbers number
  | .null => rfl
  | .bool _ => rfl
  | .number _ => rfl
  | .string _ => rfl
  | .array items => congrArg Value.array (canonicalItems_mapItems items)
  | .object fields => congrArg Value.object (canonicalFields_mapFields fields)

theorem canonicalItems_mapItems : ∀ items : List Value,
    canonicalItems (mapItems number items) = mapItems number (canonicalItems items)
  | [] => rfl
  | item :: items =>
      congrArg₂ List.cons (canonical_mapNumbers item) (canonicalItems_mapItems items)

theorem canonicalFields_mapFields : ∀ fields : List (String × Value),
    canonicalFields (mapFields number fields) = mapFields number (canonicalFields fields)
  | [] => rfl
  | (key, value) :: fields => by
      rw [mapFields, canonicalFields, canonicalFields, mapFields_insertField,
        canonical_mapNumbers value, canonicalFields_mapFields fields]

end

mutual

theorem mapNumbers_id : ∀ value : Value, value.mapNumbers id = value
  | .null => rfl
  | .bool _ => rfl
  | .number _ => rfl
  | .string _ => rfl
  | .array items => congrArg Value.array (mapItems_id items)
  | .object fields => congrArg Value.object (mapFields_id fields)

theorem mapItems_id : ∀ items : List Value, mapItems id items = items
  | [] => rfl
  | item :: items => congrArg₂ List.cons (mapNumbers_id item) (mapItems_id items)

theorem mapFields_id : ∀ fields : List (String × Value), mapFields id fields = fields
  | [] => rfl
  | (key, value) :: fields =>
      congrArg₂ List.cons (congrArg (Prod.mk key) (mapNumbers_id value)) (mapFields_id fields)

end

end Value

/-- The numbers of a record are those of the fields that are written. -/
theorem mapNumbers_record (number : Number → Number) (slots : List (String × Option Value)) :
    (record slots).mapNumbers number =
      record (slots.map fun slot => (slot.1, slot.2.map (Value.mapNumbers number))) := by
  rw [record, record, Value.mapNumbers, Value.mapFields_eq]
  refine congrArg Value.object ?_
  induction slots with
  | nil => rfl
  | cons slot slots ih =>
      obtain ⟨key, value⟩ := slot
      cases value with
      | none => exact ih
      | some value => exact congrArg (List.cons _) ih

theorem depth_record_le {slots : List (String × Option Value)} {bound : Nat}
    (within : ∀ slot ∈ slots, ∀ value ∈ slot.2, value.depth ≤ bound) :
    (record slots).depth ≤ bound + 1 := by
  apply Nat.succ_le_succ
  induction slots with
  | nil => exact Nat.zero_le _
  | cons slot slots ih =>
      obtain ⟨key, value⟩ := slot
      have later := ih fun other member => within other (List.mem_cons_of_mem _ member)
      cases value with
      | none => exact later
      | some value => exact Nat.max_le.mpr ⟨within _ List.mem_cons_self value rfl, later⟩

theorem depth_lt_record {slots : List (String × Option Value)} {key : String} {value : Value}
    (member : (key, some value) ∈ slots) : value.depth < (record slots).depth := by
  apply Nat.lt_succ_of_le
  induction slots with
  | nil => cases member
  | cons slot slots ih =>
      rcases List.mem_cons.mp member with rfl | later
      · exact Nat.le_max_left _ _
      · obtain ⟨other, kept⟩ := slot
        cases kept with
        | none => exact ih later
        | some kept => exact Nat.le_trans (ih later) (Nat.le_max_right _ _)

/-- A value nested at most so deep, and whose numbers are read back as they are. -/
structure Value.Plain (number : Number → Number) (bound : Nat) (value : Value) : Prop where
  fixed : value.mapNumbers number = value
  shallow : value.depth ≤ bound

section Plain

variable {number : Number → Number} {bound : Nat}

theorem Value.Plain.mono {value : Value} (plain : value.Plain number bound) {more : Nat}
    (more_ge : bound ≤ more) : value.Plain number more :=
  ⟨plain.fixed, Nat.le_trans plain.shallow more_ge⟩

@[simp] theorem plain_string (text : String) : (Value.string text).Plain number bound :=
  ⟨rfl, Nat.zero_le _⟩

@[simp] theorem plain_bool (value : Bool) : (Value.bool value).Plain number bound :=
  ⟨rfl, Nat.zero_le _⟩

theorem plain_record {slots : List (String × Option Value)}
    (plain : ∀ slot ∈ slots, ∀ value ∈ slot.2, value.Plain number bound) :
    (record slots).Plain number (bound + 1) := by
  constructor
  · rw [mapNumbers_record]
    refine congrArg record ((List.map_congr_left fun slot member => ?_).trans (List.map_id slots))
    obtain ⟨key, value⟩ := slot
    cases value with
    | none => rfl
    | some value =>
        exact congrArg (fun value => (key, some value)) (plain _ member value rfl).fixed
  · exact depth_record_le fun slot member value written => (plain slot member value written).shallow

theorem plain_array {Item : Type} {encode : Item → Value} {items : List Item}
    (plain : ∀ item ∈ items, (encode item).Plain number bound) :
    (Value.array (items.map encode)).Plain number (bound + 1) := by
  constructor
  · rw [Value.mapNumbers, Value.mapItems_eq, List.map_map]
    exact congrArg Value.array (List.map_congr_left fun item member => (plain item member).fixed)
  · apply Nat.succ_le_succ
    induction items with
    | nil => exact Nat.zero_le _
    | cons item items ih =>
        exact Nat.max_le.mpr ⟨(plain item List.mem_cons_self).shallow,
          ih fun other member => plain other (List.mem_cons_of_mem _ member)⟩

theorem plain_ofMap (entries : List (String × String)) :
    (ofMap entries).Plain number 1 := by
  constructor
  · rw [ofMap, Value.mapNumbers, Value.mapFields_eq, List.map_map]
    rfl
  · apply Nat.succ_le_succ
    apply Nat.le_zero.mpr
    induction entries with
    | nil => rfl
    | cons entry entries ih =>
        rw [List.map_cons, Value.fieldsDepth, ih]
        rfl

end Plain

end OpsCodex.Json

namespace OpsCodex

open OpsCodex.Json

/-- The text of JSON values, as the serialisation library prints and parses it. A number is
read back as the `number` of it: an integer as itself, a fraction as itself or a neighbour. -/
structure JsonText where
  print : Value → List UInt8
  parse : List UInt8 → Except String Value
  number : Number → Number
  integer : ∀ value, number (.posInt value) = .posInt value

/-- Integers are kept where every number is. -/
theorem JsonText.integer_id (value : UInt64) : id (Number.posInt value) = .posInt value := rfl

/-- The nesting at which the library gives up reading. -/
def recursionLimit : Nat := 128

/-- What the library gives back of a value that it has printed: the value with its maps sorted,
unless it is nested too deep to be read. -/
structure JsonText.Restores (text : JsonText) (value : Value) : Prop where
  within : value.depth < recursionLimit →
    text.parse (text.print value) = .ok (value.mapNumbers text.number).canonical
  beyond : recursionLimit ≤ value.depth → ∃ error, text.parse (text.print value) = .error error

end OpsCodex
