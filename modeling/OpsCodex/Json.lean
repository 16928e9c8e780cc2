/-! JSON values as the runtime reads and builds them. -/

set_option autoImplicit false

namespace OpsCodex.Json

inductive Number where
  | posInt (value : UInt64)
  | negInt (value : Int64)
  | float (text : String)
  deriving DecidableEq, Repr

inductive Value where
  | null
  | bool (value : Bool)
  | number (value : Number)
  | string (value : String)
  | array (items : List Value)
  | object (fields : List (String × Value))

namespace Value

instance : Inhabited Value := ⟨.null⟩

/-- The field of an object; anything else has no fields. -/
def get? : Value → String → Option Value
  | .object fields, key => fields.lookup key
  | _, _ => none

def asStr? : Value → Option String
  | .string value => some value
  | _ => none

def asU64? : Value → Option UInt64
  | .number (.posInt value) => some value
  | _ => none

/-- The value under a path of object keys. -/
def pointer? : Value → List String → Option Value
  | value, [] => some value
  | value, key :: path =>
      match value.get? key with
      | some field => field.pointer? path
      | none => none

def ofOption {Item : Type} (encode : Item → Value) : Option Item → Value
  | some item => encode item
  | none => .null

def ofStrings (items : List String) : Value := .array (items.map .string)

end Value

end OpsCodex.Json
