import Mathlib.Data.Set.Function
import Std.Data.String.ToNat
import OpsCodex.Action.Preimage
import OpsCodex.Store.Continuity

/-! What the hash of an approval request is computed from, and when it determines the
request. -/

set_option autoImplicit false

namespace OpsCodex.Store

open OpsCodex.Action OpsCodex.Json OpsCodex.Runtime

/-- What an approval is asked for. -/
structure ApprovalRequest where
  tool : String
  arguments : Value
  schemaHash : Option String

namespace ApprovalRequest

variable {codec : Codec} {first second request : ApprovalRequest}

def schemaText (request : ApprovalRequest) : List UInt8 :=
  match request.schemaHash with
  | some schemaHash => utf8 schemaHash
  | none => []

def preimage (codec : Codec) (request : ApprovalRequest) : List UInt8 :=
  utf8 request.tool ++ codec.toVec request.arguments ++ request.schemaText

theorem utf8_empty : utf8 "" = [] := by
  rw [utf8_eq_data]
  rfl

theorem schemaText_inj (same : first.schemaText = second.schemaText) :
    first.schemaHash = second.schemaHash ∨
      (first.schemaHash = none ∧ second.schemaHash = some "") ∨
      (second.schemaHash = none ∧ first.schemaHash = some "") := by
  have empty {text : String} (nothing : utf8 text = []) : text = "" :=
    utf8_injective (nothing.trans utf8_empty.symm)
  unfold schemaText at same
  cases firstHash : first.schemaHash with
  | none =>
      cases secondHash : second.schemaHash with
      | none => exact .inl rfl
      | some text =>
          rw [firstHash, secondHash] at same
          exact .inr (.inl ⟨rfl, congrArg some (empty same.symm)⟩)
  | some text =>
      cases secondHash : second.schemaHash with
      | none =>
          rw [firstHash, secondHash] at same
          exact .inr (.inr ⟨rfl, congrArg some (empty same)⟩)
      | some other =>
          rw [firstHash, secondHash] at same
          exact .inl (congrArg some (utf8_injective same))

/-- A part of a text is itself a text. -/
def IsText (bytes : List UInt8) : Prop := (String.fromUTF8? ⟨bytes.toArray⟩).isSome = true

/-- A stretch of some bytes is the text of a value, with text before it and behind it. -/
structure ValueText (codec : Codec) (values : Set Value) (bytes : List UInt8)
    (start length : Nat) : Prop where
  inside : start + length ≤ bytes.length
  value : (bytes.drop start).take length ∈ codec.toVec '' values
  before : IsText (bytes.take start)
  behind : IsText (bytes.drop (start + length))

/-- The request has a schema hash that is not empty, and of its hashed bytes only the text of
its arguments is the text of a value. -/
structure OneValueText (codec : Codec) (values : Set Value) (request : ApprovalRequest) :
    Prop where
  schemaHash : ∃ text, request.schemaHash = some text ∧ text ≠ ""
  single : ∀ start length, ValueText codec values (request.preimage codec) start length →
    start = (utf8 request.tool).length ∧ length = (codec.toVec request.arguments).length

theorem exists_of_isText {bytes : List UInt8} (text : IsText bytes) :
    ∃ string, utf8 string = bytes := by
  obtain ⟨string, read⟩ := Option.isSome_iff_exists.mp text
  refine ⟨string, ?_⟩
  rw [utf8_eq_data]
  unfold String.fromUTF8? at read
  split at read
  · cases read
    rfl
  · cases read

theorem isText_utf8 (string : String) : IsText (utf8 string) := by
  rw [IsText, fromUTF8?_utf8]
  rfl

theorem isText_schemaText (request : ApprovalRequest) : IsText request.schemaText := by
  rw [schemaText]
  cases request.schemaHash with
  | none => exact utf8_empty ▸ isText_utf8 ""
  | some text => exact isText_utf8 text

/-- Where the arguments of a request stand in its hashed bytes. -/
theorem valueText_arguments {values : Set Value} (value : request.arguments ∈ values) :
    ValueText codec values (request.preimage codec) (utf8 request.tool).length
      (codec.toVec request.arguments).length := by
  have written : request.preimage codec =
      utf8 request.tool ++ (codec.toVec request.arguments ++ request.schemaText) :=
    List.append_assoc ..
  constructor
  · rw [preimage, List.length_append, List.length_append]
    exact Nat.le_add_right _ _
  · rw [written, List.drop_left, List.take_left]
    exact Set.mem_image_of_mem codec.toVec value
  · rw [written, List.take_left]
    exact isText_utf8 request.tool
  · rw [written, ← List.drop_drop, List.drop_left, List.drop_left]
    exact isText_schemaText request

/-- A stretch of value text makes a request of the bytes. -/
theorem ValueText.exists_request {values : Set Value} {bytes : List UInt8} {start length : Nat}
    (stretch : ValueText codec values bytes start length) :
    ∃ other : ApprovalRequest, other.arguments ∈ values ∧ other.preimage codec = bytes ∧
      utf8 other.tool = bytes.take start ∧
      codec.toVec other.arguments = (bytes.drop start).take length := by
  obtain ⟨tool, toolText⟩ := exists_of_isText stretch.before
  obtain ⟨schemaHash, schemaText⟩ := exists_of_isText stretch.behind
  obtain ⟨value, known, valueText⟩ := stretch.value
  refine ⟨⟨tool, value, some schemaHash⟩, known, ?_, toolText, valueText⟩
  simp only [preimage, ApprovalRequest.schemaText, toolText, schemaText, valueText]
  rw [← List.drop_drop, List.append_assoc, List.take_append_drop, List.take_append_drop]

theorem preimage_schemaHash {other : ApprovalRequest} (tool : other.tool = request.tool)
    (arguments : other.arguments = request.arguments)
    (schemaText : other.schemaText = request.schemaText) :
    other.preimage codec = request.preimage codec := by
  rw [preimage, preimage, tool, arguments, schemaText]

/-- A request that no other has the bytes of has a schema hash: nothing and the empty text are
hashed alike. -/
theorem schemaHash_of_binds {values : Set Value} (value : request.arguments ∈ values)
    (binds : ∀ other : ApprovalRequest, other.arguments ∈ values →
      other.preimage codec = request.preimage codec → other = request) :
    ∃ text, request.schemaHash = some text ∧ text ≠ "" := by
  cases given : request.schemaHash with
  | none =>
      have other := binds ⟨request.tool, request.arguments, some ""⟩ value
        (preimage_schemaHash rfl rfl (by simp only [schemaText, given, utf8_empty]))
      have equal := congrArg ApprovalRequest.schemaHash other
      rw [given] at equal
      cases equal
  | some text =>
      refine ⟨text, rfl, fun empty => ?_⟩
      have other := binds ⟨request.tool, request.arguments, none⟩ value
        (preimage_schemaHash rfl rfl (by simp only [schemaText, given, empty, utf8_empty]))
      have equal := congrArg ApprovalRequest.schemaHash other
      rw [given] at equal
      cases equal

end ApprovalRequest

/-- The texts of natural numbers. -/
def decimals : Codec where
  sha256Hex := fun _ => ""
  toVec
    | .number (.posInt value) => utf8 (Nat.repr value.toNat)
    | _ => utf8 "null"
  toRfc3339 := fun _ => ""

def twelve : Value := .number (.posInt 12)

def two : Value := .number (.posInt 2)

/-- The values that are natural numbers. -/
def naturals : Set Value := Set.range fun value => .number (.posInt value)

theorem injOn_decimals : Set.InjOn decimals.toVec naturals := by
  intro first firstOne second secondOne same
  obtain ⟨left, rfl⟩ := firstOne
  obtain ⟨right, rfl⟩ := secondOne
  have numbers : left.toNat = right.toNat := Nat.repr_injective (utf8_injective same)
  rw [UInt64.toNat_inj.mp numbers]

end OpsCodex.Store
