import OpsCodex.Action
import OpsCodex.Encoding.SelfDelimiting

/-! The preimage of a request hash determines every field it is written from. -/

set_option autoImplicit false

namespace OpsCodex.Action

open OpsCodex.Runtime Encoding

theorem lengthBytes_length (length : Nat) : (lengthBytes length).length = 8 := rfl

theorem lengthBytes_injective {first second : Nat} (firstFits : first < 2 ^ 64)
    (secondFits : second < 2 ^ 64) (same : lengthBytes first = lengthBytes second) :
    first = second := by
  have digits (place : Nat) (digit : UInt8.ofNat (first / 256 ^ place) =
      UInt8.ofNat (second / 256 ^ place)) :
      first / 256 ^ place % 256 = second / 256 ^ place % 256 := by
    simpa using congrArg UInt8.toNat digit
  simp only [lengthBytes, List.map_cons, List.map_nil, List.cons.injEq, and_true] at same
  obtain ⟨d7, d6, d5, d4, d3, d2, d1, d0⟩ := same
  have e7 := digits 7 d7
  have e6 := digits 6 d6
  have e5 := digits 5 d5
  have e4 := digits 4 d4
  have e3 := digits 3 d3
  have e2 := digits 2 d2
  have e1 := digits 1 d1
  have e0 := digits 0 d0
  simp only [Nat.reducePow, Nat.div_one] at e7 e6 e5 e4 e3 e2 e1 e0 firstFits secondFits
  omega

theorem lengthBytes_delimits : SelfDelimiting (· < 2 ^ 64) lengthBytes :=
  SelfDelimiting.of_length lengthBytes_length lengthBytes_injective

theorem lengthPrefixed_delimits :
    SelfDelimiting (fun value : List UInt8 => value.length < 2 ^ 64) lengthPrefixed :=
  lengthBytes_delimits.prefixed

private theorem toList_loop (bytes : ByteArray) (index : Nat) (seen : List UInt8) :
    ByteArray.toList.loop bytes index seen =
      seen.reverse ++ bytes.data.toList.drop index := by
  have sizes : bytes.data.toList.length = bytes.size := by
    simp only [Array.length_toList, ByteArray.size_data]
  induction left : bytes.size - index generalizing index seen with
  | zero =>
      rw [ByteArray.toList.loop, if_neg (by omega), List.drop_eq_nil_of_le (by omega),
        List.append_nil]
  | succ left ih =>
      have inside : index < bytes.data.size := by
        rw [ByteArray.size_data]
        omega
      have byte : bytes.get! index = bytes.data.toList[index] := by
        simp only [ByteArray.get!]
        exact getElem!_pos bytes.data index inside
      have split : bytes.data.toList.drop index =
          bytes.get! index :: bytes.data.toList.drop (index + 1) := by
        rw [byte]
        exact List.drop_eq_getElem_cons _
      rw [ByteArray.toList.loop, if_pos (by omega), ih _ _ (by omega), split]
      simp

theorem utf8_eq_data (text : String) : utf8 text = text.toByteArray.data.toList := by
  simp only [utf8, ByteArray.toList, toList_loop, List.reverse_nil, List.nil_append,
    List.drop_zero]
  rfl

theorem utf8_eq_flatMap (text : String) :
    utf8 text = text.toList.flatMap String.utf8EncodeChar := by
  rw [utf8_eq_data, ← String.utf8Encode_toList]
  exact List.toList_data_toByteArray

theorem utf8_injective {first second : String} (same : utf8 first = utf8 second) :
    first = second := by
  rw [utf8_eq_data, utf8_eq_data] at same
  exact String.toByteArray_inj.mp (ByteArray.ext (Array.toList_inj.mp same))

theorem fromUTF8?_utf8 (text : String) : String.fromUTF8? ⟨(utf8 text).toArray⟩ = some text := by
  rw [utf8_eq_data, Array.toArray_toList]
  simp only [String.fromUTF8?, Option.dite_none_right_eq_some, Option.some.injEq]
  exact ⟨text.isValidUTF8, rfl⟩

theorem length_utf8 (text : String) : (utf8 text).length = text.utf8ByteSize := by
  rw [utf8_eq_data, Array.length_toList, ByteArray.size_data]
  rfl

/-- A text that a length prefix can be written for. -/
def Fits (value : List UInt8) : Prop := value.length < 2 ^ 64

theorem fits_of_utf8ByteSize {text : String} (short : text.utf8ByteSize < 2 ^ 64) :
    Fits (utf8 text) := by
  rw [Fits, length_utf8]
  exact short

theorem text_delimits :
    SelfDelimiting (fun text : String => Fits (utf8 text)) fun text =>
      lengthPrefixed (utf8 text) :=
  lengthPrefixed_delimits.comap utf8_injective

/-- A field of a known name in front of the rest of a preimage. -/
theorem hashField_inj {name first second rest rest' : List UInt8} (firstFits : Fits first)
    (secondFits : Fits second)
    (same : hashField name first ++ rest = hashField name second ++ rest') :
    first = second ∧ rest = rest' := by
  simp only [hashField, List.append_assoc, List.append_cancel_left_eq] at same
  exact lengthPrefixed_delimits firstFits secondFits same

theorem hashStringList_inj {name rest rest' : List UInt8} {first second : List String}
    (firstFits : first.length < 2 ^ 64 ∧ ∀ value ∈ first, Fits (utf8 value))
    (secondFits : second.length < 2 ^ 64 ∧ ∀ value ∈ second, Fits (utf8 value))
    (same : hashStringList name first ++ rest = hashStringList name second ++ rest') :
    first = second ∧ rest = rest' := by
  simp only [hashStringList, List.append_assoc, List.append_cancel_left_eq] at same
  refine (lengthBytes_delimits.counted text_delimits) firstFits secondFits ?_
  simpa only [List.append_assoc] using same

theorem length_lengthPrefixed (value : List UInt8) :
    (lengthPrefixed value).length = value.length + 8 := by
  simp [lengthPrefixed, lengthBytes_length, Nat.add_comm]

theorem length_hashField (name value : List UInt8) :
    (hashField name value).length = name.length + value.length + 16 := by
  simp only [hashField, List.length_append, length_lengthPrefixed]
  omega

private theorem length_le_texts (values : List String) :
    values.length ≤ (values.flatMap fun value => lengthPrefixed (utf8 value)).length := by
  induction values with
  | nil => exact Nat.le_refl 0
  | cons value values ih =>
      simp only [List.length_cons, List.flatMap_cons, List.length_append, length_lengthPrefixed]
      omega

private theorem text_le_texts {values : List String} {text : String} (member : text ∈ values) :
    (utf8 text).length ≤
      (values.flatMap fun value => lengthPrefixed (utf8 value)).length := by
  induction member with
  | head values =>
      simp only [List.flatMap_cons, List.length_append, length_lengthPrefixed]
      omega
  | tail value _ ih =>
      simp only [List.flatMap_cons, List.length_append]
      omega

/-- A string list in a preimage is longer than the list and than its strings. -/
theorem fits_of_hashStringList {name : List UInt8} {values : List String}
    (small : (hashStringList name values).length < 2 ^ 64) :
    values.length < 2 ^ 64 ∧ ∀ value ∈ values, Fits (utf8 value) := by
  simp only [hashStringList, List.length_append] at small
  constructor
  · have bound := length_le_texts values
    omega
  · intro text member
    have bound := text_le_texts member
    unfold Fits
    omega

/-- What two actions with one request-hash preimage share. -/
structure SameRequest (codec : Codec) (first second : ActionRecord) : Prop where
  workspaceId : first.workspaceId = second.workspaceId
  toolId : first.toolId = second.toolId
  parameters :
    codec.toVec first.normalizedParameters = codec.toVec second.normalizedParameters
  preconditions : first.preconditions = second.preconditions
  operationId : first.operationId = second.operationId

private theorem fits_of_append {name value rest : List UInt8}
    (small : (hashField name value ++ rest).length < 2 ^ 64) :
    Fits value ∧ rest.length < 2 ^ 64 := by
  simp only [List.length_append, length_hashField] at small
  unfold Fits
  omega

private theorem field_of_append {name first second rest rest' : List UInt8}
    (small : (hashField name first ++ rest).length < 2 ^ 64)
    (same : hashField name first ++ rest = hashField name second ++ rest') :
    first = second ∧ rest = rest' ∧ rest.length < 2 ^ 64 := by
  have small' := small
  rw [same] at small'
  obtain ⟨fits, shorter⟩ := fits_of_append small
  obtain ⟨fits', -⟩ := fits_of_append small'
  obtain ⟨values, rests⟩ := hashField_inj fits fits' same
  exact ⟨values, rests, shorter⟩

private theorem list_of_append {name rest rest' : List UInt8} {first second : List String}
    (small : (hashStringList name first ++ rest).length < 2 ^ 64)
    (same : hashStringList name first ++ rest = hashStringList name second ++ rest') :
    first = second ∧ rest = rest' ∧ rest.length < 2 ^ 64 := by
  have small' := small
  rw [same] at small'
  rw [List.length_append] at small small'
  have fits := fits_of_hashStringList (Nat.lt_of_le_of_lt (Nat.le_add_right _ _) small)
  have fits' := fits_of_hashStringList (Nat.lt_of_le_of_lt (Nat.le_add_right _ _) small')
  obtain ⟨values, rests⟩ := hashStringList_inj fits fits' same
  exact ⟨values, rests, by omega⟩

/-- Actions with one request-hash preimage share the fields it is written from. A
record of a process is shorter than `2 ^ 64` bytes. -/
theorem sameRequest_of_preimage {codec : Codec} {first second : ActionRecord}
    (small : (actionRequestPreimage codec first).length < 2 ^ 64)
    (same : actionRequestPreimage codec first = actionRequestPreimage codec second) :
    SameRequest codec first second := by
  simp only [actionRequestPreimage, List.append_assoc] at small same
  rw [List.append_cancel_left_eq] at same
  rw [List.length_append] at small
  obtain ⟨workspaces, same, small⟩ := field_of_append (by omega) same
  obtain ⟨tools, same, small⟩ := field_of_append small same
  obtain ⟨-, same, small⟩ := field_of_append small same
  obtain ⟨-, same, small⟩ := field_of_append small same
  obtain ⟨-, same, small⟩ := field_of_append small same
  obtain ⟨parameters, same, small⟩ := field_of_append small same
  obtain ⟨preconditions, same, small⟩ := list_of_append small same
  obtain ⟨-, same, small⟩ := field_of_append small same
  obtain ⟨-, same, small⟩ := field_of_append small same
  obtain ⟨operations, -, -⟩ := field_of_append small same
  exact {
    workspaceId := congrArg WorkspaceId.mk (utf8_injective workspaces)
    toolId := utf8_injective tools
    parameters := parameters
    preconditions := preconditions
    operationId := utf8_injective operations }

end OpsCodex.Action
