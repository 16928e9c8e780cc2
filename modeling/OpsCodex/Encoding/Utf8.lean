import OpsCodex.Action.Preimage

/-! Where the UTF-8 encoding of a text can be cut. -/

set_option autoImplicit false

namespace Encoding.Utf8

def encode (text : List Char) : List UInt8 := text.flatMap String.utf8EncodeChar

def decode (bytes : List UInt8) : Option (List Char) :=
  (String.fromUTF8? ⟨bytes.toArray⟩).map String.toList

def Valid (bytes : List UInt8) : Prop := ∃ text, bytes = encode text

theorem encode_append (before after : List Char) :
    encode (before ++ after) = encode before ++ encode after := List.flatMap_append

theorem decode_encode (text : List Char) : decode (encode text) = some text := by
  have written : encode text = OpsCodex.Action.utf8 (String.ofList text) := by
    rw [OpsCodex.Action.utf8_eq_flatMap, String.toList_ofList]
    rfl
  rw [decode, written, OpsCodex.Action.fromUTF8?_utf8, Option.map_some, String.toList_ofList]

theorem eq_encode_of_decode {bytes : List UInt8} {text : List Char}
    (decoded : decode bytes = some text) : bytes = encode text := by
  obtain ⟨value, read, rfl⟩ := Option.map_eq_some_iff.mp decoded
  have same : value.toByteArray = ⟨bytes.toArray⟩ := by
    unfold String.fromUTF8? at read
    split at read
    · cases read
      rfl
    · cases read
  have written := OpsCodex.Action.utf8_eq_flatMap value
  rw [OpsCodex.Action.utf8_eq_data, same] at written
  exact written

theorem decode_of_not_valid {bytes : List UInt8} (invalid : ¬ Valid bytes) :
    decode bytes = none := by
  cases decoded : decode bytes with
  | none => rfl
  | some text => exact absurd ⟨text, eq_encode_of_decode decoded⟩ invalid

theorem valid_nil : Valid [] := ⟨[], rfl⟩

theorem Valid.append {before after : List UInt8} (first : Valid before) (second : Valid after) :
    Valid (before ++ after) := by
  obtain ⟨first, rfl⟩ := first
  obtain ⟨second, rfl⟩ := second
  exact ⟨first ++ second, (encode_append first second).symm⟩

theorem not_or_lt (value : UInt8) {mark : UInt8} (high : 128 ≤ mark) : ¬ value ||| mark < 128 := by
  rw [UInt8.lt_iff_toNat_lt, UInt8.toNat_or]
  rw [UInt8.le_iff_toNat_le] at high
  have := Nat.right_le_or (n := value.toNat) (m := mark.toNat)
  omega

/-- A byte below 128 stands in no encoding but its own. -/
theorem utf8EncodeChar_of_ascii {byte : UInt8} {char : Char}
    (inside : byte ∈ String.utf8EncodeChar char) (ascii : byte < 128) :
    String.utf8EncodeChar char = [byte] := by
  have sizes : char.utf8Size = 1 ∨ char.utf8Size = 2 ∨ char.utf8Size = 3 ∨
      char.utf8Size = 4 := by
    have positive := char.utf8Size_pos
    have bounded := char.utf8Size_le_four
    omega
  rcases sizes with one | two | three | four
  · rw [String.utf8EncodeChar_eq_singleton one] at inside ⊢
    rw [List.mem_singleton.mp inside]
  · rw [String.utf8EncodeChar_eq_cons_cons two] at inside
    simp only [List.mem_cons, List.not_mem_nil, or_false] at inside
    rcases inside with rfl | rfl
    · exact absurd ascii (not_or_lt _ (by decide))
    · exact absurd ascii (not_or_lt _ (by decide))
  · rw [String.utf8EncodeChar_eq_cons_cons_cons three] at inside
    simp only [List.mem_cons, List.not_mem_nil, or_false] at inside
    rcases inside with rfl | rfl | rfl
    · exact absurd ascii (not_or_lt _ (by decide))
    · exact absurd ascii (not_or_lt _ (by decide))
    · exact absurd ascii (not_or_lt _ (by decide))
  · rw [String.utf8EncodeChar_eq_cons_cons_cons_cons four] at inside
    simp only [List.mem_cons, List.not_mem_nil, or_false] at inside
    rcases inside with rfl | rfl | rfl | rfl
    · exact absurd ascii (not_or_lt _ (by decide))
    · exact absurd ascii (not_or_lt _ (by decide))
    · exact absurd ascii (not_or_lt _ (by decide))
    · exact absurd ascii (not_or_lt _ (by decide))

theorem Valid.split {byte : UInt8} (ascii : byte < 128) {before after : List UInt8}
    (valid : Valid (before ++ byte :: after)) : Valid before ∧ Valid after := by
  obtain ⟨text, written⟩ := valid
  induction text generalizing before with
  | nil => simp [encode] at written
  | cons char text ih =>
      have shape : encode (char :: text) = String.utf8EncodeChar char ++ encode text := rfl
      rw [shape, List.append_eq_append_iff] at written
      rcases written with ⟨part, written, tail⟩ | ⟨part, rfl, tail⟩
      · cases part with
        | nil =>
            have whole : [] ++ byte :: after = encode text := tail
            obtain ⟨-, valid⟩ := ih whole
            rw [List.append_nil] at written
            exact ⟨⟨[char], by simp [encode, written]⟩, valid⟩
        | cons head part =>
            obtain ⟨rfl, rfl⟩ := List.cons.inj tail
            have alone := utf8EncodeChar_of_ascii               (by rw [written]; simp) ascii
            rw [written, List.append_eq_singleton_iff] at alone
            rcases alone with ⟨rfl, same⟩ | ⟨-, none⟩
            · cases same
              exact ⟨valid_nil, text, rfl⟩
            · cases none
      · obtain ⟨valid, rest⟩ := ih tail.symm
        exact ⟨Valid.append ⟨[char], by simp [encode]⟩ valid, rest⟩

theorem Valid.of_append {before after : List UInt8} (ascii : ∀ byte ∈ before, byte < 128)
    (valid : Valid (before ++ after)) : Valid after := by
  induction before with
  | nil => exact valid
  | cons byte before ih =>
      have whole : Valid ([] ++ byte :: (before ++ after)) := valid
      obtain ⟨-, valid⟩ := whole.split (ascii byte List.mem_cons_self)
      exact ih (fun byte inside => ascii byte (List.mem_cons_of_mem _ inside)) valid

/-- A text that is cut at an ASCII delimiter is UTF-8 if and only if both its parts are. -/
theorem valid_delimited {before delimiter after : List UInt8} (nonempty : delimiter ≠ [])
    (ascii : ∀ byte ∈ delimiter, byte < 128) (delimits : Valid delimiter) :
    Valid (before ++ delimiter ++ after) ↔ Valid before ∧ Valid after := by
  constructor
  · intro valid
    cases delimiter with
    | nil => exact absurd rfl nonempty
    | cons byte delimiter =>
        rw [List.append_assoc, List.cons_append] at valid
        obtain ⟨first, rest⟩ := Valid.split (ascii byte List.mem_cons_self) valid
        refine ⟨first, Valid.of_append ?_ rest⟩
        intro byte inside
        exact ascii byte (List.mem_cons_of_mem _ inside)
  · intro ⟨first, second⟩
    exact (first.append delimits).append second

end Encoding.Utf8
