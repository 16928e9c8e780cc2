import OpsCodex.Encoding.Utf8
import OpsCodex.Sequence.Offsets

/-! Decoding bytes that need not be UTF-8: a replacement character stands for each sequence
that could not begin a character any further. -/

set_option autoImplicit false

namespace Encoding.Utf8

def replacement : Char := Char.ofNat 0xfffd

/-- The length of the character that a byte may begin. -/
def sequenceLength (first : UInt8) : Nat :=
  if first < 0x80 then 1
  else if first < 0xc0 then 0
  else if first < 0xe0 then 2
  else if first < 0xf0 then 3
  else if first < 0xf8 then 4
  else 0

/-- The first character, if the bytes begin with one, and the bytes behind it. -/
def decodeFirst : List UInt8 → Option (Char × List UInt8)
  | [] => none
  | first :: rest =>
      match decode ((first :: rest).take (sequenceLength first)) with
      | some [char] => some (char, (first :: rest).drop (sequenceLength first))
      | _ => none

def isContinuation (byte : UInt8) : Bool := 0x80 ≤ byte && byte < 0xc0

/-- The second bytes that keep a first byte from being too long, a surrogate or too large. -/
def acceptsSecond (first second : UInt8) : Bool :=
  if first = 0xe0 then 0xa0 ≤ second && second < 0xc0
  else if first = 0xed then 0x80 ≤ second && second < 0xa0
  else if first = 0xf0 then 0x90 ≤ second && second < 0xc0
  else if first = 0xf4 then 0x80 ≤ second && second < 0x90
  else 0xc2 ≤ first && first < 0xf4 && isContinuation second

/-- How many bytes one replacement character stands for. -/
def invalidLength : List UInt8 → Nat
  | first :: second :: third :: _ =>
      if !acceptsSecond first second then 1 else if !isContinuation third then 2 else 3
  | [first, second] => if acceptsSecond first second then 2 else 1
  | _ => 1

theorem length_lt_of_decodeFirst {bytes left : List UInt8} {char : Char}
    (decoded : decodeFirst bytes = some (char, left)) : left.length < bytes.length := by
  cases bytes with
  | nil => cases decoded
  | cons first rest =>
      rw [decodeFirst] at decoded
      split at decoded
      · rename_i found
        cases decoded
        have positive : 0 < sequenceLength first := by
          refine Nat.pos_of_ne_zero fun none => ?_
          rw [none, List.take_zero] at found
          have empty := eq_encode_of_decode found
          have long := congrArg List.length empty
          rw [encode, List.flatMap_singleton, String.length_utf8EncodeChar] at long
          exact absurd long.symm (Nat.pos_iff_ne_zero.mp (Char.utf8Size_pos char))
        rw [List.length_drop, List.length_cons]
        omega
      · cases decoded

theorem invalidLength_pos (bytes : List UInt8) : 0 < invalidLength bytes := by
  unfold invalidLength
  split
  · split
    · decide
    · split
      · decide
      · decide
  · split
    · decide
    · decide
  · decide

def fromUtf8Lossy (bytes : List UInt8) : List Char :=
  if bytes = [] then []
  else
    match _ : decodeFirst bytes with
    | some (char, left) => char :: fromUtf8Lossy left
    | none => replacement :: fromUtf8Lossy (bytes.drop (invalidLength bytes))
termination_by bytes.length
decreasing_by
  · exact length_lt_of_decodeFirst (by assumption)
  · rw [List.length_drop]
    exact Nat.sub_lt (List.length_pos_iff.mpr (by assumption)) (invalidLength_pos bytes)

theorem length_encode (text : List Char) :
    (encode text).length = Offsets.width Char.utf8Size text := by
  induction text with
  | nil => rfl
  | cons char text ih =>
      have shape : encode (char :: text) = String.utf8EncodeChar char ++ encode text := rfl
      rw [shape, List.length_append, String.length_utf8EncodeChar, ih, Offsets.width_cons]

theorem mask_or_lt {value mask mark bits factor : Nat} (low : mask < 2 ^ bits)
    (high : mark = 2 ^ bits * factor) : value &&& mask ||| mark < mark + 2 ^ bits := by
  have masked : value &&& mask < 2 ^ bits := Nat.and_lt_two_pow value low
  rw [high, Nat.or_comm, ← Nat.two_pow_add_eq_or_of_lt masked]
  exact Nat.add_lt_add_left masked _

theorem or_range {value mask mark : UInt8} (bits factor : Nat)
    (low : mask.toNat < 2 ^ bits) (high : mark.toNat = 2 ^ bits * factor) :
    mark.toNat ≤ (value &&& mask ||| mark).toNat ∧
      (value &&& mask ||| mark).toNat < mark.toNat + 2 ^ bits := by
  rw [UInt8.toNat_or, UInt8.toNat_and]
  exact ⟨Nat.right_le_or, mask_or_lt low high⟩

theorem sequenceLength_eq (first : UInt8) :
    sequenceLength first =
      if first.toNat < 0x80 then 1
      else if first.toNat < 0xc0 then 0
      else if first.toNat < 0xe0 then 2
      else if first.toNat < 0xf0 then 3
      else if first.toNat < 0xf8 then 4
      else 0 := rfl

theorem sequenceLength_one {first : UInt8} (ascii : first < 0x80) : sequenceLength first = 1 :=
  if_pos ascii

theorem sequenceLength_two (value : UInt8) : sequenceLength (value &&& 0x1f ||| 0xc0) = 2 := by
  have range : (0xc0 : UInt8).toNat ≤ (value &&& 0x1f ||| 0xc0).toNat ∧
      (value &&& 0x1f ||| 0xc0).toNat < (0xc0 : UInt8).toNat + 2 ^ 5 :=
    or_range 5 6 (by decide) (by decide)
  have mark : (0xc0 : UInt8).toNat = 0xc0 := rfl
  rw [sequenceLength_eq, if_neg (by omega), if_neg (by omega), if_pos (by omega)]

theorem sequenceLength_three (value : UInt8) : sequenceLength (value &&& 0x0f ||| 0xe0) = 3 := by
  have range : (0xe0 : UInt8).toNat ≤ (value &&& 0x0f ||| 0xe0).toNat ∧
      (value &&& 0x0f ||| 0xe0).toNat < (0xe0 : UInt8).toNat + 2 ^ 4 :=
    or_range 4 14 (by decide) (by decide)
  have mark : (0xe0 : UInt8).toNat = 0xe0 := rfl
  rw [sequenceLength_eq, if_neg (by omega), if_neg (by omega), if_neg (by omega),
    if_pos (by omega)]

theorem sequenceLength_four (value : UInt8) : sequenceLength (value &&& 0x07 ||| 0xf0) = 4 := by
  have range : (0xf0 : UInt8).toNat ≤ (value &&& 0x07 ||| 0xf0).toNat ∧
      (value &&& 0x07 ||| 0xf0).toNat < (0xf0 : UInt8).toNat + 2 ^ 3 :=
    or_range 3 30 (by decide) (by decide)
  have mark : (0xf0 : UInt8).toNat = 0xf0 := rfl
  rw [sequenceLength_eq, if_neg (by omega), if_neg (by omega), if_neg (by omega),
    if_neg (by omega), if_pos (by omega)]

theorem toUInt8_lt_of_one {char : Char} (one : char.utf8Size = 1) :
    char.val.toUInt8 < 0x80 := by
  have small := Char.utf8Size_eq_one_iff.mp one
  rw [UInt32.le_iff_toNat_le] at small
  rw [UInt8.lt_iff_toNat_lt, UInt32.toNat_toUInt8]
  have bound : (127 : UInt32).toNat = 127 := rfl
  have limit : (0x80 : UInt8).toNat = 128 := rfl
  omega

/-- The first byte of a character tells its length. -/
theorem sequenceLength_utf8EncodeChar {char : Char} {first : UInt8} {rest : List UInt8}
    (written : String.utf8EncodeChar char = first :: rest) :
    sequenceLength first = (String.utf8EncodeChar char).length := by
  have sizes : char.utf8Size = 1 ∨ char.utf8Size = 2 ∨ char.utf8Size = 3 ∨
      char.utf8Size = 4 := by
    have positive := char.utf8Size_pos
    have bounded := char.utf8Size_le_four
    omega
  rw [String.length_utf8EncodeChar]
  rcases sizes with one | two | three | four
  · rw [String.utf8EncodeChar_eq_singleton one] at written
    cases written
    rw [sequenceLength_one (toUInt8_lt_of_one one), one]
  · rw [String.utf8EncodeChar_eq_cons_cons two] at written
    cases written
    rw [sequenceLength_two, two]
  · rw [String.utf8EncodeChar_eq_cons_cons_cons three] at written
    cases written
    rw [sequenceLength_three, three]
  · rw [String.utf8EncodeChar_eq_cons_cons_cons_cons four] at written
    cases written
    rw [sequenceLength_four, four]

theorem decodeFirst_append (char : Char) (rest : List UInt8) :
    decodeFirst (String.utf8EncodeChar char ++ rest) = some (char, rest) := by
  cases written : String.utf8EncodeChar char with
  | nil => exact absurd written String.utf8EncodeChar_ne_nil
  | cons first later =>
      have length := sequenceLength_utf8EncodeChar written
      rw [written] at length
      have decoded : decode (first :: later) = some [char] := by
        rw [← written, ← decode_encode [char], encode, List.flatMap_singleton]
      rw [List.cons_append, decodeFirst, length, ← List.cons_append, List.take_left, decoded,
        List.drop_left]

/-- Bytes that are UTF-8 are decoded as they are. -/
theorem fromUtf8Lossy_encode (text : List Char) : fromUtf8Lossy (encode text) = text := by
  induction text with
  | nil =>
      have empty : encode [] = [] := rfl
      rw [empty, fromUtf8Lossy, if_pos rfl]
  | cons char text ih =>
      have shape : encode (char :: text) = String.utf8EncodeChar char ++ encode text := rfl
      have nonempty : String.utf8EncodeChar char ++ encode text ≠ [] := fun empty =>
        String.utf8EncodeChar_ne_nil (List.append_eq_nil_iff.mp empty).1
      rw [shape, fromUtf8Lossy, if_neg nonempty]
      split
      · rename_i found left decoded
        rw [decodeFirst_append] at decoded
        cases decoded
        rw [ih]
      · rename_i missing
        rw [decodeFirst_append] at missing
        cases missing

end Encoding.Utf8
