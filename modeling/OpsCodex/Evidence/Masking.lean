import Mathlib.Data.List.Forall2
import OpsCodex.Evidence.Redact

/-! What the passes of a redaction make of a text, without offsets: every pass but the one
for private keys has a result for every text. -/

set_option autoImplicit false

namespace OpsCodex.Evidence.Redact

open Offsets
open OpsCodex.Strings (isWhitespace toAsciiLowercase)

/-- A text begins with a pattern. -/
def begins (pattern : Text) (rest : Text) : Bool := decide (pattern <+: rest)

/-- A text begins with a pattern, in letters of either case. -/
def beginsFolded (pattern : Text) (rest : Text) : Bool :=
  decide (pattern <+: toAsciiLowercase rest)

def pemBegin : Text := "-----BEGIN ".toList

def pemEnd : Text := "-----END ".toList

/-- The first end marker lies before the first begin marker. -/
def pemCrossed (text : Text) : Bool :=
  match seek (begins pemBegin) text, seek (begins pemEnd) text with
  | some (before, _), some (before', _) => decide (before'.length < before.length)
  | _, _ => false

def maskPem (text : Text) : Text × Bool :=
  match seek (begins pemBegin) text, seek (begins pemEnd) text with
  | some (before, _), some (_, rest) =>
      (before ++ "[REDACTED_PRIVATE_KEY]".toList ++ rest.drop 5, true)
  | _, _ => (text, false)

theorem length_drop_seek_lt {here : Text → Bool} {lead text before rest : Text}
    (some' : lead ≠ []) (matches' : ∀ rest, here rest = true → lead.length ≤ rest.length)
    (found : seek here text = some (before, rest)) :
    (rest.drop lead.length).length < text.length := by
  obtain ⟨rfl, holds, -⟩ := seek_eq_some found
  have longer := matches' rest holds
  have positive := List.length_pos_iff.mpr some'
  rw [List.length_drop, List.length_append]
  omega

theorem length_le_of_begins {pattern : Text} (rest : Text) (holds : begins pattern rest = true) :
    pattern.length ≤ rest.length := (of_decide_eq_true holds).length_le

theorem length_le_of_beginsFolded {pattern : Text} (rest : Text)
    (holds : beginsFolded pattern rest = true) : pattern.length ≤ rest.length := by
  simpa [toAsciiLowercase] using (of_decide_eq_true holds).length_le

/-- Every occurrence of a prefix with enough token characters behind it is replaced. -/
def maskPrefixed (first : Char) (lead : Text) (minRest : Nat) (text : Text) : Text × Bool :=
  match _found : seek (begins (first :: lead)) text with
  | none => (text, false)
  | some (before, here) =>
      let rest := here.drop (first :: lead).length
      if minRest ≤ (rest.takeWhile isTokenChar).length then
        let later := maskPrefixed first lead minRest (rest.dropWhile isTokenChar)
        (before ++ redacted ++ later.1, true)
      else
        let later := maskPrefixed first lead minRest rest
        (before ++ (first :: lead) ++ later.1, later.2)
termination_by text.length
decreasing_by
  · have shorter := length_drop_seek_lt (List.cons_ne_nil first lead) length_le_of_begins _found
    have suffix := ((here.drop (first :: lead).length).dropWhile_suffix isTokenChar).length_le
    omega
  · exact length_drop_seek_lt (List.cons_ne_nil first lead) length_le_of_begins _found

def bearer : Text := "bearer ".toList

def maskBearer (text : Text) : Text × Bool :=
  match seek (beginsFolded bearer) text with
  | none => (text, false)
  | some (before, here) =>
      let rest := here.drop bearer.length
      if 8 < (rest.takeWhile fun char => !isWhitespace char).length then
        (before ++ "Bearer [REDACTED]".toList ++ rest.dropWhile fun char => !isWhitespace char,
          true)
      else (text, false)

/-- The first value that a key is assigned is replaced. -/
def maskAssignment (first : Char) (key : Text) (text : Text) : Text × Bool :=
  match _found : seek (beginsFolded (first :: key)) text with
  | none => (text, false)
  | some (before, here) =>
      let name := here.take (first :: key).length
      let rest := here.drop (first :: key).length
      match rest.dropWhile isWhitespace with
      | [] => (text, false)
      | sign :: value =>
          let trimmed := value.dropWhile isWhitespace
          if (sign = '=' ∨ sign = ':') ∧ 0 < (trimmed.takeWhile isValueChar).length then
            (before ++ name ++ rest.takeWhile isWhitespace ++ [sign] ++
              value.takeWhile isWhitespace ++ redacted ++ trimmed.dropWhile isValueChar, true)
          else
            let later := maskAssignment first key rest
            (before ++ name ++ later.1, later.2)
termination_by text.length
decreasing_by
  exact length_drop_seek_lt (List.cons_ne_nil first key) length_le_of_beginsFolded _found

theorem utf8Size_toLower (char : Char) : char.toLower.utf8Size = char.utf8Size := by
  unfold Char.toLower
  split
  · rename_i upper
    have small : char.val.toNat ≤ 90 := UInt32.le_iff_toNat_le.mp upper.2
    have large : 65 ≤ char.val.toNat := UInt32.le_iff_toNat_le.mp upper.1
    have sum : (char.val + ('a'.val - 'A'.val)).toNat = char.val.toNat + 32 := by
      rw [UInt32.toNat_add]
      have shift : ('a'.val - 'A'.val).toNat = 32 := by decide
      omega
    have lower : char.val + ('a'.val - 'A'.val) ≤ 0x7f := by
      rw [UInt32.le_iff_toNat_le, sum]
      simp only [UInt32.toNat_ofNat]
      omega
    have own : char.val ≤ 0x7f := by
      rw [UInt32.le_iff_toNat_le]
      simp only [UInt32.toNat_ofNat]
      omega
    rw [Char.utf8Size, Char.utf8Size]
    exact (if_pos lower).trans (if_pos own).symm
  · rfl

theorem byteLen_toAsciiLowercase (text : Text) :
    byteLen (toAsciiLowercase text) = byteLen text := by
  induction text with
  | nil => rfl
  | cons first text ih =>
      simp only [byteLen, toAsciiLowercase, List.map_cons, width_cons, utf8Size_toLower] at ih ⊢
      rw [ih]

section

variable {text before rest : Text}

theorem positive (char : Char) : 0 < char.utf8Size := Char.utf8Size_pos char

theorem byteLen_append (before after : Text) :
    byteLen (before ++ after) = byteLen before + byteLen after := width_append before after

theorem length_le_byteLen (text : Text) : text.length ≤ byteLen text := by
  induction text with
  | nil => exact Nat.le_refl _
  | cons char text ih =>
      have some' := positive char
      simp only [byteLen, width_cons, List.length_cons] at ih ⊢
      omega

theorem slice_at (before after : Text) :
    slice Char.utf8Size (before ++ after) (byteLen before) = some after :=
  slice_append positive before after

theorem replaceRange_at {start stop : Nat} (before part after replacement : Text)
    (start' : start = byteLen before) (stop' : stop = byteLen before + byteLen part) :
    replaceRange Char.utf8Size (before ++ (part ++ after)) start stop replacement =
      some (before ++ replacement ++ after) := by
  rw [start', stop']
  exact replaceRange_append positive before part after replacement

theorem find_begins (pattern text : Text) : find Char.utf8Size pattern text =
    (seek (begins pattern) text).map fun parts => byteLen parts.1 :=
  find_eq pattern text

theorem find_beginsFolded (pattern text : Text) :
    find Char.utf8Size pattern (toAsciiLowercase text) =
      (seek (beginsFolded pattern) text).map fun parts => byteLen parts.1 :=
  find_map utf8Size_toLower pattern text

/-- A place where a pattern begins, cut behind the pattern. -/
theorem cut_begins {pattern : Text} (found : seek (begins pattern) text = some (before, rest)) :
    text = before ++ (pattern ++ rest.drop pattern.length) ∧
      rest = pattern ++ rest.drop pattern.length := by
  obtain ⟨rfl, holds, -⟩ := seek_eq_some found
  obtain ⟨after, rfl⟩ := of_decide_eq_true holds
  simp

/-- The same for a pattern in letters of either case. -/
theorem cut_beginsFolded {pattern : Text}
    (found : seek (beginsFolded pattern) text = some (before, rest)) :
    text = before ++ (rest.take pattern.length ++ rest.drop pattern.length) ∧
      byteLen (rest.take pattern.length) = byteLen pattern := by
  obtain ⟨rfl, holds, -⟩ := seek_eq_some found
  refine ⟨by rw [List.take_append_drop], ?_⟩
  have folded := List.prefix_iff_eq_take.mp (of_decide_eq_true holds)
  have same : byteLen pattern = byteLen (toAsciiLowercase (rest.take pattern.length)) := by
    rw [toAsciiLowercase, List.map_take, ← toAsciiLowercase, ← folded]
  rw [same, byteLen_toAsciiLowercase]

/-- Of two beginnings of a text one is the beginning of the other. -/
theorem prefix_or_prefix {before' rest' : Text} (first : text = before ++ rest)
    (second : text = before' ++ rest') : before <+: before' ∨ before' <+: before :=
  List.prefix_or_prefix_of_prefix (Exists.intro rest first.symm) (Exists.intro rest' second.symm)

/-- Of two beginnings of a text the shorter one is the beginning of the other. -/
theorem prefix_of_byteLen_le {before' rest' : Text} (first : text = before ++ rest)
    (second : text = before' ++ rest') (le : byteLen before ≤ byteLen before') :
    before <+: before' := by
  rcases prefix_or_prefix first second with within | beyond
  · exact within
  · obtain ⟨extra, rfl⟩ := beyond
    rw [byteLen_append] at le
    have few := length_le_byteLen extra
    obtain rfl : extra = [] := List.length_eq_zero_iff.mp (by omega)
    simp

/-- An end marker that lies before a begin marker has no part in it. -/
theorem byteLen_add_lt_of_crossed {before' rest' : Text}
    (start : seek (begins pemBegin) text = some (before, rest))
    (stop : seek (begins pemEnd) text = some (before', rest'))
    (crossed : before'.length < before.length) : byteLen before' + 5 < byteLen before := by
  obtain ⟨whole, -⟩ := cut_begins start
  obtain ⟨whole', -⟩ := cut_begins stop
  rcases prefix_or_prefix whole' whole with within | beyond
  · obtain ⟨extra, rfl⟩ := within
    rw [List.length_append] at crossed
    have few := length_le_byteLen extra
    rw [byteLen_append]
    rw [whole, List.append_assoc, List.append_cancel_left_eq] at whole'
    -- the sixth character of an end marker is no dash
    refine Nat.lt_of_not_le fun close => ?_
    have short : extra.length ≤ 5 := by omega
    have sixth := congrArg (fun marks : Text => marks[5]?) whole'
    have dashes : ∀ index < 5, pemBegin[index]? = some '-' := by decide
    have letter : pemEnd[5]? = some 'E' := by decide
    have room : 5 < pemEnd.length := by decide
    have room' : 5 - extra.length < pemBegin.length :=
      Nat.lt_of_le_of_lt (Nat.sub_le _ _) (by decide)
    simp only [List.getElem?_append_right short, List.getElem?_append_left room,
      List.getElem?_append_left room', dashes (5 - extra.length) (by omega), letter] at sixth
    cases sixth
  · exact absurd beyond.length_le (by omega)

theorem redactPem_eq (text : Text) :
    redactPem text = if pemCrossed text then none else some (maskPem text) := by
  have begun : find Char.utf8Size "-----BEGIN ".toList text =
      (seek (begins pemBegin) text).map fun parts => byteLen parts.1 := find_begins pemBegin text
  have ended : find Char.utf8Size "-----END ".toList text =
      (seek (begins pemEnd) text).map fun parts => byteLen parts.1 := find_begins pemEnd text
  unfold redactPem pemCrossed maskPem
  rw [begun, ended]
  cases start : seek (begins pemBegin) text with
  | none => rfl
  | some parts =>
      obtain ⟨before, rest⟩ := parts
      cases stop : seek (begins pemEnd) text with
      | none => rfl
      | some parts' =>
          obtain ⟨before', rest'⟩ := parts'
          obtain ⟨whole, -⟩ := cut_begins start
          obtain ⟨whole', marker⟩ := cut_begins stop
          have dashes : rest' = "-----".toList ++ rest'.drop 5 := by
            rw [marker]
            rfl
          have found : find Char.utf8Size "-----".toList rest' = some 0 := by
            rw [marker]
            rfl
          rw [← marker] at whole'
          have sliced : slice Char.utf8Size text (byteLen before') = some rest' := by
            rw [whole', slice_at]
          simp only [Option.map_some, sliced, Option.bind_eq_bind, Option.bind_some, found]
          by_cases crossed : before'.length < before.length
          · have far := byteLen_add_lt_of_crossed start stop crossed
            simp only [crossed, decide_true, if_true]
            rw [replaceRange_eq_none (by omega)]
            rfl
          · simp only [crossed, decide_false, Bool.false_eq_true, if_false]
            have within : before <+: before' := by
              rcases prefix_or_prefix whole whole' with within | beyond
              · exact within
              · have same := beyond.eq_of_length (by have := beyond.length_le; omega)
                exact same ▸ List.prefix_refl before'
            obtain ⟨body, rfl⟩ := within
            have parts : text = before ++ ((body ++ "-----".toList) ++ rest'.drop 5) := by
              rw [List.append_assoc, ← dashes, ← List.append_assoc]
              exact whole'
            have five : byteLen "-----".toList = 5 := by decide
            have stop : byteLen (before ++ body) + 0 + 5 =
                byteLen before + byteLen (body ++ "-----".toList) := by
              rw [byteLen_append, byteLen_append, five]
              omega
            have replaced := replaceRange_at before (body ++ "-----".toList) (rest'.drop 5)
              "[REDACTED_PRIVATE_KEY]".toList rfl stop
            rw [← parts] at replaced
            rw [replaced]
            rfl

theorem maskPrefixed_none {first : Char} {lead : Text} (minRest : Nat)
    (missing : seek (begins (first :: lead)) text = none) :
    maskPrefixed first lead minRest text = (text, false) := by
  rw [maskPrefixed]
  split
  · rfl
  · rename_i found
    rw [missing] at found
    cases found

theorem maskPrefixed_some {first : Char} {lead here : Text} (minRest : Nat)
    (found : seek (begins (first :: lead)) text = some (before, here)) :
    maskPrefixed first lead minRest text =
      if minRest ≤ ((here.drop (first :: lead).length).takeWhile isTokenChar).length then
        (before ++ redacted ++ (maskPrefixed first lead minRest
          ((here.drop (first :: lead).length).dropWhile isTokenChar)).1, true)
      else
        (before ++ (first :: lead) ++
            (maskPrefixed first lead minRest (here.drop (first :: lead).length)).1,
          (maskPrefixed first lead minRest (here.drop (first :: lead).length)).2) := by
  rw [maskPrefixed]
  split
  · rename_i missing
    rw [found] at missing
    cases missing
  · rename_i before' here' found'
    rw [found] at found'
    cases found'
    rfl

theorem replacePrefixedFrom_eq (first : Char) (lead : Text) (minRest : Nat) {fuel : Nat}
    {text : Text} (before : Text) (changed : Bool) (enough : text.length < fuel) :
    replacePrefixedFrom (first :: lead) minRest fuel (before ++ text) (byteLen before) changed =
      some (before ++ (maskPrefixed first lead minRest text).1,
        changed || (maskPrefixed first lead minRest text).2) := by
  induction fuel generalizing before text changed with
  | zero => exact absurd enough (Nat.not_lt_zero _)
  | succ fuel ih =>
      rw [replacePrefixedFrom, slice_at]
      simp only [Option.bind_eq_bind, Option.bind_some, find_begins]
      cases found : seek (begins (first :: lead)) text with
      | none =>
          rw [maskPrefixed_none minRest found, Bool.or_false]
          rfl
      | some parts =>
          obtain ⟨skipped, here⟩ := parts
          obtain ⟨whole, marker⟩ := cut_begins found
          have shorter := length_drop_seek_lt (List.cons_ne_nil first lead) length_le_of_begins
            found
          rw [maskPrefixed_some minRest found]
          generalize restEq : here.drop (first :: lead).length = rest at whole marker shorter ⊢
          have searched : byteLen before + byteLen skipped + byteLen (first :: lead) =
              byteLen (before ++ skipped ++ (first :: lead)) := by
            simp only [byteLen_append]
          have output : before ++ text = before ++ skipped ++ (first :: lead) ++ rest := by
            rw [whole]
            simp only [List.append_assoc]
          simp only [Option.map_some, searched]
          rw [output, slice_at]
          simp only [Option.bind_some]
          split
          · have run : byteLen (before ++ skipped ++ first :: lead) +
                nth Char.utf8Size rest (rest.takeWhile isTokenChar).length =
                byteLen (before ++ skipped) +
                  byteLen ((first :: lead) ++ rest.takeWhile isTokenChar) := by
              rw [nth_takeWhile]
              simp only [byteLen_append, ← Nat.add_assoc]
              rfl
            have replaced := replaceRange_at (before ++ skipped)
              ((first :: lead) ++ rest.takeWhile isTokenChar) (rest.dropWhile isTokenChar)
              redacted (byteLen_append before skipped).symm run
            simp only [List.append_assoc, List.takeWhile_append_dropWhile] at replaced ⊢
            rw [replaced]
            have suffix := (rest.dropWhile_suffix isTokenChar).length_le
            have short : (rest.dropWhile isTokenChar).length < fuel := by omega
            have later := ih (before ++ skipped ++ redacted) true short
            simp only [List.append_assoc, byteLen_append, ← Nat.add_assoc] at later ⊢
            rw [Option.bind_some, later]
            simp
          · have short : rest.length < fuel := by omega
            have later := ih (before ++ skipped ++ (first :: lead)) changed short
            rw [later]
            simp only [List.append_assoc]

theorem replacePrefixed_eq (first : Char) (lead : Text) (minRest : Nat) (text : Text) :
    replacePrefixed (first :: lead) minRest text = some (maskPrefixed first lead minRest text) := by
  have enough : text.length < byteLen text + 1 := Nat.lt_succ_of_le (length_le_byteLen text)
  have whole := replacePrefixedFrom_eq first lead minRest [] false enough
  rw [Bool.false_or, List.nil_append] at whole
  exact whole

theorem redactBearer_eq (text : Text) : redactBearer text = some (maskBearer text) := by
  have spelled : "bearer ".toList = bearer := rfl
  unfold redactBearer maskBearer
  simp only [spelled, find_beginsFolded]
  cases found : seek (beginsFolded bearer) text with
  | none => rfl
  | some parts =>
      obtain ⟨before, here⟩ := parts
      obtain ⟨whole, folded⟩ := cut_beginsFolded found
      simp only [Option.map_some]
      generalize nameEq : here.take bearer.length = name at whole folded
      generalize restEq : here.drop bearer.length = rest at whole ⊢
      have start : byteLen before + byteLen bearer = byteLen (before ++ name) := by
        rw [byteLen_append, folded]
      have sliced : slice Char.utf8Size text (byteLen before + byteLen bearer) = some rest := by
        rw [start, whole, ← List.append_assoc, slice_at]
      simp only [sliced, Option.bind_eq_bind, Option.bind_some]
      split
      · have run : byteLen before + byteLen bearer +
            nth Char.utf8Size rest (rest.takeWhile fun char => !isWhitespace char).length =
            byteLen before + byteLen (name ++ rest.takeWhile fun char => !isWhitespace char) := by
          rw [nth_takeWhile, byteLen_append, folded, Nat.add_assoc]
          rfl
        have replaced := replaceRange_at before
          (name ++ rest.takeWhile fun char => !isWhitespace char)
          (rest.dropWhile fun char => !isWhitespace char) "Bearer [REDACTED]".toList rfl run
        rw [List.append_assoc, List.takeWhile_append_dropWhile, ← whole] at replaced
        rw [replaced]
        rfl
      · rfl

theorem maskAssignment_none {first : Char} {key : Text}
    (missing : seek (beginsFolded (first :: key)) text = none) :
    maskAssignment first key text = (text, false) := by
  rw [maskAssignment]
  split
  · rfl
  · rename_i found
    rw [missing] at found
    cases found

theorem maskAssignment_end {first : Char} {key here : Text}
    (found : seek (beginsFolded (first :: key)) text = some (before, here))
    (blank : (here.drop (first :: key).length).dropWhile isWhitespace = []) :
    maskAssignment first key text = (text, false) := by
  rw [maskAssignment]
  split
  · rfl
  · rename_i before' here' found'
    rw [found] at found'
    cases found'
    simp only [blank]

theorem maskAssignment_some {first sign : Char} {key here value : Text}
    (found : seek (beginsFolded (first :: key)) text = some (before, here))
    (next : (here.drop (first :: key).length).dropWhile isWhitespace = sign :: value) :
    maskAssignment first key text =
      if (sign = '=' ∨ sign = ':') ∧
          0 < ((value.dropWhile isWhitespace).takeWhile isValueChar).length then
        (before ++ here.take (first :: key).length ++
          (here.drop (first :: key).length).takeWhile isWhitespace ++ [sign] ++
          value.takeWhile isWhitespace ++ redacted ++
          (value.dropWhile isWhitespace).dropWhile isValueChar, true)
      else
        (before ++ here.take (first :: key).length ++
            (maskAssignment first key (here.drop (first :: key).length)).1,
          (maskAssignment first key (here.drop (first :: key).length)).2) := by
  rw [maskAssignment]
  split
  · rename_i missing
    rw [found] at missing
    cases missing
  · rename_i before' here' found'
    rw [found] at found'
    cases found'
    simp only [next]

theorem byteLen_dropWhile (run : Char → Bool) (text : Text) :
    byteLen text - byteLen (text.dropWhile run) = byteLen (text.takeWhile run) := by
  have whole := byteLen_append (text.takeWhile run) (text.dropWhile run)
  rw [List.takeWhile_append_dropWhile] at whole
  omega

theorem toAsciiLowercase_append (before after : Text) :
    toAsciiLowercase (before ++ after) = toAsciiLowercase before ++ toAsciiLowercase after :=
  List.map_append

/-- The value behind a sign and its spaces is replaced. -/
theorem replaceRange_value (before value : Text) :
    replaceRange Char.utf8Size (before ++ value)
        (byteLen before + byteLen (value.takeWhile isWhitespace))
        (byteLen before + byteLen (value.takeWhile isWhitespace) +
          nth Char.utf8Size (value.dropWhile isWhitespace)
            ((value.dropWhile isWhitespace).takeWhile isValueChar).length) redacted =
      some (before ++ value.takeWhile isWhitespace ++ redacted ++
        (value.dropWhile isWhitespace).dropWhile isValueChar) := by
  have parts : value = value.takeWhile isWhitespace ++
      ((value.dropWhile isWhitespace).takeWhile isValueChar ++
        (value.dropWhile isWhitespace).dropWhile isValueChar) := by
    rw [List.takeWhile_append_dropWhile, List.takeWhile_append_dropWhile]
  have replaced := replaceRange_at (before ++ value.takeWhile isWhitespace)
    ((value.dropWhile isWhitespace).takeWhile isValueChar)
    ((value.dropWhile isWhitespace).dropWhile isValueChar) redacted rfl rfl
  rw [List.append_assoc before, ← parts] at replaced
  rw [← byteLen_append, nth_takeWhile]
  exact replaced

theorem redactAssignmentFrom_eq (first : Char) (key : Text) {fuel : Nat} {text : Text}
    (before : Text) (enough : text.length < fuel) :
    redactAssignmentFrom (toAsciiLowercase (before ++ text)) (first :: key) fuel (before ++ text)
        (byteLen before) =
      some (before ++ (maskAssignment first key text).1, (maskAssignment first key text).2) := by
  induction fuel generalizing before text with
  | zero => exact absurd enough (Nat.not_lt_zero _)
  | succ fuel ih =>
      have ahead : slice Char.utf8Size (toAsciiLowercase (before ++ text)) (byteLen before) =
          some (toAsciiLowercase text) := by
        rw [toAsciiLowercase_append, ← byteLen_toAsciiLowercase before, slice_at]
      rw [redactAssignmentFrom, ahead]
      simp only [Option.bind_eq_bind, Option.bind_some, find_beginsFolded]
      cases found : seek (beginsFolded (first :: key)) text with
      | none =>
          rw [maskAssignment_none found]
          rfl
      | some parts =>
          obtain ⟨skipped, here⟩ := parts
          obtain ⟨whole, folded⟩ := cut_beginsFolded found
          have shorter := length_drop_seek_lt (List.cons_ne_nil first key)
            length_le_of_beginsFolded found
          have searched : byteLen before + byteLen skipped + byteLen (first :: key) =
              byteLen (before ++ skipped ++ here.take (first :: key).length) := by
            simp only [byteLen_append, folded]
          have output : before ++ text = before ++ skipped ++ here.take (first :: key).length ++
              here.drop (first :: key).length := by
            rw [whole]
            simp only [List.append_assoc]
          have sliced : slice Char.utf8Size (before ++ text)
              (byteLen before + byteLen skipped + byteLen (first :: key)) =
                some (here.drop (first :: key).length) := by
            rw [searched, output, slice_at]
          simp only [Option.map_some, sliced]
          cases next : (here.drop (first :: key).length).dropWhile isWhitespace with
          | nil =>
              rw [maskAssignment_end found next]
              rfl
          | cons sign value =>
              rw [maskAssignment_some found next]
              generalize nameEq : here.take (first :: key).length = name at *
              generalize restEq : here.drop (first :: key).length = rest at *
              have short : rest.length < fuel := by omega
              have again := ih (before ++ skipped ++ name) short
              rw [← output, ← searched] at again
              have spaces : byteLen rest - byteLen (sign :: value) =
                  byteLen (rest.takeWhile isWhitespace) := by
                rw [← next, byteLen_dropWhile]
              have spaced : rest = rest.takeWhile isWhitespace ++ ([sign] ++ value) := by
                rw [List.singleton_append, ← next, List.takeWhile_append_dropWhile]
              by_cases assigns : sign = '=' ∨ sign = ':'
              · have width' : byteLen [sign] = 1 := by
                  rcases assigns with rfl | rfl
                  · decide
                  · decide
                have unlike : ¬ (sign ≠ '=' ∧ sign ≠ ':') := fun both => assigns.elim both.1 both.2
                have reached : byteLen before + byteLen skipped + byteLen (first :: key) +
                    byteLen (rest.takeWhile isWhitespace) + 1 =
                    byteLen (before ++ skipped ++ name ++ rest.takeWhile isWhitespace ++
                      [sign]) := by
                  rw [searched, byteLen_append _ [sign], width', byteLen_append _
                    (rest.takeWhile isWhitespace)]
                have output' : before ++ text =
                    before ++ skipped ++ name ++ rest.takeWhile isWhitespace ++ [sign] ++
                      value := by
                  rw [output]
                  conv => lhs; rw [spaced]
                  simp only [List.append_assoc]
                have valued : slice Char.utf8Size (before ++ text)
                    (byteLen before + byteLen skipped + byteLen (first :: key) +
                      byteLen (rest.takeWhile isWhitespace) + 1) = some value := by
                  rw [reached, output', slice_at]
                simp only [unlike, if_false, spaces, valued, Option.getD_some, byteLen_dropWhile,
                  assigns, true_and]
                split
                · rw [reached, output', replaceRange_value]
                  simp
                · rw [again]
                  simp
              · have unlike := not_or.mp assigns
                simp only [unlike, ne_eq, not_false_eq_true, and_self, if_true, again]
                simp

theorem redactAssignment_eq (first : Char) (key text : Text) :
    redactAssignment (first :: key) text = some (maskAssignment first key text) :=
  redactAssignmentFrom_eq first key [] (Nat.lt_succ_of_le (length_le_byteLen text))

def runMasks : List (Text → Text × Bool) → Text → Text × Bool
  | [], text => (text, false)
  | mask :: masks, text =>
      ((runMasks masks (mask text).1).1, (mask text).2 || (runMasks masks (mask text).1).2)

/-- The passes behind the one for private keys. -/
def masks : List (Text → Text × Bool) := [
  maskPrefixed 's' "k-".toList 20,
  maskPrefixed 'A' "KIA".toList 16,
  maskBearer,
  maskAssignment 'p' "assword".toList,
  maskAssignment 's' "ecret".toList,
  maskAssignment 'a' "pi_key".toList,
  maskAssignment 'a' "pi-key".toList,
  maskAssignment 't' "oken".toList]

theorem runPasses_eq {passes : List (Text → Option (Text × Bool))}
    {masks : List (Text → Text × Bool)}
    (each : List.Forall₂ (fun pass mask => ∀ text, pass text = some (mask text)) passes masks)
    (text : Text) : runPasses passes text = some (runMasks masks text) := by
  induction each generalizing text with
  | nil => rfl
  | cons head _ ih =>
      rw [runPasses, head]
      simp only [Option.bind_eq_bind, Option.bind_some, ih]
      rfl

theorem passes_masks : List.Forall₂ (fun pass mask => ∀ text, pass text = some (mask text))
    passes.tail masks :=
  .cons (replacePrefixed_eq _ _ _) <| .cons (replacePrefixed_eq _ _ _) <|
  .cons redactBearer_eq <| .cons (redactAssignment_eq _ _) <|
  .cons (redactAssignment_eq _ _) <| .cons (redactAssignment_eq _ _) <|
  .cons (redactAssignment_eq _ _) <| .cons (redactAssignment_eq _ _) .nil

/-- What a redaction makes of a text in which the markers of private keys are not crossed. -/
def mask (text : Text) : Text × Bool := runMasks (maskPem :: masks) text

theorem runPasses_passes (text : Text) :
    runPasses passes text = if pemCrossed text then none else some (mask text) := by
  change runPasses (redactPem :: passes.tail) text = _
  rw [runPasses, redactPem_eq]
  cases pemCrossed text with
  | true => rfl
  | false =>
      simp only [Bool.false_eq_true, if_false, Option.bind_eq_bind, Option.bind_some,
        runPasses_eq passes_masks]
      rfl

theorem redactText_eq (input : String) :
    redactText input = if pemCrossed input.toList then none
      else some (String.ofList (mask input.toList).1, (mask input.toList).2) := by
  rw [redactText, runPasses_passes]
  split <;> rfl

theorem pemCrossed_eq_false_iff : pemCrossed text = false ↔
    ∀ start stop, find Char.utf8Size pemBegin text = some start →
      find Char.utf8Size pemEnd text = some stop → start ≤ stop := by
  unfold pemCrossed
  rw [find_begins, find_begins]
  cases begun : seek (begins pemBegin) text with
  | none => simp
  | some parts =>
      cases ended : seek (begins pemEnd) text with
      | none => simp
      | some parts' =>
          obtain ⟨before, rest⟩ := parts
          obtain ⟨before', rest'⟩ := parts'
          obtain ⟨whole, -⟩ := cut_begins begun
          obtain ⟨whole', -⟩ := cut_begins ended
          simp only [decide_eq_false_iff_not, Option.map_some, Option.some.injEq,
            Nat.not_lt]
          constructor
          · rintro shorter _ _ rfl rfl
            refine Nat.le_of_not_lt fun less => ?_
            have prefix' := prefix_of_byteLen_le whole' whole (Nat.le_of_lt less)
            have same := prefix'.eq_of_length (by have := prefix'.length_le; omega)
            rw [same] at less
            exact Nat.lt_irrefl _ less
          · exact fun le => (prefix_of_byteLen_le whole whole' (le _ _ rfl rfl)).length_le

/-- A redaction has a result exactly if the first begin marker of a private key does not lie
behind the first end marker. -/
theorem redactText_isSome_iff (input : String) : (redactText input).isSome = true ↔
    ∀ start stop, find Char.utf8Size "-----BEGIN ".toList input.toList = some start →
      find Char.utf8Size "-----END ".toList input.toList = some stop → start ≤ stop := by
  change _ ↔ ∀ start stop, find Char.utf8Size pemBegin input.toList = some start →
    find Char.utf8Size pemEnd input.toList = some stop → start ≤ stop
  rw [← pemCrossed_eq_false_iff, redactText_eq]
  cases pemCrossed input.toList with
  | true => simp
  | false => simp

theorem not_redactText_isSome :
    ¬ (redactText "-----END CERTIFICATE-----
-----BEGIN CERTIFICATE-----").isSome = true := by
  decide +kernel

end

end OpsCodex.Evidence.Redact
