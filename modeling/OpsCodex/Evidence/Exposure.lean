import Mathlib
import OpsCodex.Evidence.RedactJson

/-! What a redacted text still shows. A pattern is found in it only where it was before, as no
pattern overlaps a mark. -/

set_option autoImplicit false

namespace OpsCodex.Evidence.Redact

open OpsCodex.Json Offsets
open OpsCodex.Strings (isWhitespace)

/-- Somewhere in a text stands a pattern, up to a folding of its letters, with something
behind it. -/
def Shows (fold : Char → Char) (pattern : Text) (behind : Text → Prop) (text : Text) : Prop :=
  ∃ front name rest, text = front ++ (name ++ rest) ∧ name.map fold = pattern ∧ behind rest

theorem shows_iff {fold : Char → Char} {pattern : Text} {behind : Text → Prop} {text : Text} :
    Shows fold pattern behind text ↔ ∃ here ∈ text.tails,
      pattern <+: here.map fold ∧ behind (here.drop pattern.length) := by
  constructor
  · rintro ⟨front, name, rest, rfl, rfl, holds⟩
    refine ⟨name ++ rest, (List.mem_tails _ _).mpr (List.suffix_append _ _), ?_, ?_⟩
    · rw [List.map_append]
      exact List.prefix_append _ _
    · rw [List.length_map, List.drop_left]
      exact holds
  · rintro ⟨here, member, begins, holds⟩
    obtain ⟨front, rfl⟩ := (List.mem_tails _ _).mp member
    refine ⟨front, here.take pattern.length, here.drop pattern.length, ?_, ?_, holds⟩
    · rw [List.take_append_drop]
    · rw [List.map_take]
      exact (List.prefix_iff_eq_take.mp begins).symm

instance (fold : Char → Char) (pattern : Text) (behind : Text → Prop) [DecidablePred behind]
    (text : Text) : Decidable (Shows fold pattern behind text) :=
  decidable_of_iff _ shows_iff.symm

/-- A pattern neither overlaps a mark nor lies in it. -/
def Apart (fold : Char → Char) (pattern mark : Text) : Prop :=
  (∀ rest ∈ pattern.tails, rest ≠ [] → ¬ rest <+: mark.map fold ∧ ¬ mark.map fold <+: rest) ∧
  ∀ rest ∈ (mark.map fold).tails, rest ≠ [] → ¬ pattern <+: rest ∧ ¬ rest <+: pattern

instance (fold : Char → Char) (pattern mark : Text) : Decidable (Apart fold pattern mark) :=
  inferInstanceAs (Decidable (_ ∧ _))

section

variable {fold : Char → Char} {pattern mark before after front name rest : Text}

/-- A place of a pattern in a text with a mark lies behind the mark or before it. -/
theorem place_cases (apart : Apart fold pattern mark)
    (whole : before ++ (mark ++ after) = front ++ (name ++ rest))
    (folded : name.map fold = pattern) :
    (∃ between, after = between ++ (name ++ rest) ∧ front = before ++ (mark ++ between)) ∨
      ∃ between, before = front ++ (name ++ between) ∧ rest = between ++ (mark ++ after) := by
  rcases List.append_eq_append_iff.mp whole with ⟨skipped, rfl, inner⟩ | ⟨skipped, rfl, inner⟩
  · rcases List.append_eq_append_iff.mp inner with ⟨between, rfl, behind⟩ | ⟨tail, rfl, behind⟩
    · exact .inl ⟨between, behind, rfl⟩
    · by_cases nothing : tail = []
      · subst nothing
        exact .inl ⟨[], behind.symm, by simp⟩
      · exfalso
        have member : tail.map fold ∈ ((skipped ++ tail).map fold).tails := by
          rw [List.mem_tails, List.map_append]
          exact List.suffix_append _ _
        obtain ⟨within, beyond⟩ := apart.2 _ member (by simpa using nothing)
        rcases List.append_eq_append_iff.mp behind with ⟨more, rfl, -⟩ | ⟨more, rfl, -⟩
        · rw [List.map_append, folded] at within
          exact within (List.prefix_append _ _)
        · rw [← folded, List.map_append] at beyond
          exact beyond (List.prefix_append _ _)
  · rcases List.append_eq_append_iff.mp inner with ⟨between, rfl, behind⟩ | ⟨tail, rfl, behind⟩
    · exact .inr ⟨between, rfl, behind⟩
    · by_cases nothing : tail = []
      · subst nothing
        exact .inr ⟨[], by simp, behind.symm⟩
      · exfalso
        have member : tail.map fold ∈ pattern.tails := by
          rw [List.mem_tails, ← folded, List.map_append]
          exact List.suffix_append _ _
        obtain ⟨within, beyond⟩ := apart.1 _ member (by simpa using nothing)
        rcases List.append_eq_append_iff.mp behind with ⟨more, rfl, -⟩ | ⟨more, rfl, -⟩
        · rw [List.map_append] at beyond
          exact beyond (List.prefix_append _ _)
        · rw [List.map_append] at within
          exact within (List.prefix_append _ _)

variable {behind behind' : Text → Prop} {part text : Text}

theorem Shows.imp (shows' : Shows fold pattern behind text)
    (implies : ∀ rest, behind rest → behind' rest) : Shows fold pattern behind' text := by
  obtain ⟨front, name, rest, whole, folded, holds⟩ := shows'
  exact ⟨front, name, rest, whole, folded, implies rest holds⟩

theorem Shows.append (before : Text) (shows' : Shows fold pattern behind text) :
    Shows fold pattern behind (before ++ text) := by
  obtain ⟨front, name, rest, rfl, folded, holds⟩ := shows'
  exact ⟨before ++ front, name, rest, by simp only [List.append_assoc], folded, holds⟩

/-- What a text with a mark shows, it shows with a part in the place of the mark. -/
theorem Shows.replaced (shows' : Shows fold pattern behind (before ++ (mark ++ after)))
    (apart : Apart fold pattern mark) (implies : ∀ rest, behind rest → behind' rest)
    (across : ∀ between, between <:+ before → behind (between ++ (mark ++ after)) →
      behind' (between ++ (part ++ after))) :
    Shows fold pattern behind' (before ++ (part ++ after)) := by
  obtain ⟨front, name, rest, whole, folded, holds⟩ := shows'
  rcases place_cases apart whole folded with ⟨between, rfl, -⟩ | ⟨between, rfl, rfl⟩
  · refine ⟨before ++ (part ++ between), name, rest, ?_, folded, implies rest holds⟩
    simp only [List.append_assoc]
  · have suffix : between <:+ front ++ (name ++ between) := by
      rw [← List.append_assoc]
      exact List.suffix_append _ _
    refine ⟨front, name, between ++ (part ++ after), ?_, folded, across between suffix holds⟩
    simp only [List.append_assoc]

/-- No proper end of a pattern is its beginning. -/
def Borderless (pattern : Text) : Prop :=
  ∀ rest ∈ pattern.tails, rest ≠ [] → rest ≠ pattern → ¬ rest <+: pattern

instance (pattern : Text) : Decidable (Borderless pattern) :=
  inferInstanceAs (Decidable (∀ rest ∈ pattern.tails, _))

/-- Two places of a pattern without borders do not overlap. -/
theorem Borderless.apart {lead rest' skipped : Text} (borderless : Borderless pattern)
    (led : lead.map fold = pattern) (folded : name.map fold = pattern)
    (whole : lead ++ rest' = skipped ++ (name ++ rest)) :
    skipped = [] ∨ ∃ between, skipped = lead ++ between ∧ rest' = between ++ (name ++ rest) := by
  have same : lead.length = name.length := by
    rw [← List.length_map (f := fold), led, ← folded, List.length_map]
  rcases List.append_eq_append_iff.mp whole with ⟨between, rfl, behind⟩ | ⟨tail, rfl, behind⟩
  · exact .inr ⟨between, rfl, behind⟩
  · by_cases nothing : tail = []
    · subst nothing
      exact .inr ⟨[], by simp, behind.symm⟩
    · by_cases none' : skipped = []
      · exact .inl none'
      · exfalso
        have some' := List.length_pos_iff.mpr none'
        rw [List.length_append] at same
        have member : tail.map fold ∈ pattern.tails := by
          rw [List.mem_tails, ← led, List.map_append]
          exact List.suffix_append _ _
        have proper : tail.map fold ≠ pattern := by
          intro equal
          have lengths := congrArg List.length equal
          rw [← folded, List.length_map, List.length_map] at lengths
          omega
        rcases List.append_eq_append_iff.mp behind with ⟨more, rfl, -⟩ | ⟨more, rfl, -⟩
        · rw [List.length_append] at same
          omega
        · refine borderless _ member (by simpa using nothing) proper ?_
          rw [← folded, List.map_append]
          exact List.prefix_append _ _

/-- Where a search for a pattern looks. -/
def begun (fold : Char → Char) (pattern rest : Text) : Bool := decide (pattern <+: rest.map fold)

theorem begins_eq (pattern : Text) : begins pattern = begun id pattern := by
  funext rest
  simp [begins, begun]

theorem begun_append (folded : name.map fold = pattern) (rest : Text) :
    begun fold pattern (name ++ rest) = true := by
  rw [begun, decide_eq_true_iff, List.map_append, folded]
  exact List.prefix_append _ _

theorem not_shows_nil (some' : pattern ≠ []) : ¬ Shows fold pattern behind [] := by
  rintro ⟨front, name, rest, empty, folded, -⟩
  obtain ⟨-, empty⟩ := List.append_eq_nil_iff.mp empty.symm
  rw [(List.append_eq_nil_iff.mp empty).1] at folded
  exact some' folded.symm

theorem not_shows_of_seek_eq_none (missing : seek (begun fold pattern) text = none) :
    ¬ Shows fold pattern behind text := by
  rintro ⟨front, name, rest, whole, folded, -⟩
  have absent := seek_eq_none missing front (name ++ rest) whole
  rw [begun_append folded] at absent
  cases absent

/-- The place that a search finds, and the text from there on. -/
theorem seek_begun (found : seek (begun fold pattern) text = some (before, after)) :
    text = before ++ after ∧ ∃ lead rest, after = lead ++ rest ∧ lead.map fold = pattern ∧
      lead = after.take pattern.length ∧ rest = after.drop pattern.length := by
  obtain ⟨rfl, holds, -⟩ := seek_eq_some found
  refine ⟨rfl, after.take pattern.length, after.drop pattern.length,
    (List.take_append_drop _ _).symm, ?_, rfl, rfl⟩
  rw [List.map_take]
  exact (List.prefix_iff_eq_take.mp (of_decide_eq_true holds)).symm

/-- No place of the pattern lies before the one that a search finds, whatever comes to stand
behind that one. -/
theorem first_place {lead rest' : Text}
    (found : seek (begun fold pattern) text = some (before, after))
    (led : lead.map fold = pattern)
    (whole : before ++ (lead ++ rest') = front ++ (name ++ rest))
    (folded : name.map fold = pattern) :
    ∃ skipped, front = before ++ skipped ∧ lead ++ rest' = skipped ++ (name ++ rest) := by
  obtain ⟨-, holds, earlier⟩ := seek_eq_some found
  rcases List.append_eq_append_iff.mp whole with ⟨skipped, rfl, inner⟩ | ⟨tail, rfl, inner⟩
  · exact ⟨skipped, rfl, inner⟩
  · by_cases nothing : tail = []
    · subst nothing
      exact ⟨[], by simp, inner.symm⟩
    · exfalso
      have absent := earlier front tail rfl nothing
      have own : pattern <+: (tail ++ (lead ++ rest')).map fold := by
        rw [← inner, List.map_append, folded]
        exact List.prefix_append _ _
      have short : pattern <+: tail.map fold ++ pattern := by
        refine List.prefix_of_prefix_length_le own ?_ (by simp)
        rw [List.map_append, List.map_append, led, ← List.append_assoc]
        exact List.prefix_append _ _
      have here : pattern <+: (tail ++ after).map fold := by
        refine short.trans ?_
        rw [List.map_append]
        exact (List.prefix_append_right_inj _).mpr (of_decide_eq_true holds)
      rw [begun, decide_eq_false_iff_not] at absent
      exact absent here

end

/-- The value that a text assigns to a key before it, with what stands behind the value. -/
def valueOf (rest : Text) : Text :=
  match rest.dropWhile isWhitespace with
  | [] => []
  | sign :: value => if sign = '=' ∨ sign = ':' then value.dropWhile isWhitespace else []

/-- A text assigns a value to a key before it. -/
def assigns (rest : Text) : Prop := 0 < ((valueOf rest).takeWhile isValueChar).length

/-- A text assigns a value that is not redacted. -/
def assignsOpenly (rest : Text) : Prop := assigns rest ∧ ¬ redacted <+: valueOf rest

instance : DecidablePred assigns := fun _ => inferInstanceAs (Decidable (0 < _))

instance : DecidablePred assignsOpenly := fun _ => inferInstanceAs (Decidable (_ ∧ _))

/-- A part of a text that begins like a value. -/
def Valued (part : Text) : Prop :=
  ∃ first rest, part = first :: rest ∧ isValueChar first = true

/-- What takes the place of a part: its beginning is neither a space nor a sign. -/
def Marks (mark : Text) : Prop :=
  ∃ first rest, mark = first :: rest ∧ isWhitespace first = false ∧ first ≠ '=' ∧ first ≠ ':'

theorem not_isWhitespace_of_isValueChar {char : Char} (value : isValueChar char = true) :
    isWhitespace char = false := by
  simp only [isValueChar, Bool.and_eq_true, Bool.not_eq_true'] at value
  exact value.1.1.1

theorem isValueChar_of_range {char : Char}
    (range : 33 ≤ char.toNat ∧ char.toNat < 128 ∧ char.toNat ≠ 34 ∧ char.toNat ≠ 44 ∧
      char.toNat ≠ 59) : isValueChar char = true := by
  have comma : char ≠ ',' := by
    rintro rfl
    exact absurd rfl range.2.2.2.1
  have semicolon : char ≠ ';' := by
    rintro rfl
    exact absurd rfl range.2.2.2.2
  have quote : char ≠ '"' := by
    rintro rfl
    exact absurd rfl range.2.2.1
  have plain : isWhitespace char = false := by
    simp [isWhitespace]
    omega
  simp [isValueChar, comma, semicolon, quote, plain]

theorem isValueChar_of_isTokenChar {char : Char} (token : isTokenChar char = true) :
    isValueChar char = true := by
  apply isValueChar_of_range
  simp only [isTokenChar, Char.isAlphanum, Char.isAlpha, Char.isUpper, Char.isLower, Char.isDigit,
    Bool.or_eq_true, Bool.and_eq_true, decide_eq_true_eq, beq_iff_eq, ge_iff_le,
    UInt32.le_iff_toNat_le] at token
  rcases token with (((upper | lower) | digit) | rfl) | rfl
  · have below : char.toNat ≤ 90 := upper.2
    have above : 65 ≤ char.toNat := upper.1
    omega
  · have below : char.toNat ≤ 122 := lower.2
    have above : 97 ≤ char.toNat := lower.1
    omega
  · have below : char.toNat ≤ 57 := digit.2
    have above : 48 ≤ char.toNat := digit.1
    omega
  · decide
  · decide

theorem isTokenChar_of_toLower {char : Char} (token : isTokenChar char.toLower = true) :
    isTokenChar char = true := by
  unfold Char.toLower at token
  split at token
  · rename_i upper
    have upper' : char.isUpper = true := by simpa [Char.isUpper] using upper
    simp [isTokenChar, Char.isAlphanum, Char.isAlpha, upper']
  · exact token

theorem marks_redacted : Marks redacted := ⟨'[', "REDACTED]".toList, by decide⟩

section

variable {between mark part after rest value : Text} {sign : Char}

theorem valueOf_of_dropWhile (found : rest.dropWhile isWhitespace = sign :: value) :
    valueOf rest = if sign = '=' ∨ sign = ':' then value.dropWhile isWhitespace else [] := by
  rw [valueOf, found]

theorem valueOf_blank (blank : rest.dropWhile isWhitespace = []) : valueOf rest = [] := by
  rw [valueOf, blank]

theorem not_assigns_of_valueOf (nothing : valueOf rest = []) : ¬ assigns rest := by
  rw [assigns, nothing]
  exact Nat.lt_irrefl 0

theorem dropWhile_append_blank {front : Text} (blank : front.dropWhile isWhitespace = [])
    (after : Text) : (front ++ after).dropWhile isWhitespace = after.dropWhile isWhitespace := by
  rw [List.dropWhile_append, blank]
  rfl

theorem dropWhile_append_cons {front : Text} {first : Char}
    (found : front.dropWhile isWhitespace = first :: rest) (after : Text) :
    (front ++ after).dropWhile isWhitespace = first :: (rest ++ after) := by
  rw [List.dropWhile_append, found]
  rfl

/-- Where a value begins behind a text that stands between a key and a mark. -/
theorem valueOf_cases (marks : Marks mark) (after : Text)
    (assigned : assigns (between ++ (mark ++ after))) :
    (∀ rest, Valued rest → valueOf (between ++ rest) = rest) ∧
        valueOf (between ++ (mark ++ after)) = mark ++ after ∨
      ∃ tail, tail ≠ [] ∧ tail <:+ between ∧ ∀ rest, valueOf (between ++ rest) = tail ++ rest := by
  obtain ⟨first, rest, rfl, some', plain⟩ := marks
  cases found : between.dropWhile isWhitespace with
  | nil =>
      have next : (between ++ (first :: rest ++ after)).dropWhile isWhitespace =
          first :: (rest ++ after) := by
        rw [dropWhile_append_blank found, List.cons_append, List.dropWhile_cons, some']
        rfl
      refine absurd assigned (not_assigns_of_valueOf ?_)
      rw [valueOf_of_dropWhile next, if_neg (not_or.mpr plain)]
  | cons sign value =>
      have next := dropWhile_append_cons found
      by_cases signed : sign = '=' ∨ sign = ':'
      · cases trimmed : value.dropWhile isWhitespace with
        | nil =>
            refine .inl ⟨fun rest valued => ?_, ?_⟩
            · obtain ⟨own, more, rfl, holds⟩ := valued
              rw [valueOf_of_dropWhile (next _), if_pos signed, dropWhile_append_blank trimmed,
                List.dropWhile_cons, not_isWhitespace_of_isValueChar holds]
              rfl
            · rw [valueOf_of_dropWhile (next _), if_pos signed, dropWhile_append_blank trimmed,
                List.cons_append, List.dropWhile_cons, some']
              rfl
        | cons own more =>
            refine .inr ⟨own :: more, List.cons_ne_nil _ _, ?_, fun rest => ?_⟩
            · have inner : own :: more <:+ value := trimmed ▸ List.dropWhile_suffix _
              have outer : sign :: value <:+ between := found ▸ List.dropWhile_suffix _
              exact inner.trans ((List.suffix_cons sign value).trans outer)
            · rw [valueOf_of_dropWhile (next _), if_pos signed, dropWhile_append_cons trimmed]
              rfl
      · refine absurd assigned (not_assigns_of_valueOf ?_)
        rw [valueOf_of_dropWhile (next _), if_neg signed]

theorem length_takeWhile_valued (valued : Valued part) (after : Text) :
    0 < ((part ++ after).takeWhile isValueChar).length := by
  obtain ⟨first, rest, rfl, holds⟩ := valued
  rw [List.cons_append, List.takeWhile_cons, holds]
  exact Nat.succ_pos _

theorem Valued.append (valued : Valued part) (after : Text) : Valued (part ++ after) := by
  obtain ⟨first, rest, rfl, holds⟩ := valued
  exact ⟨first, rest ++ after, rfl, holds⟩

theorem valued_of_takeWhile (some' : 0 < (rest.takeWhile isValueChar).length) : Valued rest := by
  cases rest with
  | nil => cases some'
  | cons first rest =>
      refine ⟨first, rest, rfl, ?_⟩
      by_contra other
      rw [List.takeWhile_cons, if_neg other] at some'
      cases some'

/-- A text with a mark assigns a value only if it does with a value in the place of the mark. -/
theorem assigns_across (marks : Marks mark) (valued : Valued part)
    (assigned : assigns (between ++ (mark ++ after))) : assigns (between ++ (part ++ after)) := by
  rcases valueOf_cases marks after assigned with ⟨own, -⟩ | ⟨tail, some', -, own⟩
  · rw [assigns, own _ (valued.append after)]
    exact length_takeWhile_valued valued after
  · rw [assigns, own] at assigned ⊢
    have inner : Valued tail := by
      obtain ⟨first, rest, rfl⟩ := List.exists_cons_of_ne_nil some'
      obtain ⟨_, _, same, holds⟩ := valued_of_takeWhile assigned
      cases same
      exact ⟨first, rest, rfl, holds⟩
    exact length_takeWhile_valued inner _

end

section

variable {first : Char} {key text : Text}

/-- Between a key and its value stand spaces, a sign and spaces. -/
def Signed (between : Text) : Prop :=
  (∀ rest, Valued rest → valueOf (between ++ rest) = rest) ∧ between ≠ [] ∧
    ∀ char ∈ between, isWhitespace char = true ∨ char = '=' ∨ char = ':'

theorem signed_takeWhile {sign : Char} (rest value : Text) (signed : sign = '=' ∨ sign = ':') :
    Signed (rest.takeWhile isWhitespace ++ (sign :: value.takeWhile isWhitespace)) := by
  have plain : isWhitespace sign = false := by
    rcases signed with rfl | rfl
    · decide
    · decide
  constructor
  · intro own valued
    obtain ⟨first, more, rfl, holds⟩ := valued
    have front : ∀ char ∈ rest.takeWhile isWhitespace, isWhitespace char = true :=
      fun char member => List.mem_takeWhile_imp member
    have back : ∀ char ∈ value.takeWhile isWhitespace, isWhitespace char = true :=
      fun char member => List.mem_takeWhile_imp member
    have next : (rest.takeWhile isWhitespace ++ (sign :: value.takeWhile isWhitespace) ++
        first :: more).dropWhile isWhitespace =
          sign :: (value.takeWhile isWhitespace ++ first :: more) := by
      rw [List.append_assoc, List.dropWhile_append_of_pos front, List.cons_append,
        List.dropWhile_cons, plain]
      rfl
    rw [valueOf_of_dropWhile next, if_pos signed, List.dropWhile_append_of_pos back,
      List.dropWhile_cons, not_isWhitespace_of_isValueChar holds]
    rfl
  · refine ⟨by simp, fun char member => ?_⟩
    rcases List.mem_append.mp member with front | back
    · exact .inl (List.mem_takeWhile_imp front)
    · rcases List.mem_cons.mp back with rfl | value
      · exact .inr signed
      · exact .inl (List.mem_takeWhile_imp value)

/-- No name stands between a key and its value. -/
theorem Signed.not_name {between name : Text} (signed : Signed between)
    (token : isTokenChar first = true) (folded : name.map Char.toLower = first :: key)
    (within : ∀ char ∈ name, char ∈ between) : False := by
  cases name with
  | nil => cases folded
  | cons own name =>
      have letter : isTokenChar own = true :=
        isTokenChar_of_toLower ((List.cons.inj folded).1 ▸ token)
      have plain := not_isWhitespace_of_isValueChar (isValueChar_of_isTokenChar letter)
      rcases signed.2.2 own (within own List.mem_cons_self) with space | rfl | rfl
      · rw [plain] at space
        cases space
      · exact absurd letter (by decide)
      · exact absurd letter (by decide)

/-- A pass for the assignments of a key finds no value, or replaces the first one. -/
theorem maskAssignment_cases (borderless : Borderless (first :: key)) (text : Text) :
    ¬ Shows Char.toLower (first :: key) assigns text ∧ (maskAssignment first key text).1 = text ∨
      ∃ front name between part after,
        text = front ++ (name ++ (between ++ (part ++ after))) ∧
        name.map Char.toLower = first :: key ∧ Signed between ∧ Valued part ∧
        (part ++ after).dropWhile isValueChar = after ∧
        (∀ front' name' rest', text = front' ++ (name' ++ rest') →
          name'.map Char.toLower = first :: key → assigns rest' → front.length ≤ front'.length) ∧
        (maskAssignment first key text).1 =
          front ++ (name ++ (between ++ (redacted ++ after))) := by
  cases found : seek (beginsFolded (first :: key)) text with
  | none =>
      rw [maskAssignment_none found]
      exact .inl ⟨not_shows_of_seek_eq_none found, rfl⟩
  | some parts =>
      obtain ⟨before, here⟩ := parts
      obtain ⟨whole, name, rest, split, led, nameEq, restEq⟩ := seek_begun found
      have shorter : rest.length < text.length := by
        rw [restEq]
        exact length_drop_seek_lt (List.cons_ne_nil first key) length_le_of_beginsFolded found
      have behind : ∀ front' name' rest', text = front' ++ (name' ++ rest') →
          name'.map Char.toLower = first :: key →
          front' = before ∧ rest' = rest ∨
            ∃ between, front' = before ++ (name ++ between) ∧
              rest = between ++ (name' ++ rest') := by
        intro front' name' rest' whole' folded'
        rw [whole, split] at whole'
        obtain ⟨skipped, rfl, inner⟩ := first_place found led whole' folded'
        rcases borderless.apart led folded' inner with rfl | ⟨between, rfl, later⟩
        · rw [List.nil_append] at inner
          have same : name.length = name'.length := by
            rw [← List.length_map (f := Char.toLower), led, ← folded', List.length_map]
          exact .inl ⟨List.append_nil _, (List.append_inj inner same).2.symm⟩
        · exact .inr ⟨between, rfl, later⟩
      cases next : rest.dropWhile isWhitespace with
      | nil =>
          rw [maskAssignment_end found (restEq ▸ next)]
          refine .inl ⟨?_, rfl⟩
          rintro ⟨front', name', rest', whole', folded', assigned⟩
          rcases behind front' name' rest' whole' folded' with ⟨-, rfl⟩ | ⟨between, -, later⟩
          · exact not_assigns_of_valueOf (valueOf_blank next) assigned
          · refine not_assigns_of_valueOf (valueOf_blank ?_) assigned
            rw [List.dropWhile_eq_nil_iff] at next ⊢
            intro char member
            exact next char (by simp [later, member])
      | cons sign value =>
          rw [maskAssignment_some found (restEq ▸ next)]
          rw [← restEq, ← nameEq]
          split
          · rename_i assigned
            obtain ⟨signed, some'⟩ := assigned
            refine .inr ⟨before, name, rest.takeWhile isWhitespace ++
              (sign :: value.takeWhile isWhitespace),
              (value.dropWhile isWhitespace).takeWhile isValueChar,
              (value.dropWhile isWhitespace).dropWhile isValueChar, ?_, led,
              signed_takeWhile rest value signed, ?_, ?_, ?_, by simp⟩
            · rw [whole, split, List.append_assoc, List.cons_append,
                List.takeWhile_append_dropWhile, List.takeWhile_append_dropWhile, ← next,
                List.takeWhile_append_dropWhile]
            · obtain ⟨own, more, same, holds⟩ := valued_of_takeWhile some'
              exact ⟨own, more.takeWhile isValueChar, by rw [same, List.takeWhile_cons, holds]; rfl,
                holds⟩
            · rw [List.takeWhile_append_dropWhile]
            · intro front' name' rest' whole' folded' _
              rcases behind front' name' rest' whole' folded' with ⟨rfl, -⟩ | ⟨between, rfl, -⟩
              · exact Nat.le_refl _
              · rw [List.length_append]
                exact Nat.le_add_right _ _
          · rename_i not_assigned
            have unassigned : ¬ assigns rest := by
              intro assigned
              rw [assigns, valueOf_of_dropWhile next] at assigned
              split at assigned
              · rename_i signed
                exact not_assigned ⟨signed, assigned⟩
              · cases assigned
            obtain ⟨nothing, same⟩ | ⟨front, name', between, part, after, inner, rest'⟩ :=
              maskAssignment_cases borderless rest
            · refine .inl ⟨?_, by rw [same, whole, split, List.append_assoc]⟩
              rintro ⟨front', name', rest', whole', folded', assigned⟩
              rcases behind front' name' rest' whole' folded' with ⟨-, rfl⟩ | ⟨between, -, later⟩
              · exact unassigned assigned
              · exact nothing ⟨between, name', rest', later, folded', assigned⟩
            · obtain ⟨folded', signed, valued, ends, least, output⟩ := rest'
              refine .inr ⟨before ++ (name ++ front), name', between, part, after, ?_, folded',
                signed, valued, ends, ?_, ?_⟩
              · rw [whole, split, inner]
                simp only [List.append_assoc]
              · intro front' name'' rest'' whole' folded'' assigned
                obtain ⟨-, rfl⟩ | ⟨between', rfl, later⟩ :=
                  behind front' name'' rest'' whole' folded''
                · exact absurd assigned unassigned
                · have earlier := least between' name'' rest'' later folded'' assigned
                  simp only [List.length_append]
                  omega
              · rw [output]
                simp only [List.append_assoc]
termination_by text.length

theorem assigns_of_signed {between part after : Text} (signed : Signed between)
    (valued : Valued part) : assigns (between ++ (part ++ after)) := by
  rw [assigns, signed.1 _ (valued.append after)]
  exact length_takeWhile_valued valued after

theorem valued_redacted : Valued redacted := ⟨'[', "REDACTED]".toList, rfl, by decide⟩

/-- A key stands here that is assigned a value. -/
def isAssigned (key here : Text) : Bool :=
  beginsFolded key here && decide (assigns (here.drop key.length))

/-- What stands behind the first value that a key is assigned. -/
def valueBehind (key text : Text) : Text :=
  match seek (isAssigned key) text with
  | none => []
  | some (_, here) => (valueOf (here.drop key.length)).dropWhile isValueChar

theorem isAssigned_iff {key here : Text} : isAssigned key here = true ↔
    (here.take key.length).map Char.toLower = key ∧ assigns (here.drop key.length) := by
  rw [isAssigned, Bool.and_eq_true, decide_eq_true_iff, List.map_take]
  refine and_congr_left fun _ => ?_
  rw [beginsFolded, decide_eq_true_iff, List.prefix_iff_eq_take]
  exact eq_comm

theorem seek_isAssigned_none {key : Text} (nothing : ¬ Shows Char.toLower key assigns text) :
    seek (isAssigned key) text = none := by
  cases found : seek (isAssigned key) text with
  | none => rfl
  | some parts =>
      obtain ⟨before, here⟩ := parts
      obtain ⟨rfl, holds, -⟩ := seek_eq_some found
      obtain ⟨folded, assigned⟩ := isAssigned_iff.mp holds
      refine absurd ⟨before, here.take key.length, here.drop key.length, ?_, folded, assigned⟩
        nothing
      rw [List.take_append_drop]

theorem seek_isAssigned {key front name between part after : Text}
    (whole : text = front ++ (name ++ (between ++ (part ++ after))))
    (folded : name.map Char.toLower = key) (signed : Signed between) (valued : Valued part)
    (least : ∀ front' name' rest', text = front' ++ (name' ++ rest') →
      name'.map Char.toLower = key → assigns rest' → front.length ≤ front'.length) :
    seek (isAssigned key) text = some (front, name ++ (between ++ (part ++ after))) := by
  have long : name.length = key.length := by rw [← folded, List.length_map]
  have own : isAssigned key (name ++ (between ++ (part ++ after))) = true := by
    rw [isAssigned_iff, ← long, List.take_left, List.drop_left]
    exact ⟨folded, assigns_of_signed signed valued⟩
  have first : ∀ front' here, text = front' ++ here → isAssigned key here = true →
      front.length ≤ front'.length := by
    intro front' here split holds
    obtain ⟨folded', assigned⟩ := isAssigned_iff.mp holds
    exact least front' _ _ (by rw [List.take_append_drop, split]) folded' assigned
  exact seek_of_least whole own first

theorem valueBehind_none {key : Text} (nothing : ¬ Shows Char.toLower key assigns text) :
    valueBehind key text = [] := by
  rw [valueBehind, seek_isAssigned_none nothing]

theorem valueBehind_some {key front name between part after : Text}
    (whole : text = front ++ (name ++ (between ++ (part ++ after))))
    (folded : name.map Char.toLower = key) (signed : Signed between) (valued : Valued part)
    (ends : (part ++ after).dropWhile isValueChar = after)
    (least : ∀ front' name' rest', text = front' ++ (name' ++ rest') →
      name'.map Char.toLower = key → assigns rest' → front.length ≤ front'.length) :
    valueBehind key text = after := by
  have long : name.length = key.length := by rw [← folded, List.length_map]
  rw [valueBehind, seek_isAssigned whole folded signed valued least]
  dsimp only
  rw [← long, List.drop_left, signed.1 _ (valued.append _), ends]

/-- The pass for a key leaves a value of it just where one stands behind the first value. -/
theorem maskAssignment_shows_iff (borderless : Borderless (first :: key))
    (apart : Apart Char.toLower (first :: key) redacted) (token : isTokenChar first = true) :
    Shows Char.toLower (first :: key) assignsOpenly (maskAssignment first key text).1 ↔
      Shows Char.toLower (first :: key) assignsOpenly (valueBehind (first :: key) text) := by
  obtain ⟨nothing, same⟩ | ⟨front, name, between, part, after, whole, folded, rest⟩ :=
    maskAssignment_cases borderless text
  · rw [same, valueBehind_none nothing]
    constructor
    · exact fun shown => absurd (shown.imp fun _ openly => openly.1) nothing
    · exact fun shown => absurd shown (not_shows_nil (List.cons_ne_nil _ _))
  · obtain ⟨signed, valued, ends, least, output⟩ := rest
    rw [valueBehind_some whole folded signed valued ends least, output]
    constructor
    · rintro ⟨front', name', rest', whole', folded', assigned', plain⟩
      have split : (front ++ (name ++ between)) ++ (redacted ++ after) =
          front' ++ (name' ++ rest') := by
        rw [← whole']
        simp only [List.append_assoc]
      rcases place_cases apart split folded' with ⟨skipped, behind, -⟩ | ⟨between', inner, rfl⟩
      · exact ⟨skipped, name', rest', behind, folded', assigned', plain⟩
      · exfalso
        -- an earlier place would have been the first, and the first one's value is redacted
        have mine : assigns (between' ++ (part ++ after)) :=
          assigns_across marks_redacted valued assigned'
        have lengths : name.length = name'.length := by
          rw [← List.length_map (f := Char.toLower), folded, ← folded', List.length_map]
        have early := least front' name' (between' ++ (part ++ after)) (by
          rw [whole]
          have text' := congrArg (· ++ (part ++ after)) inner
          simpa only [List.append_assoc] using text') folded' mine
        obtain ⟨skipped, rfl, beyond⟩ : ∃ skipped, front' = front ++ skipped ∧
            name ++ between = skipped ++ (name' ++ between') := by
          rcases List.append_eq_append_iff.mp inner with later | ⟨skipped, rfl, same⟩
          · exact later
          · have nothing : skipped = [] := by
              rw [List.length_append] at early
              exact List.length_eq_zero_iff.mp (by omega)
            exact ⟨[], by simp [nothing], by simpa [nothing] using same.symm⟩
        rcases borderless.apart folded folded' beyond with rfl | ⟨more, -, rfl⟩
        · rw [List.nil_append] at beyond
          obtain ⟨-, rfl⟩ := List.append_inj beyond lengths
          rw [signed.1 _ (valued_redacted.append after)] at plain
          exact plain (List.prefix_append _ _)
        · exact signed.not_name token folded' (fun _ member => by simp [member])
    · intro shown
      have later := (((shown.append redacted).append between).append name).append front
      simpa only [List.append_assoc] using later

/-- Where the text before a mark ends in a sign or a space, a value behind it is redacted only
if it was. -/
theorem assignsOpenly_across {front skipped part after : Text} {last : Char}
    (sign : isWhitespace last = true ∨ last = '=' ∨ last = ':')
    (suffix : skipped <:+ front ++ [last]) (valued : Valued part)
    (openly : assignsOpenly (skipped ++ (redacted ++ after))) :
    assignsOpenly (skipped ++ (part ++ after)) := by
  obtain ⟨assigned, plain⟩ := openly
  refine ⟨assigns_across marks_redacted valued assigned, ?_⟩
  rcases valueOf_cases marks_redacted after assigned with ⟨-, own⟩ | ⟨tail, some', tail', own⟩
  · rw [own] at plain
    exact absurd (List.prefix_append _ _) plain
  · rw [own] at plain ⊢
    intro begins
    rcases List.prefix_or_prefix_of_prefix begins (List.prefix_append _ _) with within | beyond
    · exact plain (within.trans (List.prefix_append _ _))
    · have member : last ∈ tail := by
        obtain ⟨skipped', ends⟩ := tail'.trans suffix
        rcases List.eq_nil_or_concat tail with nothing | ⟨front', last', rfl⟩
        · exact absurd nothing some'
        · have same : (skipped' ++ front') ++ [last'] = front ++ [last] := by simpa using ends
          cases (List.append_inj' same rfl).2
          simp
      have none' : (redacted.all fun char =>
          !(isWhitespace char || char == '=' || char == ':')) = true := by decide
      have plain' := List.all_eq_true.mp none' last (beyond.subset member)
      simp only [Bool.not_eq_true', Bool.or_eq_false_iff, beq_eq_false_iff_ne] at plain'
      obtain ⟨⟨inner, equals⟩, colon⟩ := plain'
      rw [inner] at sign
      exact sign.elim Bool.false_ne_true (fun either => either.elim equals colon)

/-- The passes for the other keys leave hidden what is hidden. -/
theorem maskAssignment_hidden {pattern : Text} (borderless : Borderless (first :: key))
    (apart : Apart Char.toLower pattern redacted)
    (hidden : ¬ Shows Char.toLower pattern assignsOpenly text) :
    ¬ Shows Char.toLower pattern assignsOpenly (maskAssignment first key text).1 := by
  obtain ⟨-, same⟩ | ⟨front, name, between, part, after, rfl, -, signed, valued, -, -, output⟩ :=
    maskAssignment_cases borderless text
  · rw [same]
    exact hidden
  · intro shown
    have split : front ++ (name ++ (between ++ (redacted ++ after))) =
        (front ++ (name ++ between)) ++ (redacted ++ after) := by
      simp only [List.append_assoc]
    rw [output, split] at shown
    have shown' : Shows Char.toLower pattern assignsOpenly
        ((front ++ (name ++ between)) ++ (part ++ after)) := by
      rcases List.eq_nil_or_concat' between with rfl | ⟨spaces, last, rfl⟩
      · exact absurd rfl signed.2.1
      have sign := signed.2.2 last (by simp)
      refine shown.replaced apart (fun _ openly => openly) fun skipped suffix openly => ?_
      rw [← List.append_assoc, ← List.append_assoc] at suffix
      exact assignsOpenly_across sign suffix valued openly
    exact hidden (by simpa only [List.append_assoc] using shown')

end

/-- A part of a text that begins like a value has become a mark. -/
def Replaces (mark text result : Text) : Prop :=
  ∃ before part after, Valued part ∧ text = before ++ (part ++ after) ∧
    result = before ++ (mark ++ after)

/-- Parts of a text have become marks, one after another. -/
def Masked (text result : Text) : Prop := Relation.ReflTransGen (Replaces redacted) text result

section

variable {first : Char} {lead text result : Text} {minRest : Nat}

theorem Masked.append (before : Text) (redacts : Masked text result) :
    Masked (before ++ text) (before ++ result) := by
  refine Relation.ReflTransGen.lift (before ++ ·) ?_ _ _ redacts
  rintro _ _ ⟨front, part, after, valued, rfl, rfl⟩
  exact ⟨before ++ front, part, after, valued, by simp only [List.append_assoc],
    by simp only [List.append_assoc]⟩

/-- A property that no replacement brings about comes from the text before them. -/
theorem Masked.comes (redacts : Masked text result) (property : Text → Prop)
    (each : ∀ text result, Replaces redacted text result → property result → property text)
    (holds : property result) : property text := by
  induction redacts with
  | refl => exact holds
  | tail _ step ih => exact ih (each _ _ step holds)

theorem length_run_le {mark part after : Text} (front : Text)
    (shorter : ((mark ++ after).takeWhile isTokenChar).length ≤
      ((part ++ after).takeWhile isTokenChar).length) :
    ((front ++ (mark ++ after)).takeWhile isTokenChar).length ≤
      ((front ++ (part ++ after)).takeWhile isTokenChar).length := by
  generalize mark ++ after = marked at *
  generalize part ++ after = parted at *
  rw [List.takeWhile_append, List.takeWhile_append]
  split
  · rw [List.length_append, List.length_append]
    omega
  · exact Nat.le_refl _

theorem takeWhile_redacted (after : Text) : (redacted ++ after).takeWhile isTokenChar = [] := rfl

/-- A pass for a prefix replaces parts that begin like values. -/
theorem maskPrefixed_redacts (token : isTokenChar first = true) (lead : Text) (minRest : Nat)
    (text : Text) : Masked text (maskPrefixed first lead minRest text).1 := by
  cases found : seek (begins (first :: lead)) text with
  | none =>
      rw [maskPrefixed_none minRest found]
      exact Relation.ReflTransGen.refl
  | some parts =>
      obtain ⟨before, here⟩ := parts
      obtain ⟨whole, split⟩ := cut_begins found
      have shorter := length_drop_seek_lt (List.cons_ne_nil first lead) length_le_of_begins found
      rw [maskPrefixed_some minRest found]
      generalize restEq : here.drop (first :: lead).length = rest at *
      split
      · have short : (rest.dropWhile isTokenChar).length < text.length :=
          Nat.lt_of_le_of_lt (rest.dropWhile_suffix isTokenChar).length_le shorter
        have later := maskPrefixed_redacts token lead minRest (rest.dropWhile isTokenChar)
        have valued : Valued (first :: lead ++ rest.takeWhile isTokenChar) :=
          ⟨first, lead ++ rest.takeWhile isTokenChar, rfl,
            isValueChar_of_isTokenChar token⟩
        have step : Replaces redacted text (before ++ redacted ++ rest.dropWhile isTokenChar) := by
          refine ⟨before, _, rest.dropWhile isTokenChar, valued, ?_, List.append_assoc _ _ _⟩
          rw [List.append_assoc _ (rest.takeWhile isTokenChar), List.takeWhile_append_dropWhile]
          exact whole
        exact .head step (later.append _)
      · have later := maskPrefixed_redacts token lead minRest rest
        have same : text = before ++ (first :: lead) ++ rest := by
          rw [whole, List.append_assoc]
        conv => lhs; rw [same]
        exact later.append _
termination_by text.length

theorem Masked.run_le (redacts : Masked text result) :
    (result.takeWhile isTokenChar).length ≤ (text.takeWhile isTokenChar).length := by
  refine redacts.comes (fun text' => (result.takeWhile isTokenChar).length ≤
    (text'.takeWhile isTokenChar).length) ?_ (Nat.le_refl _)
  rintro _ _ ⟨front, part, after, -, rfl, rfl⟩ le
  refine le.trans (length_run_le front ?_)
  rw [takeWhile_redacted]
  exact Nat.zero_le _

/-- A text shows a prefix with enough token characters behind it. -/
def ShowsToken (pattern : Text) (minRest : Nat) (text : Text) : Prop :=
  Shows id pattern (fun rest => minRest ≤ (rest.takeWhile isTokenChar).length) text

/-- The pass for a prefix hides every token with it. -/
theorem maskPrefixed_hides (tokens : ∀ char ∈ first :: lead, isTokenChar char = true)
    (apart : Apart id (first :: lead) redacted) (minRest : Nat) (text : Text) :
    ¬ ShowsToken (first :: lead) minRest (maskPrefixed first lead minRest text).1 := by
  have token : isTokenChar first = true := tokens first (List.mem_cons_self ..)
  cases found : seek (begins (first :: lead)) text with
  | none =>
      rw [maskPrefixed_none minRest found]
      rw [begins_eq] at found
      exact not_shows_of_seek_eq_none found
  | some parts =>
      obtain ⟨before, here⟩ := parts
      obtain ⟨whole, split⟩ := cut_begins found
      have shorter := length_drop_seek_lt (List.cons_ne_nil first lead) length_le_of_begins found
      rw [maskPrefixed_some minRest found]
      rw [begins_eq] at found
      generalize restEq : here.drop (first :: lead).length = rest at *
      split
      · have short : (rest.dropWhile isTokenChar).length < text.length :=
          Nat.lt_of_le_of_lt (rest.dropWhile_suffix isTokenChar).length_le shorter
        have later := maskPrefixed_hides tokens apart minRest (rest.dropWhile isTokenChar)
        rintro ⟨front, name, rest', whole', folded, long⟩
        rw [List.append_assoc] at whole'
        rcases place_cases apart whole' folded with ⟨between, behind, -⟩ | ⟨between, rfl, -⟩
        · exact later ⟨between, name, rest', behind, folded, long⟩
        · have earlier : front ++ (name ++ between) ++ (first :: lead ++ rest) =
              front ++ (name ++ (between ++ (first :: lead ++ rest))) := by
            simp only [List.append_assoc]
          obtain ⟨skipped, same, -⟩ := first_place found (by simp) earlier folded
          have lengths := congrArg List.length same
          have positive' : 0 < name.length := by
            rw [← List.length_map (f := id), folded]
            exact Nat.succ_pos _
          simp only [List.length_append] at lengths
          omega
      · rename_i few
        have later := maskPrefixed_hides tokens apart minRest rest
        have run := (maskPrefixed_redacts token lead minRest rest).run_le
        rintro ⟨front, name, rest', whole', folded, long⟩
        rw [List.append_assoc] at whole'
        obtain ⟨skipped, rfl, inner⟩ := first_place found (by simp) whole' folded
        obtain ⟨between, -, behind⟩ | ⟨tail, split', behind⟩ :=
          List.append_eq_append_iff.mp inner
        · exact later ⟨between, name, rest', behind, folded, long⟩
        · have lengths := congrArg (fun text => (text.takeWhile isTokenChar).length) behind
          rw [List.map_id] at folded
          have tail' : ∀ char ∈ tail, isTokenChar char = true := by
            intro char member
            exact tokens char (split' ▸ List.mem_append_right _ member)
          simp only [folded, List.takeWhile_append_of_pos tokens,
            List.takeWhile_append_of_pos tail', List.length_append] at lengths
          have longer := congrArg List.length split'
          rw [List.length_append] at longer
          omega
termination_by text.length

end

/-- A text shows what stands between the markers of a private key. -/
def ShowsBlock (text : Text) : Prop := Shows id pemBegin (Shows id pemEnd fun _ => True) text

def bearerRun (rest : Text) : Text := rest.takeWhile fun char => !isWhitespace char

def bearerLong (rest : Text) : Prop := 8 < (bearerRun rest).length

/-- A bearer token that is long enough and not redacted. -/
def bearerOpen (rest : Text) : Prop := bearerLong rest ∧ ¬ redacted <:+: bearerRun rest

def ShowsBearer (text : Text) : Prop := Shows Char.toLower bearer bearerOpen text

section

variable {before mark part after text result : Text}

theorem ShowsBlock.replaced (shown : ShowsBlock (before ++ (mark ++ after)))
    (apart : Apart id pemBegin mark) (apart' : Apart id pemEnd mark) (part : Text) :
    ShowsBlock (before ++ (part ++ after)) :=
  Shows.replaced shown apart (fun _ ended => ended)
    fun _ _ ended => ended.replaced apart' (fun _ holds => holds) fun _ _ holds => holds

theorem ShowsToken.replaced {pattern : Text} {minRest : Nat}
    (shown : ShowsToken pattern minRest (before ++ (mark ++ after))) (apart : Apart id pattern mark)
    (shorter : ((mark ++ after).takeWhile isTokenChar).length ≤
      ((part ++ after).takeWhile isTokenChar).length) :
    ShowsToken pattern minRest (before ++ (part ++ after)) :=
  Shows.replaced shown apart (fun _ long => long)
    fun between _ long => long.trans (length_run_le between shorter)

theorem bearerRun_append (between after : Text) : bearerRun (between ++ after) =
    if (bearerRun between).length = between.length then between ++ bearerRun after
    else bearerRun between := List.takeWhile_append

theorem bearerRun_redacted (after : Text) :
    bearerRun (redacted ++ after) = redacted ++ bearerRun after :=
  List.takeWhile_append_of_pos (List.all_eq_true.mp (by decide))

theorem bearerOpen_across {between : Text}
    (opened : bearerOpen (between ++ (redacted ++ after))) :
    bearerOpen (between ++ (part ++ after)) := by
  obtain ⟨long, plain⟩ := opened
  rw [bearerLong, bearerRun_append] at long
  rw [bearerRun_append] at plain
  rw [bearerOpen, bearerLong, bearerRun_append]
  split at plain
  · rw [bearerRun_redacted] at plain
    exact absurd ⟨between, bearerRun after, List.append_assoc _ _ _⟩ plain
  · rename_i ends
    rw [if_neg ends] at long ⊢
    exact ⟨long, plain⟩

theorem bearer_apart : Apart Char.toLower bearer redacted := by decide +kernel

/-- What stands behind the first bearer token, or behind its name where the token is short. -/
def bearerBehind (text : Text) : Text :=
  match seek (beginsFolded bearer) text with
  | none => []
  | some (_, here) =>
      let rest := here.drop bearer.length
      if 8 < (bearerRun rest).length then rest.dropWhile fun char => !isWhitespace char
      else rest

/-- The pass for bearer tokens leaves one just where one stands behind the first. -/
theorem maskBearer_shows_iff (text : Text) :
    ShowsBearer (maskBearer text).1 ↔ ShowsBearer (bearerBehind text) := by
  have borderless : Borderless bearer := by decide +kernel
  rw [maskBearer, bearerBehind]
  cases found : seek (beginsFolded bearer) text with
  | none =>
      have nothing : ¬ ShowsBearer text := not_shows_of_seek_eq_none found
      exact iff_of_false nothing (not_shows_nil (by decide))
  | some parts =>
      obtain ⟨before, here⟩ := parts
      obtain ⟨whole, name, rest, split, led, -, restEq⟩ := seek_begun found
      simp only [← restEq, bearerRun]
      split
      · have mark : before ++ "Bearer [REDACTED]".toList ++
            (rest.dropWhile fun char => !isWhitespace char) =
              before ++ ("Bearer ".toList ++ (redacted ++
                rest.dropWhile fun char => !isWhitespace char)) := by
          rw [List.append_assoc]
          rfl
        rw [mark]
        constructor
        · rintro ⟨front, name', rest', whole', folded, opened⟩
          obtain ⟨skipped, rfl, inner⟩ := first_place found (by decide) whole' folded
          rcases borderless.apart (by decide) folded inner with rfl | ⟨between, -, behind⟩
          · have same : "Bearer ".toList.length = name'.length := by
              have letters := congrArg List.length folded
              rw [List.length_map] at letters
              exact letters.symm
            rw [List.nil_append] at inner
            obtain ⟨-, rfl⟩ := List.append_inj inner same
            rw [bearerOpen, bearerRun_redacted] at opened
            exact absurd (List.prefix_append _ _).isInfix opened.2
          · have start : [] ++ (redacted ++ rest.dropWhile fun char => !isWhitespace char) =
                between ++ (name' ++ rest') := behind
            rcases place_cases bearer_apart start folded with ⟨more, later, -⟩ | ⟨more, nothing, -⟩
            · exact ⟨more, name', rest', later, folded, opened⟩
            · obtain ⟨-, nothing⟩ := List.append_eq_nil_iff.mp nothing.symm
              rw [(List.append_eq_nil_iff.mp nothing).1] at folded
              exact absurd folded (by decide)
        · intro shown
          exact ((shown.append redacted).append "Bearer ".toList).append before
      · rename_i short
        rw [whole, split]
        constructor
        · rintro ⟨front, name', rest', whole', folded, opened⟩
          obtain ⟨skipped, rfl, inner⟩ := first_place found led whole' folded
          rcases borderless.apart led folded inner with rfl | ⟨between, -, behind⟩
          · have same : name.length = name'.length := by
              rw [← List.length_map (f := Char.toLower), led, ← folded, List.length_map]
            rw [List.nil_append] at inner
            obtain ⟨-, rfl⟩ := List.append_inj inner same
            exact absurd opened.1 short
          · exact ⟨between, name', rest', behind, folded, opened⟩
        · exact fun shown => (shown.append name).append before

theorem tokens_of_toLower {name : Text}
    (tokens : ∀ char ∈ name.map Char.toLower, isTokenChar char = true) :
    ∀ char ∈ name, isTokenChar char = true :=
  fun _ member => isTokenChar_of_toLower (tokens _ (List.mem_map_of_mem member))

/-- The pass for bearer tokens replaces one with its name, or nothing. -/
theorem maskBearer_cases (text : Text) : (maskBearer text).1 = text ∨
    ∃ before part after, text = before ++ (part ++ after) ∧ Valued part ∧
      (("Bearer [REDACTED]".toList ++ after).takeWhile isTokenChar).length ≤
        ((part ++ after).takeWhile isTokenChar).length ∧
      (maskBearer text).1 = before ++ ("Bearer [REDACTED]".toList ++ after) := by
  rw [maskBearer]
  cases found : seek (beginsFolded bearer) text with
  | none => exact .inl rfl
  | some parts =>
      obtain ⟨before, here⟩ := parts
      obtain ⟨whole, name, rest, split, led, -, restEq⟩ := seek_begun found
      simp only [← restEq]
      split
      · have own : name = name.take 6 ++ name.drop 6 := (List.take_append_drop 6 name).symm
        have lower : (name.take 6).map Char.toLower = "bearer".toList := by
          rw [List.map_take, led]
          decide
        have six : (name.take 6).length = 6 := by
          rw [← List.length_map (f := Char.toLower), lower]
          rfl
        have tokens : ∀ char ∈ name.take 6, isTokenChar char = true :=
          tokens_of_toLower (lower ▸ List.all_eq_true.mp (by decide))
        refine .inr ⟨before, name ++ rest.takeWhile fun char => !isWhitespace char,
          rest.dropWhile fun char => !isWhitespace char, ?_, ?_, ?_, List.append_assoc _ _ _⟩
        · rw [whole, split, List.append_assoc, List.takeWhile_append_dropWhile]
        · rw [own]
          cases letters : name.take 6 with
          | nil =>
              rw [letters] at six
              cases six
          | cons first more =>
              have token := tokens first (by rw [letters]; exact List.mem_cons_self ..)
              exact ⟨first, _, rfl, isValueChar_of_isTokenChar token⟩
        · rw [own, List.append_assoc, List.append_assoc, List.takeWhile_append_of_pos tokens,
            List.length_append, six]
          exact Nat.le_add_right 6 _
      · exact .inl rfl

end

section

variable {text result : Text}

def pemMark : Text := "[REDACTED_PRIVATE_KEY]".toList

/-- What stands behind the first end marker of a text with a begin marker. -/
def blockBehind (text : Text) : Text :=
  match seek (begins pemBegin) text, seek (begins pemEnd) text with
  | some _, some (_, rest) => rest.drop pemEnd.length
  | _, _ => []

/-- The pass for private keys finds no block, or replaces the first one up to the word in its
end marker. -/
theorem maskPem_cases (uncrossed : pemCrossed text = false) :
    ¬ ShowsBlock text ∧ (maskPem text).1 = text ∧ blockBehind text = [] ∨
      ∃ before between after,
        text = before ++ (pemBegin ++ (between ++ (pemEnd ++ after))) ∧
        (maskPem text).1 = before ++ (pemMark ++ ("END ".toList ++ after)) ∧
        blockBehind text = after ∧
        ∀ front name more, before = front ++ (name ++ more) → name.map id ≠ pemBegin := by
  rw [pemCrossed] at uncrossed
  rw [maskPem, blockBehind]
  cases begun' : seek (begins pemBegin) text with
  | none =>
      rw [begins_eq] at begun'
      exact .inl ⟨not_shows_of_seek_eq_none begun', rfl, rfl⟩
  | some parts =>
      cases ended : seek (begins pemEnd) text with
      | none =>
          rw [begins_eq] at ended
          refine .inl ⟨?_, rfl, rfl⟩
          rintro ⟨front, name, rest, rfl, -, shown⟩
          exact not_shows_of_seek_eq_none ended ((shown.append name).append front)
      | some parts' =>
          obtain ⟨before, here⟩ := parts
          obtain ⟨before', here'⟩ := parts'
          obtain ⟨whole, split⟩ := cut_begins begun'
          obtain ⟨whole', split'⟩ := cut_begins ended
          simp only [begun', ended, decide_eq_false_iff_not] at uncrossed
          rw [begins_eq] at begun'
          generalize here.drop pemBegin.length = rest at whole split
          generalize restEq : here'.drop pemEnd.length = after at whole' split'
          have apart : Apart id pemBegin pemEnd := by decide +kernel
          obtain ⟨between, rfl, same⟩ | ⟨between, rfl, rfl⟩ :=
            place_cases apart (whole'.symm.trans whole) (List.map_id _)
          · refine absurd ?_ uncrossed
            have positive' : 0 < pemEnd.length := by decide
            rw [same, List.length_append, List.length_append]
            omega
          · refine .inr ⟨before, between, after, whole, ?_, restEq, ?_⟩
            · change before ++ pemMark ++ here'.drop 5 = _
              rw [split', List.append_assoc]
              rfl
            · rintro front name more rfl folded
              have earlier : front ++ (name ++ more) ++
                  (pemBegin ++ (between ++ (pemEnd ++ after))) = front ++ (name ++ (more ++
                    (pemBegin ++ (between ++ (pemEnd ++ after))))) := by
                simp only [List.append_assoc]
              obtain ⟨skipped, same, -⟩ := first_place begun' (List.map_id _) earlier folded
              have lengths := congrArg List.length same
              rw [List.map_id] at folded
              have positive' : 0 < name.length := by
                rw [folded]
                decide
              simp only [List.length_append] at lengths
              omega

/-- The pass for private keys leaves a block just where one stands behind the first. -/
theorem maskPem_shows_iff (uncrossed : pemCrossed text = false) :
    ShowsBlock (maskPem text).1 ↔ ShowsBlock (blockBehind text) := by
  obtain ⟨nothing, same, empty⟩ | ⟨before, between, after, -, output, rfl, first⟩ :=
    maskPem_cases uncrossed
  · rw [same, empty]
    exact iff_of_false nothing (not_shows_nil (by decide))
  · rw [output]
    constructor
    · rintro ⟨front, name, rest, split, folded, ended⟩
      have apart : Apart id pemBegin pemMark := by decide +kernel
      rcases place_cases apart split folded with ⟨skipped, behind, -⟩ | ⟨skipped, inner, -⟩
      · have apart' : Apart id pemBegin "END ".toList := by decide +kernel
        have start : [] ++ ("END ".toList ++ blockBehind text) = skipped ++ (name ++ rest) := behind
        rcases place_cases apart' start folded with ⟨more, later, -⟩ | ⟨more, nothing, -⟩
        · exact ⟨more, name, rest, later, folded, ended⟩
        · obtain ⟨-, nothing⟩ := List.append_eq_nil_iff.mp nothing.symm
          rw [(List.append_eq_nil_iff.mp nothing).1] at folded
          exact absurd folded (by decide)
      · exact absurd folded (first front name skipped inner)
    · exact fun shown => ((shown.append "END ".toList).append pemMark).append before

section

variable (masked : Masked text result)

include masked

theorem Masked.showsBlock (shown : ShowsBlock result) : ShowsBlock text := by
  refine masked.comes ShowsBlock ?_ shown
  rintro _ _ ⟨before, part, after, -, rfl, rfl⟩ shown
  exact shown.replaced (by decide +kernel) (by decide +kernel) part

theorem Masked.showsToken {pattern : Text} {minRest : Nat} (apart : Apart id pattern redacted)
    (shown : ShowsToken pattern minRest result) : ShowsToken pattern minRest text := by
  refine masked.comes (ShowsToken pattern minRest) ?_ shown
  rintro _ _ ⟨before, part, after, -, rfl, rfl⟩ shown
  refine shown.replaced apart ?_
  rw [takeWhile_redacted]
  exact Nat.zero_le _

theorem Masked.showsBearer (shown : ShowsBearer result) : ShowsBearer text := by
  refine masked.comes ShowsBearer ?_ shown
  rintro _ _ ⟨before, part, after, -, rfl, rfl⟩ shown
  exact Shows.replaced shown bearer_apart (fun _ opened => opened) fun _ _ => bearerOpen_across

end

end

section

variable {text : Text}

def bearerMark : Text := "Bearer [REDACTED]".toList

theorem maskBearer_showsBlock (shown : ShowsBlock (maskBearer text).1) : ShowsBlock text := by
  rcases maskBearer_cases text with same | ⟨before, part, after, rfl, -, -, output⟩
  · exact same ▸ shown
  · rw [output] at shown
    exact shown.replaced (by decide +kernel) (by decide +kernel) part

theorem maskBearer_showsToken {pattern : Text} {minRest : Nat} (apart : Apart id pattern bearerMark)
    (shown : ShowsToken pattern minRest (maskBearer text).1) : ShowsToken pattern minRest text := by
  rcases maskBearer_cases text with same | ⟨before, part, after, rfl, -, shorter, output⟩
  · exact same ▸ shown
  · rw [output] at shown
    exact shown.replaced apart shorter

/-- A key that begins with a letter and whose places overlap neither each other nor a mark. -/
def Plain (key : Char × Text) : Prop :=
  Borderless (key.1 :: key.2) ∧ Apart Char.toLower (key.1 :: key.2) redacted ∧
    isTokenChar key.1 = true

instance (key : Char × Text) : Decidable (Plain key) := inferInstanceAs (Decidable (_ ∧ _))

theorem maskAssignment_masked {key : Char × Text} (plain : Plain key) (text : Text) :
    Masked text (maskAssignment key.1 key.2 text).1 := by
  obtain ⟨-, same⟩ | ⟨front, name, between, part, after, whole, -, -, valued, -, -, output⟩ :=
    maskAssignment_cases plain.1 text
  · rw [same]
    exact Relation.ReflTransGen.refl
  · refine .single ⟨front ++ (name ++ between), part, after, valued, ?_, ?_⟩
    · rw [whole]
      simp only [List.append_assoc]
    · rw [output]
      simp only [List.append_assoc]

end

/-- What a pass is for: the secrets of a kind that a text shows, and the text behind the first
of them, with which a pass that acts once has nothing to do. -/
structure SecretKind where
  pass : Text → Option (Text × Bool)
  shows : Text → Prop
  decidable : DecidablePred shows
  behind : Text → Text

instance (kind : SecretKind) : DecidablePred kind.shows := kind.decidable

instance : DecidablePred bearerLong := fun _ => inferInstanceAs (Decidable (8 < _))

instance : DecidablePred bearerOpen := fun _ => inferInstanceAs (Decidable (_ ∧ _))

instance : DecidablePred ShowsBlock := fun text =>
  inferInstanceAs (Decidable (Shows id pemBegin (Shows id pemEnd fun _ => True) text))

instance : DecidablePred ShowsBearer := fun text =>
  inferInstanceAs (Decidable (Shows Char.toLower bearer bearerOpen text))

instance (pattern : Text) (minRest : Nat) : DecidablePred (ShowsToken pattern minRest) :=
  fun text => inferInstanceAs
    (Decidable (Shows id pattern (fun rest => minRest ≤ (rest.takeWhile isTokenChar).length) text))

def blockKind : SecretKind := ⟨redactPem, ShowsBlock, inferInstance, blockBehind⟩

/-- The pass for a prefix acts on all of its tokens. -/
def tokenKind (pattern : Text) (minRest : Nat) : SecretKind :=
  ⟨replacePrefixed pattern minRest, ShowsToken pattern minRest, inferInstance, fun _ => []⟩

def bearerKind : SecretKind := ⟨redactBearer, ShowsBearer, inferInstance, bearerBehind⟩

def keyKind (key : Text) : SecretKind :=
  ⟨redactAssignment key, Shows Char.toLower key assignsOpenly, inferInstance, valueBehind key⟩

/-- The keys whose values are redacted. -/
def secretKeys : List Text :=
  ["password".toList, "secret".toList, "api_key".toList, "api-key".toList, "token".toList]

def secretKinds : List SecretKind :=
  [blockKind, tokenKind "sk-".toList 20, tokenKind "AKIA".toList 16, bearerKind] ++
    secretKeys.map keyKind

theorem pass_secretKinds : secretKinds.map SecretKind.pass = passes := rfl

/-- No pass leaves a secret of its kind: none stands behind the first one in the text that the
passes before it have left. -/
def NoneLeft : List SecretKind → Text → Prop
  | [], _ => True
  | kind :: kinds, text => ¬ kind.shows (kind.behind text) ∧
      ∀ result ∈ kind.pass text, NoneLeft kinds result.1

/-- A pass leaves a secret of its kind just where one stands behind the first. -/
def SecretKind.Exact (kind : SecretKind) : Prop :=
  ∀ text output changed, kind.pass text = some (output, changed) →
    (kind.shows output ↔ kind.shows (kind.behind text))

/-- A later pass brings back no secret of an earlier pass's kind. -/
def SecretKind.Keeps (earlier later : SecretKind) : Prop :=
  ∀ text output changed, later.pass text = some (output, changed) →
    earlier.shows output → earlier.shows text

theorem shows_of_runPasses {kind : SecretKind} {kinds : List SecretKind}
    (keeps : ∀ later ∈ kinds, kind.Keeps later) {text output : Text} {changed : Bool}
    (ran : runPasses (kinds.map SecretKind.pass) text = some (output, changed))
    (shown : kind.shows output) : kind.shows text := by
  induction kinds generalizing text changed with
  | nil =>
      cases ran
      exact shown
  | cons later kinds ih =>
      simp only [List.map_cons, runPasses, Option.bind_eq_bind, Option.bind_eq_some_iff] at ran
      obtain ⟨⟨between, changed'⟩, own, ⟨final, changed''⟩, rest, same⟩ := ran
      cases same
      refine keeps later List.mem_cons_self text between changed' own ?_
      exact ih (fun other member => keeps other (List.mem_cons_of_mem _ member)) rest

/-- Where no pass leaves a secret of its kind, none is left of any kind. -/
theorem hidden_of_noneLeft {kinds : List SecretKind} (exact' : ∀ kind ∈ kinds, kind.Exact)
    (keeps : kinds.Pairwise SecretKind.Keeps) {text output : Text} {changed : Bool}
    (ran : runPasses (kinds.map SecretKind.pass) text = some (output, changed))
    (none' : NoneLeft kinds text) : ∀ kind ∈ kinds, ¬ kind.shows output := by
  induction kinds generalizing text changed with
  | nil => exact fun _ member => absurd member List.not_mem_nil
  | cons first kinds ih =>
      simp only [List.map_cons, runPasses, Option.bind_eq_bind, Option.bind_eq_some_iff] at ran
      obtain ⟨⟨between, changed'⟩, own, ⟨final, changed''⟩, rest, same⟩ := ran
      cases same
      rw [List.pairwise_cons] at keeps
      have later := none'.2 _ own
      intro kind member
      rcases List.mem_cons.mp member with rfl | member
      · intro shown
        have before := shows_of_runPasses keeps.1 rest shown
        exact none'.1 ((exact' kind List.mem_cons_self text between changed' own).mp before)
      · exact ih (fun other member => exact' other (List.mem_cons_of_mem _ member)) keeps.2 rest
          later kind member

/-- A pass behind whose first secret there never is another one leaves none in any text. -/
theorem hidden_of_empty {kind : SecretKind} {before after : List SecretKind}
    (exact' : kind.Exact) (keeps : ∀ later ∈ after, kind.Keeps later)
    (empty : ∀ text, ¬ kind.shows (kind.behind text)) {text output : Text} {changed : Bool}
    (ran : runPasses ((before ++ kind :: after).map SecretKind.pass) text =
      some (output, changed)) : ¬ kind.shows output := by
  induction before generalizing text changed with
  | nil =>
      simp only [List.nil_append, List.map_cons, runPasses, Option.bind_eq_bind,
        Option.bind_eq_some_iff] at ran
      obtain ⟨⟨between, changed'⟩, own, ⟨final, changed''⟩, rest, same⟩ := ran
      cases same
      intro shown
      have left := shows_of_runPasses keeps rest shown
      exact empty text ((exact' text between changed' own).mp left)
  | cons first before ih =>
      simp only [List.cons_append, List.map_cons, runPasses, Option.bind_eq_bind,
        Option.bind_eq_some_iff] at ran
      obtain ⟨⟨between, changed'⟩, own, ⟨final, changed''⟩, rest, same⟩ := ran
      cases same
      exact ih rest

/-- A pass that turns parts of a text into marks. -/
def SecretKind.Masks (kind : SecretKind) : Prop :=
  ∀ text output changed, kind.pass text = some (output, changed) → Masked text output

theorem apiKey_apart : Apart id "sk-".toList redacted := by decide +kernel

theorem accessKey_apart : Apart id "AKIA".toList redacted := by decide +kernel

theorem exact_blockKind : blockKind.Exact := by
  intro text output changed passed
  change redactPem text = _ at passed
  rw [redactPem_eq] at passed
  split at passed
  · cases passed
  · rename_i uncrossed
    obtain rfl := congrArg Prod.fst (Option.some.inj passed)
    exact maskPem_shows_iff (Bool.eq_false_iff.mpr uncrossed)

theorem exact_tokenKind {first : Char} {lead : Text} {minRest : Nat}
    (tokens : ∀ char ∈ first :: lead, isTokenChar char = true)
    (apart : Apart id (first :: lead) redacted) : (tokenKind (first :: lead) minRest).Exact := by
  intro text output changed passed
  change replacePrefixed (first :: lead) minRest text = _ at passed
  rw [replacePrefixed_eq] at passed
  obtain rfl := congrArg Prod.fst (Option.some.inj passed)
  exact iff_of_false (maskPrefixed_hides tokens apart minRest text)
    (not_shows_nil (List.cons_ne_nil _ _))

theorem exact_bearerKind : bearerKind.Exact := by
  intro text output changed passed
  change redactBearer text = _ at passed
  rw [redactBearer_eq] at passed
  obtain rfl := congrArg Prod.fst (Option.some.inj passed)
  exact maskBearer_shows_iff text

theorem exact_keyKind {first : Char} {key : Text} (plain : Plain (first, key)) :
    (keyKind (first :: key)).Exact := by
  intro text output changed passed
  change redactAssignment (first :: key) text = _ at passed
  rw [redactAssignment_eq] at passed
  obtain rfl := congrArg Prod.fst (Option.some.inj passed)
  exact maskAssignment_shows_iff plain.1 plain.2.1 plain.2.2

theorem masks_tokenKind {first : Char} {lead : Text} {minRest : Nat}
    (token : isTokenChar first = true) : (tokenKind (first :: lead) minRest).Masks := by
  intro text output changed passed
  change replacePrefixed (first :: lead) minRest text = _ at passed
  rw [replacePrefixed_eq] at passed
  obtain rfl := congrArg Prod.fst (Option.some.inj passed)
  exact maskPrefixed_redacts token lead minRest text

theorem masks_keyKind {first : Char} {key : Text} (plain : Plain (first, key)) :
    (keyKind (first :: key)).Masks := by
  intro text output changed passed
  change redactAssignment (first :: key) text = _ at passed
  rw [redactAssignment_eq] at passed
  obtain rfl := congrArg Prod.fst (Option.some.inj passed)
  exact maskAssignment_masked plain text

/-- A pass that turns parts into marks brings back nothing that is not a value of a key. -/
theorem SecretKind.Masks.keeps {later : SecretKind} (masks : later.Masks) :
    blockKind.Keeps later ∧ (tokenKind "sk-".toList 20).Keeps later ∧
      (tokenKind "AKIA".toList 16).Keeps later ∧ bearerKind.Keeps later :=
  ⟨fun text output changed passed => (masks text output changed passed).showsBlock,
    fun text output changed passed => (masks text output changed passed).showsToken apiKey_apart,
    fun text output changed passed => (masks text output changed passed).showsToken accessKey_apart,
    fun text output changed passed => (masks text output changed passed).showsBearer⟩

/-- Nor does the pass for bearer tokens bring back a block or a token of a fixed shape. -/
theorem keeps_bearerKind : blockKind.Keeps bearerKind ∧
    (tokenKind "sk-".toList 20).Keeps bearerKind ∧
      (tokenKind "AKIA".toList 16).Keeps bearerKind := by
  have passed : ∀ {text output : Text} {changed : Bool},
      bearerKind.pass text = some (output, changed) → (maskBearer text).1 = output := by
    intro text output changed passed
    change redactBearer text = _ at passed
    rw [redactBearer_eq] at passed
    exact congrArg Prod.fst (Option.some.inj passed)
  refine ⟨?_, ?_, ?_⟩
  · rintro text output changed own shown
    exact maskBearer_showsBlock (passed own ▸ shown)
  · rintro text output changed own shown
    exact maskBearer_showsToken (by decide +kernel) (passed own ▸ shown)
  · rintro text output changed own shown
    exact maskBearer_showsToken (by decide +kernel) (passed own ▸ shown)

theorem keeps_keyKind {first : Char} {key pattern : Text} (plain : Plain (first, key))
    (apart : Apart Char.toLower pattern redacted) :
    (keyKind pattern).Keeps (keyKind (first :: key)) := by
  intro text output changed passed shown
  change redactAssignment (first :: key) text = _ at passed
  rw [redactAssignment_eq] at passed
  obtain rfl := congrArg Prod.fst (Option.some.inj passed)
  by_contra hidden
  exact maskAssignment_hidden plain.1 apart hidden shown

/-- The keys of the passes, each with its first letter apart. -/
def keyParts : List (Char × Text) :=
  [('p', "assword".toList), ('s', "ecret".toList), ('a', "pi_key".toList),
    ('a', "pi-key".toList), ('t', "oken".toList)]

theorem secretKeys_eq : secretKeys = keyParts.map fun parts => parts.1 :: parts.2 := rfl

/-- Every key of the passes is plain. -/
theorem plain_keyParts : ∀ parts ∈ keyParts, Plain parts := by decide +kernel

theorem plain_secretKeys {key : Text} (member : key ∈ secretKeys) :
    ∃ first rest, key = first :: rest ∧ Plain (first, rest) := by
  rw [secretKeys_eq] at member
  obtain ⟨parts, own, rfl⟩ := List.mem_map.mp member
  exact ⟨parts.1, parts.2, rfl, plain_keyParts parts own⟩

theorem apiTokens : ∀ char ∈ 's' :: "k-".toList, isTokenChar char = true :=
  List.all_eq_true.mp (by decide)

theorem accessTokens : ∀ char ∈ 'A' :: "KIA".toList, isTokenChar char = true :=
  List.all_eq_true.mp (by decide)

theorem exact_secretKinds : ∀ kind ∈ secretKinds, kind.Exact := by
  intro kind member
  rcases List.mem_append.mp member with first | key
  · simp only [List.mem_cons, List.not_mem_nil, or_false] at first
    rcases first with rfl | rfl | rfl | rfl
    · exact exact_blockKind
    · exact exact_tokenKind apiTokens apiKey_apart
    · exact exact_tokenKind accessTokens accessKey_apart
    · exact exact_bearerKind
  · obtain ⟨name, own, rfl⟩ := List.mem_map.mp key
    obtain ⟨first, rest, rfl, plain⟩ := plain_secretKeys own
    exact exact_keyKind plain

theorem keeps_secretKinds : secretKinds.Pairwise SecretKind.Keeps := by
  have api : (tokenKind "sk-".toList 20).Masks := masks_tokenKind (apiTokens 's' List.mem_cons_self)
  have access : (tokenKind "AKIA".toList 16).Masks :=
    masks_tokenKind (accessTokens 'A' List.mem_cons_self)
  obtain ⟨block, apiKey, accessKey⟩ := keeps_bearerKind
  refine List.pairwise_append.mpr ⟨?_, ?_, ?_⟩
  · simp only [List.pairwise_cons, List.forall_mem_cons, List.not_mem_nil, IsEmpty.forall_iff,
      implies_true, and_true, List.Pairwise.nil]
    exact ⟨⟨api.keeps.1, access.keeps.1, block⟩, ⟨access.keeps.2.1, apiKey⟩, accessKey⟩
  · refine List.pairwise_map.mpr (List.pairwise_of_forall_mem_list ?_)
    intro earlier own later own'
    obtain ⟨_, _, rfl, plain⟩ := plain_secretKeys own
    obtain ⟨_, _, rfl, plain'⟩ := plain_secretKeys own'
    exact keeps_keyKind plain' plain.2.1
  · intro earlier own later own'
    obtain ⟨name, member, rfl⟩ := List.mem_map.mp own'
    obtain ⟨first, rest, rfl, plain⟩ := plain_secretKeys member
    obtain ⟨ofBlock, ofApi, ofAccess, ofBearer⟩ := (masks_keyKind plain).keeps
    simp only [List.mem_cons, List.not_mem_nil, or_false] at own
    rcases own with rfl | rfl | rfl | rfl
    · exact ofBlock
    · exact ofApi
    · exact ofAccess
    · exact ofBearer

/-- Nothing that a redaction is to find is shown. -/
structure Clean (text : Text) : Prop where
  block : ¬ ShowsBlock text
  apiKey : ¬ ShowsToken "sk-".toList 20 text
  accessKey : ¬ ShowsToken "AKIA".toList 16 text
  token : ¬ ShowsBearer text
  value : ∀ key ∈ secretKeys, ¬ Shows Char.toLower key assignsOpenly text

theorem clean_iff {text : Text} : Clean text ↔ ∀ kind ∈ secretKinds, ¬ kind.shows text := by
  constructor
  · intro clean kind member
    rcases List.mem_append.mp member with first | key
    · simp only [List.mem_cons, List.not_mem_nil, or_false] at first
      rcases first with rfl | rfl | rfl | rfl
      · exact clean.block
      · exact clean.apiKey
      · exact clean.accessKey
      · exact clean.token
    · obtain ⟨name, own, rfl⟩ := List.mem_map.mp key
      exact clean.value name own
  · intro hidden
    exact ⟨hidden blockKind (by simp [secretKinds]),
      hidden (tokenKind _ 20) (by simp [secretKinds]),
      hidden (tokenKind _ 16) (by simp [secretKinds]), hidden bearerKind (by simp [secretKinds]),
      fun key member => hidden (keyKind key)
        (List.mem_append_right _ (List.mem_map_of_mem member))⟩

instance : DecidablePred Clean := fun _ => decidable_of_iff _ clean_iff.symm

instance decidableNoneLeft : ∀ kinds : List SecretKind, DecidablePred (NoneLeft kinds)
  | [] => fun _ => inferInstanceAs (Decidable True)
  | kind :: kinds => fun text =>
      have : DecidablePred (NoneLeft kinds) := decidableNoneLeft kinds
      inferInstanceAs (Decidable (¬ kind.shows (kind.behind text) ∧
        ∀ result ∈ kind.pass text, NoneLeft kinds result.1))

theorem redactText_passes {input output : String} {changed : Bool}
    (redacts : redactText input = some (output, changed)) :
    runPasses (secretKinds.map SecretKind.pass) input.toList = some (output.toList, changed) := by
  rw [redactText, Option.map_eq_some_iff] at redacts
  obtain ⟨⟨text, own⟩, ran, same⟩ := redacts
  obtain ⟨rfl, rfl⟩ := Prod.mk.inj same
  rw [String.toList_ofList, pass_secretKinds]
  exact ran

theorem redactText_clean {input output : String} {changed : Bool}
    (redacts : redactText input = some (output, changed))
    (none' : NoneLeft secretKinds input.toList) : Clean output.toList :=
  clean_iff.mpr
    (hidden_of_noneLeft exact_secretKinds keeps_secretKinds (redactText_passes redacts) none')

/-- No text keeps a token of a fixed shape: its pass leaves none, and no later one brings one
back. -/
theorem redactText_tokens {input output : String} {changed : Bool}
    (redacts : redactText input = some (output, changed)) :
    ¬ ShowsToken "sk-".toList 20 output.toList ∧ ¬ ShowsToken "AKIA".toList 16 output.toList := by
  have ran := redactText_passes redacts
  have keeps : (blockKind :: tokenKind "sk-".toList 20 :: tokenKind "AKIA".toList 16 ::
      bearerKind :: secretKeys.map keyKind).Pairwise SecretKind.Keeps := keeps_secretKinds
  simp only [List.pairwise_cons] at keeps
  obtain ⟨-, ofApi, ofAccess, -⟩ := keeps
  have nothing : ∀ {pattern : Text} {minRest : Nat}, pattern ≠ [] →
      ∀ text, ¬ (tokenKind pattern minRest).shows ((tokenKind pattern minRest).behind text) :=
    fun some' _ => not_shows_nil some'
  constructor
  · exact hidden_of_empty (exact_tokenKind apiTokens apiKey_apart) ofApi (nothing (by decide))
      (show runPasses (([blockKind] ++ _).map SecretKind.pass) _ = _ from ran)
  · exact hidden_of_empty (exact_tokenKind accessTokens accessKey_apart) ofAccess
      (nothing (by decide))
      (show runPasses (([blockKind, tokenKind "sk-".toList 20] ++ _).map SecretKind.pass) _ = _
        from ran)

theorem clean_redacted : Clean "[REDACTED]".toList := by decide +kernel

end OpsCodex.Evidence.Redact
