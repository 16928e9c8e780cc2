import OpsCodex.Json
import OpsCodex.Sequence.Boundaries

/-! The summary of a tool result: the text of the value, cut to a number of bytes. -/

set_option autoImplicit false

namespace OpsCodex.Evidence

open OpsCodex.Json Offsets

section

variable (toText : Value → List Char)

def summaryText : Value → List Char
  | .string text => text.toList
  | other => toText other

/-- The summary, or none where the slice panics. -/
def summarizeValue (value : Value) (maxChars : Nat) : Option (List Char) := do
  let text := summaryText toText value
  let stop ← retreat (fun stop => stop == 0 || isBoundary Char.utf8Size text stop)
    (min maxChars (width Char.utf8Size text))
  if width Char.utf8Size text ≤ maxChars then some text
  else do
    let kept ← sliceTo Char.utf8Size text
      (min (max (stop - 1) 1) (width Char.utf8Size text))
    some (kept ++ ['…'])

end

/-- The last character that fits into a number of bytes, or else the first one, is one byte
long. -/
def OneByteAtCut (text : List Char) (maxChars : Nat) : Prop :=
  ∃ before char after, text = before ++ char :: after ∧ char.utf8Size = 1 ∧
    width Char.utf8Size before < max maxChars 1 ∧
    ∀ next ∈ after.head?,
      maxChars < width Char.utf8Size (before ++ [char]) + next.utf8Size

section

variable {toText : Value → List Char} {value : Value} {maxChars : Nat}

theorem retreat_summary (text : List Char) (limit : Nat) :
    retreat (fun stop => stop == 0 || isBoundary Char.utf8Size text stop) limit =
      some (width Char.utf8Size (fitting Char.utf8Size text limit)) := by
  have stops : (fun stop => stop == 0 || isBoundary Char.utf8Size text stop) =
      isBoundary Char.utf8Size text := by
    funext stop
    cases stop with
    | zero => cases text <;> rfl
    | succ stop => rfl
  rw [stops, retreat_isBoundary Char.utf8Size_pos]

theorem summarizeValue_of_fits
    (fits : width Char.utf8Size (summaryText toText value) ≤ maxChars) :
    summarizeValue toText value maxChars = some (summaryText toText value) := by
  rw [summarizeValue, retreat_summary, Option.bind_eq_bind, Option.bind_some, if_pos fits]

/-- The cut lies one byte before the end of the characters that fit, but not at zero. -/
theorem summarizeValue_of_cut
    (long : maxChars < width Char.utf8Size (summaryText toText value)) :
    summarizeValue toText value maxChars =
      (sliceTo Char.utf8Size (summaryText toText value)
        (max (width Char.utf8Size
          (fitting Char.utf8Size (summaryText toText value) maxChars) - 1) 1)).map
        (· ++ ['…']) := by
  have narrow := width_fitting_le Char.utf8Size (summaryText toText value) maxChars
  rw [summarizeValue, retreat_summary, Option.bind_eq_bind, Option.bind_some,
    if_neg (Nat.not_le.mpr long), Nat.min_eq_left (Nat.le_of_lt long), Nat.min_eq_left (by omega)]
  cases sliceTo Char.utf8Size (summaryText toText value)
      (max (width Char.utf8Size
        (fitting Char.utf8Size (summaryText toText value) maxChars) - 1) 1) with
  | none => rfl
  | some kept => rfl

/-- Where the last character that fits is one byte long, the cut lies between two characters. -/
theorem exists_kept {text : List Char} (oneByte : OneByteAtCut text maxChars) :
    ∃ kept, sliceTo Char.utf8Size text
        (max (width Char.utf8Size (fitting Char.utf8Size text maxChars) - 1) 1) = some kept ∧
      width Char.utf8Size kept ≤ max maxChars 1 := by
  obtain ⟨before, char, after, rfl, one, inside, next⟩ := oneByte
  have split : before ++ char :: after = (before ++ [char]) ++ after := by simp
  have wide : width Char.utf8Size (before ++ [char]) = width Char.utf8Size before + 1 := by
    rw [width_append, width_cons, one, width_nil]
  cases before with
  | nil =>
      have narrow : width Char.utf8Size (fitting Char.utf8Size ([] ++ char :: after) maxChars) ≤
          1 := by
        by_cases fits : 1 ≤ maxChars
        · rw [split, fitting_eq (by rw [wide]; exact fits) next, wide]
          exact Nat.le_refl _
        · have bound := width_fitting_le Char.utf8Size ([] ++ char :: after) maxChars
          omega
      have cut := sliceTo_append Char.utf8Size_pos ([] ++ [char]) after
      refine ⟨[char], ?_, ?_⟩
      · rw [Nat.max_eq_right (by omega), split]
        rw [wide] at cut
        exact cut
      · have single : width Char.utf8Size [char] = 1 := wide
        rw [single]
        exact Nat.le_max_right _ _
  | cons first before =>
      have positive := Char.utf8Size_pos first
      have some' : 0 < width Char.utf8Size (first :: before) := by
        rw [width_cons]
        omega
      have fits : width Char.utf8Size (first :: before ++ [char]) ≤ maxChars := by
        rw [wide]
        omega
      refine ⟨first :: before, ?_, Nat.le_of_lt inside⟩
      rw [split, fitting_eq fits next, wide, Nat.add_sub_cancel, Nat.max_eq_left some',
        ← split]
      exact sliceTo_append Char.utf8Size_pos _ _

theorem oneByteAtCut_of_sliceTo {text kept : List Char}
    (cut : sliceTo Char.utf8Size text
      (max (width Char.utf8Size (fitting Char.utf8Size text maxChars) - 1) 1) = some kept) :
    OneByteAtCut text maxChars := by
  obtain ⟨shorter, wide⟩ := sliceTo_eq_some cut
  obtain ⟨after, whole⟩ := fitting_prefix Char.utf8Size text maxChars
  have bound := width_fitting_le Char.utf8Size text maxChars
  have next := lt_width_of_fitting whole.symm
  have begins : fitting Char.utf8Size text maxChars <+: text := ⟨after, whole⟩
  generalize fitting Char.utf8Size text maxChars = fit at *
  rcases List.eq_nil_or_concat fit with rfl | ⟨front, char, rfl⟩
  · rw [List.nil_append] at whole
    subst whole
    cases kept with
    | nil => cases wide
    | cons char kept =>
        obtain ⟨rest, rfl⟩ := shorter
        have beyond := next char rfl
        have positive := Char.utf8Size_pos char
        rw [width_nil] at wide beyond
        rw [width_cons] at wide
        have none : maxChars = 0 := by omega
        refine ⟨[], char, kept ++ rest, rfl, by omega, Nat.lt_of_lt_of_le Nat.one_pos
          (Nat.le_max_right _ _), fun symbol inside => ?_⟩
        rw [none, List.nil_append, width_cons]
        omega
  · rw [List.concat_eq_append] at *
    rw [width_append, width_cons, width_nil] at wide bound
    have positive := Char.utf8Size_pos char
    have one : char.utf8Size = 1 := by
      rcases width_outside Char.utf8Size shorter begins with before | behind
      · omega
      · omega
    refine ⟨front, char, after, ?_, one, by omega, next⟩
    rw [← whole, List.append_assoc, List.singleton_append]

theorem summarizeValue_sound_iff (toText : Value → List Char) (value : Value) (maxChars : Nat) :
    (∃ result, summarizeValue toText value maxChars = some result ∧
      (width Char.utf8Size (summaryText toText value) ≤ maxChars →
        result = summaryText toText value) ∧
      (maxChars < width Char.utf8Size (summaryText toText value) →
        ∃ kept, kept <+: summaryText toText value ∧
          width Char.utf8Size kept ≤ max maxChars 1 ∧ result = kept ++ ['…'])) ↔
      width Char.utf8Size (summaryText toText value) ≤ maxChars ∨
        OneByteAtCut (summaryText toText value) maxChars := by
  constructor
  · rintro ⟨result, found, -, -⟩
    rcases Nat.lt_or_ge maxChars (width Char.utf8Size (summaryText toText value)) with long | fits
    · rw [summarizeValue_of_cut long] at found
      obtain ⟨kept, cut, -⟩ := Option.map_eq_some_iff.mp found
      exact .inr (oneByteAtCut_of_sliceTo cut)
    · exact .inl fits
  · intro condition
    rcases Nat.lt_or_ge maxChars (width Char.utf8Size (summaryText toText value)) with long | fits
    · have oneByte := condition.resolve_left (Nat.not_le.mpr long)
      obtain ⟨kept, cut, narrow⟩ := exists_kept oneByte
      refine ⟨kept ++ ['…'], ?_, fun fits => absurd fits (Nat.not_le.mpr long), fun _ =>
        ⟨kept, (sliceTo_eq_some cut).1, narrow, rfl⟩⟩
      rw [summarizeValue_of_cut long, cut]
      rfl
    · exact ⟨_, summarizeValue_of_fits fits, fun _ => rfl, fun long =>
        absurd fits (Nat.not_le.mpr long)⟩

/-- A text of characters of two bytes: one byte before the end of what fits lies inside one. -/
theorem summarizeValue_panics :
    summarizeValue (fun _ => []) (.string (String.ofList (List.replicate 141 'é'))) 280 = none := by
  have text : summaryText (fun _ => []) (.string (String.ofList (List.replicate 141 'é'))) =
      List.replicate 141 'é' := String.toList_ofList
  rw [summarizeValue_of_cut (by rw [text, width_replicate]; decide), text]
  cases cut : sliceTo Char.utf8Size (List.replicate 141 'é')
      (max (width Char.utf8Size
        (fitting Char.utf8Size (List.replicate 141 'é') 280) - 1) 1) with
  | none => rfl
  | some kept =>
      obtain ⟨before, char, after, whole, one, -⟩ := oneByteAtCut_of_sliceTo cut
      have inside : char ∈ List.replicate 141 'é' := by
        rw [whole]
        exact List.mem_append_right _ List.mem_cons_self
      rw [List.eq_of_mem_replicate inside] at one
      exact absurd one (by decide)

end

end OpsCodex.Evidence
