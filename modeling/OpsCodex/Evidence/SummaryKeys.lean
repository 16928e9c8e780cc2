import OpsCodex.Evidence.RedactJson
import OpsCodex.Evidence.Summary
import OpsCodex.Json.Print

/-! The keys that the summary of a value shows: a redaction of the value leaves them as they
are. -/

set_option autoImplicit false

namespace OpsCodex.Evidence

open OpsCodex.Json OpsCodex.Evidence.Redact Offsets

/-- A key as a redaction would leave it, or nothing where that panics. -/
def redactedKey (key : String) : String := ((redactText key).map Prod.fst).getD ""

/-- A summary shows no more than the beginning of the text of a value whose keys are redacted. -/
def SummaryRedacted (value : Value) (summary : String) : Prop :=
  ∃ shown, shown <+: summaryText Value.print (renameKeys redactedKey value) ∧
    (summary.toList = shown ∨ summary.toList = shown ++ ['…'])

/-- How many characters of a text a summary of so many bytes shows. -/
def keptLength (text : List Char) (maxChars : Nat) : Nat :=
  if width Char.utf8Size text ≤ maxChars then text.length
  else max ((fitting Char.utf8Size text maxChars).length - 1) 1

/-- The keys that a summary shows, each with the number of characters up to where it ends. -/
def summaryKeys (value : Value) (maxChars : Nat) : List (String × Nat) :=
  Piece.places quote (keptLength (summaryText Value.print value) maxChars) value.pieces

/-- Redaction leaves what is shown of a key's text as it is. -/
def KeyKept (place : String × Nat) : Prop :=
  (quote (redactedKey place.1)).take place.2 = (quote place.1).take place.2

mutual

theorem pieces_renameKeys (rename : String → String) : ∀ value : Value,
    (renameKeys rename value).pieces = value.pieces.map (Piece.rename rename)
  | .null => rfl
  | .bool _ => rfl
  | .number _ => rfl
  | .string _ => rfl
  | .array items => by
      rw [renameKeys, Value.pieces, Value.pieces, itemPieces_renameKeys rename true items,
        List.map_cons, List.map_append]
      rfl
  | .object fields => by
      rw [renameKeys, Value.pieces, Value.pieces, fieldPieces_renameKeys rename true fields,
        List.map_cons, List.map_append]
      rfl

theorem itemPieces_renameKeys (rename : String → String) : ∀ (first : Bool) (items : List Value),
    itemPieces first (renameItemKeys rename items) =
      (itemPieces first items).map (Piece.rename rename)
  | _, [] => rfl
  | first, item :: items => by
      rw [renameItemKeys, itemPieces, itemPieces, pieces_renameKeys rename item,
        itemPieces_renameKeys rename false items, List.map_cons, List.map_append]
      rfl

theorem fieldPieces_renameKeys (rename : String → String) :
    ∀ (first : Bool) (fields : List (String × Value)),
      fieldPieces first (renameFieldKeys rename fields) =
        (fieldPieces first fields).map (Piece.rename rename)
  | _, [] => rfl
  | first, (key, value) :: fields => by
      rw [renameFieldKeys, fieldPieces, fieldPieces, pieces_renameKeys rename value,
        fieldPieces_renameKeys rename false fields]
      simp only [List.map_cons, List.map_append]
      rfl

end

section

variable {value : Value} {maxChars : Nat} {summary : List Char}

theorem length_eq_one {text : List Char} (single : width Char.utf8Size text = 1) :
    text.length = 1 := by
  cases text with
  | nil => cases single
  | cons first text =>
      rw [width_cons] at single
      have positive := Char.utf8Size_pos first
      cases text with
      | nil => rfl
      | cons second text =>
          rw [width_cons] at single
          have positive' := Char.utf8Size_pos second
          omega

/-- What is kept of a text that is cut is one character shorter than what fits. -/
theorem length_of_sliceTo {text kept : List Char}
    (cut : sliceTo Char.utf8Size text
      (max (width Char.utf8Size (fitting Char.utf8Size text maxChars) - 1) 1) = some kept) :
    kept.length = max ((fitting Char.utf8Size text maxChars).length - 1) 1 := by
  obtain ⟨shorter, wide⟩ := sliceTo_eq_some cut
  have begins := fitting_prefix Char.utf8Size text maxChars
  generalize fitting Char.utf8Size text maxChars = fit at *
  by_cases more : 2 ≤ width Char.utf8Size fit
  · obtain ⟨rest, rfl⟩ := prefix_of_width_le Char.utf8Size_pos shorter begins (by omega)
    rw [width_append] at wide more
    have last : rest.length = 1 := length_eq_one (by omega)
    have some' : kept ≠ [] := by
      rintro rfl
      rw [width_nil] at wide
      omega
    have positive := List.length_pos_of_ne_nil some'
    rw [List.length_append, last, Nat.add_sub_cancel, Nat.max_eq_left positive]
  · rw [Nat.max_eq_right (by omega)] at wide
    have short : fit.length ≤ 1 := by
      cases fit with
      | nil => exact Nat.zero_le _
      | cons first fit =>
          have positive := Char.utf8Size_pos first
          rw [width_cons] at more
          cases fit with
          | nil => exact Nat.le_refl _
          | cons second fit =>
              have positive' := Char.utf8Size_pos second
              rw [width_cons] at more
              omega
    rw [length_eq_one wide, Nat.max_eq_right (by omega)]

/-- A summary is what it shows of the text, behind which dots stand if there is more. -/
theorem summarizeValue_kept {toText : Value → List Char}
    (found : summarizeValue toText value maxChars = some summary) :
    keptLength (summaryText toText value) maxChars ≤ (summaryText toText value).length ∧
      summary = (summaryText toText value).take (keptLength (summaryText toText value) maxChars) ++
        if width Char.utf8Size (summaryText toText value) ≤ maxChars then [] else ['…'] := by
  unfold keptLength
  split
  · rename_i fits
    rw [summarizeValue_of_fits fits] at found
    rw [List.take_length, List.append_nil]
    exact ⟨Nat.le_refl _, (Option.some.inj found).symm⟩
  · rename_i long
    rw [summarizeValue_of_cut (Nat.lt_of_not_le long)] at found
    obtain ⟨kept, cut, rfl⟩ := Option.map_eq_some_iff.mp found
    have shorter := (sliceTo_eq_some cut).1
    rw [← length_of_sliceTo cut, ← List.prefix_iff_eq_take.mp shorter]
    exact ⟨shorter.length_le, rfl⟩

theorem renameKeys_text (rename : String → String) (value : Value) :
    (∃ text, value = .string text ∧ renameKeys rename value = value) ∨
      summaryText Value.print value = value.print ∧
        summaryText Value.print (renameKeys rename value) = (renameKeys rename value).print := by
  cases value with
  | string text => exact .inl ⟨text, rfl, rfl⟩
  | _ => exact .inr ⟨rfl, rfl⟩

/-- The text of a value with keys does not end with dots. -/
theorem keys_or_end (value : Value) (room : Nat) :
    Piece.places quote room value.pieces = [] ∨
      summaryText Value.print value = value.print ∧
        ∃ front last, value.print = front ++ [last] ∧ last ≠ '…' := by
  cases value with
  | array items =>
      refine .inr ⟨rfl, '[' :: Piece.textOf quote (itemPieces true items), ']', ?_, by decide⟩
      simp [Value.print, Value.pieces, Piece.textOf, Piece.text]
  | object fields =>
      refine .inr ⟨rfl, '{' :: Piece.textOf quote (fieldPieces true fields), '}', ?_, by decide⟩
      simp [Value.print, Value.pieces, Piece.textOf, Piece.text]
  | _ => exact .inl rfl

/-- What is shown of the text reads the same with redacted keys just where redaction leaves
those that are shown alone. -/
theorem take_summaryText_iff (value : Value) (room : Nat) :
    (summaryText Value.print (renameKeys redactedKey value)).take room =
        (summaryText Value.print value).take room ↔
      ∀ place ∈ Piece.places quote room value.pieces, KeyKept place := by
  rcases renameKeys_text redactedKey value with ⟨text, rfl, same⟩ | ⟨printed, renamed⟩
  · rw [same]
    exact iff_of_true rfl fun place member => absurd member List.not_mem_nil
  · rw [printed, renamed, Value.print, Value.print, pieces_renameKeys]
    exact Piece.take_textOf_rename_iff quote_delimits redactedKey value.pieces room

/-- A summary shows redacted keys only, just where redaction leaves those that it shows alone. -/
theorem summaryRedacted_iff (found : summarizeValue Value.print value maxChars = some summary) :
    SummaryRedacted value (String.ofList summary) ↔
      ∀ place ∈ summaryKeys value maxChars, KeyKept place := by
  obtain ⟨within, kept⟩ := summarizeValue_kept found
  unfold SummaryRedacted summaryKeys
  rw [String.toList_ofList, kept, ← take_summaryText_iff]
  generalize room_eq : keptLength (summaryText Value.print value) maxChars = room at within
  have full : ((summaryText Value.print value).take room).length = room :=
    List.length_take_of_le within
  constructor
  · rintro ⟨shown, begins, same⟩
    have reads (longer : (summaryText Value.print value).take room <+: shown) :
        (summaryText Value.print (renameKeys redactedKey value)).take room =
          (summaryText Value.print value).take room := by
      have whole := List.prefix_iff_eq_take.mp (longer.trans begins)
      rw [full] at whole
      exact whole.symm
    split at same
    · rename_i fits
      rw [List.append_nil] at same
      rcases same with same | same
      · exact reads (same ▸ List.prefix_refl _)
      · -- Only a text without keys ends as a cut summary does.
        rw [keptLength, if_pos fits] at room_eq
        rw [← room_eq, List.take_length] at same
        rcases keys_or_end value room with none' | ⟨printed, front, last, whole, plain⟩
        · rw [take_summaryText_iff, none']
          exact fun place member => absurd member List.not_mem_nil
        · rw [printed, whole] at same
          exact absurd (List.cons.inj (List.append_inj' same rfl).2).1 plain
    · rcases same with same | same
      · exact reads (same ▸ List.prefix_append _ _)
      · exact reads ((List.append_inj' same rfl).1 ▸ List.prefix_refl _)
  · intro same
    refine ⟨_, same ▸ List.take_prefix _ _, ?_⟩
    split
    · exact .inl (List.append_nil _)
    · exact .inr rfl

end

end OpsCodex.Evidence
