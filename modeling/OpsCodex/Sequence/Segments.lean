/-! Texts cut at a separator. -/

set_option autoImplicit false

namespace Segments

variable {Symbol : Type} [DecidableEq Symbol] {separator : Symbol}

/-- The pieces of a text between its separators; there is always one. -/
def split (separator : Symbol) : List Symbol → List (List Symbol)
  | [] => [[]]
  | symbol :: text =>
      if symbol = separator then [] :: split separator text
      else
        match split separator text with
        | [] => [[symbol]]
        | piece :: pieces => (symbol :: piece) :: pieces

theorem split_ne_nil (text : List Symbol) : split separator text ≠ [] := by
  cases text with
  | nil => exact nofun
  | cons symbol text =>
      rw [split]
      split
      · exact nofun
      · split <;> exact nofun

theorem split_cons_other {symbol : Symbol} {text piece : List Symbol}
    {pieces : List (List Symbol)} (different : symbol ≠ separator)
    (cut : split separator text = piece :: pieces) :
    split separator (symbol :: text) = (symbol :: piece) :: pieces := by
  rw [split, if_neg different, cut]

/-- Two texts joined by a separator have the pieces of both. -/
theorem split_append (before after : List Symbol) :
    split separator (before ++ separator :: after) =
      split separator before ++ split separator after := by
  induction before with
  | nil => simp [split]
  | cons symbol before ih =>
      rw [List.cons_append]
      by_cases same : symbol = separator
      · rw [split, if_pos same, split, if_pos same, ih, List.cons_append]
      · cases cut : split separator before with
        | nil => exact absurd cut (split_ne_nil before)
        | cons piece pieces =>
            rw [cut, List.cons_append] at ih
            rw [split_cons_other same ih, split_cons_other same cut, List.cons_append]

theorem split_of_not_mem {text : List Symbol} (whole : separator ∉ text) :
    split separator text = [text] := by
  induction text with
  | nil => rfl
  | cons symbol text ih =>
      rw [List.mem_cons, not_or] at whole
      exact split_cons_other (Ne.symm whole.1) (ih whole.2)

end Segments
