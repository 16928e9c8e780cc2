/-! Positions in a text as sums of the sizes of its symbols, and the first place where
something is found. -/

set_option autoImplicit false

namespace Offsets

section

variable {Symbol : Type} (size : Symbol → Nat)

def width : List Symbol → Nat
  | [] => 0
  | first :: text => size first + width text

/-- Split a text at an offset, which has to lie between two symbols. -/
def split : List Symbol → Nat → Option (List Symbol × List Symbol)
  | text, 0 => some ([], text)
  | [], _ + 1 => none
  | first :: text, offset + 1 =>
      if size first ≤ offset + 1 then
        (split text (offset + 1 - size first)).map fun parts => (first :: parts.1, parts.2)
      else none

/-- The text from an offset on. -/
def slice (text : List Symbol) (start : Nat) : Option (List Symbol) :=
  (split size text start).map Prod.snd

def replaceRange (text : List Symbol) (start stop : Nat) (replacement : List Symbol) :
    Option (List Symbol) :=
  if start ≤ stop then
    match split size text start, split size text stop with
    | some (before, _), some (_, after) => some (before ++ replacement ++ after)
    | _, _ => none
  else none

/-- The symbols of a text with the offset of each. -/
def indices : List Symbol → Nat → List (Nat × Symbol)
  | [], _ => []
  | first :: text, offset => (offset, first) :: indices text (offset + size first)

/-- The offset of the symbol of a number, or the width of the text. -/
def nth (text : List Symbol) (number : Nat) : Nat :=
  ((indices size text 0)[number]?.map Prod.fst).getD (width size text)

def find [DecidableEq Symbol] (pattern : List Symbol) : List Symbol → Option Nat
  | [] => if pattern = [] then some 0 else none
  | first :: text =>
      if pattern <+: first :: text then some 0
      else (find pattern text).map (size first + ·)

/-- What lies before the first place of a kind, and what begins there. -/
def seek (here : List Symbol → Bool) : List Symbol → Option (List Symbol × List Symbol)
  | [] => if here [] then some ([], []) else none
  | first :: text =>
      if here (first :: text) then some ([], first :: text)
      else (seek here text).map fun parts => (first :: parts.1, parts.2)

end

section

variable {Symbol : Type} {size : Symbol → Nat} {before after text : List Symbol}
  {here : List Symbol → Bool}

@[simp] theorem width_nil : width size [] = 0 := rfl

@[simp] theorem width_cons (first : Symbol) (text : List Symbol) :
    width size (first :: text) = size first + width size text := rfl

@[simp] theorem width_append (before after : List Symbol) :
    width size (before ++ after) = width size before + width size after := by
  induction before with
  | nil => rw [List.nil_append, width_nil, Nat.zero_add]
  | cons first before ih => rw [List.cons_append, width_cons, width_cons, ih, Nat.add_assoc]

theorem split_append (positive : ∀ symbol, 0 < size symbol) (before after : List Symbol) :
    split size (before ++ after) (width size before) = some (before, after) := by
  induction before with
  | nil => cases after <;> rfl
  | cons first before ih =>
      have some' := positive first
      obtain ⟨offset, offsetEq⟩ : ∃ offset, width size (first :: before) = offset + 1 :=
        ⟨width size (first :: before) - 1, by rw [width_cons]; omega⟩
      have rest : offset + 1 - size first = width size before := by
        rw [← offsetEq, width_cons]
        omega
      have fits : size first ≤ offset + 1 := by
        rw [← offsetEq, width_cons]
        omega
      rw [offsetEq, List.cons_append, split, if_pos fits, rest, ih]
      rfl

theorem slice_append (positive : ∀ symbol, 0 < size symbol) (before after : List Symbol) :
    slice size (before ++ after) (width size before) = some after := by
  rw [slice, split_append positive]
  rfl

/-- A part between two offsets is replaced. -/
theorem replaceRange_append (positive : ∀ symbol, 0 < size symbol)
    (before part after replacement : List Symbol) :
    replaceRange size (before ++ (part ++ after)) (width size before)
        (width size before + width size part) replacement =
      some (before ++ replacement ++ after) := by
  have whole := split_append positive (before ++ part) after
  rw [List.append_assoc, width_append] at whole
  rw [replaceRange, if_pos (Nat.le_add_right _ _), split_append positive, whole]

theorem replaceRange_eq_none {start stop : Nat} (crossed : stop < start)
    (replacement : List Symbol) : replaceRange size text start stop replacement = none :=
  if_neg (Nat.not_le.mpr crossed)

theorem indices_getElem? (text : List Symbol) (offset number : Nat) :
    (indices size text offset)[number]? =
      (text[number]?).map fun symbol => (offset + width size (text.take number), symbol) := by
  induction text generalizing offset number with
  | nil => simp [indices]
  | cons first text ih =>
      cases number with
      | zero => simp [indices]
      | succ number => simp [indices, ih, Nat.add_assoc]

theorem nth_eq (text : List Symbol) (number : Nat) :
    nth size text number = width size (text.take number) := by
  rw [nth, indices_getElem?]
  cases found : text[number]? with
  | some symbol => simp
  | none =>
      rw [List.take_of_length_le (List.getElem?_eq_none_iff.mp found)]
      simp

/-- The offset behind the symbols that go before the first one of another kind. -/
theorem nth_takeWhile (run : Symbol → Bool) (text : List Symbol) :
    nth size text (text.takeWhile run).length = width size (text.takeWhile run) := by
  rw [nth_eq, ← List.prefix_iff_eq_take.mp (List.takeWhile_prefix run)]

theorem seek_eq_some (found : seek here text = some (before, after)) :
    text = before ++ after ∧ here after = true ∧
      ∀ front back, before = front ++ back → back ≠ [] → here (back ++ after) = false := by
  induction text generalizing before with
  | nil =>
      simp only [seek] at found
      split at found
      · rename_i holds
        cases found
        refine ⟨rfl, holds, fun front back nothing some' => ?_⟩
        exact absurd (List.append_eq_nil_iff.mp nothing.symm).2 some'
      · cases found
  | cons first text ih =>
      simp only [seek] at found
      split at found
      · rename_i holds
        cases found
        refine ⟨rfl, holds, fun front back nothing some' => ?_⟩
        exact absurd (List.append_eq_nil_iff.mp nothing.symm).2 some'
      · rename_i not_here
        obtain ⟨parts, rest, same⟩ := Option.map_eq_some_iff.mp found
        obtain ⟨rfl, rfl⟩ := Prod.mk.inj same
        obtain ⟨whole, holds, earlier⟩ := ih rest
        refine ⟨by rw [whole, List.cons_append], holds, fun front back equal some' => ?_⟩
        cases front with
        | nil =>
            rw [List.nil_append] at equal
            rw [← equal, List.cons_append, ← whole]
            simpa using not_here
        | cons other front =>
            exact earlier front back (List.cons.inj equal).2 some'

theorem seek_eq_none (missing : seek here text = none) (before after : List Symbol)
    (split : text = before ++ after) : here after = false := by
  induction text generalizing before with
  | nil =>
      obtain ⟨rfl, rfl⟩ := List.append_eq_nil_iff.mp split.symm
      simp only [seek] at missing
      split at missing
      · cases missing
      · rename_i absent
        simpa using absent
  | cons first text ih =>
      simp only [seek] at missing
      split at missing
      · cases missing
      · rename_i not_here
        rw [Option.map_eq_none_iff] at missing
        cases before with
        | nil =>
            rw [List.nil_append] at split
            rw [← split]
            simpa using not_here
        | cons other before =>
            exact ih missing before (List.cons.inj split).2

/-- A place before which no other one is to be found is the one that a search finds. -/
theorem seek_of_least {front rest : List Symbol} (whole : text = front ++ rest)
    (holds : here rest = true)
    (least : ∀ front' rest', text = front' ++ rest' → here rest' = true →
      front.length ≤ front'.length) : seek here text = some (front, rest) := by
  cases found : seek here text with
  | none =>
      rw [seek_eq_none found front rest whole] at holds
      cases holds
  | some parts =>
      obtain ⟨before, after⟩ := parts
      obtain ⟨split, there, earlier⟩ := seek_eq_some found
      have later := least before after split there
      obtain ⟨back, rfl, same⟩ : ∃ back, before = front ++ back ∧ rest = back ++ after := by
        rcases List.append_eq_append_iff.mp (whole.symm.trans split) with inner | ⟨back, rfl, same⟩
        · exact inner
        · have nothing : back = [] := by
            rw [List.length_append] at later
            exact List.length_eq_zero_iff.mp (by omega)
          exact ⟨[], by simp [nothing], by simp [same, nothing]⟩
      by_cases nothing : back = []
      · simp [nothing, same]
      · have absent := earlier front back rfl nothing
        rw [← same, holds] at absent
        cases absent

/-- Searching gives the offset of the first place where the pattern begins. -/
theorem find_eq [DecidableEq Symbol] (pattern text : List Symbol) :
    find size pattern text =
      (seek (fun rest => decide (pattern <+: rest)) text).map fun parts => width size parts.1 := by
  induction text with
  | nil =>
      by_cases empty : pattern = []
      · simp [find, seek, empty]
      · simp [find, seek, empty]
  | cons first text ih =>
      by_cases begins : pattern <+: first :: text
      · simp [find, seek, begins]
      · simp only [find, seek, begins, if_false, decide_false, Bool.false_eq_true, ih,
          Option.map_map]
        congr 1

/-- The same in a copy whose symbols have the sizes of the text's. -/
theorem find_map [DecidableEq Symbol] {change : Symbol → Symbol}
    (sized : ∀ symbol, size (change symbol) = size symbol) (pattern text : List Symbol) :
    find size pattern (text.map change) =
      (seek (fun rest => decide (pattern <+: rest.map change)) text).map
        fun parts => width size parts.1 := by
  induction text with
  | nil =>
      by_cases empty : pattern = []
      · simp [find, seek, empty]
      · simp [find, seek, empty]
  | cons first text ih =>
      rw [List.map_cons]
      by_cases begins : pattern <+: change first :: text.map change
      · simp [find, seek, begins]
      · simp only [find, seek, List.map_cons, begins, if_false, decide_false, Bool.false_eq_true,
          ih, Option.map_map, sized]
        congr 1

end

end Offsets
