import OpsCodex.Sequence.Offsets

/-! Operations on strings that several parts of the program use, on lists of characters. -/

set_option autoImplicit false

namespace OpsCodex.Strings

open Offsets

/-- The characters with the property White_Space, which trimming removes. -/
def isWhitespace (ch : Char) : Bool :=
  let code := ch.toNat
  (9 ≤ code && code ≤ 13) || code = 32 || code = 0x85 || code = 0xa0 || code = 0x1680 ||
    (0x2000 ≤ code && code ≤ 0x200a) || code = 0x2028 || code = 0x2029 || code = 0x202f ||
    code = 0x205f || code = 0x3000

def trim (value : List Char) : List Char :=
  ((value.dropWhile isWhitespace).reverse.dropWhile isWhitespace).reverse

/-- The text before the first place of a pattern and the text behind it. -/
def splitOnce (pattern text : List Char) : Option (List Char × List Char) :=
  (seek (fun rest => decide (pattern <+: rest)) text).map fun (before, rest) =>
    (before, rest.drop pattern.length)

def contains (pattern text : List Char) : Bool := (splitOnce pattern text).isSome

def toAsciiLowercase (text : List Char) : List Char := text.map Char.toLower

def eqIgnoreAsciiCase (first second : List Char) : Bool :=
  decide (toAsciiLowercase first = toAsciiLowercase second)

section

variable {separator char : Char} {text before after : List Char}

theorem splitOnce_cons_self (separator : Char) (text : List Char) :
    splitOnce [separator] (separator :: text) = some ([], text) := by
  simp [splitOnce, seek]

theorem splitOnce_cons_of_ne (different : char ≠ separator) (text : List Char) :
    splitOnce [separator] (char :: text) =
      (splitOnce [separator] text).map fun (before, after) => (char :: before, after) := by
  have other : ¬ [separator] <+: char :: text := by
    intro begins
    exact different (List.cons_prefix_cons.mp begins).1.symm
  simp [splitOnce, seek, other, Function.comp_def]

theorem splitOnce_eq_none : splitOnce [separator] text = none ↔ separator ∉ text := by
  induction text with
  | nil => simp [splitOnce, seek]
  | cons char text ih =>
      rw [List.mem_cons, not_or]
      by_cases same : char = separator
      · subst same
        simp [splitOnce_cons_self]
      · rw [splitOnce_cons_of_ne same, Option.map_eq_none_iff, ih]
        simp [Ne.symm same]

theorem splitOnce_cons (different : char ≠ separator)
    (split : splitOnce [separator] (char :: text) = some (before, after)) :
    ∃ rest, before = char :: rest := by
  rw [splitOnce_cons_of_ne different, Option.map_eq_some_iff] at split
  obtain ⟨parts, -, same⟩ := split
  exact ⟨parts.1, (congrArg Prod.fst same).symm⟩

end

end OpsCodex.Strings
