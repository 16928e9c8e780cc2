import OpsCodex.Encoding.SelfDelimiting

/-! Texts in which names are written, and how far one reads the same with other names. -/

set_option autoImplicit false

open Encoding

/-- A piece of a text: symbols as they stand, or a name. -/
inductive Piece (Symbol Name : Type) where
  | plain (symbols : List Symbol)
  | name (own : Name)

namespace Piece

variable {Symbol Name : Type}

def rename (rename : Name → Name) : Piece Symbol Name → Piece Symbol Name
  | .plain symbols => .plain symbols
  | .name own => .name (rename own)

section

variable (code : Name → List Symbol)

def text : Piece Symbol Name → List Symbol
  | .plain symbols => symbols
  | .name own => code own

def textOf (pieces : List (Piece Symbol Name)) : List Symbol := pieces.flatMap (Piece.text code)

/-- The names that are written within a number of symbols, each with the room from where it
begins. -/
def places : Nat → List (Piece Symbol Name) → List (Name × Nat)
  | _, [] => []
  | room, .plain symbols :: pieces => places (room - symbols.length) pieces
  | room, .name own :: pieces => (own, room) :: places (room - (code own).length) pieces

end

/-- Beginnings of two texts are equal if they are equal in front, unless they differ there. -/
theorem take_append_iff {left right more more' : List Symbol}
    (apart : left <+: right ∨ right <+: left → left = right) (room : Nat) :
    (left ++ more).take room = (right ++ more').take room ↔
      left.take room = right.take room ∧
        more.take (room - right.length) = more'.take (room - right.length) := by
  by_cases equal : left = right
  · subst equal
    rw [List.take_append, List.take_append, List.append_cancel_left_eq, and_iff_right rfl]
  · have beyond {text : List Symbol} (begins : left <+: text) (begins' : right <+: text) :
        False := equal (apart (List.prefix_or_prefix_of_prefix begins begins'))
    constructor
    · intro same
      have short : room < left.length := Nat.lt_of_not_le fun long => by
        have inside := List.prefix_take_iff.mpr ⟨List.prefix_append left more, long⟩
        rw [same] at inside
        exact beyond (List.prefix_take_iff.mp inside).1 (List.prefix_append right more')
      have short' : room < right.length := Nat.lt_of_not_le fun long => by
        have inside := List.prefix_take_iff.mpr ⟨List.prefix_append right more', long⟩
        rw [← same] at inside
        exact beyond (List.prefix_append left more) (List.prefix_take_iff.mp inside).1
      rw [List.take_append_of_le_length (Nat.le_of_lt short),
        List.take_append_of_le_length (Nat.le_of_lt short')] at same
      rw [Nat.sub_eq_zero_of_le (Nat.le_of_lt short'), List.take_zero, List.take_zero]
      exact ⟨same, rfl⟩
    · intro ⟨same, _⟩
      have short : room < left.length := Nat.lt_of_not_le fun long => by
        rw [List.take_of_length_le long] at same
        refine beyond ?_ (List.prefix_refl right)
        rw [same]
        exact List.take_prefix room right
      have short' : room < right.length := Nat.lt_of_not_le fun long => by
        have whole := same.trans (List.take_of_length_le long)
        refine beyond (List.prefix_refl left) ?_
        rw [← whole]
        exact List.take_prefix room left
      rw [List.take_append_of_le_length (Nat.le_of_lt short),
        List.take_append_of_le_length (Nat.le_of_lt short'), same]

variable {code : Name → List Symbol}

/-- A text begins as it would with other names just where each name does that is written so
far. -/
theorem take_textOf_rename_iff (delimits : SelfDelimiting (fun _ => True) code)
    (other : Name → Name) (pieces : List (Piece Symbol Name)) (room : Nat) :
    (textOf code (pieces.map (rename other))).take room = (textOf code pieces).take room ↔
      ∀ place ∈ places code room pieces,
        (code (other place.1)).take place.2 = (code place.1).take place.2 := by
  induction pieces generalizing room with
  | nil => exact iff_of_true rfl fun place member => absurd member List.not_mem_nil
  | cons piece pieces ih =>
      rw [List.map_cons, textOf, textOf, List.flatMap_cons, List.flatMap_cons, ← textOf, ← textOf]
      cases piece with
      | plain symbols =>
          rw [rename, text, take_append_iff (fun _ => rfl), and_iff_right rfl, ih, places]
      | name own =>
          have apart : code (other own) <+: code own ∨ code own <+: code (other own) →
              code (other own) = code own := by
            intro begins
            rcases begins with ⟨more, same⟩ | ⟨more, same⟩
            · exact congrArg code (delimits trivial trivial (same.trans (List.append_nil _).symm)).1
            · exact congrArg code
                (delimits trivial trivial (same.trans (List.append_nil _).symm)).1.symm
          rw [rename, text, text, take_append_iff apart, ih, places, List.forall_mem_cons]

end Piece
