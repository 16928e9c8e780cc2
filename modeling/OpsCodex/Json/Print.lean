import OpsCodex.Json
import OpsCodex.Sequence.Pieces

/-! The compact text of JSON values, as it is printed. -/

set_option autoImplicit false

namespace OpsCodex.Json

open Encoding

/-- A character of a string, as it is written between the quotes. -/
def escape (char : Char) : List Char :=
  if char = '"' then ['\\', '"']
  else if char = '\\' then ['\\', '\\']
  else if char.toNat = 8 then ['\\', 'b']
  else if char = '\t' then ['\\', 't']
  else if char = '\n' then ['\\', 'n']
  else if char.toNat = 12 then ['\\', 'f']
  else if char = '\r' then ['\\', 'r']
  else if char.toNat < 32 then
    ['\\', 'u', '0', '0', Nat.digitChar (char.toNat / 16), Nat.digitChar (char.toNat % 16)]
  else [char]

def quote (text : String) : List Char := '"' :: (text.toList.flatMap escape ++ ['"'])

def Number.print : Number → List Char
  | .posInt value => (toString value).toList
  | .negInt value => (toString value).toList
  | .float text => text.toList

def comma (first : Bool) : List Char := if first then [] else [',']

mutual

/-- The text of a value in pieces, with its keys as names. -/
def Value.pieces : Value → List (Piece Char String)
  | .null => [.plain "null".toList]
  | .bool value => [.plain (if value then "true" else "false").toList]
  | .number value => [.plain value.print]
  | .string text => [.plain (quote text)]
  | .array items => .plain ['['] :: (itemPieces true items ++ [.plain [']']])
  | .object fields => .plain ['{'] :: (fieldPieces true fields ++ [.plain ['}']])

def itemPieces : Bool → List Value → List (Piece Char String)
  | _, [] => []
  | first, item :: items => .plain (comma first) :: (item.pieces ++ itemPieces false items)

def fieldPieces : Bool → List (String × Value) → List (Piece Char String)
  | _, [] => []
  | first, (key, value) :: fields =>
      .plain (comma first) :: .name key :: .plain [':'] ::
        (value.pieces ++ fieldPieces false fields)

end

def Value.print (value : Value) : List Char := Piece.textOf quote value.pieces

/-- The characters of a string that are not written as they are. -/
def escaped : List Char := '"' :: '\\' :: (List.range 32).map Char.ofNat

theorem escape_cases (char : Char) :
    char ∈ escaped ∨ escape char = [char] ∧ char ≠ '\\' ∧ char ≠ '"' := by
  by_cases control : char.toNat < 32
  · refine .inl (List.mem_cons_of_mem _ (List.mem_cons_of_mem _ (List.mem_map.mpr ?_)))
    exact ⟨char.toNat, List.mem_range.mpr control, Char.ofNat_toNat char⟩
  · by_cases mark : char = '"' ∨ char = '\\'
    · rcases mark with rfl | rfl
      · exact .inl List.mem_cons_self
      · exact .inl (List.mem_cons_of_mem _ List.mem_cons_self)
    · have above : 32 ≤ char.toNat := Nat.le_of_not_lt control
      obtain ⟨plain, plain'⟩ := not_or.mp mark
      refine .inr ⟨?_, plain', plain⟩
      have tab : char ≠ '\t' := by
        rintro rfl
        exact absurd above (by decide)
      have newline : char ≠ '\n' := by
        rintro rfl
        exact absurd above (by decide)
      have feed : char ≠ '\r' := by
        rintro rfl
        exact absurd above (by decide)
      unfold escape
      rw [if_neg plain, if_neg plain', if_neg (by omega), if_neg tab, if_neg newline,
        if_neg (by omega), if_neg feed, if_neg control]

theorem escape_begins {char : Char} (special : char ∈ escaped) :
    (escape char).head? = some '\\' := by
  have each : (escaped.all fun char => (escape char).head? == some '\\') = true := by
    decide +kernel
  exact eq_of_beq (List.all_eq_true.mp each char special)

theorem escape_apart {first second : Char} (special : first ∈ escaped)
    (special' : second ∈ escaped) (begins : escape first <+: escape second) : first = second := by
  have each : (escaped.all fun first => escaped.all fun second =>
      !(escape first).isPrefixOf (escape second) || first == second) = true := by decide +kernel
  have own := List.all_eq_true.mp (List.all_eq_true.mp each first special) second special'
  rw [List.isPrefixOf_iff_prefix.mpr begins] at own
  exact eq_of_beq own

theorem escape_delimits : SelfDelimiting (fun _ => True) escape := by
  intro first second _ _ rest rest' same
  suffices equal : first = second by
    subst equal
    exact ⟨rfl, List.append_cancel_left same⟩
  have mixed {char other : Char} {rest rest' : List Char} (special : char ∈ escaped)
      (plain : other ≠ '\\') (same : escape char ++ rest = other :: rest') : False := by
    obtain ⟨text, written⟩ := List.head?_eq_some_iff.mp (escape_begins special)
    rw [written] at same
    exact plain (List.cons.inj same).1.symm
  rcases escape_cases first with special | ⟨written, plain, -⟩
  · rcases escape_cases second with special' | ⟨written', plain', -⟩
    · rcases List.prefix_or_prefix_of_prefix (List.prefix_append (escape first) rest)
        ⟨rest', same.symm⟩ with shorter | longer
      · exact escape_apart special special' shorter
      · exact (escape_apart special' special longer).symm
    · rw [written'] at same
      exact (mixed special plain' same).elim
  · rcases escape_cases second with special' | ⟨written', -, -⟩
    · rw [written] at same
      exact (mixed special' plain same.symm).elim
    · rw [written, written'] at same
      exact (List.cons.inj same).1

/-- A quoted string ends at its closing quote. -/
theorem quote_delimits : SelfDelimiting (fun _ => True) quote := by
  intro first second _ _ rest rest' same
  have begins : ∀ char, True → ∃ symbol text, escape char = symbol :: text ∧ symbol ≠ '"' := by
    intro char _
    rcases escape_cases char with special | ⟨written, -, plain⟩
    · obtain ⟨text, written⟩ := List.head?_eq_some_iff.mp (escape_begins special)
      exact ⟨'\\', text, written, by decide⟩
    · exact ⟨char, [], written, plain⟩
  obtain ⟨equal, rests⟩ := (escape_delimits.terminated begins) (fun _ _ => trivial)
    (fun _ _ => trivial) (List.cons.inj same).2
  exact ⟨String.toList_injective equal, rests⟩

end OpsCodex.Json
