/-! Encodings that end where the encoded value ends: in front of any suffix the
value and the suffix can be told apart. -/

set_option autoImplicit false

namespace Encoding

variable {Value Symbol : Type}

/-- Two values of a domain that are encoded in front of suffixes to one text are
equal, and so are the suffixes. -/
def SelfDelimiting (domain : Value → Prop) (encode : Value → List Symbol) : Prop :=
  ∀ {first second}, domain first → domain second → ∀ {rest rest' : List Symbol},
    encode first ++ rest = encode second ++ rest' → first = second ∧ rest = rest'

namespace SelfDelimiting

variable {domain : Value → Prop} {encode : Value → List Symbol}

/-- Encodings of one length are self-delimiting when no two values share one. -/
theorem of_length {size : Nat} (sized : ∀ value, (encode value).length = size)
    (injective : ∀ {first second}, domain first → domain second →
      encode first = encode second → first = second) :
    SelfDelimiting domain encode := by
  intro first second inFirst inSecond rest rest' same
  have lengths : (encode first).length = (encode second).length := by
    rw [sized, sized]
  obtain ⟨heads, tails⟩ := List.append_inj same lengths
  exact ⟨injective inFirst inSecond heads, tails⟩

/-- A text behind a self-delimiting header that holds its length. -/
theorem prefixed {header : Nat → List Symbol} {fits : Nat → Prop}
    (delimits : SelfDelimiting fits header) :
    SelfDelimiting (fun text : List Symbol => fits text.length)
      fun text => header text.length ++ text := by
  intro first second fitsFirst fitsSecond rest rest' same
  simp only [List.append_assoc] at same
  obtain ⟨lengths, texts⟩ := delimits fitsFirst fitsSecond same
  exact List.append_inj texts lengths

/-- Encode a part of the value that determines the value. -/
theorem comap {Part : Type} {inner : Part → Prop} {write : Part → List Symbol}
    (delimits : SelfDelimiting inner write) {part : Value → Part}
    (injective : ∀ {first second}, part first = part second → first = second) :
    SelfDelimiting (fun value => inner (part value)) fun value => write (part value) := by
  intro first second inFirst inSecond rest rest' same
  obtain ⟨parts, rests⟩ := delimits inFirst inSecond same
  exact ⟨injective parts, rests⟩

/-- Two lists of one length, element by element. -/
theorem flatMap (delimits : SelfDelimiting domain encode) {first second : List Value}
    (lengths : first.length = second.length) (inFirst : ∀ value ∈ first, domain value)
    (inSecond : ∀ value ∈ second, domain value) {rest rest' : List Symbol}
    (same : first.flatMap encode ++ rest = second.flatMap encode ++ rest') :
    first = second ∧ rest = rest' := by
  induction first generalizing second with
  | nil =>
      obtain rfl : second = [] := List.length_eq_zero_iff.mp lengths.symm
      exact ⟨rfl, by simpa using same⟩
  | cons value values ih =>
      cases second with
      | nil => simp at lengths
      | cons other others =>
          simp only [List.flatMap_cons, List.append_assoc] at same
          obtain ⟨heads, tails⟩ := delimits (inFirst value List.mem_cons_self)
            (inSecond other List.mem_cons_self) same
          obtain ⟨values_eq, rests⟩ := ih (by simpa using lengths)
            (fun value member => inFirst value (List.mem_cons_of_mem _ member))
            (fun value member => inSecond value (List.mem_cons_of_mem _ member)) tails
          exact ⟨by rw [heads, values_eq], rests⟩

/-- A list behind a self-delimiting header that holds its length. -/
theorem counted {header : Nat → List Symbol} {fits : Nat → Prop}
    (heads : SelfDelimiting fits header) (delimits : SelfDelimiting domain encode) :
    SelfDelimiting
      (fun values : List Value => fits values.length ∧ ∀ value ∈ values, domain value)
      fun values => header values.length ++ values.flatMap encode := by
  intro first second inFirst inSecond rest rest' same
  simp only [List.append_assoc] at same
  obtain ⟨lengths, texts⟩ := heads inFirst.1 inSecond.1 same
  exact delimits.flatMap lengths inFirst.2 inSecond.2 texts

/-- A list behind whose elements stands a mark with which none of them begins. -/
theorem terminated (delimits : SelfDelimiting domain encode) {mark : Symbol}
    (begins : ∀ value, domain value →
      ∃ symbol text, encode value = symbol :: text ∧ symbol ≠ mark) :
    SelfDelimiting (fun values : List Value => ∀ value ∈ values, domain value)
      fun values => values.flatMap encode ++ [mark] := by
  intro first second inFirst inSecond rest rest' same
  simp only [List.append_assoc, List.singleton_append] at same
  induction first generalizing second with
  | nil =>
      cases second with
      | nil => exact ⟨rfl, (List.cons.inj same).2⟩
      | cons value values =>
          obtain ⟨symbol, text, written, other⟩ := begins value (inSecond value List.mem_cons_self)
          rw [List.flatMap_cons, written] at same
          exact absurd (List.cons.inj same).1.symm other
  | cons value values ih =>
      cases second with
      | nil =>
          obtain ⟨symbol, text, written, other⟩ := begins value (inFirst value List.mem_cons_self)
          rw [List.flatMap_cons, written] at same
          exact absurd (List.cons.inj same).1 other
      | cons value' values' =>
          simp only [List.flatMap_cons, List.append_assoc] at same
          obtain ⟨rfl, tails⟩ := delimits (inFirst value List.mem_cons_self)
            (inSecond value' List.mem_cons_self) same
          obtain ⟨rfl, rests⟩ := ih
            (fun other member => inFirst other (List.mem_cons_of_mem _ member))
            (fun other member => inSecond other (List.mem_cons_of_mem _ member)) tails
          exact ⟨rfl, rests⟩

end SelfDelimiting

end Encoding
