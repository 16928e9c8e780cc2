/-! Texts made of records that a separator terminates, and of an unterminated
tail. -/

set_option autoImplicit false

namespace Framing

variable {Symbol : Type} [DecidableEq Symbol] (separator : Symbol)

/-- Where the last separator stands. -/
def rposition : List Symbol → Option Nat
  | [] => none
  | symbol :: text =>
      match rposition text with
      | some position => some (position + 1)
      | none => if symbol = separator then some 0 else none

/-- How much of a text its terminated records take. -/
def completeLength (text : List Symbol) : Nat :=
  match rposition separator text with
  | some position => position + 1
  | none => 0

def records (text : List Symbol) : List (List Symbol) :=
  if 0 < completeLength separator text then
    (text.take (completeLength separator text - 1)).splitOn separator
  else []

def tail (text : List Symbol) : List Symbol :=
  text.drop (completeLength separator text)

/-- The text of a list of terminated records. -/
def terminated (records : List (List Symbol)) : List Symbol :=
  (records.map (· ++ [separator])).flatten

/-- What a text is made of. -/
structure Framed (text : List Symbol) (records : List (List Symbol)) (tail : List Symbol) :
    Prop where
  text_eq : text = terminated separator records ++ tail
  records_free : ∀ record ∈ records, separator ∉ record
  tail_free : separator ∉ tail

variable {separator}

omit [DecidableEq Symbol] in
theorem terminated_append (first second : List (List Symbol)) :
    terminated separator (first ++ second) =
      terminated separator first ++ terminated separator second := by
  simp [terminated]

omit [DecidableEq Symbol] in
theorem terminated_singleton (record : List Symbol) :
    terminated separator [record] = record ++ [separator] := by
  simp [terminated]

theorem rposition_of_free {text : List Symbol} (free : separator ∉ text) :
    rposition separator text = none := by
  induction text with
  | nil => rfl
  | cons symbol text ih =>
      have later := ih (fun member => free (List.mem_cons_of_mem symbol member))
      have different : symbol ≠ separator := by
        intro same
        exact free (same ▸ List.mem_cons_self)
      simp [rposition, later, different]

theorem rposition_of_last (text : List Symbol) {rest : List Symbol} (free : separator ∉ rest) :
    rposition separator (text ++ separator :: rest) = some text.length := by
  induction text with
  | nil => simp [rposition, rposition_of_free free]
  | cons symbol text ih => simp [rposition, ih]

theorem splitOn_terminated {records : List (List Symbol)} (last : List Symbol)
    (free : ∀ record ∈ records, separator ∉ record) (lastFree : separator ∉ last) :
    (terminated separator records ++ last).splitOn separator = records ++ [last] := by
  induction records with
  | nil => simpa [terminated] using List.splitOn_eq_singleton lastFree
  | cons record records ih =>
      have rest := ih (fun other member => free other (List.mem_cons_of_mem record member))
      have text : terminated separator (record :: records) ++ last =
          record ++ separator :: (terminated separator records ++ last) := by
        simp [terminated]
      rw [text, List.splitOn_append_cons_self, rest,
        List.splitOn_eq_singleton (free record List.mem_cons_self)]
      rfl

namespace Framed

variable {text : List Symbol} {lines : List (List Symbol)} {rest : List Symbol}

theorem completeLength_eq (framed : Framed separator text lines rest) :
    completeLength separator text = (terminated separator lines).length := by
  obtain ⟨rfl, -, free⟩ := framed
  rcases List.eq_nil_or_concat lines with rfl | ⟨earlier, last, rfl⟩
  · simp [completeLength, terminated, rposition_of_free free]
  · have position := rposition_of_last (terminated separator earlier ++ last) free
    simp only [List.concat_eq_append, terminated_append, terminated_singleton,
      List.append_assoc, List.singleton_append, completeLength] at position ⊢
    simp [position]
    omega

/-- A text is made of its records in one way only. -/
theorem records_eq (framed : Framed separator text lines rest) :
    records separator text = lines := by
  have complete := framed.completeLength_eq
  obtain ⟨rfl, recordsFree, -⟩ := framed
  rcases List.eq_nil_or_concat lines with rfl | ⟨earlier, last, rfl⟩
  · have none : completeLength separator rest = 0 := by simpa [terminated] using complete
    simp [records, terminated, none]
  · simp only [List.concat_eq_append] at recordsFree complete ⊢
    have lastFree := recordsFree last (by simp)
    have earlierFree : ∀ record ∈ earlier, separator ∉ record := by
      intro record member
      exact recordsFree record (by simp [member])
    have length : (terminated separator (earlier ++ [last])).length =
        (terminated separator earlier ++ last).length + 1 := by
      simp [terminated_append, terminated_singleton, Nat.add_assoc]
    have taken : (terminated separator (earlier ++ [last]) ++ rest).take
        (completeLength separator (terminated separator (earlier ++ [last]) ++ rest) - 1) =
        terminated separator earlier ++ last := by
      rw [complete, length, terminated_append, terminated_singleton, ← List.append_assoc,
        List.append_assoc, Nat.add_sub_cancel, List.take_left]
    rw [records, if_pos (by omega), taken, splitOn_terminated last earlierFree lastFree]

theorem tail_eq (framed : Framed separator text lines rest) : tail separator text = rest := by
  have complete := framed.completeLength_eq
  obtain ⟨rfl, -, -⟩ := framed
  simp [tail, complete]

omit [DecidableEq Symbol] in
/-- Symbols after the last separator extend the tail. -/
theorem extend (framed : Framed separator text lines rest) {more : List Symbol}
    (free : separator ∉ more) : Framed separator (text ++ more) lines (rest ++ more) where
  text_eq := by simp [framed.text_eq]
  records_free := framed.records_free
  tail_free := by
    simp only [List.mem_append, not_or]
    exact ⟨framed.tail_free, free⟩

omit [DecidableEq Symbol] in
/-- A separator turns the tail into a record. -/
theorem terminate (framed : Framed separator text lines rest) :
    Framed separator (text ++ [separator]) (lines ++ [rest]) [] where
  text_eq := by simp [framed.text_eq, terminated_append, terminated_singleton]
  records_free := by
    intro record member
    rcases List.mem_append.mp member with earlier | last
    · exact framed.records_free record earlier
    · rw [List.mem_singleton.mp last]
      exact framed.tail_free
  tail_free := by simp

/-- Dropping the tail leaves the records. -/
theorem truncate (framed : Framed separator text lines rest) :
    Framed separator (text.take (completeLength separator text)) lines [] where
  text_eq := by
    rw [framed.completeLength_eq, List.append_nil]
    exact (congrArg (List.take _) framed.text_eq).trans List.take_left
  records_free := framed.records_free
  tail_free := by simp

end Framed

/-- Every text is made of its records and its tail. -/
theorem framed (text : List Symbol) :
    Framed separator text (records separator text) (tail separator text) := by
  suffices decomposed : ∃ lines rest, Framed separator text lines rest by
    obtain ⟨lines, rest, framed⟩ := decomposed
    rw [framed.records_eq, framed.tail_eq]
    exact framed
  induction text with
  | nil => exact ⟨[], [], by simp [terminated], by simp, by simp⟩
  | cons symbol text ih =>
      obtain ⟨lines, rest, textEq, recordsFree, tailFree⟩ := ih
      by_cases same : symbol = separator
      · refine ⟨[] :: lines, rest, ?_, ?_, tailFree⟩
        · simp [terminated, same, textEq]
        · simpa using recordsFree
      · have symbolFree : separator ∉ [symbol] := by
          simpa using fun equal : separator = symbol => same equal.symm
        cases lines with
        | nil =>
            refine ⟨[], symbol :: rest, by simp [textEq, terminated], by simp, ?_⟩
            simpa using ⟨fun equal : separator = symbol => same equal.symm, tailFree⟩
        | cons line lines =>
            refine ⟨(symbol :: line) :: lines, rest, by simp [textEq, terminated], ?_, tailFree⟩
            intro record member
            rcases List.mem_cons.mp member with head | rest
            · subst head
              simpa using ⟨fun equal : separator = symbol => same equal.symm,
                recordsFree line List.mem_cons_self⟩
            · exact recordsFree record (List.mem_cons_of_mem line rest)

end Framing
