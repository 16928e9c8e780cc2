/-! Tables with a primary key, as lists of rows in order of insertion. -/

set_option autoImplicit false

namespace Table

variable {Key Row : Type} [DecidableEq Key] (key : Row → Key)

/-- The row stored under a key. -/
def lookup (wanted : Key) (rows : List Row) : Option Row :=
  rows.find? fun row => decide (key row = wanted)

/-- Insert a row, or merge it into the row that has its key. -/
def upsert (merge : Row → Row → Row) (row : Row) : List Row → List Row
  | [] => [row]
  | current :: rows =>
      if key current = key row then merge current row :: rows
      else current :: upsert merge row rows

/-- Change every row that a predicate selects. -/
def update (selects : Row → Bool) (change : Row → Row) (rows : List Row) : List Row :=
  rows.map fun row => if selects row then change row else row

variable {key} {merge : Row → Row → Row}

theorem lookup_key {wanted : Key} {rows : List Row} {row : Row}
    (found : lookup key wanted rows = some row) : key row = wanted := by
  simpa using List.find?_some found

theorem lookup_mem {wanted : Key} {rows : List Row} {row : Row}
    (found : lookup key wanted rows = some row) : row ∈ rows :=
  List.mem_of_find?_eq_some found

theorem lookup_upsert_same (keeps : ∀ current row, key current = key row →
      key (merge current row) = key row) (row : Row) (rows : List Row) :
    lookup key (key row) (upsert key merge row rows) =
      some (match lookup key (key row) rows with
        | some current => merge current row
        | none => row) := by
  induction rows with
  | nil => simp [lookup, upsert]
  | cons current rows ih =>
      by_cases same : key current = key row
      · simp [lookup, upsert, same, keeps current row same]
      · simpa [lookup, upsert, same] using ih

theorem lookup_upsert_other (keeps : ∀ current row, key current = key row →
      key (merge current row) = key row) {wanted : Key} {row : Row}
    (different : key row ≠ wanted) (rows : List Row) :
    lookup key wanted (upsert key merge row rows) = lookup key wanted rows := by
  induction rows with
  | nil => simp [lookup, upsert, different]
  | cons current rows ih =>
      by_cases same : key current = key row
      · simp [lookup, upsert, same, keeps current row same, different]
      · by_cases hit : key current = wanted
        · have other : wanted ≠ key row := fun equal => different equal.symm
          simp [lookup, upsert, hit, other]
        · simpa [lookup, upsert, same, hit] using ih

/-- The keys of a table after an upsert. -/
theorem keys_upsert (keeps : ∀ current row, key current = key row →
      key (merge current row) = key row) (row : Row) (rows : List Row) :
    (upsert key merge row rows).map key =
      if key row ∈ rows.map key then rows.map key else rows.map key ++ [key row] := by
  induction rows with
  | nil => simp [upsert]
  | cons current rows ih =>
      by_cases same : key current = key row
      · simp [upsert, same, keeps current row same]
      · have other : key row ≠ key current := fun equal => same equal.symm
        simp only [upsert, same, if_false, List.map_cons, ih, List.mem_cons, other, false_or]
        split <;> simp

/-- Primary keys stay unique. -/
theorem nodup_upsert (keeps : ∀ current row, key current = key row →
      key (merge current row) = key row) (row : Row) {rows : List Row}
    (unique : (rows.map key).Nodup) : ((upsert key merge row rows).map key).Nodup := by
  rw [keys_upsert keeps]
  split
  · exact unique
  · rename_i absent
    rw [List.nodup_append]
    refine ⟨unique, by simp, ?_⟩
    intro old member new fresh
    rw [List.mem_singleton] at fresh
    intro equal
    exact absent (fresh ▸ equal ▸ member)

theorem lookup_of_mem {rows : List Row} {row : Row} (unique : (rows.map key).Nodup)
    (member : row ∈ rows) : lookup key (key row) rows = some row := by
  induction rows with
  | nil => cases member
  | cons current rows ih =>
      simp only [List.map_cons, List.nodup_cons] at unique
      rcases List.mem_cons.mp member with head | rest
      · simp [lookup, head]
      · have different : key current ≠ key row := by
          intro equal
          exact unique.1 (equal ▸ List.mem_map_of_mem rest)
        simpa [lookup, different] using ih unique.2 rest

theorem lookup_update {wanted : Key} {rows : List Row} {selects : Row → Bool}
    {change : Row → Row} (keeps : ∀ row, selects row = true → key (change row) = key row) :
    lookup key wanted (update selects change rows) =
      (lookup key wanted rows).map fun row => if selects row then change row else row := by
  induction rows with
  | nil => rfl
  | cons current rows ih =>
      have same : key (if selects current then change current else current) = key current := by
        split
        · rename_i selected
          exact keeps current selected
        · rfl
      by_cases hit : key current = wanted
      · simp [lookup, update, same, hit]
      · simpa [lookup, update, same, hit] using ih

omit [DecidableEq Key] in
/-- Changing rows without their keys keeps the keys. -/
theorem keys_update {rows : List Row} {selects : Row → Bool} {change : Row → Row}
    (keeps : ∀ row, selects row = true → key (change row) = key row) :
    (update selects change rows).map key = rows.map key := by
  rw [update, List.map_map]
  refine List.map_congr_left fun row _ => ?_
  simp only [Function.comp_apply]
  split
  · rename_i selected
    exact keeps row selected
  · rfl

end Table
