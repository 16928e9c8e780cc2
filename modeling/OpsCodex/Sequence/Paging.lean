import Mathlib.Data.List.Sort

/-! Reading a growing sequence page by page. Items carry increasing keys; a page is what
stands behind a cursor, cut at a limit, and the cursor of the next page is the key of the
last item read. -/

set_option autoImplicit false

namespace Paging

variable {Item : Type} (key : Item → Nat)

/-- The items behind a cursor that are wanted, at most `limit` of them but one at least. -/
def page (wants : Item → Bool) (limit : Option Nat) (after : Nat) (log : List Item) :
    List Item :=
  let found := (log.filter fun item => decide (after < key item)).filter wants
  match limit with
  | some limit => found.take (max limit 1)
  | none => found

/-- Where the next page begins. -/
def cursor (collected : List Item) : Nat := (collected.getLast?.map key).getD 0

/-- The keys of a log increase from one on. -/
structure Ordered (log : List Item) : Prop where
  increasing : log.Pairwise fun first second => key first < key second
  positive : ∀ item ∈ log, 0 < key item

variable {key} {wants : Item → Bool} {log collected rest : List Item}

theorem Ordered.filter (ordered : Ordered key log) : Ordered key (log.filter wants) :=
  ⟨ordered.increasing.filter _,
    fun item member => ordered.positive item (List.mem_of_mem_filter member)⟩

/-- Behind the last item read there is exactly what has not been read. -/
theorem filter_cursor (ordered : Ordered key (collected ++ rest)) :
    (collected ++ rest).filter (fun item => decide (cursor key collected < key item)) = rest := by
  have early : ∀ item ∈ collected, key item ≤ cursor key collected := by
    intro item member
    unfold cursor
    cases last : collected.getLast? with
    | none =>
        rw [List.getLast?_eq_none_iff.mp last] at member
        cases member
    | some final =>
        obtain ⟨front, rfl⟩ := List.getLast?_eq_some_iff.mp last
        obtain before | same := List.mem_append.mp member
        · have increasing := (List.pairwise_append.mp ordered.increasing).1
          exact Nat.le_of_lt ((List.pairwise_append.mp increasing).2.2 item before final
            List.mem_cons_self)
        · obtain rfl := List.mem_singleton.mp same
          exact Nat.le_refl _
  have late : ∀ item ∈ rest, cursor key collected < key item := by
    intro item member
    unfold cursor
    cases last : collected.getLast? with
    | none => exact ordered.positive item (List.mem_append_right _ member)
    | some final =>
        have read := List.mem_of_getLast? last
        exact (List.pairwise_append.mp ordered.increasing).2.2 final read item member
  rw [List.filter_append, List.filter_eq_nil_iff.mpr, List.filter_eq_self.mpr, List.nil_append]
  · exact fun item member => decide_eq_true (late item member)
  · intro item member
    simpa using early item member

/-- A page is the beginning of what has not been read. -/
theorem page_eq (ordered : Ordered key log) (split : log.filter wants = collected ++ rest)
    (limit : Option Nat) :
    page key wants limit (cursor key collected) log =
      match limit with
      | some limit => rest.take (max limit 1)
      | none => rest := by
  have found : (log.filter fun item => decide (cursor key collected < key item)).filter wants =
      rest := by
    rw [List.filter_comm, split]
    exact filter_cursor (split ▸ ordered.filter)
  unfold page
  dsimp only
  rw [found]

/-- After one more page what is read is still a beginning of what is wanted. -/
theorem page_prefix (ordered : Ordered key log) (known : collected <+: log.filter wants)
    (limit : Option Nat) :
    collected ++ page key wants limit (cursor key collected) log <+: log.filter wants := by
  obtain ⟨rest, split⟩ := known
  rw [page_eq ordered split.symm]
  cases limit with
  | none => exact split ▸ List.prefix_refl _
  | some limit =>
      rw [← split]
      exact (List.prefix_append_right_inj collected).mpr (List.take_prefix _ _)

/-- An empty page says that everything wanted has been read. -/
theorem eq_of_page_nil (ordered : Ordered key log) (known : collected <+: log.filter wants)
    {limit : Option Nat} (empty : page key wants limit (cursor key collected) log = []) :
    collected = log.filter wants := by
  obtain ⟨rest, split⟩ := known
  rw [page_eq ordered split.symm] at empty
  have done : rest = [] := by
    cases limit with
    | none => exact empty
    | some limit =>
        obtain none | done := List.take_eq_nil_iff.mp empty
        · omega
        · exact done
  rw [← split, done, List.append_nil]

/-- What was read of a log is a beginning of what is wanted of a longer one. -/
theorem prefix_of_grown {grown : List Item} (known : collected <+: log.filter wants)
    (later : log <+: grown) : collected <+: grown.filter wants := by
  obtain ⟨added, rfl⟩ := later
  rw [List.filter_append]
  exact known.trans (List.prefix_append _ _)

end Paging
