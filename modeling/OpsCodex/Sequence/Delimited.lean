import Mathlib.Data.List.Infix
import OpsCodex.Sequence.Offsets

/-! The first place of a delimiter in a sequence, and the last place of a symbol. -/

set_option autoImplicit false

namespace Delimited

variable {Symbol : Type} {delimiter before after text : List Symbol} {symbol : Symbol}

/-- The delimiter, put behind a sequence, stands nowhere earlier in the two. -/
def FirstAfter (delimiter before : List Symbol) : Prop :=
  ¬ delimiter <:+: before ++ delimiter.dropLast

theorem FirstAfter.not_infix (first : FirstAfter delimiter before) : ¬ delimiter <:+: before :=
  fun inside => first (List.infix_append_of_infix_left inside)

theorem FirstAfter.of_append (first : FirstAfter delimiter (before ++ after)) :
    FirstAfter delimiter after := by
  intro inside
  refine first ?_
  rw [List.append_assoc]
  exact List.infix_append_of_infix_right inside

theorem firstAfter_cons :
    FirstAfter delimiter (symbol :: before) ↔
      ¬ delimiter <+: symbol :: (before ++ delimiter.dropLast) ∧ FirstAfter delimiter before := by
  unfold FirstAfter
  rw [List.cons_append, List.infix_cons_iff, not_or]

theorem firstAfter_nil (nonempty : delimiter ≠ []) : FirstAfter delimiter [] := by
  intro inside
  have short := inside.length_le
  have positive := List.length_pos_iff.mpr nonempty
  rw [List.nil_append, List.length_dropLast] at short
  omega

theorem firstAfter_singleton {before : List Symbol} :
    FirstAfter [symbol] before ↔ symbol ∉ before := by
  rw [FirstAfter, List.dropLast_singleton, List.append_nil, List.singleton_infix_iff]

/-- A delimiter in front of a text that goes on after it reaches no further than itself. -/
theorem prefix_of_append (begins : delimiter <+: symbol :: (before ++ delimiter ++ after)) :
    delimiter <+: symbol :: (before ++ delimiter.dropLast) := by
  have shape : symbol :: (before ++ delimiter ++ after) =
      symbol :: (before ++ delimiter.dropLast) ++
        (delimiter.drop (delimiter.length - 1) ++ after) := by
    rw [List.dropLast_eq_take]
    simp only [List.append_assoc, List.cons_append, ← List.append_assoc (List.take _ _),
      List.take_append_drop]
  rw [shape] at begins
  refine List.prefix_of_prefix_length_le begins (List.prefix_append _ _) ?_
  rw [List.length_cons, List.length_append, List.length_dropLast]
  omega

theorem exists_firstAfter (nonempty : delimiter ≠ []) (inside : delimiter <:+: text) :
    ∃ before after, FirstAfter delimiter before ∧ text = before ++ delimiter ++ after := by
  classical
  induction text with
  | nil => exact absurd (List.infix_nil.mp inside) nonempty
  | cons symbol text ih =>
      by_cases begins : delimiter <+: symbol :: text
      · obtain ⟨after, written⟩ := begins
        exact ⟨[], after, firstAfter_nil nonempty, written.symm⟩
      · obtain ⟨before, after, first, rfl⟩ :=
          ih ((List.infix_cons_iff.mp inside).resolve_left begins)
        refine ⟨symbol :: before, after, firstAfter_cons.mpr ⟨?_, first⟩, rfl⟩
        intro here
        refine begins (here.trans ?_)
        rw [List.append_assoc, List.cons_prefix_cons]
        refine ⟨rfl, ?_⟩
        rw [List.prefix_append_right_inj]
        exact (List.dropLast_prefix delimiter).trans (List.prefix_append _ _)

section

variable [DecidableEq Symbol]

theorem find_of_firstAfter (nonempty : delimiter ≠ []) (first : FirstAfter delimiter before) :
    Offsets.find (fun _ => 1) delimiter (before ++ delimiter ++ after) =
      some before.length := by
  induction before with
  | nil =>
      cases delimiter with
      | nil => exact absurd rfl nonempty
      | cons symbol delimiter =>
          have begins : symbol :: delimiter <+: symbol :: (delimiter ++ after) :=
            List.prefix_append _ _
          rw [List.nil_append, List.cons_append, Offsets.find, if_pos begins]
          rfl
  | cons symbol before ih =>
      obtain ⟨elsewhere, first⟩ := firstAfter_cons.mp first
      rw [List.cons_append, List.cons_append, Offsets.find,
        if_neg fun begins => elsewhere (prefix_of_append begins), ih first, Option.map_some,
        List.length_cons, Nat.add_comm]

theorem find_of_not_infix (missing : ¬ delimiter <:+: text) :
    Offsets.find (fun _ => 1) delimiter text = none := by
  induction text with
  | nil =>
      refine if_neg ?_
      rintro rfl
      exact missing (List.infix_refl _)
  | cons symbol text ih =>
      rw [List.infix_cons_iff, not_or] at missing
      rw [Offsets.find, if_neg missing.1, ih missing.2, Option.map_none]

theorem find_eq_some_iff (nonempty : delimiter ≠ []) {offset : Nat} :
    Offsets.find (fun _ => 1) delimiter text = some offset ↔
      ∃ before after, FirstAfter delimiter before ∧ text = before ++ delimiter ++ after ∧
        offset = before.length := by
  constructor
  · intro found
    by_cases inside : delimiter <:+: text
    · obtain ⟨before, after, first, rfl⟩ := exists_firstAfter nonempty inside
      rw [find_of_firstAfter nonempty first] at found
      exact ⟨before, after, first, rfl, (Option.some.inj found).symm⟩
    · have missing := find_of_not_infix inside
      rw [missing] at found
      cases found
  · rintro ⟨before, after, first, rfl, rfl⟩
    exact find_of_firstAfter nonempty first

/-- The last place of a symbol. -/
def rfind (symbol : Symbol) (text : List Symbol) : Option Nat :=
  (Offsets.find (fun _ => 1) [symbol] text.reverse).map fun back => text.length - 1 - back

theorem rfind_eq_some_iff {offset : Nat} :
    rfind symbol text = some offset ↔
      ∃ before after, symbol ∉ after ∧ text = before ++ symbol :: after ∧
        offset = before.length := by
  have nonempty : [symbol] ≠ [] := List.cons_ne_nil _ _
  unfold rfind
  rw [Option.map_eq_some_iff]
  constructor
  · rintro ⟨back, found, rfl⟩
    obtain ⟨after, before, first, reversed, rfl⟩ := (find_eq_some_iff nonempty).mp found
    have written : text = before.reverse ++ symbol :: after.reverse := by
      rw [← List.reverse_reverse text, reversed]
      simp
    refine ⟨before.reverse, after.reverse, ?_, written, ?_⟩
    · rw [List.mem_reverse]
      exact firstAfter_singleton.mp first
    · simp only [written, List.length_append, List.length_cons, List.length_reverse]
      omega
  · rintro ⟨before, after, absent, rfl, rfl⟩
    refine ⟨after.length, (find_eq_some_iff nonempty).mpr
      ⟨after.reverse, before.reverse, ?_, ?_, List.length_reverse.symm⟩, ?_⟩
    · rw [firstAfter_singleton, List.mem_reverse]
      exact absent
    · simp
    · rw [List.length_append, List.length_cons]
      omega

end

end Delimited
