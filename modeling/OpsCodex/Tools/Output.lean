import OpsCodex.Encoding.Utf8Lossy
import OpsCodex.Sequence.Boundaries

/-! The output of a tool: decoded, and cut to a number of bytes with a marker behind it. -/

set_option autoImplicit false

namespace OpsCodex.Tools

open Encoding.Utf8 Offsets

def marker : List Char := "\n[output truncated]".toList

/-- The text and whether it is truncated, or none where a slice or a subtraction panics. -/
def truncateOutputInner (bytes : List UInt8) (maxBytes : Nat) (forceMarker : Bool) :
    Option (List Char × Bool) :=
  let decoded := fromUtf8Lossy bytes
  let maxBytes := max maxBytes 1
  if !forceMarker && width Char.utf8Size decoded ≤ maxBytes then some (decoded, false)
  else if maxBytes ≤ width Char.utf8Size marker then
    (sliceTo Char.utf8Size marker maxBytes).map fun output => (output, true)
  else do
    let contentLen ← retreat (isBoundary Char.utf8Size decoded)
      (maxBytes - width Char.utf8Size marker)
    let output ← sliceTo Char.utf8Size decoded contentLen
    some (output ++ marker, true)

def truncateOutput (bytes : List UInt8) (maxBytes : Nat) : Option (List Char × Bool) :=
  truncateOutputInner bytes maxBytes false

def truncateOutputWithMarker (bytes : List UInt8) (maxBytes : Nat) : Option (List Char × Bool) :=
  truncateOutputInner bytes maxBytes true

section

variable {bytes : List UInt8} {maxBytes : Nat} {forceMarker : Bool}

theorem utf8Size_of_mem_marker : ∀ char ∈ marker, char.utf8Size = 1 := by
  have checked : marker.all (fun char => char.utf8Size == 1) = true := by decide
  exact fun char inside => beq_iff_eq.mp (List.all_eq_true.mp checked char inside)

theorem width_marker : width Char.utf8Size marker = 19 := by
  rw [width_eq_length utf8Size_of_mem_marker]
  decide

theorem width_take_marker {count : Nat} (fits : count ≤ 19) :
    width Char.utf8Size (marker.take count) = count := by
  have length : marker.length = 19 := by decide
  rw [width_eq_length fun char inside => utf8Size_of_mem_marker char (List.mem_of_mem_take inside),
    List.length_take, length, Nat.min_eq_left fits]

theorem truncateOutputInner_whole (free : forceMarker = false)
    (fits : width Char.utf8Size (fromUtf8Lossy bytes) ≤ max maxBytes 1) :
    truncateOutputInner bytes maxBytes forceMarker = some (fromUtf8Lossy bytes, false) := by
  rw [truncateOutputInner, free]
  exact if_pos (by simpa using fits)

/-- The two ways to leave the text whole are missing. -/
def Cut (bytes : List UInt8) (maxBytes : Nat) (forceMarker : Bool) : Prop :=
  forceMarker = true ∨ max maxBytes 1 < width Char.utf8Size (fromUtf8Lossy bytes)

theorem Cut.not_whole (cut : Cut bytes maxBytes forceMarker) :
    (!forceMarker && decide (width Char.utf8Size (fromUtf8Lossy bytes) ≤ max maxBytes 1)) =
      false := by
  rcases cut with forced | long
  · rw [forced, Bool.not_true, Bool.false_and]
  · rw [decide_eq_false (Nat.not_le.mpr long), Bool.and_false]

theorem truncateOutputInner_marker (cut : Cut bytes maxBytes forceMarker)
    (narrow : max maxBytes 1 ≤ width Char.utf8Size marker) :
    truncateOutputInner bytes maxBytes forceMarker =
      some (marker.take (max maxBytes 1), true) := by
  have sliced : sliceTo Char.utf8Size marker (max maxBytes 1) =
      some (marker.take (max maxBytes 1)) := by
    have split := sliceTo_append Char.utf8Size_pos (marker.take (max maxBytes 1))
      (marker.drop (max maxBytes 1))
    rw [width_marker] at narrow
    rw [List.take_append_drop, width_take_marker narrow] at split
    exact split
  rw [truncateOutputInner]
  simp only [cut.not_whole, Bool.false_eq_true, if_false, narrow, if_true, sliced,
    Option.map_some]

theorem truncateOutputInner_cut (cut : Cut bytes maxBytes forceMarker)
    (wide : width Char.utf8Size marker < max maxBytes 1) :
    truncateOutputInner bytes maxBytes forceMarker =
      some (fitting Char.utf8Size (fromUtf8Lossy bytes)
        (max maxBytes 1 - width Char.utf8Size marker) ++ marker, true) := by
  obtain ⟨rest, split⟩ := fitting_prefix Char.utf8Size (fromUtf8Lossy bytes)
    (max maxBytes 1 - width Char.utf8Size marker)
  have sliced := sliceTo_append Char.utf8Size_pos (fitting Char.utf8Size (fromUtf8Lossy bytes)
    (max maxBytes 1 - width Char.utf8Size marker)) rest
  rw [split] at sliced
  rw [truncateOutputInner]
  simp only [cut.not_whole, Bool.false_eq_true, if_false, Nat.not_le.mpr wide,
    retreat_isBoundary Char.utf8Size_pos, Option.bind_eq_bind, Option.bind_some, sliced]

end

/-- A result comes out for every input; what it is follows from whether the marker is forced
and from what fits. -/
theorem truncateOutputInner_exact (bytes : List UInt8) (maxBytes : Nat) (forceMarker : Bool) :
    ∃ output truncated,
      truncateOutputInner bytes maxBytes forceMarker = some (output, truncated) ∧
      Valid (encode output) ∧ (encode output).length ≤ max maxBytes 1 ∧
      (truncated = true ↔
        forceMarker = true ∨ max maxBytes 1 < (encode (fromUtf8Lossy bytes)).length) ∧
      (truncated = false → output = fromUtf8Lossy bytes) ∧
      (truncated = true → (encode marker).length ≤ max maxBytes 1 →
        ∃ kept, kept <+: fromUtf8Lossy bytes ∧ output = kept ++ marker) ∧
      (truncated = true → max maxBytes 1 < (encode marker).length →
        output = marker.take (max maxBytes 1)) := by
  simp only [length_encode]
  by_cases cut : Cut bytes maxBytes forceMarker
  · rcases Nat.lt_or_ge (width Char.utf8Size marker) (max maxBytes 1) with wide | narrow
    · obtain kept := fitting_prefix Char.utf8Size (fromUtf8Lossy bytes)
        (max maxBytes 1 - width Char.utf8Size marker)
      have bound := width_fitting_le Char.utf8Size (fromUtf8Lossy bytes)
        (max maxBytes 1 - width Char.utf8Size marker)
      refine ⟨_, _, truncateOutputInner_cut cut wide, ⟨_, rfl⟩, ?_, iff_of_true rfl cut,
        fun whole => absurd whole (by decide), fun _ _ => ⟨_, kept, rfl⟩,
        fun _ narrow => absurd narrow (Nat.not_lt.mpr (Nat.le_of_lt wide))⟩
      rw [width_append]
      omega
    · have bound : max maxBytes 1 ≤ 19 := by
        rw [← width_marker]
        exact narrow
      refine ⟨_, _, truncateOutputInner_marker cut narrow, ⟨_, rfl⟩,
        Nat.le_of_eq (width_take_marker bound), iff_of_true rfl cut,
        fun whole => absurd whole (by decide), fun _ fits => ⟨[], List.nil_prefix, ?_⟩,
        fun _ _ => rfl⟩
      have same : max maxBytes 1 = marker.length := by
        rw [← width_eq_length utf8Size_of_mem_marker]
        exact Nat.le_antisymm narrow fits
      rw [same, List.take_length, List.nil_append]
  · have conditions := cut
    rw [Cut, not_or, Bool.not_eq_true, Nat.not_lt] at conditions
    exact ⟨_, _, truncateOutputInner_whole conditions.1 conditions.2, ⟨_, rfl⟩, conditions.2,
      iff_of_false (by decide) cut, fun _ => rfl, fun shortened => absurd shortened (by decide),
      fun shortened => absurd shortened (by decide)⟩

end OpsCodex.Tools
