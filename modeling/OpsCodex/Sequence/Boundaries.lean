import OpsCodex.Sequence.Offsets

/-! The offsets between two symbols of a text, and the last of them up to a limit. -/

set_option autoImplicit false

namespace Offsets

section

variable {Symbol : Type} (size : Symbol → Nat)

/-- The text up to an offset, which has to lie between two symbols. -/
def sliceTo (text : List Symbol) (stop : Nat) : Option (List Symbol) :=
  (split size text stop).map Prod.fst

def isBoundary (text : List Symbol) (offset : Nat) : Bool := (split size text offset).isSome

/-- The longest beginning of a text that is no wider than a limit. -/
def fitting : List Symbol → Nat → List Symbol
  | [], _ => []
  | first :: text, limit =>
      if size first ≤ limit then first :: fitting text (limit - size first) else []

end

/-- Counts down to the first number where it may stop, and fails below zero. -/
def retreat (stop : Nat → Bool) : Nat → Option Nat
  | 0 => if stop 0 then some 0 else none
  | number + 1 => if stop (number + 1) then some (number + 1) else retreat stop number

theorem retreat_eq {stop : Nat → Bool} {number last : Nat} (stops : stop last = true)
    (below : last ≤ number)
    (earlier : ∀ other, last < other → other ≤ number → stop other = false) :
    retreat stop number = some last := by
  induction number with
  | zero =>
      obtain rfl := Nat.le_zero.mp below
      exact if_pos stops
  | succ number ih =>
      rcases Nat.eq_or_lt_of_le below with rfl | less
      · exact if_pos stops
      · have passes := earlier (number + 1) less (Nat.le_refl _)
        rw [retreat, passes]
        exact ih (Nat.le_of_lt_succ less) fun other more bound =>
          earlier other more (Nat.le_succ_of_le bound)

section

variable {Symbol : Type} {size : Symbol → Nat} {before after text : List Symbol}
  {offset limit : Nat}

theorem split_eq_some (found : split size text offset = some (before, after)) :
    text = before ++ after ∧ width size before = offset := by
  induction text generalizing offset before with
  | nil =>
      cases offset with
      | zero =>
          cases found
          exact ⟨rfl, rfl⟩
      | succ offset => cases found
  | cons first text ih =>
      cases offset with
      | zero =>
          cases found
          exact ⟨rfl, rfl⟩
      | succ offset =>
          rw [split] at found
          split at found
          · rename_i fits
            obtain ⟨parts, rest, same⟩ := Option.map_eq_some_iff.mp found
            cases same
            obtain ⟨whole, wide⟩ := ih rest
            refine ⟨by rw [whole, List.cons_append], ?_⟩
            rw [width_cons, wide]
            exact Nat.add_sub_cancel' fits
          · cases found

theorem sliceTo_eq_some (found : sliceTo size text offset = some before) :
    before <+: text ∧ width size before = offset := by
  obtain ⟨⟨before, after⟩, at', rfl⟩ := Option.map_eq_some_iff.mp found
  obtain ⟨whole, wide⟩ := split_eq_some at'
  exact ⟨⟨after, whole.symm⟩, wide⟩

theorem width_replicate (count : Nat) (symbol : Symbol) :
    width size (List.replicate count symbol) = count * size symbol := by
  induction count with
  | zero => exact (Nat.zero_mul _).symm
  | succ count ih => rw [List.replicate_succ, width_cons, ih, Nat.succ_mul, Nat.add_comm]

theorem width_eq_length (single : ∀ symbol ∈ text, size symbol = 1) :
    width size text = text.length := by
  induction text with
  | nil => rfl
  | cons first text ih =>
      rw [width_cons, List.length_cons, single first List.mem_cons_self,
        ih fun symbol inside => single symbol (List.mem_cons_of_mem _ inside), Nat.add_comm]

variable (size) in
theorem fitting_prefix (text : List Symbol) (limit : Nat) : fitting size text limit <+: text := by
  induction text generalizing limit with
  | nil => exact List.nil_prefix
  | cons first text ih =>
      rw [fitting]
      split
      · exact List.cons_prefix_cons.mpr ⟨rfl, ih _⟩
      · exact List.nil_prefix

variable (size) in
theorem width_fitting_le (text : List Symbol) (limit : Nat) :
    width size (fitting size text limit) ≤ limit := by
  induction text generalizing limit with
  | nil => exact Nat.zero_le _
  | cons first text ih =>
      rw [fitting]
      split
      · rename_i fits
        have rest := ih (limit - size first)
        rw [width_cons]
        omega
      · exact Nat.zero_le _

variable (size) in
theorem width_mono (shorter : before <+: text) : width size before ≤ width size text := by
  obtain ⟨after, rfl⟩ := shorter
  rw [width_append]
  exact Nat.le_add_right _ _

variable (size) in
/-- A beginning of a text does not end inside a symbol. -/
theorem width_outside {front : List Symbol} {symbol : Symbol} (shorter : before <+: text)
    (longer : front ++ [symbol] <+: text) :
    width size before ≤ width size front ∨
      width size front + size symbol ≤ width size before := by
  have whole : width size (front ++ [symbol]) = width size front + size symbol := by
    rw [width_append, width_cons, width_nil]
    rfl
  rcases List.prefix_or_prefix_of_prefix shorter longer with inside | beyond
  · rcases List.prefix_concat_iff.mp inside with same | inside
    · rw [same, whole]
      exact .inr (Nat.le_refl _)
    · exact .inl (width_mono size inside)
  · have wide := width_mono size beyond
    rw [whole] at wide
    exact .inr wide

/-- The symbols that are reached within a limit: the first one, and then the others within what
the first one leaves. -/
theorem forall_reached_cons {holds : Symbol → Prop} {first : Symbol} :
    (∀ before symbol after, first :: text = before ++ symbol :: after →
        width size before ≤ limit → holds symbol) ↔
      holds first ∧ ∀ before symbol after, text = before ++ symbol :: after →
        size first + width size before ≤ limit → holds symbol := by
  constructor
  · intro all
    refine ⟨all [] first text rfl (Nat.zero_le _), fun before symbol after whole reached => ?_⟩
    refine all (first :: before) symbol after (by rw [whole, List.cons_append]) ?_
    rw [width_cons]
    exact reached
  · rintro ⟨here, later⟩ before symbol after whole reached
    cases before with
    | nil =>
        cases whole
        exact here
    | cons other before =>
        obtain ⟨rfl, rest⟩ := List.cons.inj whole
        rw [width_cons] at reached
        exact later before symbol after rest reached

/-- A beginning that fits, and that the next symbol would make too wide. -/
theorem fitting_eq (fits : width size before ≤ limit)
    (next : ∀ symbol ∈ after.head?, limit < width size before + size symbol) :
    fitting size (before ++ after) limit = before := by
  induction before generalizing limit with
  | nil =>
      cases after with
      | nil => rfl
      | cons symbol after =>
          have wide := next symbol rfl
          rw [width_nil, Nat.zero_add] at wide
          exact if_neg (Nat.not_le.mpr wide)
  | cons first before ih =>
      rw [width_cons] at fits
      rw [List.cons_append, fitting, if_pos (Nat.le_trans (Nat.le_add_right _ _) fits),
        ih (Nat.le_sub_of_add_le' fits)]
      intro symbol inside
      have wide := next symbol inside
      rw [width_cons] at wide
      omega

theorem lt_width_of_fitting (whole : text = fitting size text limit ++ after) :
    ∀ symbol ∈ after.head?, limit < width size (fitting size text limit) + size symbol := by
  induction text generalizing limit with
  | nil =>
      intro symbol inside
      rw [fitting, List.nil_append] at whole
      rw [← whole] at inside
      cases inside
  | cons first text ih =>
      intro symbol inside
      by_cases fits : size first ≤ limit
      · rw [fitting, if_pos fits, List.cons_append] at whole
        have wide := ih (List.cons.inj whole).2 symbol inside
        rw [fitting, if_pos fits, width_cons]
        omega
      · rw [fitting, if_neg fits, List.nil_append] at whole
        rw [← whole] at inside
        cases inside
        rw [fitting, if_neg fits, width_nil]
        omega

section

variable (positive : ∀ symbol, 0 < size symbol)
include positive

theorem sliceTo_append (before after : List Symbol) :
    sliceTo size (before ++ after) (width size before) = some before := by
  rw [sliceTo, split_append positive]
  rfl

theorem isBoundary_iff :
    isBoundary size text offset = true ↔
      ∃ before after, text = before ++ after ∧ width size before = offset := by
  constructor
  · intro boundary
    obtain ⟨parts, found⟩ := Option.isSome_iff_exists.mp boundary
    obtain ⟨whole, wide⟩ := split_eq_some found
    exact ⟨parts.1, parts.2, whole, wide⟩
  · rintro ⟨before, after, rfl, rfl⟩
    rw [isBoundary, split_append positive]
    rfl

/-- Of two beginnings of one text the narrower one is a beginning of the other. -/
theorem prefix_of_width_le {other : List Symbol} (first : before <+: text) (second : other <+: text)
    (narrow : width size before ≤ width size other) : before <+: other := by
  rcases List.prefix_or_prefix_of_prefix first second with shorter | longer
  · exact shorter
  · obtain ⟨rest, rfl⟩ := longer
    cases rest with
    | nil =>
        exact (List.append_nil other).symm ▸ List.prefix_refl other
    | cons symbol rest =>
        have wide := positive symbol
        rw [width_append, width_cons] at narrow
        omega

/-- Counting down from a limit ends where the longest beginning that fits ends. -/
theorem retreat_isBoundary (text : List Symbol) (limit : Nat) :
    retreat (isBoundary size text) limit = some (width size (fitting size text limit)) := by
  obtain ⟨rest, whole⟩ := fitting_prefix size text limit
  refine retreat_eq ?_ (width_fitting_le size _ _) ?_
  · exact (isBoundary_iff positive).mpr ⟨_, rest, whole.symm, rfl⟩
  · intro other more bound
    cases boundary : isBoundary size text other with
    | false => rfl
    | true =>
        obtain ⟨before, after, split, wide⟩ := (isBoundary_iff positive).mp boundary
        have longer : fitting size text limit <+: before :=
          prefix_of_width_le positive ⟨rest, whole⟩ ⟨after, split.symm⟩ (by omega)
        obtain ⟨part, rfl⟩ := longer
        cases part with
        | nil =>
            rw [List.append_nil] at wide
            omega
        | cons symbol part =>
            have next : text = fitting size text limit ++ (symbol :: part ++ after) := by
              rw [← List.append_assoc]
              exact split
            have beyond := lt_width_of_fitting next symbol rfl
            rw [width_append, width_cons] at wide
            omega

end

end

end Offsets
