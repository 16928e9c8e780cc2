import OpsCodex.Sequence.Matching
import OpsCodex.Store.ModelItems

/-! Fitting a thread's items into a context budget. Entries carry an item; the store
itself works on the items alone. -/

set_option autoImplicit false

namespace OpsCodex.Store

open OpsCodex.Json OpsCodex.Runtime Matching

/-- How an item takes part in the pairing of tool calls and results. -/
def ModelItem.mark : ModelItem → Mark String
  | .toolCall callId _ _ => .opens callId
  | .toolResult callId _ => .closes callId
  | _ => .other

def ModelItem.isToolItem : ModelItem → Bool
  | .toolCall .. | .toolResult .. => true
  | _ => false

section Budget

variable (itemBytes : ModelItem → Nat)

def countToolCalls (items : List ModelItem) : Nat :=
  items.countP fun item => match item with
    | .toolCall .. => true
    | _ => false

def countEvidence (items : List ModelItem) : Nat :=
  items.countP fun item => match item with
    | .toolResult .. => true
    | _ => false

def totalBytes (items : List ModelItem) : Nat := (items.map itemBytes).sum

def itemTokens (item : ModelItem) : Nat := (itemBytes item + 3) / 4

def totalTokens (items : List ModelItem) : Nat := (items.map (itemTokens itemBytes)).sum

def estimatedCostMicros (items : List ModelItem) : Nat :=
  min (totalTokens itemBytes items * 10) (2 ^ 64 - 1)

def ContextBudget.fits (budget : ContextBudget) (items : List ModelItem) : Bool :=
  items.length ≤ budget.maxItems && countToolCalls items ≤ budget.maxToolCalls &&
    countEvidence items ≤ budget.maxEvidence && totalBytes itemBytes items ≤ budget.maxBytes &&
    totalTokens itemBytes items ≤ budget.maxTokens &&
    (budget.maxCostMicros = 0 ||
      estimatedCostMicros itemBytes items ≤ budget.maxCostMicros.toNat)

end Budget

section Build

variable {Entry : Type} (item : Entry → ModelItem) (itemBytes : ModelItem → Nat)
  (budget : ContextBudget)

def marks (entries : List Entry) : List (Mark String) := entries.map fun entry => (item entry).mark

def dropUnpaired (history : List Entry) : List Entry :=
  (history.zipIdx.filter fun entry =>
    matched (marks item history) entry.2 || !(item entry.1).isToolItem).map Prod.fst

/-- The positions behind the results whose calls a suffix cuts off. -/
def cutResults (pairs : List (Nat × Nat)) (start : Nat) : List Nat :=
  (pairs.filter fun pair => decide (pair.1 < start ∧ start ≤ pair.2)).map fun pair => pair.2 + 1

/-- Where a suffix that cuts calls from their results has to start instead. -/
def adjustedStart (pairs : List (Nat × Nat)) (start : Nat) : Nat :=
  (cutResults pairs start).max?.getD start

/-- The search for a suffix that fits, from a start on; each round moves the start. -/
def trimFrom (valid : List Entry) : Nat → Nat → List Entry
  | 0, _ => []
  | fuel + 1, start =>
      if start < valid.length then
        if budget.fits itemBytes ((valid.drop start).map item) then
          if adjustedStart (pairs (marks item valid)) start = start then valid.drop start
          else trimFrom valid fuel (adjustedStart (pairs (marks item valid)) start)
        else trimFrom valid fuel (start + 1)
      else []

def trimPairSafeSuffix (valid : List Entry) : List Entry :=
  if budget.fits itemBytes (valid.map item) then valid
  else trimFrom item itemBytes budget valid valid.length 0

def buildModelContext (history : List Entry) : List Entry :=
  if (dropUnpaired item history).isEmpty then dropUnpaired item history
  else trimPairSafeSuffix item itemBytes budget (dropUnpaired item history)

end Build

section

variable {Entry : Type} {item : Entry → ModelItem} {itemBytes : ModelItem → Nat}
  {budget : ContextBudget}

theorem marks_map (entries : List Entry) : marks id (entries.map item) = marks item entries := by
  simp [marks]

/-- The items that are kept are those of the entries that are kept. -/
theorem dropUnpaired_map (entries : List Entry) :
    dropUnpaired id (entries.map item) = (dropUnpaired item entries).map item := by
  rw [dropUnpaired, dropUnpaired, marks_map, List.zipIdx_map, List.filter_map, List.map_map,
    List.map_map]
  rfl

theorem trimFrom_map (entries : List Entry) (fuel start : Nat) :
    trimFrom id itemBytes budget (entries.map item) fuel start =
      (trimFrom item itemBytes budget entries fuel start).map item := by
  induction fuel generalizing start with
  | zero => rfl
  | succ fuel ih =>
      simp only [trimFrom, List.length_map, marks_map, List.map_id_fun, id_eq, ih,
        ← List.map_drop]
      split
      · split
        · split <;> simp
        · rfl
      · rfl

theorem buildModelContext_map (entries : List Entry) :
    buildModelContext id itemBytes budget (entries.map item) =
      (buildModelContext item itemBytes budget entries).map item := by
  simp only [buildModelContext, trimPairSafeSuffix, dropUnpaired_map, List.isEmpty_map,
    List.map_id_fun, id_eq, List.length_map, trimFrom_map]
  split
  · rfl
  · split <;> rfl

theorem mem_cutResults {pairs : List (Nat × Nat)} {start position : Nat} :
    position ∈ cutResults pairs start ↔
      ∃ pair ∈ pairs, (pair.1 < start ∧ start ≤ pair.2) ∧ pair.2 + 1 = position := by
  simp only [cutResults, List.mem_map, List.mem_filter, decide_eq_true_eq, and_assoc]

theorem adjustedStart_gt {pairs : List (Nat × Nat)} {start : Nat}
    (moved : adjustedStart pairs start ≠ start) : start < adjustedStart pairs start := by
  unfold adjustedStart at moved ⊢
  cases top : (cutResults pairs start).max? with
  | none =>
      rw [top] at moved
      exact absurd rfl moved
  | some highest =>
      obtain ⟨pair, -, cut, rfl⟩ := mem_cutResults.mp (List.max?_mem top)
      rw [Option.getD_some]
      omega

theorem adjustedStart_le {valid : List Entry} {start : Nat} (within : start ≤ valid.length) :
    adjustedStart (pairs (marks item valid)) start ≤ valid.length := by
  unfold adjustedStart
  cases top : (cutResults (pairs (marks item valid)) start).max? with
  | none => exact within
  | some highest =>
      obtain ⟨pair, inside, -, rfl⟩ := mem_cutResults.mp (List.max?_mem top)
      obtain ⟨-, below, -⟩ := (reads (marks item valid)).pairs pair inside
      rw [marks, List.length_map] at below
      exact below

theorem uncut_of_adjustedStart {valid : List Entry} {start : Nat}
    (settled : adjustedStart (pairs (marks item valid)) start = start) :
    Uncut (marks item valid) start := by
  intro pair member cut
  have inside : pair.2 + 1 ∈ cutResults (pairs (marks item valid)) start :=
    mem_cutResults.mpr ⟨pair, member, cut, rfl⟩
  unfold adjustedStart at settled
  cases top : (cutResults (pairs (marks item valid)) start).max? with
  | none =>
      rw [List.max?_eq_none_iff.mp top] at inside
      cases inside
  | some highest =>
      have bound := (List.max?_le_iff top).mp (Nat.le_refl _) _ inside
      rw [top, Option.getD_some] at settled
      omega

theorem fits_nil (itemBytes : ModelItem → Nat) (budget : ContextBudget) :
    budget.fits itemBytes [] = true := by
  simp [ContextBudget.fits, countToolCalls, countEvidence, totalBytes, totalTokens,
    estimatedCostMicros]

/-- A start lies inside a pair when the search jumps over it. -/
theorem cut_of_lt_adjustedStart {pairs : List (Nat × Nat)} {start position : Nat}
    (after : start ≤ position) (before : position < adjustedStart pairs start) :
    ∃ pair ∈ pairs, pair.1 < position ∧ position ≤ pair.2 := by
  unfold adjustedStart at before
  cases top : (cutResults pairs start).max? with
  | none =>
      rw [top, Option.getD_none] at before
      omega
  | some highest =>
      obtain ⟨pair, member, cut, rfl⟩ := mem_cutResults.mp (List.max?_mem top)
      rw [top, Option.getD_some] at before
      exact ⟨pair, member, by omega, by omega⟩

/-- A suffix that is within the budget and closed under the pairs of calls and results. -/
structure Admissible (item : Entry → ModelItem) (itemBytes : ModelItem → Nat)
    (budget : ContextBudget) (valid : List Entry) (start : Nat) : Prop where
  fits : budget.fits itemBytes ((valid.drop start).map item) = true
  uncut : Uncut (marks item valid) start

/-- The first admissible start from a position on. -/
structure FirstStart (item : Entry → ModelItem) (itemBytes : ModelItem → Nat)
    (budget : ContextBudget) (valid : List Entry) (start stop : Nat) : Prop where
  after : start ≤ stop
  within : stop ≤ valid.length
  admissible : Admissible item itemBytes budget valid stop
  earlier : ∀ between, start ≤ between → between < stop →
    ¬ Admissible item itemBytes budget valid between

theorem admissible_length (item : Entry → ModelItem) (itemBytes : ModelItem → Nat)
    (budget : ContextBudget) (valid : List Entry) :
    Admissible item itemBytes budget valid valid.length := by
  constructor
  · rw [List.drop_length, List.map_nil, fits_nil]
  · intro pair member cut
    have below := ((reads (marks item valid)).pairs pair member).2.1
    rw [marks, List.length_map] at below
    omega

/-- No start that is passed on the way is admissible. -/
theorem FirstStart.later {valid : List Entry} {start next stop : Nat}
    (first : FirstStart item itemBytes budget valid next stop) (moves : start ≤ next)
    (passed : ∀ between, start ≤ between → between < next →
      ¬ Admissible item itemBytes budget valid between) :
    FirstStart item itemBytes budget valid start stop where
  after := Nat.le_trans moves first.after
  within := first.within
  admissible := first.admissible
  earlier between after before := by
    by_cases early : between < next
    · exact passed between after early
    · exact first.earlier between (Nat.le_of_not_lt early) before

/-- The search ends at the first admissible start. -/
theorem trimFrom_spec (item : Entry → ModelItem) (itemBytes : ModelItem → Nat)
    (budget : ContextBudget) (valid : List Entry) {fuel start : Nat}
    (within : start ≤ valid.length) (enough : valid.length - start ≤ fuel) :
    ∃ stop, trimFrom item itemBytes budget valid fuel start = valid.drop stop ∧
      FirstStart item itemBytes budget valid start stop := by
  have nothing (ended : valid.length ≤ start) : ∃ stop, [] = valid.drop stop ∧
      FirstStart item itemBytes budget valid start stop := by
    obtain rfl := Nat.le_antisymm within ended
    exact ⟨valid.length, by simp, Nat.le_refl _, Nat.le_refl _,
      admissible_length item itemBytes budget valid, fun between after before => by omega⟩
  induction fuel generalizing start with
  | zero => exact nothing (by omega)
  | succ fuel ih =>
      have fromThere {next : Nat} (later : start < next) (inside : next ≤ valid.length)
          (passed : ∀ between, start ≤ between → between < next →
            ¬ Admissible item itemBytes budget valid between) :
          ∃ stop, trimFrom item itemBytes budget valid fuel next = valid.drop stop ∧
            FirstStart item itemBytes budget valid start stop := by
        have ended (past : valid.length ≤ next) : ∃ stop, [] = valid.drop stop ∧
            FirstStart item itemBytes budget valid next stop := by
          obtain rfl := Nat.le_antisymm inside past
          exact ⟨valid.length, by simp, Nat.le_refl _, Nat.le_refl _,
            admissible_length item itemBytes budget valid, fun between after before => by omega⟩
        obtain ⟨stop, result, first⟩ := ih inside (by omega) ended
        exact ⟨stop, result, first.later (Nat.le_of_lt later) passed⟩
      unfold trimFrom
      split
      · rename_i inside
        split
        · rename_i fitting
          split
          · rename_i settled
            exact ⟨start, rfl, Nat.le_refl _, within,
              ⟨fitting, uncut_of_adjustedStart settled⟩, fun between after before => by omega⟩
          · rename_i moved
            refine fromThere (adjustedStart_gt moved) (adjustedStart_le within) ?_
            intro between after before admissible
            obtain ⟨pair, member, cut⟩ := cut_of_lt_adjustedStart after before
            exact admissible.uncut pair member cut
        · rename_i overflowing
          refine fromThere (Nat.lt_succ_self _) inside ?_
          intro between after before admissible
          obtain rfl : between = start := by omega
          exact overflowing admissible.fits
      · rename_i outside
        exact nothing (Nat.le_of_not_lt outside)

theorem mark_of_isToolItem {found : ModelItem} (tool : found.isToolItem = true) :
    ∃ key, found.mark = .opens key ∨ found.mark = .closes key := by
  cases found with
  | toolCall callId name arguments => exact ⟨callId, .inl rfl⟩
  | toolResult callId output => exact ⟨callId, .inr rfl⟩
  | userMessage content => cases tool
  | assistantMessage content => cases tool

theorem isToolItem_of_mark {found : ModelItem} {key : String}
    (marked : found.mark = .opens key ∨ found.mark = .closes key) : found.isToolItem = true := by
  cases found <;> simp [ModelItem.mark, ModelItem.isToolItem] at marked ⊢

/-- Nothing is dropped exactly if every call has its result and every result its call. -/
theorem dropUnpaired_eq_self_iff (item : Entry → ModelItem) (entries : List Entry) :
    dropUnpaired item entries = entries ↔ Balanced (marks item entries) := by
  constructor
  · intro same position key found
    have length := congrArg List.length same
    rw [dropUnpaired, List.length_map] at length
    have all := List.filter_eq_self.mp
      (List.filter_sublist.eq_of_length (length.trans List.length_zipIdx.symm))
    rw [marks, List.getElem?_map] at found
    cases at' : entries[position]? with
    | none => simp [at'] at found
    | some entry =>
        rw [at'] at found
        have kept := all (entry, position) (List.mem_zipIdx_iff_getElem?.mpr at')
        have tool : (item entry).isToolItem = true := isToolItem_of_mark (by simpa using found)
        simpa [tool] using kept
  · intro balanced
    have all : ∀ entry ∈ entries.zipIdx,
        (matched (marks item entries) entry.2 || !(item entry.1).isToolItem) = true := by
      intro entry member
      cases tool : (item entry.1).isToolItem with
      | false => simp
      | true =>
          obtain ⟨key, mark⟩ := mark_of_isToolItem tool
          have at' := List.mem_zipIdx_iff_getElem?.mp member
          have matched := balanced entry.2 key (by simpa [marks, at'] using mark)
          simp [matched]
    rw [dropUnpaired, List.filter_eq_self.mpr all]
    simp

/-- What is kept of entries in which nothing is unpaired: a suffix that fits and cuts no
pair, or nothing; and all of them exactly if they fit. -/
theorem buildModelContext_spec (itemBytes : ModelItem → Nat) (budget : ContextBudget)
    {entries : List Entry}
    (balanced : Balanced (marks item entries)) :
    ∃ stop, stop ≤ entries.length ∧
      buildModelContext item itemBytes budget entries = entries.drop stop ∧
      (stop < entries.length → budget.fits itemBytes ((entries.drop stop).map item) = true ∧
        Uncut (marks item entries) stop) ∧
      (budget.fits itemBytes (entries.map item) = true → stop = 0) := by
  have paired := (dropUnpaired_eq_self_iff item entries).mpr balanced
  unfold buildModelContext
  rw [paired]
  split
  · rename_i empty
    have nil := List.isEmpty_iff.mp empty
    subst nil
    exact ⟨0, Nat.le_refl _, rfl, fun less => absurd less (Nat.lt_irrefl _), fun _ => rfl⟩
  · unfold trimPairSafeSuffix
    split
    · rename_i fitting
      refine ⟨0, Nat.zero_le _, rfl, fun _ => ⟨fitting, ?_⟩, fun _ => rfl⟩
      exact fun pair _ cut => absurd cut.1 (Nat.not_lt_zero _)
    · rename_i overflowing
      obtain ⟨stop, result, first⟩ := trimFrom_spec item itemBytes budget entries
        (Nat.zero_le _) (Nat.sub_le entries.length 0)
      exact ⟨stop, first.within, result, fun _ => ⟨first.admissible.fits, first.admissible.uncut⟩,
        fun fitting => absurd fitting overflowing⟩

theorem dropUnpaired_sublist (item : Entry → ModelItem) (entries : List Entry) :
    (dropUnpaired item entries).Sublist entries := by
  have kept : (dropUnpaired item entries).Sublist (entries.zipIdx.map Prod.fst) :=
    List.filter_sublist.map Prod.fst
  simpa using kept

/-- The context holds entries in their order, each at most once. -/
theorem buildModelContext_sublist (entries : List Entry) :
    (buildModelContext item itemBytes budget entries).Sublist entries := by
  have paired := dropUnpaired_sublist item entries
  unfold buildModelContext
  split
  · exact paired
  · unfold trimPairSafeSuffix
    split
    · exact paired
    · obtain ⟨stop, result, -⟩ := trimFrom_spec item itemBytes budget
        (dropUnpaired item entries) (Nat.zero_le _)
        (Nat.sub_le (dropUnpaired item entries).length 0)
      rw [result]
      exact (List.drop_sublist stop _).trans paired

/-- The marks of what is not dropped are the marks at the positions that are kept. -/
theorem marks_dropUnpaired (item : Entry → ModelItem) (history : List Entry) :
    marks item (dropUnpaired item history) = thin (fun position =>
      matched (marks item history) position ||
        !(history[position]?).any fun entry => (item entry).isToolItem) (marks item history) := by
  have same : ∀ entry ∈ history.zipIdx,
      (matched (marks item history) entry.2 || !(item entry.1).isToolItem) =
        (matched (marks item history) entry.2 ||
          !(history[entry.2]?).any fun entry => (item entry).isToolItem) := by
    intro entry member
    rw [List.mem_zipIdx_iff_getElem?.mp member, Option.any_some]
  rw [dropUnpaired, List.filter_congr same]
  simp only [thin, marks, List.zipIdx_map, List.filter_map, List.map_map]
  rfl

/-- Every call that is kept has its result and every result its call. -/
theorem balanced_dropUnpaired (item : Entry → ModelItem) (history : List Entry) :
    Balanced (marks item (dropUnpaired item history)) := by
  rw [marks_dropUnpaired]
  apply balanced_thin
  intro position key found
  rw [marks, List.getElem?_map] at found
  cases at' : history[position]? with
  | none => simp [at'] at found
  | some entry =>
      rw [at'] at found
      have tool : (item entry).isToolItem = true := isToolItem_of_mark (by simpa using found)
      simp [tool]

/-- The context is the suffix, from the first admissible start on, of what is not dropped. -/
theorem buildModelContext_firstStart (item : Entry → ModelItem) (itemBytes : ModelItem → Nat)
    (budget : ContextBudget) (history : List Entry) :
    ∃ start, buildModelContext item itemBytes budget history =
        (dropUnpaired item history).drop start ∧
      FirstStart item itemBytes budget (dropUnpaired item history) 0 start := by
  have whole (fitting : budget.fits itemBytes ((dropUnpaired item history).map item) = true) :
      FirstStart item itemBytes budget (dropUnpaired item history) 0 0 :=
    ⟨Nat.le_refl _, Nat.zero_le _, ⟨fitting, fun pair _ cut => Nat.not_lt_zero _ cut.1⟩,
      fun between _ before => absurd before (Nat.not_lt_zero _)⟩
  unfold buildModelContext
  split
  · rename_i empty
    rw [List.isEmpty_iff] at empty
    exact ⟨0, rfl, whole (by rw [empty, List.map_nil, fits_nil])⟩
  · unfold trimPairSafeSuffix
    split
    · rename_i fitting
      exact ⟨0, rfl, whole fitting⟩
    · exact trimFrom_spec item itemBytes budget (dropUnpaired item history) (Nat.zero_le _)
        (Nat.sub_le (dropUnpaired item history).length 0)

structure WithinBudget (itemBytes : ModelItem → Nat) (budget : ContextBudget)
    (found : List ModelItem) : Prop where
  items : found.length ≤ budget.maxItems
  toolCalls : countToolCalls found ≤ budget.maxToolCalls
  evidence : countEvidence found ≤ budget.maxEvidence
  bytes : totalBytes itemBytes found ≤ budget.maxBytes
  tokens : totalTokens itemBytes found ≤ budget.maxTokens
  cost : budget.maxCostMicros = 0 ∨
    estimatedCostMicros itemBytes found ≤ budget.maxCostMicros.toNat

theorem withinBudget_iff {items : List ModelItem} :
    WithinBudget itemBytes budget items ↔ budget.fits itemBytes items = true := by
  simp only [ContextBudget.fits, Bool.and_eq_true, Bool.or_eq_true, decide_eq_true_eq]
  constructor
  · rintro ⟨items, toolCalls, evidence, bytes, tokens, cost⟩
    exact ⟨⟨⟨⟨⟨items, toolCalls⟩, evidence⟩, bytes⟩, tokens⟩, cost⟩
  · rintro ⟨⟨⟨⟨⟨items, toolCalls⟩, evidence⟩, bytes⟩, tokens⟩, cost⟩
    exact ⟨items, toolCalls, evidence, bytes, tokens, cost⟩

/-- A result is the longest admissible suffix of what is not dropped of a history. -/
structure BestWindow (item : Entry → ModelItem) (itemBytes : ModelItem → Nat)
    (budget : ContextBudget) (history result : List Entry) : Prop where
  paired : Balanced (marks item result)
  within : WithinBudget itemBytes budget (result.map item)
  longest : ∃ start, result = (dropUnpaired item history).drop start ∧
    FirstStart item itemBytes budget (dropUnpaired item history) 0 start
  empty : (∀ start < (dropUnpaired item history).length,
    ¬ Admissible item itemBytes budget (dropUnpaired item history) start) → result = []
  stable : buildModelContext item itemBytes budget result = result

theorem buildModelContext_of_within {entries : List Entry}
    (balanced : Balanced (marks item entries))
    (within : budget.fits itemBytes (entries.map item) = true) :
    buildModelContext item itemBytes budget entries = entries := by
  obtain ⟨stop, -, result, -, whole⟩ := buildModelContext_spec itemBytes budget balanced
  rw [result, whole within, List.drop_zero]

/-- The context is the longest window of the history that is closed under calls and results
and within the budget. -/
theorem bestWindow_buildModelContext (item : Entry → ModelItem) (itemBytes : ModelItem → Nat)
    (budget : ContextBudget) (history : List Entry) :
    BestWindow item itemBytes budget history
      (buildModelContext item itemBytes budget history) := by
  obtain ⟨start, result, first⟩ := buildModelContext_firstStart item itemBytes budget history
  have paired : Balanced (marks item ((dropUnpaired item history).drop start)) := by
    rw [marks, List.map_drop]
    exact balanced_drop (balanced_dropUnpaired item history) first.admissible.uncut
  rw [result]
  refine {
    paired := paired
    within := withinBudget_iff.mpr first.admissible.fits
    longest := ⟨start, rfl, first⟩
    empty := fun none => ?_
    stable := buildModelContext_of_within paired first.admissible.fits }
  apply List.drop_eq_nil_of_le
  exact Nat.le_of_not_lt fun before => none start before first.admissible

end

end OpsCodex.Store
