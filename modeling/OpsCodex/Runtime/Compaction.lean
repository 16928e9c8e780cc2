import OpsCodex.Runtime.Agent
import OpsCodex.Store.ModelContext

/-! Compaction of a thread's context before a model step. The number of items to cover
is counted in the projection, and the range is counted off from the start of the log. -/

set_option autoImplicit false

namespace OpsCodex.Runtime

open OpsCodex.Json OpsCodex.Store Matching

section

variable (content : Content) (budget : ContextBudget)

/-- The range that a compaction of a log would cover, as its first and last event, with
the events it would summarize. -/
def pendingCompaction (history : List EventEnvelope) :
    Option (EventEnvelope × EventEnvelope × List EventEnvelope) :=
  let full := content.modelItemsFromEvents history
  let bounded := content.buildModelContext full budget
  if full.length ≤ bounded.length then none
  else
    let covered := coveredEvents (full.length - bounded.length) history
    match covered.head?, covered.getLast? with
    | some first, some last =>
        if history.any (compactionCovers first.seq last.seq) then none
        else some (first, last, covered)
    | _, _ => none

def compactionEvent (history : List EventEnvelope) (first last : EventEnvelope)
    (covered : List EventEnvelope) (summaryId : Uuid) : RuntimeEvent :=
  .contextCompacted (toString summaryId) first.seq last.seq
    (covered.map fun envelope => toString envelope.eventId) (evidenceIdsOf covered)
    (content.contextInputHash (content.modelItemsFromEvents history)) (some "local")
    (some "deterministic-suffix") (some "v0.5") (content.localSummary covered)

/-- The logs that a compaction can leave when the store answers. -/
inductive Compacts (history : List EventEnvelope) : List EventEnvelope → Prop where
  | unchanged : pendingCompaction content budget history = none → Compacts history history
  | appended {first last envelope : EventEnvelope} {covered : List EventEnvelope}
      {summaryId : Uuid} :
      pendingCompaction content budget history = some (first, last, covered) →
      envelope.event = compactionEvent content history first last covered summaryId →
      (∀ earlier ∈ history, earlier.seq < envelope.seq) →
      Compacts history (history ++ [envelope])

end

/-- The projection and the fitting that the store makes, among transformations whose
results it only passes on. -/
def projecting (rest : Content) (promptBlock : IncidentContext → String)
    (itemBytes : ModelItem → Nat) : Content :=
  { rest with
    modelItemsFromEvents := Store.modelItemsFromEvents promptBlock
    buildModelContext := fun items budget => Store.buildModelContext id itemBytes budget items }

section

variable (promptBlock : IncidentContext → String) (itemBytes : ModelItem → Nat)
  (budget : ContextBudget)

def printRange (start stop : Nat) : String := s!"{start}-{stop}"

/-- The items of a log with the sequence numbers they come from. -/
def taggedItems (events : List EventEnvelope) : List (Nat × ModelItem) :=
  events.filterMap fun envelope =>
    (visibleItem promptBlock printRange (compactedRanges events) envelope).map fun item =>
      (envelope.seq, item)

/-- The items of a log as if nothing had been compacted. -/
def loggedItems (events : List EventEnvelope) : List (Nat × ModelItem) :=
  events.filterMap fun envelope =>
    (eventItem promptBlock printRange envelope.event).map fun item => (envelope.seq, item)

/-- The context that the model gets of a log. -/
def nextContext (events : List EventEnvelope) : List (Nat × ModelItem) :=
  Store.buildModelContext Prod.snd itemBytes budget (taggedItems promptBlock events)

/-- A compaction loses nothing silently: every item goes on to the model, or was
unpaired, or lies under a range whose summary goes on to the model; and no new range
takes a call without its result or a result without its call. -/
structure LosesNothing (history after : List EventEnvelope) : Prop where
  kept : ∀ entry ∈ taggedItems promptBlock history,
    entry ∈ nextContext promptBlock itemBytes budget after ∨
    entry ∉ dropUnpaired Prod.snd (taggedItems promptBlock history) ∨
    ∃ envelope ∈ after, ∃ covers, compactedRange envelope.event = some covers ∧
      covers.1 ≤ entry.1 ∧ entry.1 ≤ covers.2 ∧
      ∃ summary, (envelope.seq, summary) ∈ nextContext promptBlock itemBytes budget after
  closed : ∀ envelope covers, after = history ++ [envelope] →
    compactedRange envelope.event = some covers →
    ∀ pair ∈ pairs (marks Prod.snd (loggedItems promptBlock history)), ∀ call result,
      (loggedItems promptBlock history)[pair.1]? = some call →
      (loggedItems promptBlock history)[pair.2]? = some result →
      (isCovered call.1 [covers] = true →
        isCovered result.1 (compactedRanges after) = true) ∧
      (isCovered result.1 [covers] = true →
        isCovered call.1 (compactedRanges after) = true)

/-- What the budget keeps of a log's items still fits together with a summary of the
events whose items it drops, if it drops any. -/
def SummaryFits (content : Content) (history : List EventEnvelope) : Prop :=
  let items := modelItemsFromEvents promptBlock history
  let kept := Store.buildModelContext id itemBytes budget items
  let dropped := coveredEvents (items.length - kept.length) history
  ∀ first ∈ dropped.head?, ∀ last ∈ dropped.getLast?,
    ∀ summary ∈ eventItem promptBlock printRange
      (compactionEvent content history first last dropped 0),
    budget.fits itemBytes (kept ++ [summary]) = true

/-- A log that was never compacted and in which every call has its result. -/
structure Uncompacted (history : List EventEnvelope) : Prop where
  ranges : compactedRanges history = []
  paired : dropUnpaired id (modelItemsFromEvents promptBlock history) =
    modelItemsFromEvents promptBlock history

end

section

variable {promptBlock : IncidentContext → String} {itemBytes : ModelItem → Nat}
  {budget : ContextBudget}

theorem taggedItems_snd (events : List EventEnvelope) :
    (taggedItems promptBlock events).map Prod.snd = modelItemsFromEvents promptBlock events := by
  rw [taggedItems, List.map_filterMap, modelItemsFromEvents, modelItemsWith]
  congr 1
  funext envelope
  rw [Option.map_map]
  simp only [Function.comp_def, Option.map_id_fun', id_eq]
  rfl

theorem nextContext_snd (promptBlock : IncidentContext → String)
    (itemBytes : ModelItem → Nat) (budget : ContextBudget) (events : List EventEnvelope) :
    (nextContext promptBlock itemBytes budget events).map Prod.snd =
      Store.buildModelContext id itemBytes budget (modelItemsFromEvents promptBlock events) := by
  rw [nextContext, ← buildModelContext_map, taggedItems_snd]

theorem compactedRange_of_ranges_nil {events : List EventEnvelope} {envelope : EventEnvelope}
    (ranges : compactedRanges events = []) (member : envelope ∈ events) :
    compactedRange envelope.event = none := by
  unfold compactedRanges at ranges
  exact List.filterMap_eq_nil_iff.mp ranges envelope member

theorem taggedItems_eq_loggedItems (promptBlock : IncidentContext → String)
    {events : List EventEnvelope}
    (ranges : compactedRanges events = []) :
    taggedItems promptBlock events = loggedItems promptBlock events := by
  rw [taggedItems, loggedItems, ranges]
  rfl

/-- The items of a log whose only compaction is its last event. -/
theorem taggedItems_append {history : List EventEnvelope} {envelope : EventEnvelope}
    {covers : Nat × Nat} {summary : ModelItem} (ranges : compactedRanges history = [])
    (compacted : compactedRange envelope.event = some covers)
    (item : eventItem promptBlock printRange envelope.event = some summary) :
    taggedItems promptBlock (history ++ [envelope]) =
      (loggedItems promptBlock history).filter (fun entry => !isCovered entry.1 [covers]) ++
        [(envelope.seq, summary)] := by
  have all : compactedRanges (history ++ [envelope]) = [covers] := by
    have none := ranges
    unfold compactedRanges at none ⊢
    rw [List.filterMap_append, none]
    simp [compacted]
  have last : visibleItem promptBlock printRange [covers] envelope = some summary := by
    simp [visibleItem, compacted, item]
  have plain : ∀ earlier ∈ history, compactedRange earlier.event = none :=
    fun earlier member => compactedRange_of_ranges_nil ranges member
  rw [taggedItems, all, List.filterMap_append]
  congr 1
  · rw [loggedItems, List.filter_filterMap]
    apply List.filterMap_congr
    intro earlier member
    cases carried : eventItem promptBlock printRange earlier.event with
    | none => simp [visibleItem, carried]
    | some found =>
        cases inside : isCovered earlier.seq [covers] with
        | true => simp [visibleItem, plain earlier member, inside, Option.filter]
        | false => simp [visibleItem, inside, carried, Option.filter]
  · simp [last]

section Uncompacted

variable {history : List EventEnvelope}

theorem loggedItems_increasing (promptBlock : IncidentContext → String)
    (increasing : history.Pairwise fun left right => left.seq < right.seq) :
    (loggedItems promptBlock history).Pairwise fun left right => left.1 < right.1 := by
  rw [loggedItems, List.pairwise_filterMap]
  refine increasing.imp ?_
  intro left right less leftEntry leftFound rightEntry rightFound
  obtain ⟨leftItem, -, rfl⟩ := Option.map_eq_some_iff.mp leftFound
  obtain ⟨rightItem, -, rfl⟩ := Option.map_eq_some_iff.mp rightFound
  exact less

/-- Without compactions the contributing events are those of the items. -/
theorem contributing_seq (clean : Uncompacted promptBlock history) :
    (history.filter fun envelope => envelope.event.contributes).map EventEnvelope.seq =
      (loggedItems promptBlock history).map Prod.fst := by
  have plain : ∀ envelope ∈ history, compactedRange envelope.event = none :=
    fun envelope member => compactedRange_of_ranges_nil clean.ranges member
  rw [loggedItems, List.map_filterMap, ← List.filterMap_eq_map, List.filterMap_filter]
  apply List.filterMap_congr
  intro envelope member
  have carries := eventItem_isSome promptBlock printRange envelope.event
  rw [plain envelope member, Option.isSome_none, Bool.or_false] at carries
  cases item : eventItem promptBlock printRange envelope.event with
  | none =>
      rw [item] at carries
      simp [← carries]
  | some found =>
      rw [item] at carries
      simp [← carries]

theorem loggedItems_balanced (clean : Uncompacted promptBlock history) :
    Balanced (marks Prod.snd (loggedItems promptBlock history)) := by
  rw [← taggedItems_eq_loggedItems promptBlock clean.ranges, ← marks_map, taggedItems_snd]
  exact (dropUnpaired_eq_self_iff id _).mp clean.paired

end Uncompacted

/-- The range from the first to the last number of a prefix holds the prefix and nothing
else. -/
theorem isCovered_prefix {entries : List (Nat × ModelItem)} {stop : Nat}
    {first last : Nat × ModelItem}
    (increasing : entries.Pairwise fun left right => left.1 < right.1)
    (head : (entries.take stop).head? = some first)
    (end' : (entries.take stop).getLast? = some last) :
    (∀ entry ∈ entries.take stop, isCovered entry.1 [(first.1, last.1)] = true) ∧
      ∀ entry ∈ entries.drop stop, last.1 < entry.1 := by
  obtain ⟨middle, taken⟩ := List.getLast?_eq_some_iff.mp end'
  have parts := increasing
  rw [← List.take_append_drop stop entries, List.pairwise_append] at parts
  obtain ⟨inPrefix, -, across⟩ := parts
  refine ⟨?_, across last (by simp [taken])⟩
  intro entry member
  have lower : first.1 ≤ entry.1 := by
    obtain ⟨rest, firstTaken⟩ := List.head?_eq_some_iff.mp head
    rw [firstTaken] at inPrefix member
    rcases List.mem_cons.mp member with rfl | later
    · exact Nat.le_refl _
    · exact Nat.le_of_lt ((List.pairwise_cons.mp inPrefix).1 entry later)
  have upper : entry.1 ≤ last.1 := by
    rw [taken] at inPrefix member
    rcases List.mem_append.mp member with earlier | final
    · exact Nat.le_of_lt ((List.pairwise_append.mp inPrefix).2.2 entry earlier last (by simp))
    · rw [List.mem_singleton.mp final]
  simp [isCovered, lower, upper]

theorem not_isCovered_of_gt {seq start stop : Nat} (beyond : stop < seq) :
    isCovered seq [(start, stop)] = false := by
  simp [isCovered]
  omega

/-- Cutting the range of a prefix out of increasing numbers leaves the rest. -/
theorem filter_prefix {entries : List (Nat × ModelItem)} {stop : Nat}
    {first last : Nat × ModelItem}
    (increasing : entries.Pairwise fun left right => left.1 < right.1)
    (head : (entries.take stop).head? = some first)
    (end' : (entries.take stop).getLast? = some last) :
    entries.filter (fun entry => !isCovered entry.1 [(first.1, last.1)]) = entries.drop stop := by
  obtain ⟨inside, beyond⟩ := isCovered_prefix increasing head end'
  conv_lhs => rw [← List.take_append_drop stop entries]
  rw [List.filter_append, List.filter_eq_nil_iff.mpr, List.filter_eq_self.mpr, List.nil_append]
  · intro entry member
    simp [not_isCovered_of_gt (beyond entry member)]
  · intro entry member
    simp [inside entry member]

/-- A log of which nothing is dropped is not compacted and goes on as it is. -/
theorem losesNothing_of_kept {rest : Content} {history after : List EventEnvelope}
    (compacts : Compacts (projecting rest promptBlock itemBytes) budget history after)
    (kept : Store.buildModelContext id itemBytes budget
      (modelItemsFromEvents promptBlock history) = modelItemsFromEvents promptBlock history) :
    LosesNothing promptBlock itemBytes budget history after := by
  have same : after = history := by
    cases compacts with
    | unchanged => rfl
    | appended pending =>
        simp [pendingCompaction, projecting, kept] at pending
  subst same
  have all : nextContext promptBlock itemBytes budget after = taggedItems promptBlock after := by
    apply (buildModelContext_sublist _).eq_of_length
    have lengths := congrArg List.length (nextContext_snd promptBlock itemBytes budget after)
    rw [kept, ← taggedItems_snd, List.length_map, List.length_map] at lengths
    exact lengths
  constructor
  · intro entry member
    exact .inl (all ▸ member)
  · intro envelope covers grown
    have length := congrArg List.length grown
    simp at length

section Pending

variable {rest : Content} {history : List EventEnvelope}

/-- What is kept of an uncompacted log. -/
theorem kept_of_uncompacted (itemBytes : ModelItem → Nat) (budget : ContextBudget)
    (clean : Uncompacted promptBlock history) :
    ∃ stop, stop ≤ (loggedItems promptBlock history).length ∧
      Store.buildModelContext id itemBytes budget (modelItemsFromEvents promptBlock history) =
        ((loggedItems promptBlock history).drop stop).map Prod.snd ∧
      (stop < (loggedItems promptBlock history).length →
        Uncut (marks Prod.snd (loggedItems promptBlock history)) stop) ∧
      (modelItemsFromEvents promptBlock history).length -
        (Store.buildModelContext id itemBytes budget
          (modelItemsFromEvents promptBlock history)).length = stop := by
  obtain ⟨stop, within, result, good, -⟩ := buildModelContext_spec itemBytes budget
    (loggedItems_balanced clean)
  have items : modelItemsFromEvents promptBlock history =
      (loggedItems promptBlock history).map Prod.snd := by
    rw [← taggedItems_snd, taggedItems_eq_loggedItems promptBlock clean.ranges]
  have built : Store.buildModelContext id itemBytes budget
      (modelItemsFromEvents promptBlock history) =
        ((loggedItems promptBlock history).drop stop).map Prod.snd := by
    rw [items, buildModelContext_map, result]
  refine ⟨stop, within, built, fun less => (good less).2, ?_⟩
  rw [built, items, List.length_map, List.length_map, List.length_drop]
  omega

/-- The events that the compaction of an uncompacted log covers are those of the items
that are dropped. -/
theorem coveredEvents_of_uncompacted (clean : Uncompacted promptBlock history) {stop : Nat}
    (positive : 0 < stop) (within : stop ≤ (loggedItems promptBlock history).length) :
    ∃ first last firstEntry lastEntry,
      (coveredEvents stop history).head? = some first ∧
      (coveredEvents stop history).getLast? = some last ∧
      ((loggedItems promptBlock history).take stop).head? = some firstEntry ∧
      ((loggedItems promptBlock history).take stop).getLast? = some lastEntry ∧
      first.seq = firstEntry.1 ∧ last.seq = lastEntry.1 := by
  have numbers : (coveredEvents stop history).map EventEnvelope.seq =
      ((loggedItems promptBlock history).take stop).map Prod.fst := by
    rw [coveredEvents, List.map_take, contributing_seq clean, List.map_take]
  have nonempty : (loggedItems promptBlock history).take stop ≠ [] := by
    intro empty
    have length := congrArg List.length empty
    rw [List.length_take] at length
    simp only [List.length_nil] at length
    omega
  cases head : ((loggedItems promptBlock history).take stop).head? with
  | none => exact absurd (List.head?_eq_none_iff.mp head) nonempty
  | some firstEntry =>
      cases last : ((loggedItems promptBlock history).take stop).getLast? with
      | none => exact absurd (List.getLast?_eq_none_iff.mp last) nonempty
      | some lastEntry =>
          have heads := congrArg List.head? numbers
          have lasts := congrArg List.getLast? numbers
          rw [List.head?_map, List.head?_map, head] at heads
          rw [List.getLast?_map, List.getLast?_map, last] at lasts
          obtain ⟨first, firstIs, firstSeq⟩ := Option.map_eq_some_iff.mp heads
          obtain ⟨final, finalIs, finalSeq⟩ := Option.map_eq_some_iff.mp lasts
          exact ⟨first, final, firstEntry, lastEntry, firstIs, finalIs, rfl, rfl, firstSeq,
            finalSeq⟩

/-- What becomes of an uncompacted log of which some items are dropped. -/
theorem compacts_of_dropped {after : List EventEnvelope} {first last : EventEnvelope}
    (compacts : Compacts (projecting rest promptBlock itemBytes) budget history after)
    (ranges : compactedRanges history = [])
    (dropped : (Store.buildModelContext id itemBytes budget
      (modelItemsFromEvents promptBlock history)).length <
        (modelItemsFromEvents promptBlock history).length)
    (head : (coveredEvents ((modelItemsFromEvents promptBlock history).length -
      (Store.buildModelContext id itemBytes budget
        (modelItemsFromEvents promptBlock history)).length) history).head? = some first)
    (end' : (coveredEvents ((modelItemsFromEvents promptBlock history).length -
      (Store.buildModelContext id itemBytes budget
        (modelItemsFromEvents promptBlock history)).length) history).getLast? = some last) :
    ∃ envelope summaryId, after = history ++ [envelope] ∧
      envelope.event = compactionEvent (projecting rest promptBlock itemBytes) history first last
        (coveredEvents ((modelItemsFromEvents promptBlock history).length -
          (Store.buildModelContext id itemBytes budget
            (modelItemsFromEvents promptBlock history)).length) history) summaryId ∧
      ∀ earlier ∈ history, earlier.seq < envelope.seq := by
  have fresh : history.any (compactionCovers first.seq last.seq) = false := by
    apply List.any_eq_false.mpr
    intro envelope member
    have plain := compactedRange_of_ranges_nil ranges member
    cases event : envelope.event <;> simp [compactionCovers, event]
    simp [event, compactedRange] at plain
  have pending : pendingCompaction (projecting rest promptBlock itemBytes) budget history =
      some (first, last, coveredEvents ((modelItemsFromEvents promptBlock history).length -
        (Store.buildModelContext id itemBytes budget
          (modelItemsFromEvents promptBlock history)).length) history) := by
    simp only [pendingCompaction, projecting, if_neg (Nat.not_le_of_lt dropped), head, end',
      fresh, Bool.false_eq_true, if_false]
  cases compacts with
  | unchanged none =>
      rw [pending] at none
      cases none
  | appended found event later =>
      rw [pending] at found
      simp only [Option.some.injEq, Prod.mk.injEq] at found
      obtain ⟨rfl, rfl, rfl⟩ := found
      exact ⟨_, _, rfl, event, later⟩

/-- The entries behind a cut that divides no pair, with a summary, pair up. -/
theorem balanced_suffix {entries : List (Nat × ModelItem)} {stop : Nat}
    {summary : Nat × ModelItem} (balanced : Balanced (marks Prod.snd entries))
    (uncut : stop < entries.length → Uncut (marks Prod.snd entries) stop)
    (plain : summary.2.mark = .other) :
    Balanced (marks Prod.snd (entries.drop stop ++ [summary])) := by
  have split : marks Prod.snd (entries.drop stop ++ [summary]) =
      (marks Prod.snd entries).drop stop ++ [.other] := by
    simp [marks, plain]
  rw [split]
  apply balanced_other
  by_cases inside : stop < entries.length
  · exact balanced_drop balanced (uncut inside)
  · have empty : (marks Prod.snd entries).drop stop = [] := by
      apply List.drop_of_length_le
      rw [marks, List.length_map]
      omega
    rw [empty]
    intro position key found
    simp at found

/-- A suffix that does not fit together with its summary loses an entry beyond the
dropped ones, or everything. -/
theorem lost_of_overflow {entries : List (Nat × ModelItem)} {stop : Nat}
    {summary : Nat × ModelItem} (distinct : (entries.drop stop ++ [summary]).Nodup)
    (balanced : Balanced (marks Prod.snd (entries.drop stop ++ [summary])))
    (overflow : budget.fits itemBytes ((entries.drop stop).map Prod.snd ++ [summary.2]) ≠ true) :
    Store.buildModelContext Prod.snd itemBytes budget (entries.drop stop ++ [summary]) = [] ∨
      ∃ entry ∈ entries.drop stop,
        entry ∉ Store.buildModelContext Prod.snd itemBytes budget
          (entries.drop stop ++ [summary]) := by
  obtain ⟨again, within, result, good, -⟩ := buildModelContext_spec itemBytes budget balanced
  have moved : again ≠ 0 := by
    rintro rfl
    apply overflow
    have fitting := (good (by simp)).1
    simpa using fitting
  rw [result]
  cases suffix : entries.drop stop with
  | nil =>
      left
      apply List.drop_of_length_le
      simp
      omega
  | cons entry later =>
      refine .inr ⟨entry, List.mem_cons_self, fun inside => ?_⟩
      rw [suffix, List.cons_append, List.nodup_cons] at distinct
      obtain ⟨shorter, rfl⟩ := Nat.exists_eq_succ_of_ne_zero moved
      rw [List.cons_append, List.drop_succ_cons] at inside
      exact distinct.1 (List.mem_of_mem_drop inside)

theorem eventItem_compactionEvent (promptBlock : IncidentContext → String)
    (history : List EventEnvelope) (content : Content) (first last : EventEnvelope)
    (covered : List EventEnvelope) (summaryId : Uuid) :
    ∃ summary, summary.mark = .other ∧
      eventItem promptBlock printRange
        (compactionEvent content history first last covered summaryId) = some summary ∧
      eventItem promptBlock printRange
        (compactionEvent content history first last covered 0) = some summary :=
  ⟨_, rfl, rfl, rfl⟩

/-- The summary of a log comes behind its entries. -/
theorem nodup_suffix (promptBlock : IncidentContext → String) {envelope : EventEnvelope}
    (increasing : history.Pairwise fun left right => left.seq < right.seq)
    (later : ∀ earlier ∈ history, earlier.seq < envelope.seq) (stop : Nat)
    (summary : ModelItem) :
    ((loggedItems promptBlock history).drop stop ++ [(envelope.seq, summary)]).Nodup := by
  have entries := loggedItems_increasing promptBlock increasing
  have below : ∀ entry ∈ loggedItems promptBlock history, entry.1 < envelope.seq := by
    intro entry member
    obtain ⟨earlier, among, item⟩ := List.mem_filterMap.mp member
    obtain ⟨found, -, rfl⟩ := Option.map_eq_some_iff.mp item
    exact later earlier among
  rw [List.nodup_append]
  refine ⟨?_, by simp, ?_⟩
  · have apart := entries.sublist (List.drop_sublist stop _)
    refine apart.imp ?_
    intro left right less same
    rw [same] at less
    exact Nat.lt_irrefl _ less
  · intro entry member other last same
    rw [List.mem_singleton] at last
    have less := below entry (List.mem_of_mem_drop member)
    rw [same, last] at less
    exact Nat.lt_irrefl _ less

/-- The range of a prefix that divides no pair takes calls and results together. -/
theorem covered_together {entries : List (Nat × ModelItem)} {stop : Nat}
    {first last call result : Nat × ModelItem} {pair : Nat × Nat}
    (increasing : entries.Pairwise fun left right => left.1 < right.1)
    (head : (entries.take stop).head? = some first)
    (end' : (entries.take stop).getLast? = some last) (within : stop ≤ entries.length)
    (uncut : stop < entries.length → Uncut (marks Prod.snd entries) stop)
    (among : pair ∈ pairs (marks Prod.snd entries)) (callAt : entries[pair.1]? = some call)
    (resultAt : entries[pair.2]? = some result) :
    (isCovered call.1 [(first.1, last.1)] = true → isCovered result.1 [(first.1, last.1)] = true) ∧
      (isCovered result.1 [(first.1, last.1)] = true →
        isCovered call.1 [(first.1, last.1)] = true) := by
  obtain ⟨inside, beyond⟩ := isCovered_prefix increasing head end'
  have placed {position : Nat} {entry : Nat × ModelItem}
      (found : entries[position]? = some entry) :
      isCovered entry.1 [(first.1, last.1)] = true ↔ position < stop := by
    by_cases early : position < stop
    · have member : entry ∈ entries.take stop := by
        apply List.mem_of_getElem?
        rw [List.getElem?_take_of_lt early, found]
      exact ⟨fun _ => early, fun _ => inside entry member⟩
    · have member : entry ∈ entries.drop stop := by
        apply List.mem_of_getElem? (i := position - stop)
        rw [List.getElem?_drop, show stop + (position - stop) = position by omega, found]
      rw [not_isCovered_of_gt (beyond entry member)]
      exact ⟨fun covered => (by cases covered), fun less => absurd less early⟩
  obtain ⟨order, -, -⟩ := (reads (marks Prod.snd entries)).pairs pair among
  have bound := (List.getElem?_eq_some_iff.mp resultAt).1
  rw [placed callAt, placed resultAt]
  constructor
  · intro early
    by_cases room : stop < entries.length
    · have whole := uncut room pair among
      omega
    · omega
  · intro early
    omega

/-- A log whose items up to a cut that divides no pair are replaced by a summary behind it. -/
structure Summarised (promptBlock : IncidentContext → String) (history : List EventEnvelope)
    (envelope : EventEnvelope) (summary : ModelItem) (stop : Nat) (first last : Nat × ModelItem) :
    Prop where
  clean : Uncompacted promptBlock history
  increasing : history.Pairwise fun left right => left.seq < right.seq
  later : ∀ earlier ∈ history, earlier.seq < envelope.seq
  within : stop ≤ (loggedItems promptBlock history).length
  uncut : stop < (loggedItems promptBlock history).length →
    Uncut (marks Prod.snd (loggedItems promptBlock history)) stop
  head : ((loggedItems promptBlock history).take stop).head? = some first
  final : ((loggedItems promptBlock history).take stop).getLast? = some last
  covers : compactedRange envelope.event = some (first.1, last.1)
  item : eventItem promptBlock printRange envelope.event = some summary
  plain : summary.mark = .other

namespace Summarised

variable {envelope : EventEnvelope} {summary : ModelItem} {stop : Nat}
  {first last : Nat × ModelItem}

theorem tagged (summarised : Summarised promptBlock history envelope summary stop first last) :
    taggedItems promptBlock history = loggedItems promptBlock history :=
  taggedItems_eq_loggedItems promptBlock summarised.clean.ranges

/-- Nothing of the log is dropped for want of its other half. -/
theorem paired (summarised : Summarised promptBlock history envelope summary stop first last) :
    dropUnpaired Prod.snd (taggedItems promptBlock history) = taggedItems promptBlock history := by
  rw [summarised.tagged]
  exact (dropUnpaired_eq_self_iff Prod.snd _).mpr (loggedItems_balanced summarised.clean)

theorem ranges (summarised : Summarised promptBlock history envelope summary stop first last) :
    compactedRanges (history ++ [envelope]) = [(first.1, last.1)] := by
  have none := summarised.clean.ranges
  unfold compactedRanges at none ⊢
  rw [List.filterMap_append, none]
  simp [summarised.covers]

theorem next (summarised : Summarised promptBlock history envelope summary stop first last)
    (itemBytes : ModelItem → Nat) (budget : ContextBudget) :
    nextContext promptBlock itemBytes budget (history ++ [envelope]) =
      Store.buildModelContext Prod.snd itemBytes budget
        ((loggedItems promptBlock history).drop stop ++ [(envelope.seq, summary)]) := by
  rw [nextContext, taggedItems_append summarised.clean.ranges summarised.covers summarised.item,
    filter_prefix (loggedItems_increasing promptBlock summarised.increasing) summarised.head
      summarised.final]

theorem balanced (summarised : Summarised promptBlock history envelope summary stop first last) :
    Balanced (marks Prod.snd
      ((loggedItems promptBlock history).drop stop ++ [(envelope.seq, summary)])) := by
  have plain : (envelope.seq, summary).2.mark = .other := summarised.plain
  exact balanced_suffix (loggedItems_balanced summarised.clean) summarised.uncut plain

/-- An item behind the cut is outside the range of the summary, so it goes on itself. -/
theorem goes_of_losesNothing
    (summarised : Summarised promptBlock history envelope summary stop first last)
    (loses : LosesNothing promptBlock itemBytes budget history (history ++ [envelope]))
    {entry : Nat × ModelItem} (member : entry ∈ (loggedItems promptBlock history).drop stop) :
    entry ∈ nextContext promptBlock itemBytes budget (history ++ [envelope]) := by
  have old : entry ∈ taggedItems promptBlock history := by
    rw [summarised.tagged]
    exact List.mem_of_mem_drop member
  rcases loses.kept entry old with goes | dropped | ⟨range, among, covered, is, -, high, -⟩
  · exact goes
  · rw [summarised.paired] at dropped
    exact absurd old dropped
  · rcases List.mem_append.mp among with earlier | new
    · rw [compactedRange_of_ranges_nil summarised.clean.ranges earlier] at is
      cases is
    · rw [List.mem_singleton.mp new, summarised.covers] at is
      cases is
      have entries := loggedItems_increasing promptBlock summarised.increasing
      obtain ⟨-, beyond⟩ := isCovered_prefix entries summarised.head summarised.final
      exact absurd high (Nat.not_le_of_lt (beyond entry member))

/-- Something goes into the next context. -/
theorem next_ne_nil (summarised : Summarised promptBlock history envelope summary stop first last)
    (loses : LosesNothing promptBlock itemBytes budget history (history ++ [envelope])) :
    nextContext promptBlock itemBytes budget (history ++ [envelope]) ≠ [] := by
  intro empty
  have old : first ∈ taggedItems promptBlock history := by
    rw [summarised.tagged]
    exact List.mem_of_mem_take (List.mem_of_mem_head? summarised.head)
  rcases loses.kept first old with goes | dropped | ⟨_, _, _, _, _, _, _, goes⟩
  · rw [empty] at goes
    cases goes
  · rw [summarised.paired] at dropped
    exact dropped old
  · rw [empty] at goes
    cases goes

theorem fits_of_losesNothing
    (summarised : Summarised promptBlock history envelope summary stop first last)
    (loses : LosesNothing promptBlock itemBytes budget history (history ++ [envelope])) :
    budget.fits itemBytes
      (((loggedItems promptBlock history).drop stop).map Prod.snd ++ [summary]) = true := by
  refine Decidable.byContradiction fun overflow => ?_
  have distinct := nodup_suffix promptBlock summarised.increasing summarised.later stop summary
  rcases lost_of_overflow distinct summarised.balanced overflow with empty | ⟨entry, member, lost⟩
  · exact summarised.next_ne_nil loses ((summarised.next itemBytes budget).trans empty)
  · have goes := summarised.goes_of_losesNothing loses member
    rw [summarised.next] at goes
    exact lost goes

/-- Where all fits, an item goes on or is in the range of the summary that goes. -/
theorem losesNothing_of_fits
    (summarised : Summarised promptBlock history envelope summary stop first last)
    (fitting : budget.fits itemBytes
      (((loggedItems promptBlock history).drop stop).map Prod.snd ++ [summary]) = true) :
    LosesNothing promptBlock itemBytes budget history (history ++ [envelope]) := by
  have entries := loggedItems_increasing promptBlock summarised.increasing
  obtain ⟨inside, -⟩ := isCovered_prefix entries summarised.head summarised.final
  have next : nextContext promptBlock itemBytes budget (history ++ [envelope]) =
      (loggedItems promptBlock history).drop stop ++ [(envelope.seq, summary)] := by
    obtain ⟨again, -, result, -, whole⟩ :=
      buildModelContext_spec itemBytes budget summarised.balanced
    rw [summarised.next, result, whole (by simpa using fitting), List.drop_zero]
  constructor
  · intro entry member
    rw [summarised.tagged, ← List.take_append_drop stop (loggedItems promptBlock history)] at member
    rcases List.mem_append.mp member with early | late
    · have covered := inside entry early
      simp only [isCovered, List.any_cons, List.any_nil, Bool.or_false, Bool.and_eq_true,
        decide_eq_true_eq] at covered
      refine .inr (.inr ⟨envelope, by simp, _, summarised.covers, covered.1, covered.2,
        summary, ?_⟩)
      rw [next]
      exact List.mem_append_right _ List.mem_cons_self
    · left
      rw [next]
      exact List.mem_append_left _ late
  · intro other covered grown is pair among call result callAt resultAt
    have same : envelope = other := by simpa using grown
    subst same
    rw [summarised.covers] at is
    cases is
    rw [summarised.ranges]
    exact covered_together entries summarised.head summarised.final summarised.within
      summarised.uncut among callAt resultAt

end Summarised

/-- A compaction of an uncompacted log loses nothing silently exactly if what is kept
fits together with the summary. -/
theorem losesNothing_iff_summaryFits {after : List EventEnvelope}
    (increasing : history.Pairwise fun left right => left.seq < right.seq)
    (compacts : Compacts (projecting rest promptBlock itemBytes) budget history after)
    (clean : Uncompacted promptBlock history) :
    LosesNothing promptBlock itemBytes budget history after ↔
      SummaryFits promptBlock itemBytes budget (projecting rest promptBlock itemBytes)
        history := by
  have tagged := taggedItems_eq_loggedItems promptBlock clean.ranges
  obtain ⟨stop, within, kept, uncut, count⟩ := kept_of_uncompacted itemBytes budget clean
  have total : (modelItemsFromEvents promptBlock history).length =
      (loggedItems promptBlock history).length := by
    rw [← taggedItems_snd, List.length_map, tagged]
  rcases Nat.eq_zero_or_pos stop with rfl | positive
  · have all : Store.buildModelContext id itemBytes budget
        (modelItemsFromEvents promptBlock history) =
          modelItemsFromEvents promptBlock history := by
      rw [kept, List.drop_zero, ← tagged, taggedItems_snd]
    have loses := losesNothing_of_kept compacts all
    refine ⟨fun _ => ?_, fun _ => loses⟩
    intro first found
    simp [count, coveredEvents] at found
  · obtain ⟨first, last, firstEntry, lastEntry, firstIs, lastIs, head, final, firstSeq, lastSeq⟩ :=
      coveredEvents_of_uncompacted clean positive within
    have dropped : (Store.buildModelContext id itemBytes budget
        (modelItemsFromEvents promptBlock history)).length <
          (modelItemsFromEvents promptBlock history).length := by omega
    rw [← count] at firstIs lastIs
    obtain ⟨envelope, summaryId, rfl, event, later⟩ :=
      compacts_of_dropped compacts clean.ranges dropped firstIs lastIs
    rw [count] at firstIs lastIs event
    obtain ⟨summary, plain, item, same⟩ := eventItem_compactionEvent promptBlock history
      (projecting rest promptBlock itemBytes) first last (coveredEvents stop history) summaryId
    have covers : compactedRange envelope.event = some (firstEntry.1, lastEntry.1) := by
      rw [event, ← firstSeq, ← lastSeq]
      rfl
    have summarised : Summarised promptBlock history envelope summary stop firstEntry lastEntry :=
      ⟨clean, increasing, later, within, uncut, head, final, covers, event ▸ item, plain⟩
    have fits_iff : SummaryFits promptBlock itemBytes budget
        (projecting rest promptBlock itemBytes) history ↔
        budget.fits itemBytes (((loggedItems promptBlock history).drop stop).map Prod.snd ++
          [summary]) = true := by
      unfold SummaryFits
      simp only [count]
      simp only [firstIs, lastIs, Option.mem_def, Option.some.injEq, forall_eq', same, kept]
    rw [fits_iff]
    exact ⟨summarised.fits_of_losesNothing, summarised.losesNothing_of_fits⟩

/-- What a compaction loses silently: nothing where nothing is dropped; and of a log that
was never compacted and has no unpaired item, nothing exactly if the summary fits. -/
theorem losesNothing_of_compacts {after : List EventEnvelope}
    (increasing : history.Pairwise fun left right => left.seq < right.seq)
    (compacts : Compacts (projecting rest promptBlock itemBytes) budget history after) :
    (Store.buildModelContext id itemBytes budget (modelItemsFromEvents promptBlock history) =
        modelItemsFromEvents promptBlock history →
      LosesNothing promptBlock itemBytes budget history after) ∧
    (Uncompacted promptBlock history →
      (LosesNothing promptBlock itemBytes budget history after ↔
        SummaryFits promptBlock itemBytes budget (projecting rest promptBlock itemBytes)
          history)) :=
  ⟨losesNothing_of_kept compacts, losesNothing_iff_summaryFits increasing compacts⟩

end Pending

end

namespace Demo.Compaction

def envelope (seq : Nat) (event : RuntimeEvent) : EventEnvelope where
  schemaVersion := eventSchemaVersion
  streamKind := streamKindFor event
  eventId := ⟨seq⟩
  seq := seq
  workspaceId := .default
  threadId := ⟨0⟩
  turnId := none
  itemId := none
  causationId := none
  timestamp := 0
  event := event

/-- A turn, and the beginning of a second one. -/
def history : List EventEnvelope := [
  envelope 1 .threadCreated,
  envelope 2 (.userMessage "what happened?" none),
  envelope 3 .turnStarted,
  envelope 4 (.assistantCompleted "the disk is full" none),
  envelope 5 .turnCompleted,
  envelope 6 (.userMessage "which disk?" none),
  envelope 7 .turnStarted]

def itemBytes (item : ModelItem) : Nat :=
  match item with
  | .userMessage "what happened?" => 50
  | _ => 10

/-- A budget of items or of bytes. -/
def budget (maxItems maxBytes : Nat) : ContextBudget where
  maxItems := maxItems
  maxTokens := 1000
  maxBytes := maxBytes
  maxEvidence := 32
  maxToolCalls := 24
  maxCostMicros := 0

def content : Content := projecting Content.plain (fun _ => "") itemBytes

def compacted : EventEnvelope :=
  envelope 8 (compactionEvent content history (envelope 2 (.userMessage "what happened?" none))
    (envelope 2 (.userMessage "what happened?" none))
    [envelope 2 (.userMessage "what happened?" none)] 9)

theorem increasing : history.Pairwise fun left right => left.seq < right.seq := by decide

theorem compacts (maxItems maxBytes : Nat)
    (pending : pendingCompaction content (budget maxItems maxBytes) history =
      some (envelope 2 (.userMessage "what happened?" none),
        envelope 2 (.userMessage "what happened?" none),
        [envelope 2 (.userMessage "what happened?" none)])) :
    Compacts content (budget maxItems maxBytes) history (history ++ [compacted]) := by
  refine .appended pending rfl ?_
  decide

end Demo.Compaction

/-- A budget of bytes that drops a long message has room for the summary. -/
theorem losesNothing_of_compacts_longMessage :
    (Store.buildModelContext id Demo.Compaction.itemBytes (Demo.Compaction.budget 10 60)
        (modelItemsFromEvents (fun _ => "") Demo.Compaction.history) =
        modelItemsFromEvents (fun _ => "") Demo.Compaction.history →
      LosesNothing (fun _ => "") Demo.Compaction.itemBytes (Demo.Compaction.budget 10 60)
        Demo.Compaction.history (Demo.Compaction.history ++ [Demo.Compaction.compacted])) ∧
    (Uncompacted (fun _ => "") Demo.Compaction.history →
      (LosesNothing (fun _ => "") Demo.Compaction.itemBytes (Demo.Compaction.budget 10 60)
          Demo.Compaction.history (Demo.Compaction.history ++ [Demo.Compaction.compacted]) ↔
        SummaryFits (fun _ => "") Demo.Compaction.itemBytes (Demo.Compaction.budget 10 60)
          Demo.Compaction.content Demo.Compaction.history)) :=
  losesNothing_of_compacts Demo.Compaction.increasing (Demo.Compaction.compacts 10 60 rfl)

/-- A budget of two items keeps two of three; the summary of the first makes them three
again, and the second is lost. -/
theorem not_losesNothing :
    Compacts Demo.Compaction.content (Demo.Compaction.budget 2 1000) Demo.Compaction.history
        (Demo.Compaction.history ++ [Demo.Compaction.compacted]) ∧
      ¬ LosesNothing (fun _ => "") Demo.Compaction.itemBytes (Demo.Compaction.budget 2 1000)
        Demo.Compaction.history (Demo.Compaction.history ++ [Demo.Compaction.compacted]) := by
  have compacts := Demo.Compaction.compacts 2 1000 rfl
  refine ⟨compacts, fun loses => ?_⟩
  have clean : Uncompacted (fun _ => "") Demo.Compaction.history := ⟨rfl, rfl⟩
  have fits := (losesNothing_iff_summaryFits Demo.Compaction.increasing compacts clean).mp loses
  have full := fits _ rfl _ rfl _ rfl
  exact absurd full (by decide)

end OpsCodex.Runtime
