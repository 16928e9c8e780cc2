import Mathlib.Data.List.Induction
import Mathlib.Data.List.Nodup

/-! First-in first-out matching of closing marks to opening marks of the same key. -/

set_option autoImplicit false

namespace Matching

inductive Mark (Key : Type) where
  | opens (key : Key)
  | closes (key : Key)
  | other

/-- The marks read so far: how many, the openings that wait for their closing, and the
positions of each opening and its closing. -/
structure State (Key : Type) where
  next : Nat
  waiting : List (Key × Nat)
  pairs : List (Nat × Nat)

variable {Key : Type} [DecidableEq Key]

def State.initial : State Key := { next := 0, waiting := [], pairs := [] }

def State.step (state : State Key) : Mark Key → State Key
  | .opens key => { state with
      next := state.next + 1
      waiting := state.waiting ++ [(key, state.next)] }
  | .closes key =>
      match state.waiting.find? fun entry => decide (entry.1 = key) with
      | some entry => {
          next := state.next + 1
          waiting := state.waiting.eraseP fun entry => decide (entry.1 = key)
          pairs := state.pairs ++ [(entry.2, state.next)] }
      | none => { state with next := state.next + 1 }
  | .other => { state with next := state.next + 1 }

def State.run (state : State Key) (marks : List (Mark Key)) : State Key :=
  marks.foldl State.step state

def pairs (marks : List (Mark Key)) : List (Nat × Nat) :=
  (State.initial.run marks).pairs

/-- The mark at a position is matched. -/
def matched (marks : List (Mark Key)) (position : Nat) : Bool :=
  (pairs marks).any fun pair => pair.1 = position || pair.2 = position

/-- Every opening and every closing is matched. -/
def Balanced (marks : List (Mark Key)) : Prop :=
  ∀ position key, marks[position]? = some (.opens key) ∨ marks[position]? = some (.closes key) →
    matched marks position = true

/-- No pair has one mark before a position and the other behind it. -/
def Uncut (marks : List (Mark Key)) (position : Nat) : Prop :=
  ∀ pair ∈ pairs marks, ¬ (pair.1 < position ∧ position ≤ pair.2)

namespace State

theorem run_append (state : State Key) (first second : List (Mark Key)) :
    state.run (first ++ second) = (state.run first).run second := List.foldl_append

theorem step_next (state : State Key) (mark : Mark Key) :
    (state.step mark).next = state.next + 1 := by
  cases mark with
  | opens key => rfl
  | closes key =>
      simp only [step]
      split <;> rfl
  | other => rfl

theorem step_pairs (state : State Key) (mark : Mark Key) :
    ∃ added, (state.step mark).pairs = state.pairs ++ added ∧
      ∀ pair ∈ added, pair.2 = state.next := by
  cases mark with
  | opens key => exact ⟨[], by simp [step], by simp⟩
  | closes key =>
      simp only [step]
      split
      · exact ⟨_, rfl, by simp⟩
      · exact ⟨[], by simp, by simp⟩
  | other => exact ⟨[], by simp [step], by simp⟩

/-- Later marks add pairs whose closing is among them. -/
theorem run_pairs (state : State Key) (marks : List (Mark Key)) :
    ∃ added, (state.run marks).pairs = state.pairs ++ added ∧
      ∀ pair ∈ added, state.next ≤ pair.2 := by
  induction marks generalizing state with
  | nil => exact ⟨[], by simp [run], by simp⟩
  | cons mark marks ih =>
      obtain ⟨first, firstEq, firstAt⟩ := step_pairs state mark
      obtain ⟨rest, restEq, restAt⟩ := ih (state.step mark)
      rw [step_next] at restAt
      refine ⟨first ++ rest, ?_, ?_⟩
      · simp only [run, List.foldl_cons] at restEq ⊢
        rw [restEq, firstEq, List.append_assoc]
      · intro pair member
        rcases List.mem_append.mp member with early | late
        · exact Nat.le_of_eq (firstAt pair early).symm
        · have bound := restAt pair late
          omega

/-- A state of a run that began elsewhere. -/
def shift (state : State Key) (offset : Nat) (before : List (Nat × Nat)) : State Key where
  next := offset + state.next
  waiting := state.waiting.map fun entry => (entry.1, offset + entry.2)
  pairs := before ++ state.pairs.map fun pair => (offset + pair.1, offset + pair.2)

theorem shift_step (state : State Key) (offset : Nat) (before : List (Nat × Nat))
    (mark : Mark Key) : (state.shift offset before).step mark =
      (state.step mark).shift offset before := by
  cases mark with
  | opens key => simp [step, shift, Nat.add_assoc]
  | closes key =>
      have found : (state.waiting.map fun entry => (entry.1, offset + entry.2)).find?
            (fun entry => decide (entry.1 = key)) =
          (state.waiting.find? fun entry => decide (entry.1 = key)).map
            fun entry => (entry.1, offset + entry.2) := by
        rw [List.find?_map]
        rfl
      have erased : (state.waiting.map fun entry => (entry.1, offset + entry.2)).eraseP
            (fun entry => decide (entry.1 = key)) =
          (state.waiting.eraseP fun entry => decide (entry.1 = key)).map
            fun entry => (entry.1, offset + entry.2) := by
        rw [List.eraseP_map]
        rfl
      cases first : state.waiting.find? fun entry => decide (entry.1 = key) with
      | none => simp [step, shift, found, first, Nat.add_assoc]
      | some entry => simp [step, shift, found, erased, first, Nat.add_assoc]
  | other => simp [step, shift, Nat.add_assoc]

theorem shift_run (state : State Key) (offset : Nat) (before : List (Nat × Nat))
    (marks : List (Mark Key)) : (state.shift offset before).run marks =
      (state.run marks).shift offset before := by
  induction marks generalizing state with
  | nil => rfl
  | cons mark marks ih =>
      have later := ih (state.step mark)
      simp only [run, List.foldl_cons] at later ⊢
      rw [shift_step, later]

/-- What the reading of some marks has found. -/
structure Reads (state : State Key) (marks : List (Mark Key)) : Prop where
  next : state.next = marks.length
  waiting : ∀ entry ∈ state.waiting, marks[entry.2]? = some (.opens entry.1) ∧
    ∀ pair ∈ state.pairs, pair.1 ≠ entry.2
  once : (state.waiting.map Prod.snd).Nodup
  pairs : ∀ pair ∈ state.pairs, pair.1 < pair.2 ∧ pair.2 < marks.length ∧
    ∃ key, marks[pair.1]? = some (.opens key) ∧ marks[pair.2]? = some (.closes key)

omit [DecidableEq Key] in
theorem Reads.lt {state : State Key} {marks : List (Mark Key)} (reads : state.Reads marks)
    {entry : Key × Nat} (member : entry ∈ state.waiting) : entry.2 < marks.length :=
  (List.getElem?_eq_some_iff.mp (reads.waiting entry member).1).1

/-- The entry that is taken out is the only one of its position. -/
theorem erased_ne {waiting : List (Key × Nat)} {key : Key} {opening entry : Key × Nat}
    (once : (waiting.map Prod.snd).Nodup)
    (found : waiting.find? (fun entry => decide (entry.1 = key)) = some opening)
    (member : entry ∈ waiting.eraseP fun entry => decide (entry.1 = key)) :
    entry.2 ≠ opening.2 := by
  obtain ⟨first, before, after, split, earlier⟩ := List.find?_eq_some_iff_append.mp found
  have absent : ∀ other ∈ before, ¬ decide (other.1 = key) = true := by
    intro other otherMember
    simpa using earlier other otherMember
  rw [split, List.eraseP_append_right _ absent, List.eraseP_cons_of_pos (by exact first)]
    at member
  rw [split, List.map_append, List.map_cons, List.nodup_middle] at once
  intro same
  apply (List.nodup_cons.mp once).1
  rw [← List.map_append, ← same]
  exact List.mem_map_of_mem member

theorem Reads.step {state : State Key} {marks : List (Mark Key)} (reads : state.Reads marks)
    (mark : Mark Key) : (state.step mark).Reads (marks ++ [mark]) := by
  have old {position : Nat} {found : Mark Key} (at' : marks[position]? = some found) :
      (marks ++ [mark])[position]? = some found := by
    have below := (List.getElem?_eq_some_iff.mp at').1
    rw [List.getElem?_append_left below, at']
  have last : (marks ++ [mark])[state.next]? = some mark := by
    rw [reads.next]
    simp
  have kept (pair : Nat × Nat) (member : pair ∈ state.pairs) :
      pair.1 < pair.2 ∧ pair.2 < (marks ++ [mark]).length ∧
        ∃ key, (marks ++ [mark])[pair.1]? = some (.opens key) ∧
          (marks ++ [mark])[pair.2]? = some (.closes key) := by
    obtain ⟨order, below, key, opening, closing⟩ := reads.pairs pair member
    refine ⟨order, ?_, key, old opening, old closing⟩
    simp only [List.length_append, List.length_singleton]
    omega
  have length : state.next + 1 = (marks ++ [mark]).length := by simp [reads.next]
  cases mark with
  | other =>
      exact ⟨length, fun entry member => ⟨old (reads.waiting entry member).1,
        (reads.waiting entry member).2⟩, reads.once, kept⟩
  | opens key =>
      refine ⟨length, ?_, ?_, kept⟩
      · intro entry member
        rcases List.mem_append.mp member with earlier | added
        · exact ⟨old (reads.waiting entry earlier).1, (reads.waiting entry earlier).2⟩
        · rw [List.mem_singleton.mp added]
          refine ⟨last, fun pair found same => ?_⟩
          obtain ⟨order, below, -⟩ := reads.pairs pair found
          have bound := reads.next
          simp only at same
          omega
      · simp only [State.step, List.map_append, List.map_cons, List.map_nil]
        rw [List.nodup_append]
        refine ⟨reads.once, by simp, ?_⟩
        intro position member fresh added same
        obtain ⟨entry, inside, rfl⟩ := List.mem_map.mp member
        have below := reads.lt inside
        have bound := reads.next
        rw [List.mem_singleton] at added
        omega
  | closes key =>
      cases found : state.waiting.find? fun entry => decide (entry.1 = key) with
      | none =>
          simp only [State.step, found]
          exact ⟨length, fun entry member => ⟨old (reads.waiting entry member).1,
            (reads.waiting entry member).2⟩, reads.once, kept⟩
      | some opening =>
          simp only [State.step, found]
          have inside := List.mem_of_find?_eq_some found
          have sameKey : opening.1 = key := by simpa using List.find?_some found
          have shorter : (state.waiting.eraseP fun entry => decide (entry.1 = key)).Sublist
              state.waiting := List.eraseP_sublist
          refine ⟨length, ?_, reads.once.sublist (shorter.map _), ?_⟩
          · intro entry member
            have earlier := shorter.subset member
            refine ⟨old (reads.waiting entry earlier).1, fun pair pairMember same => ?_⟩
            rcases List.mem_append.mp pairMember with before | added
            · exact (reads.waiting entry earlier).2 pair before same
            · rw [List.mem_singleton.mp added] at same
              exact erased_ne reads.once found member same.symm
          · intro pair member
            rcases List.mem_append.mp member with before | added
            · exact kept pair before
            · rw [List.mem_singleton.mp added]
              have below := reads.lt inside
              have bound := reads.next
              refine ⟨by simp only; omega, by simp only; omega, key, ?_, last⟩
              exact sameKey ▸ old (reads.waiting opening inside).1

theorem Reads.run {state : State Key} {marks : List (Mark Key)} (reads : state.Reads marks)
    (more : List (Mark Key)) : (state.run more).Reads (marks ++ more) := by
  induction more generalizing state marks with
  | nil => simpa [State.run] using reads
  | cons mark more ih =>
      have later := ih (reads.step mark)
      rwa [List.append_assoc, List.singleton_append] at later

omit [DecidableEq Key] in
theorem reads_initial : (State.initial : State Key).Reads [] :=
  ⟨rfl, by simp [initial], by simp [initial], by simp [initial]⟩

end State

theorem reads (marks : List (Mark Key)) : (State.initial.run marks).Reads marks := by
  simpa using State.reads_initial.run marks

variable {marks : List (Mark Key)} {position : Nat}

/-- Where balanced marks are cut at no pair, nothing waits. -/
theorem waiting_take (balanced : Balanced marks) (uncut : Uncut marks position) :
    (State.initial.run (marks.take position)).waiting = [] := by
  apply List.eq_nil_iff_forall_not_mem.mpr
  intro entry member
  have before := reads (marks.take position)
  obtain ⟨opening, unpaired⟩ := before.waiting entry member
  have below := before.lt member
  have at' : marks[entry.2]? = some (.opens entry.1) := by
    rwa [List.getElem?_take_of_lt (by simp at below; omega)] at opening
  have found := balanced entry.2 entry.1 (.inl at')
  obtain ⟨pair, pairMember, ends⟩ := List.any_eq_true.mp found
  have whole := reads marks
  obtain ⟨added, addedEq, later⟩ :=
    State.run_pairs (State.initial.run (marks.take position)) (marks.drop position)
  rw [← State.run_append, List.take_append_drop] at addedEq
  have length := before.next
  rw [List.length_take] at length below
  rw [pairs, addedEq] at pairMember
  have inside : pair ∈ (State.initial.run marks).pairs := addedEq ▸ pairMember
  obtain ⟨order, pairBelow, key, -, closing⟩ := whole.pairs pair inside
  have starts : pair.1 = entry.2 := by
    rcases Bool.or_eq_true_iff.mp ends with opens | closes
    · simpa using opens
    · have ends' : pair.2 = entry.2 := by simpa using closes
      rw [ends', at'] at closing
      cases closing
  rcases List.mem_append.mp pairMember with early | late
  · exact unpaired pair early starts
  · have bound := later pair late
    apply uncut pair inside
    omega

/-- What lies behind a position where balanced marks are cut at no pair is balanced. -/
theorem balanced_drop (balanced : Balanced marks) (uncut : Uncut marks position) :
    Balanced (marks.drop position) := by
  intro index key found
  have before := reads (marks.take position)
  have empty := waiting_take balanced uncut
  have rest : State.initial.run marks = (State.initial.run (marks.drop position)).shift
      (State.initial.run (marks.take position)).next
      (State.initial.run (marks.take position)).pairs := by
    rw [← State.shift_run]
    have start : (State.initial : State Key).shift (State.initial.run (marks.take position)).next
        (State.initial.run (marks.take position)).pairs =
        State.initial.run (marks.take position) := by
      cases cut : State.initial.run (marks.take position) with
      | mk next waiting pairs =>
          rw [cut] at empty
          simp only at empty
          simp [State.shift, State.initial, empty]
    rw [start, ← State.run_append, List.take_append_drop]
  simp only [List.getElem?_drop] at found
  have inside : position + index < marks.length := by
    rcases found with opens | closes
    · exact (List.getElem?_eq_some_iff.mp opens).1
    · exact (List.getElem?_eq_some_iff.mp closes).1
  have whole := balanced (position + index) key found
  obtain ⟨pair, member, ends⟩ := List.any_eq_true.mp whole
  have length := before.next
  rw [List.length_take, Nat.min_eq_left (by omega)] at length
  rw [pairs, rest, length] at member
  rcases List.mem_append.mp member with early | late
  · obtain ⟨order, below, -⟩ := before.pairs pair early
    rw [List.length_take] at below
    simp only [Bool.or_eq_true, decide_eq_true_eq] at ends
    omega
  · obtain ⟨own, ownMember, rfl⟩ := List.mem_map.mp late
    refine List.any_eq_true.mpr ⟨own, ownMember, ?_⟩
    simpa using ends

/-- A mark that neither opens nor closes leaves marks balanced. -/
theorem balanced_other (balanced : Balanced marks) : Balanced (marks ++ [.other]) := by
  intro index key found
  have same : pairs (marks ++ [.other]) = pairs marks := by
    rw [pairs, State.run_append]
    rfl
  have inside : index < marks.length := by
    refine Nat.lt_of_not_le fun outside => ?_
    rw [List.getElem?_append_right outside] at found
    cases offset : index - marks.length with
    | zero => simp [offset] at found
    | succ later => simp [offset] at found
  rw [List.getElem?_append_left inside] at found
  rw [matched, same]
  exact balanced index key found

section Thin

/-- The marks at the positions that are kept. -/
def thin (keep : Nat → Bool) (marks : List (Mark Key)) : List (Mark Key) :=
  (marks.zipIdx.filter fun entry => keep entry.2).map Prod.fst

/-- Where a position is after the ones that are not kept are taken out. -/
def rank (keep : Nat → Bool) (position : Nat) : Nat := (List.range position).countP keep

/-- A state without the positions that are not kept. -/
def State.thin (keep : Nat → Bool) (state : State Key) : State Key where
  next := rank keep state.next
  waiting := (state.waiting.filter fun entry => keep entry.2).map fun entry =>
    (entry.1, rank keep entry.2)
  pairs := state.pairs.map fun pair => (rank keep pair.1, rank keep pair.2)

variable {keep : Nat → Bool} {position : Nat} {marks : List (Mark Key)} {mark : Mark Key}
  {state : State Key}

theorem rank_succ (keep : Nat → Bool) (position : Nat) :
    rank keep (position + 1) = rank keep position + if keep position then 1 else 0 := by
  rw [rank, rank, List.range_succ, List.countP_append, List.countP_singleton]

omit [DecidableEq Key] in
theorem thin_snoc (marks : List (Mark Key)) (mark : Mark Key) :
    thin keep (marks ++ [mark]) =
      thin keep marks ++ if keep marks.length then [mark] else [] := by
  rw [thin, thin, List.zipIdx_append, List.filter_append, List.map_append]
  cases kept : keep marks.length with
  | true => simp [List.zipIdx, kept]
  | false => simp [List.zipIdx, kept]

omit [DecidableEq Key] in
theorem length_thin (marks : List (Mark Key)) :
    (thin keep marks).length = rank keep marks.length := by
  induction marks using List.reverseRecOn with
  | nil => rfl
  | append_singleton marks mark ih =>
      rw [thin_snoc, List.length_append, ih, List.length_append, List.length_singleton, rank_succ]
      split
      · rfl
      · rfl

omit [DecidableEq Key] in
/-- What is kept was at a position that is kept. -/
theorem getElem?_thin (found : (thin keep marks)[position]? = some mark) :
    ∃ origin, marks[origin]? = some mark ∧ keep origin = true ∧ rank keep origin = position := by
  induction marks using List.reverseRecOn with
  | nil => cases found
  | append_singleton marks last ih =>
      rw [thin_snoc] at found
      by_cases early : position < (thin keep marks).length
      · rw [List.getElem?_append_left early] at found
        obtain ⟨origin, at', kept, ranked⟩ := ih found
        have below := (List.getElem?_eq_some_iff.mp at').1
        exact ⟨origin, by rw [List.getElem?_append_left below, at'], kept, ranked⟩
      · rw [List.getElem?_append_right (Nat.le_of_not_lt early)] at found
        split at found
        · rename_i kept
          obtain ⟨only, same⟩ := List.getElem?_eq_some_iff.mp found
          rw [List.length_singleton, Nat.lt_one_iff] at only
          rw [length_thin] at only early
          refine ⟨marks.length, ?_, kept, by omega⟩
          rw [List.getElem?_append_right (Nat.le_refl _), Nat.sub_self, ← same]
          simp
        · cases found

/-- A mark that is not kept and that matches nothing is as if it was not there. -/
theorem State.thin_step_dropped (dropped : keep state.next = false)
    (alone : ∀ key, mark = .closes key →
      state.waiting.find? (fun entry => decide (entry.1 = key)) = none) :
    (state.step mark).thin keep = state.thin keep := by
  have rank : rank keep (state.next + 1) = rank keep state.next := by
    rw [rank_succ, dropped]
    rfl
  cases mark with
  | opens key => simp [step, State.thin, rank, List.filter_append, dropped]
  | closes key => simp [step, State.thin, rank, alone key rfl]
  | other => simp [step, State.thin, rank]

/-- Looking for a key finds the first entry, also when only some entries are kept and this
one is. -/
theorem find?_thin {waiting : List (Key × Nat)} {key : Key} {entry : Key × Nat}
    (found : waiting.find? (fun entry => decide (entry.1 = key)) = some entry)
    (kept : keep entry.2 = true) :
    ((waiting.filter fun entry => keep entry.2).map fun entry =>
        (entry.1, rank keep entry.2)).find? (fun entry => decide (entry.1 = key)) =
      some (entry.1, rank keep entry.2) ∧
    ((waiting.filter fun entry => keep entry.2).map fun entry =>
        (entry.1, rank keep entry.2)).eraseP (fun entry => decide (entry.1 = key)) =
      ((waiting.eraseP fun entry => decide (entry.1 = key)).filter fun entry =>
        keep entry.2).map fun entry => (entry.1, rank keep entry.2) := by
  induction waiting with
  | nil => cases found
  | cons first waiting ih =>
      by_cases same : first.1 = key
      · rw [List.find?_cons_of_pos (by exact decide_eq_true same)] at found
        cases found
        simp [kept, same]
      · rw [List.find?_cons_of_neg (by simpa using same)] at found
        obtain ⟨finds, erases⟩ := ih found
        cases keeps : keep first.2 with
        | true => simp [keeps, same, finds, erases]
        | false => simp [keeps, same, finds, erases]

theorem State.thin_step_kept (kept : keep state.next = true)
    (matches' : ∀ key, mark = .closes key → ∃ entry,
      state.waiting.find? (fun entry => decide (entry.1 = key)) = some entry ∧
        keep entry.2 = true) :
    (state.step mark).thin keep = (state.thin keep).step mark := by
  have rank : rank keep (state.next + 1) = rank keep state.next + 1 := by
    rw [rank_succ, kept]
    rfl
  cases mark with
  | opens key => simp [step, State.thin, rank, List.filter_append, kept]
  | closes key =>
      obtain ⟨entry, found, inside⟩ := matches' key rfl
      obtain ⟨finds, erases⟩ := find?_thin found inside
      simp [step, State.thin, rank, found, finds, erases]
  | other => simp [step, State.thin, rank]

/-- The marks up to a position and the one there. -/
theorem run_take_succ (at' : marks[position]? = some mark) :
    State.initial.run (marks.take (position + 1)) =
      (State.initial.run (marks.take position)).step mark := by
  rw [List.take_add_one, at', State.run_append]
  rfl

/-- The pairs that are found up to a position are found in the end, and the later ones are
closed later. -/
theorem pairs_take (marks : List (Mark Key)) (position : Nat) :
    ∃ added, pairs marks = (State.initial.run (marks.take position)).pairs ++ added ∧
      ∀ pair ∈ added, min position marks.length ≤ pair.2 := by
  obtain ⟨added, all, later⟩ :=
    State.run_pairs (State.initial.run (marks.take position)) (marks.drop position)
  rw [← State.run_append, List.take_append_drop, (reads _).next, List.length_take] at *
  exact ⟨added, all, later⟩

/-- A closing is matched exactly if an opening of its key waits when it is read. -/
theorem matched_closes {key : Key} (at' : marks[position]? = some (.closes key)) :
    matched marks position = true ↔ ∃ entry,
      (State.initial.run (marks.take position)).waiting.find?
        (fun entry => decide (entry.1 = key)) = some entry ∧
          (entry.2, position) ∈ pairs marks := by
  have inside := (List.getElem?_eq_some_iff.mp at').1
  have next : (State.initial.run (marks.take position)).next = position := by
    rw [(reads _).next, List.length_take]
    omega
  obtain ⟨added, all, later⟩ := pairs_take marks (position + 1)
  have step := run_take_succ at'
  constructor
  · intro found
    obtain ⟨pair, member, ends⟩ := List.any_eq_true.mp found
    obtain ⟨order, below, other, opening, closing⟩ := (reads marks).pairs pair member
    have ends : pair.2 = position := by
      rw [Bool.or_eq_true, decide_eq_true_eq, decide_eq_true_eq] at ends
      obtain first | second := ends
      · rw [first, at'] at opening
        cases opening
      · exact second
    rw [all, step] at member
    obtain early | late := List.mem_append.mp member
    · cases waits : (State.initial.run (marks.take position)).waiting.find?
          (fun entry => decide (entry.1 = key)) with
      | none =>
          simp only [State.step, waits] at early
          obtain ⟨-, bound, -⟩ := (reads (marks.take position)).pairs pair early
          rw [List.length_take] at bound
          omega
      | some entry =>
          refine ⟨entry, rfl, ?_⟩
          rw [all, step]
          simp [State.step, waits, next]
    · have bound := later pair late
      omega
  · rintro ⟨entry, -, member⟩
    exact List.any_eq_true.mpr ⟨_, member, by simp⟩

theorem matched_of_mem {pair : Nat × Nat} (member : pair ∈ pairs marks) :
    matched marks pair.1 = true ∧ matched marks pair.2 = true :=
  ⟨List.any_eq_true.mpr ⟨pair, member, by simp⟩, List.any_eq_true.mpr ⟨pair, member, by simp⟩⟩

/-- Reading only what is kept leads to what is kept of the reading, when of openings and
closings the matched ones are kept. -/
theorem run_thin (keeps : ∀ position key,
      marks[position]? = some (.opens key) ∨ marks[position]? = some (.closes key) →
        keep position = matched marks position) (stop : Nat) (within : stop ≤ marks.length) :
    State.initial.run (thin keep (marks.take stop)) =
      (State.initial.run (marks.take stop)).thin keep := by
  induction stop with
  | zero => rfl
  | succ stop ih =>
      have earlier := ih (Nat.le_of_succ_le within)
      have at' : marks[stop]? = some marks[stop] := List.getElem?_eq_getElem within
      have next : (State.initial.run (marks.take stop)).next = stop := by
        rw [(reads _).next, List.length_take]
        omega
      have length : (marks.take stop).length = stop := by
        rw [List.length_take]
        omega
      rw [run_take_succ at', List.take_add_one, at', Option.toList_some, thin_snoc, length]
      cases kept : keep stop with
      | true =>
          rw [if_pos rfl, State.run_append, earlier]
          refine (State.thin_step_kept (by rw [next, kept]) fun key closing => ?_).symm
          have own : marks[stop]? = some (.closes key) := closing ▸ at'
          have found := (keeps stop key (.inr own)).symm.trans kept
          obtain ⟨entry, waits, member⟩ := (matched_closes own).mp found
          refine ⟨entry, waits, ?_⟩
          obtain ⟨-, -, other, opening, -⟩ := (reads marks).pairs _ member
          rw [keeps entry.2 other (.inl opening)]
          exact (matched_of_mem member).1
      | false =>
          rw [if_neg Bool.false_ne_true, List.append_nil, earlier]
          refine (State.thin_step_dropped (by rw [next, kept]) fun key closing => ?_).symm
          have own : marks[stop]? = some (.closes key) := closing ▸ at'
          have unmatched := (keeps stop key (.inr own)).symm.trans kept
          cases waits : (State.initial.run (marks.take stop)).waiting.find?
              (fun entry => decide (entry.1 = key)) with
          | none => rfl
          | some entry =>
              have member : (entry.2, stop) ∈ pairs marks := by
                obtain ⟨added, all, -⟩ := pairs_take marks (stop + 1)
                rw [all, run_take_succ own]
                simp [State.step, waits, next]
              rw [(matched_of_mem member).2] at unmatched
              cases unmatched

/-- What is left is balanced when of openings and closings the matched ones are kept. -/
theorem balanced_thin (keeps : ∀ position key,
      marks[position]? = some (.opens key) ∨ marks[position]? = some (.closes key) →
        keep position = matched marks position) : Balanced (thin keep marks) := by
  intro position key found
  have whole := run_thin keeps marks.length (Nat.le_refl _)
  rw [List.take_length] at whole
  have origin : ∃ origin, (marks[origin]? = some (.opens key) ∨
      marks[origin]? = some (.closes key)) ∧ keep origin = true ∧ rank keep origin = position := by
    obtain opens | closes := found
    · obtain ⟨origin, at', kept, ranked⟩ := getElem?_thin opens
      exact ⟨origin, .inl at', kept, ranked⟩
    · obtain ⟨origin, at', kept, ranked⟩ := getElem?_thin closes
      exact ⟨origin, .inr at', kept, ranked⟩
  obtain ⟨origin, at', kept, rfl⟩ := origin
  rw [keeps origin key at'] at kept
  obtain ⟨pair, member, ends⟩ := List.any_eq_true.mp kept
  refine List.any_eq_true.mpr ⟨(rank keep pair.1, rank keep pair.2), ?_, ?_⟩
  · rw [pairs, whole]
    exact List.mem_map.mpr ⟨pair, member, rfl⟩
  · simp only [Bool.or_eq_true, decide_eq_true_eq] at ends ⊢
    obtain rfl | rfl := ends
    · exact .inl rfl
    · exact .inr rfl

end Thin

section Order

/-- The openings that wait are in the order of their positions, and every opening waits or is
matched. -/
structure State.Ordered (state : State Key) (marks : List (Mark Key)) : Prop where
  sorted : state.waiting.Pairwise fun first second => first.2 < second.2
  opened : ∀ {position key}, marks[position]? = some (.opens key) →
    (key, position) ∈ state.waiting ∨ ∃ pair ∈ state.pairs, pair.1 = position

variable {state : State Key} {marks : List (Mark Key)} {position : Nat} {key : Key}

omit [DecidableEq Key] in
theorem getElem?_snoc {mark found : Mark Key}
    (at' : (marks ++ [mark])[position]? = some found) :
    marks[position]? = some found ∨ position = marks.length ∧ found = mark := by
  by_cases early : position < marks.length
  · rw [List.getElem?_append_left early] at at'
    exact .inl at'
  · rw [List.getElem?_append_right (Nat.le_of_not_lt early)] at at'
    obtain ⟨only, same⟩ := List.getElem?_eq_some_iff.mp at'
    rw [List.length_singleton] at only
    have last : position = marks.length := by omega
    subst last
    simp only [Nat.sub_self, List.getElem_cons_zero] at same
    exact .inr ⟨rfl, same.symm⟩

theorem State.Ordered.step (ordered : state.Ordered marks) (reads : state.Reads marks)
    (mark : Mark Key) : (state.step mark).Ordered (marks ++ [mark]) := by
  have earlier {position : Nat} {key : Key}
      (at' : (marks ++ [mark])[position]? = some (.opens key)) (unlike : mark ≠ .opens key) :
      (key, position) ∈ state.waiting ∨ ∃ pair ∈ state.pairs, pair.1 = position := by
    obtain before | ⟨-, same⟩ := getElem?_snoc at'
    · exact ordered.opened before
    · exact absurd same.symm unlike
  cases mark with
  | other =>
      exact ⟨ordered.sorted, fun at' => earlier at' (by simp)⟩
  | opens own =>
      constructor
      case sorted =>
        refine List.pairwise_append.mpr ⟨ordered.sorted, List.pairwise_singleton _ _, ?_⟩
        intro entry member added last
        rw [List.mem_singleton.mp last]
        have below := reads.lt member
        rw [reads.next]
        exact below
      case opened =>
        intro position key at'
        obtain before | ⟨rfl, same⟩ := getElem?_snoc at'
        · obtain waits | found := ordered.opened before
          · exact .inl (List.mem_append_left _ waits)
          · exact .inr found
        · cases same
          refine .inl (List.mem_append_right _ ?_)
          rw [reads.next]
          exact List.mem_singleton_self _
  | closes own =>
      cases found : state.waiting.find? fun entry => decide (entry.1 = own) with
      | none =>
          simp only [State.step, found]
          exact ⟨ordered.sorted, fun at' => earlier at' (by simp)⟩
      | some opening =>
          obtain ⟨holds, before, after, split, earlierKeys⟩ :=
            List.find?_eq_some_iff_append.mp found
          have absent : ∀ other ∈ before, ¬ decide (other.1 = own) = true := by
            intro other member
            simpa using earlierKeys other member
          have erased : state.waiting.eraseP (fun entry => decide (entry.1 = own)) =
              before ++ after := by
            rw [split, List.eraseP_append_right _ absent, List.eraseP_cons_of_pos (by exact holds)]
          simp only [State.step, found]
          constructor
          case sorted => exact ordered.sorted.sublist List.eraseP_sublist
          case opened =>
            intro position key at'
            obtain waits | ⟨pair, member, starts⟩ := earlier at' (by simp)
            · rw [split] at waits
              rw [erased]
              obtain first | last := List.mem_append.mp waits
              · exact .inl (List.mem_append_left _ first)
              · obtain same | later := List.mem_cons.mp last
                · refine .inr ⟨_, List.mem_append_right _ (List.mem_singleton_self _), ?_⟩
                  rw [← same]
                · exact .inl (List.mem_append_right _ later)
            · exact .inr ⟨pair, List.mem_append_left _ member, starts⟩

theorem State.Ordered.run (ordered : state.Ordered marks) (reads : state.Reads marks)
    (more : List (Mark Key)) : (state.run more).Ordered (marks ++ more) := by
  induction more generalizing state marks with
  | nil => simpa [State.run] using ordered
  | cons mark more ih =>
      have later := ih (ordered.step reads mark) (reads.step mark)
      rwa [List.append_assoc, List.singleton_append] at later

theorem ordered (marks : List (Mark Key)) : (State.initial.run marks).Ordered marks := by
  have empty : (State.initial : State Key).Ordered [] := ⟨.nil, fun at' => by cases at'⟩
  simpa using empty.run State.reads_initial marks

/-- The first opening of a key is the one that a closing of the key takes, unless it is
matched already. -/
theorem find?_waiting_first (opening : marks[position]? = some (.opens key))
    (unmatched : ∀ pair ∈ pairs marks, pair.1 ≠ position)
    (first : ∀ earlier < position, marks[earlier]? ≠ some (.opens key)) :
    (State.initial.run marks).waiting.find? (fun entry => decide (entry.1 = key)) =
      some (key, position) := by
  have waits : (key, position) ∈ (State.initial.run marks).waiting := by
    obtain waits | ⟨pair, member, starts⟩ := (ordered marks).opened opening
    · exact waits
    · exact absurd starts (unmatched pair member)
  cases found : (State.initial.run marks).waiting.find? fun entry => decide (entry.1 = key) with
  | none => simpa using List.find?_eq_none.mp found _ waits
  | some entry =>
      obtain ⟨holds, before, after, split, earlier⟩ := List.find?_eq_some_iff_append.mp found
      have sameKey : entry.1 = key := of_decide_eq_true holds
      have at' := ((reads marks).waiting entry (List.mem_of_find?_eq_some found)).1
      rw [sameKey] at at'
      have sorted := (ordered marks).sorted
      rw [split] at waits sorted
      obtain front | back := List.mem_append.mp waits
      · simpa using earlier _ front
      · obtain same | later := List.mem_cons.mp back
        · rw [same]
        · have less := (List.pairwise_cons.mp (List.pairwise_append.mp sorted).2.1).1 _ later
          exact absurd at' (first entry.2 less)

/-- A closing of a key that no opening has matches nothing. -/
theorem find?_waiting_none (marks : List (Mark Key)) (key : Key)
    (absent : ∀ position : Nat, marks[position]? ≠ some (.opens key)) :
    (State.initial.run marks).waiting.find? (fun entry => decide (entry.1 = key)) = none := by
  refine List.find?_eq_none.mpr fun entry member holds => ?_
  have at' := ((reads marks).waiting entry member).1
  rw [of_decide_eq_true holds] at at'
  exact absent entry.2 at'

/-- The pairs of marks after one more. -/
theorem pairs_snoc (marks : List (Mark Key)) (mark : Mark Key) :
    pairs (marks ++ [mark]) = ((State.initial.run marks).step mark).pairs := by
  rw [pairs, State.run_append]
  rfl

end Order

end Matching
