import OpsCodex.Store.Sqlite

/-! What the turn statements read back: the newest checkpoint of a turn, the
approval of a turn and the thread that a log begins with. -/

set_option autoImplicit false

namespace OpsCodex.Store.Database

open OpsCodex.Runtime

variable {db : Database}

section Checkpoints

variable {checkpoint : CheckpointRecord} {turnId : TurnId}

/-- The newest row is one of the rows. -/
theorem foldl_newestCheckpoint_mem {best : Option CheckpointRecord}
    {rows : List CheckpointRecord} {row : CheckpointRecord}
    (newest : rows.foldl newestCheckpoint best = some row) : best = some row ∨ row ∈ rows := by
  induction rows generalizing best with
  | nil => exact .inl newest
  | cons first rows ih =>
      rcases ih newest with head | tail
      · cases best with
        | none =>
            cases head
            exact .inr List.mem_cons_self
        | some current =>
            simp only [newestCheckpoint] at head
            split at head
            · cases head
              exact .inr List.mem_cons_self
            · exact .inl head
      · exact .inr (List.mem_cons_of_mem first tail)

theorem lastCheckpoint_mem (last : db.lastCheckpoint turnId = some checkpoint) :
    checkpoint ∈ db.turnCheckpoints turnId := by
  rcases foldl_newestCheckpoint_mem last with absent | member
  · cases absent
  · exact member

theorem lastCheckpoint_turnId (last : db.lastCheckpoint turnId = some checkpoint) :
    checkpoint.turnId = turnId := by
  simpa using (List.mem_filter.mp (lastCheckpoint_mem last)).2

/-- A row that is later than every other row of its turn is its last checkpoint. -/
theorem lastCheckpoint_insert_same
    (later : ∀ row ∈ db.turnCheckpoints checkpoint.turnId, row.createdAt < checkpoint.createdAt) :
    (db.insertCheckpoint checkpoint).lastCheckpoint checkpoint.turnId = some checkpoint := by
  have rows : (db.insertCheckpoint checkpoint).turnCheckpoints checkpoint.turnId =
      db.turnCheckpoints checkpoint.turnId ++ [checkpoint] := by
    simp [turnCheckpoints, insertCheckpoint]
  rw [lastCheckpoint, rows, List.foldl_append]
  cases last : (db.turnCheckpoints checkpoint.turnId).foldl newestCheckpoint none with
  | none => rfl
  | some current =>
      have older := later current (lastCheckpoint_mem last)
      simp [newestCheckpoint, checkpointNewer, older]

theorem lastCheckpoint_insert_other (different : checkpoint.turnId ≠ turnId) :
    (db.insertCheckpoint checkpoint).lastCheckpoint turnId = db.lastCheckpoint turnId := by
  simp [lastCheckpoint, turnCheckpoints, insertCheckpoint, different]

theorem lastCheckpoint_congr {before after : Database}
    (same : after.checkpoints = before.checkpoints) (turnId : TurnId) :
    after.lastCheckpoint turnId = before.lastCheckpoint turnId := by
  rw [lastCheckpoint, lastCheckpoint, turnCheckpoints, turnCheckpoints, same]

end Checkpoints

section Threads

theorem lastSeq_ge {threadId : ThreadId} {envelope : EventEnvelope}
    (member : envelope ∈ db.threadEvents threadId) : envelope.seq ≤ db.lastSeq threadId := by
  have grows (rows : List EventEnvelope) (start : Nat) :
      start ≤ rows.foldl (fun last envelope => max last envelope.seq) start ∧
        ∀ row ∈ rows, row.seq ≤ rows.foldl (fun last envelope => max last envelope.seq) start := by
    induction rows generalizing start with
    | nil => simp
    | cons first rows ih =>
        obtain ⟨above, bounded⟩ := ih (max start first.seq)
        refine ⟨Nat.le_trans (Nat.le_max_left _ _) above, ?_⟩
        intro row found
        rcases List.mem_cons.mp found with rfl | rest
        · exact Nat.le_trans (Nat.le_max_right _ _) above
        · exact bounded row rest
  exact (grows _ 0).2 envelope member

/-- The first event in order of sequence stays when a later one is added. -/
theorem head_insertionSort_append {rows : List EventEnvelope} {first added : EventEnvelope}
    (later : ∀ row ∈ rows, row.seq ≤ added.seq)
    (head : (rows.insertionSort fun left right => left.seq ≤ right.seq).head? = some first) :
    ((rows ++ [added]).insertionSort fun left right => left.seq ≤ right.seq).head? =
      some first := by
  induction rows generalizing first with
  | nil => simp at head
  | cons row rows ih =>
      have bound : row.seq ≤ added.seq := later row List.mem_cons_self
      have rest : ∀ other ∈ rows, other.seq ≤ added.seq := fun other member =>
        later other (List.mem_cons_of_mem row member)
      simp only [List.cons_append, List.insertionSort_cons] at head ⊢
      cases sorted : rows.insertionSort fun left right => left.seq ≤ right.seq with
      | nil =>
          have empty : rows = [] := by
            have length := congrArg List.length sorted
            simpa using length
          subst empty
          simp only [List.insertionSort_nil, List.orderedInsert_nil, List.head?_cons] at head
          simp [bound, head]
      | cons second others =>
          have top : (rows.insertionSort fun left right => left.seq ≤ right.seq).head? =
              some second := by rw [sorted]; rfl
          have kept := ih rest top
          rw [sorted] at head
          cases grown : (rows ++ [added]).insertionSort fun left right => left.seq ≤ right.seq with
          | nil => simp [grown] at kept
          | cons top tail =>
              rw [grown] at kept
              simp only [List.head?_cons, Option.some.injEq] at kept
              subst kept
              simp only [List.orderedInsert] at head ⊢
              split <;> rename_i order <;> simp [order] at head ⊢ <;> exact head

/-- The events of a thread that a reader of the whole log sees. -/
def visible (db : Database) (threadId : ThreadId) : List EventEnvelope :=
  (db.threadEvents threadId).filter fun envelope => decide (asI64 0 < asI64 envelope.seq)

/-- A thread is read back from its first visible event. -/
theorem getThread_ok_iff {threadId : ThreadId} {thread : Thread} :
    db.getThread threadId = .ok thread ↔ (db.thread threadId).isSome ∧
      ∃ first, ((db.visible threadId).insertionSort fun left right =>
          left.seq ≤ right.seq).head? = some first ∧
        first.event = .threadCreated ∧ thread = ⟨threadId, first.workspaceId⟩ := by
  unfold getThread loadEvents
  cases db.thread threadId with
  | none => simp [bind, Except.bind]
  | some row =>
      change reconstructThread threadId ((db.visible threadId).insertionSort fun left right =>
        left.seq ≤ right.seq) = .ok thread ↔ _
      unfold reconstructThread
      cases (db.visible threadId).insertionSort fun left right => left.seq ≤ right.seq with
      | nil => simp
      | cons first rest =>
          simp only [Option.isSome_some, List.head?_cons, Option.some.injEq, true_and]
          split
          · rename_i created
            simp [created, eq_comm]
          · rename_i other
            simp only [reduceCtorEq, false_iff, not_exists, not_and]
            rintro _ rfl created
            exact absurd created other

/-- What a thread is read back as does not change when its log grows. -/
theorem getThread_append {before after : Database} {threadId : ThreadId} {thread : Thread}
    (kept : (before.thread threadId).isSome → (after.thread threadId).isSome)
    (events : after.events = before.events ∨ ∃ added,
      after.events = before.events ++ [added] ∧ before.lastSeq added.threadId < added.seq)
    (found : before.getThread threadId = .ok thread) : after.getThread threadId = .ok thread := by
  rw [getThread_ok_iff] at found ⊢
  obtain ⟨exists', first, head, created, same⟩ := found
  refine ⟨kept exists', first, ?_, created, same⟩
  rcases events with unchanged | ⟨added, grown, later⟩
  · simpa [visible, threadEvents, unchanged] using head
  · by_cases shown : added.threadId = threadId ∧ asI64 0 < asI64 added.seq
    · have rows : after.visible threadId = before.visible threadId ++ [added] := by
        simp [visible, threadEvents, grown, shown]
      rw [rows]
      refine head_insertionSort_append ?_ head
      intro row member
      have bound := lastSeq_ge (List.mem_filter.mp member).1
      rw [← shown.1] at bound
      exact Nat.le_of_lt (Nat.lt_of_le_of_lt bound later)
    · have rows : after.visible threadId = before.visible threadId := by
        by_cases own : added.threadId = threadId
        · have hidden : ¬ asI64 0 < asI64 added.seq := fun above => shown ⟨own, above⟩
          simp [visible, threadEvents, grown, own, hidden]
        · simp [visible, threadEvents, grown, own]
      rw [rows]
      exact head

theorem appendEvent_thread (command : AppendEvent) (clock : DateTime) (fresh : Uuid)
    {threadId : ThreadId} (found : (db.thread threadId).isSome) :
    ((db.appendEvent command clock fresh).2.thread threadId).isSome := by
  unfold appendEvent
  cases db.thread command.threadId with
  | none => exact found
  | some row =>
      dsimp only [thread]
      rw [Table.lookup_update]
      · simpa [thread] using found
      · exact fun _ _ => rfl

theorem writeTurn_threads {record : TurnRecord} {outcome : Result Unit} {written : Database}
    (wrote : db.writeTurn record = (outcome, written)) : written.threads = db.threads := by
  unfold writeTurn at wrote
  split at wrote <;> cases wrote <;> rfl

theorem upsertTurn_thread (record : TurnRecord) {threadId : ThreadId}
    (found : (db.thread threadId).isSome) :
    ((db.upsertTurn record).2.thread threadId).isSome := by
  unfold upsertTurn
  cases wrote : db.writeTurn record with
  | mk outcome written =>
      have same := writeTurn_threads wrote
      cases outcome with
      | error error => simpa [thread, same] using found
      | ok =>
          dsimp only
          unfold syncThreadStatus
          split
          · simpa [thread, same] using found
          · dsimp only [thread]
            rw [Table.lookup_update, same]
            · simpa [thread] using found
            · exact fun _ _ => rfl

/-- What a reader of a whole log is given. -/
theorem mem_of_loadEvents {threadId : ThreadId} {events : List EventEnvelope}
    (loaded : db.loadEvents threadId 0 = .ok events) {envelope : EventEnvelope} :
    envelope ∈ events ↔
      envelope ∈ db.events ∧ envelope.threadId = threadId ∧ asI64 0 < asI64 envelope.seq := by
  unfold loadEvents at loaded
  cases found : db.thread threadId with
  | none => simp [found] at loaded
  | some row =>
      simp only [found, Except.ok.injEq] at loaded
      subst loaded
      simp [threadEvents, and_comm]

end Threads

section Turns

/-- The record of a turn names the thread it belongs to. -/
def Owns (db : Database) (turnId : TurnId) (threadId : ThreadId) : Prop :=
  ∃ record, db.getTurn turnId = some record ∧ record.threadId = threadId

theorem Owns.unique {turnId : TurnId} {left right : ThreadId} (first : db.Owns turnId left)
    (second : db.Owns turnId right) : left = right := by
  obtain ⟨record, found, rfl⟩ := first
  obtain ⟨record', found', rfl⟩ := second
  rw [found] at found'
  cases found'
  rfl

private theorem mergeTurn_id (current row : TurnRecord) (_ : current.id = row.id) :
    (mergeTurn current row).id = row.id := rfl

theorem getTurn_upsert_same {record current : TurnRecord}
    (found : db.getTurn record.id = some current) :
    Table.lookup TurnRecord.id record.id (Table.upsert TurnRecord.id mergeTurn record db.turns) =
      some (mergeTurn current record) := by
  rw [getTurn] at found
  rw [Table.lookup_upsert_same mergeTurn_id, found]

theorem getTurn_upsert_absent {record : TurnRecord} (absent : db.getTurn record.id = none) :
    Table.lookup TurnRecord.id record.id (Table.upsert TurnRecord.id mergeTurn record db.turns) =
      some record := by
  rw [getTurn] at absent
  rw [Table.lookup_upsert_same mergeTurn_id, absent]

theorem getTurn_upsert_other {record : TurnRecord} {turnId : TurnId}
    (different : record.id ≠ turnId) :
    Table.lookup TurnRecord.id turnId (Table.upsert TurnRecord.id mergeTurn record db.turns) =
      db.getTurn turnId :=
  Table.lookup_upsert_other mergeTurn_id different db.turns

theorem writeTurn_turns {record : TurnRecord} {outcome : Result Unit} {written : Database}
    (wrote : db.writeTurn record = (outcome, written)) :
    (outcome = .ok () ∧
      written.turns = Table.upsert TurnRecord.id mergeTurn record db.turns) ∨
    ((∃ error, outcome = .error error) ∧ written.turns = db.turns) := by
  unfold writeTurn at wrote
  split at wrote <;> cases wrote
  · exact .inr ⟨⟨_, rfl⟩, rfl⟩
  · exact .inl ⟨rfl, rfl⟩

theorem syncThreadStatus_turns (record : TurnRecord) :
    (db.syncThreadStatus record).turns = db.turns := by
  unfold syncThreadStatus
  split <;> rfl

/-- A record stays with the thread it was first written for. -/
theorem owns_upsert (record : TurnRecord) {turnId : TurnId} {threadId : ThreadId}
    (owns : db.Owns turnId threadId) {after : Database}
    (turns : after.turns = Table.upsert TurnRecord.id mergeTurn record db.turns) :
    after.Owns turnId threadId := by
  obtain ⟨current, found, same⟩ := owns
  by_cases own : record.id = turnId
  · subst own
    refine ⟨mergeTurn current record, ?_, same⟩
    rw [getTurn, turns, getTurn_upsert_same found]
  · refine ⟨current, ?_, same⟩
    rw [getTurn, turns, getTurn_upsert_other own, found]

theorem owns_upsert_absent {record : TurnRecord} (absent : db.getTurn record.id = none)
    {after : Database}
    (turns : after.turns = Table.upsert TurnRecord.id mergeTurn record db.turns) :
    after.Owns record.id record.threadId := by
  refine ⟨record, ?_, rfl⟩
  rw [getTurn, turns, getTurn_upsert_absent absent]

theorem getTurn_pointAtCheckpoint (checkpoint : CheckpointRecord) (turnId : TurnId) :
    (db.pointAtCheckpoint checkpoint).getTurn turnId = (db.getTurn turnId).map fun record =>
      if decide (record.id = checkpoint.turnId) then { record with
        lastCheckpointId := some checkpoint.checkpointId
        updatedAt := checkpoint.createdAt } else record := by
  unfold getTurn pointAtCheckpoint
  exact Table.lookup_update fun _ _ => rfl

theorem owns_pointAtCheckpoint (checkpoint : CheckpointRecord) {turnId : TurnId}
    {threadId : ThreadId} (owns : db.Owns turnId threadId) :
    (db.pointAtCheckpoint checkpoint).Owns turnId threadId := by
  obtain ⟨record, found, same⟩ := owns
  refine ⟨_, (getTurn_pointAtCheckpoint checkpoint turnId).trans
    (congrArg (Option.map _) found), ?_⟩
  dsimp only
  split <;> exact same

end Turns

end OpsCodex.Store.Database
