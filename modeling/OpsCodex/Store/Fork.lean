import OpsCodex.Store.ModelItems
import OpsCodex.Store.Sqlite

/-! Forking a thread at a sequence number. A fork renumbers the events it inherits
and keeps the ranges that compactions name. -/

set_option autoImplicit false

namespace OpsCodex.Store

open OpsCodex.Json OpsCodex.Runtime

def inheritable : RuntimeEvent → Bool
  | .assistantDelta .. | .approvalRequired .. | .approvalResolved .. | .turnStarted
  | .turnCompleted | .turnCancelled | .turnFailed .. | .toolAuthorized ..
  | .toolExecutionStarted .. => false
  | _ => true

/-- The events a fork at a sequence number inherits. -/
def inherited (events : List EventEnvelope) (atSeq : Nat) : List EventEnvelope :=
  events.filter fun envelope => decide (envelope.seq ≤ atSeq) && inheritable envelope.event

namespace Database

section

variable (newThreadId : ThreadId) (workspaceId : WorkspaceId) (stamp : Nat → DateTime × Uuid)

/-- The first event of a fork. -/
def forkCreated : EventEnvelope where
  schemaVersion := eventSchemaVersion
  streamKind := streamKindFor .threadCreated
  eventId := ⟨(stamp 1).2⟩
  seq := 1
  workspaceId := workspaceId
  threadId := newThreadId
  turnId := none
  itemId := none
  causationId := none
  timestamp := (stamp 1).1
  event := .threadCreated

/-- The copy of an inherited event. -/
def forkCopy (seq : Nat) (source : EventEnvelope) : EventEnvelope where
  schemaVersion := eventSchemaVersion
  streamKind := source.streamKind
  eventId := ⟨(stamp seq).2⟩
  seq := seq
  workspaceId := workspaceId
  threadId := newThreadId
  turnId := none
  itemId := source.itemId
  causationId := source.causationId
  timestamp := (stamp seq).1
  event := source.event

/-- The copies of inherited events, numbered on from a sequence number. -/
def forkInherited : Nat → List EventEnvelope → List EventEnvelope
  | _, [] => []
  | seq, source :: rest =>
      forkCopy newThreadId workspaceId stamp (seq + 1) source :: forkInherited (seq + 1) rest

end

/-- The rows of a fork, written in one transaction. -/
def insertFork (db : Database) (title : Option String) (updatedAt : DateTime)
    (created : EventEnvelope) (copies : List EventEnvelope) : Database :=
  { db with
    events := db.events ++ created :: copies
    threads := db.threads ++ [{
      id := created.threadId
      workspaceId := created.workspaceId
      status := copies.foldl (fun status envelope => statusAfter status envelope.event) .idle
      title := copies.foldl (fun title envelope => title.or (titleFromEvent envelope.event)) title
      updatedAt := updatedAt }] }

/-- The stamps are the clock reading and the fresh identifier of each new event. -/
def forkThread (db : Database) (threadId : ThreadId) (atSeq : Nat) (newThreadId : ThreadId)
    (title : Option String) (stamp : Nat → DateTime × Uuid) (updatedAt : DateTime) :
    Result EventEnvelope × Database :=
  if atSeq = 0 then
    (.error (.protocol "fork requires a durable seq greater than zero"), db)
  else
    match db.loadEvents threadId 0 with
    | .error error => (.error error, db)
    | .ok [] => (.error (.notFound s!"thread {threadId}"), db)
    | .ok (first :: rest) =>
        let events := first :: rest
        if ((events.getLast?.map EventEnvelope.seq).getD 0) < atSeq then
          (.error (.protocol s!"fork seq {atSeq} is past the last committed event"), db)
        else
          let sources := inherited events atSeq
          let workspaceId := (sources.head?.map EventEnvelope.workspaceId).getD .default
          let created := forkCreated newThreadId workspaceId stamp
          match db.thread newThreadId with
          | some _ => (.error (.storage s!"thread {newThreadId} already exists"), db)
          | none =>
              let copies := forkInherited newThreadId workspaceId stamp 1 (sources.drop 1)
              (.ok created, db.insertFork title updatedAt created copies)

end Database

/-- The events of a thread that has been created and appended to. -/
structure ThreadLog (events : List EventEnvelope) : Prop where
  created : ∃ first rest, events = first :: rest ∧ first.event = .threadCreated
  numbered : events.map EventEnvelope.seq = List.range' 1 events.length
  stored : events.length < 2 ^ 63

/-- Every event of the context that a fork inherits lies under a compacted range by
its place in the fork exactly if it does so in the parent. -/
def CoverKept (events : List EventEnvelope) (atSeq : Nat) : Prop :=
  ∀ index envelope, (inherited events atSeq)[index]? = some envelope →
    envelope.event.contributes = true →
    isCovered (index + 1) (compactedRanges (inherited events atSeq)) =
      isCovered envelope.seq (compactedRanges (inherited events atSeq))

instance (events : List EventEnvelope) (atSeq : Nat) : Decidable (CoverKept events atSeq) :=
  decidable_of_iff
    (∀ pair ∈ (inherited events atSeq).zipIdx, pair.1.event.contributes = true →
      isCovered (pair.2 + 1) (compactedRanges (inherited events atSeq)) =
        isCovered pair.1.seq (compactedRanges (inherited events atSeq)))
    ⟨fun all index envelope found => all (envelope, index) (List.mem_zipIdx_iff_getElem?.mpr found),
      fun all pair member => all pair.2 pair.1 (List.mem_zipIdx_iff_getElem?.mp member)⟩

section Items

variable {promptBlock : IncidentContext → String} {range : Nat → Nat → String}
  {newThreadId : ThreadId} {workspaceId : WorkspaceId} {stamp : Nat → DateTime × Uuid}

theorem inheritable_of_compactedRange {event : RuntimeEvent} {covers : Nat × Nat}
    (compacted : compactedRange event = some covers) : inheritable event = true := by
  cases event <;> first | rfl | cases compacted

theorem eventItem_not_inheritable {event : RuntimeEvent} (dropped : inheritable event = false) :
    eventItem promptBlock range event = none := by
  cases event <;> first | rfl | cases dropped

/-- Events that a fork drops carry neither ranges nor items. -/
theorem compactedRanges_filter (events : List EventEnvelope) :
    compactedRanges (events.filter fun envelope => inheritable envelope.event) =
      compactedRanges events := by
  induction events with
  | nil => rfl
  | cons envelope events ih =>
      unfold compactedRanges at ih ⊢
      cases kept : inheritable envelope.event with
      | true =>
          rw [List.filter_cons_of_pos (by exact kept), List.filterMap_cons, List.filterMap_cons, ih]
      | false =>
          have plain : compactedRange envelope.event = none := by
            cases covers : compactedRange envelope.event with
            | none => rfl
            | some covers' => simp [inheritable_of_compactedRange covers] at kept
          simpa [kept, plain] using ih

theorem filterMap_visibleItem_filter (covered : List (Nat × Nat))
    (events : List EventEnvelope) :
    (events.filter fun envelope => inheritable envelope.event).filterMap
        (visibleItem promptBlock range covered) =
      events.filterMap (visibleItem promptBlock range covered) := by
  induction events with
  | nil => rfl
  | cons envelope events ih =>
      cases kept : inheritable envelope.event with
      | true =>
          rw [List.filter_cons_of_pos (by exact kept), List.filterMap_cons, List.filterMap_cons, ih]
      | false =>
          have silent : visibleItem promptBlock range covered envelope = none := by
            simp [visibleItem, eventItem_not_inheritable kept]
          simpa [kept, silent] using ih

theorem inherited_eq (events : List EventEnvelope) (atSeq : Nat) :
    inherited events atSeq =
      (events.filter fun envelope => decide (envelope.seq ≤ atSeq)).filter
        fun envelope => inheritable envelope.event := by
  simp [inherited, List.filter_filter, Bool.and_comm]

theorem compactedRanges_forkInherited (seq : Nat) (sources : List EventEnvelope) :
    compactedRanges (Database.forkInherited newThreadId workspaceId stamp seq sources) =
      compactedRanges sources := by
  induction sources generalizing seq with
  | nil => rfl
  | cons source rest ih =>
      have later := ih (seq + 1)
      simp only [compactedRanges, Database.forkInherited, List.filterMap_cons] at later ⊢
      rw [later]
      rfl

/-- Renumbered events whose cover is kept show the items they showed. -/
theorem filterMap_forkInherited (covered : List (Nat × Nat)) (seq : Nat)
    (sources : List EventEnvelope)
    (aligned : ∀ index envelope, sources[index]? = some envelope →
      envelope.event.contributes = true →
      isCovered (seq + index + 1) covered = isCovered envelope.seq covered) :
    (Database.forkInherited newThreadId workspaceId stamp seq sources).filterMap
        (visibleItem promptBlock range covered) =
      sources.filterMap (visibleItem promptBlock range covered) := by
  induction sources generalizing seq with
  | nil => rfl
  | cons source rest ih =>
      have later := ih (seq + 1) fun index envelope found contributes => by
        have next := aligned (index + 1) envelope (by simpa using found) contributes
        rwa [show seq + 1 + index + 1 = seq + (index + 1) + 1 by omega]
      have first := aligned 0 source (by simp)
      have shown : visibleItem promptBlock range covered
            (Database.forkCopy newThreadId workspaceId stamp (seq + 1) source) =
          visibleItem promptBlock range covered source := visibleItem_congr rfl first
      rw [Database.forkInherited, List.filterMap_cons, List.filterMap_cons, later, shown]

theorem map_event_forkInherited (seq : Nat) (sources : List EventEnvelope) :
    (Database.forkInherited newThreadId workspaceId stamp seq sources).map EventEnvelope.event =
      sources.map EventEnvelope.event := by
  induction sources generalizing seq with
  | nil => rfl
  | cons source rest ih => simp [Database.forkInherited, Database.forkCopy, ih]

/-- What is visible is the item of one of the events. -/
theorem mem_items_of_visible {covered : List (Nat × Nat)} {events : List EventEnvelope}
    {item : ModelItem}
    (visible : item ∈ events.filterMap (visibleItem promptBlock range covered)) :
    item ∈ (events.map EventEnvelope.event).filterMap (eventItem promptBlock range) := by
  obtain ⟨envelope, member, shown⟩ := List.mem_filterMap.mp visible
  unfold visibleItem at shown
  split at shown
  · cases shown
  · exact List.mem_filterMap.mpr ⟨envelope.event, List.mem_map_of_mem member, shown⟩

/-- With items that are all different, renumbered events show what they showed only if
their cover is kept. -/
theorem aligned_of_filterMap_eq (covered : List (Nat × Nat)) (seq : Nat)
    (sources : List EventEnvelope)
    (distinct : ((sources.map EventEnvelope.event).filterMap
      (eventItem promptBlock range)).Nodup)
    (equal : (Database.forkInherited newThreadId workspaceId stamp seq sources).filterMap
        (visibleItem promptBlock range covered) =
      sources.filterMap (visibleItem promptBlock range covered)) :
    ∀ index envelope, sources[index]? = some envelope → envelope.event.contributes = true →
      isCovered (seq + index + 1) covered = isCovered envelope.seq covered := by
  induction sources generalizing seq with
  | nil => simp
  | cons source rest ih =>
      rw [Database.forkInherited, List.filterMap_cons, List.filterMap_cons] at equal
      have onward (tails : (Database.forkInherited newThreadId workspaceId stamp (seq + 1)
              rest).filterMap (visibleItem promptBlock range covered) =
            rest.filterMap (visibleItem promptBlock range covered))
          (head : source.event.contributes = true →
            isCovered (seq + 1) covered = isCovered source.seq covered) :
          ∀ index envelope, (source :: rest)[index]? = some envelope →
            envelope.event.contributes = true →
            isCovered (seq + index + 1) covered = isCovered envelope.seq covered := by
        intro index envelope found contributes
        cases index with
        | zero =>
            have same : source = envelope := by simpa using found
            exact same ▸ head (same ▸ contributes)
        | succ index =>
            have later := ih (seq + 1)
              (distinct.sublist (((List.sublist_cons_self source rest).map _).filterMap _)) tails
              index envelope (by simpa using found) contributes
            rwa [show seq + (index + 1) + 1 = seq + 1 + index + 1 by omega]
      cases contributes : source.event.contributes with
      | false =>
          have shown : visibleItem promptBlock range covered
                (Database.forkCopy newThreadId workspaceId stamp (seq + 1) source) =
              visibleItem promptBlock range covered source :=
            visibleItem_congr rfl (fun carries => by simp [contributes] at carries)
          rw [shown] at equal
          refine onward ?_ (fun carries => by simp [contributes] at carries)
          cases item : visibleItem promptBlock range covered source with
          | none => simpa [item] using equal
          | some shownItem => simpa [item] using equal
      | true =>
          have some : ∃ item, eventItem promptBlock range source.event = some item := by
            rw [← Option.isSome_iff_exists, eventItem_isSome, contributes]
            rfl
          obtain ⟨item, carries⟩ := some
          have plain := compactedRange_of_contributes contributes
          have fresh : item ∉ (rest.map EventEnvelope.event).filterMap
              (eventItem promptBlock range) := by
            rw [List.map_cons, List.filterMap_cons, carries] at distinct
            exact (List.nodup_cons.mp distinct).1
          simp only [visibleItem, Database.forkCopy, plain, Option.isNone_none, Bool.and_true,
            carries] at equal
          cases moved : isCovered (seq + 1) covered with
          | true =>
              cases stood : isCovered source.seq covered with
              | true =>
                  exact onward (by simpa [moved, stood] using equal) (fun _ => by rw [moved, stood])
              | false =>
                  have inside : item ∈ (Database.forkInherited newThreadId workspaceId stamp
                      (seq + 1) rest).filterMap (visibleItem promptBlock range covered) := by
                    simp only [moved, stood, if_true, Bool.false_eq_true, if_false] at equal
                    rw [equal]
                    exact List.mem_cons_self
                  have among := mem_items_of_visible inside
                  rw [map_event_forkInherited] at among
                  exact absurd among fresh
          | false =>
              cases stood : isCovered source.seq covered with
              | true =>
                  have inside : item ∈ rest.filterMap (visibleItem promptBlock range covered) := by
                    simp only [moved, stood, if_true, Bool.false_eq_true, if_false] at equal
                    rw [← equal]
                    exact List.mem_cons_self
                  exact absurd (mem_items_of_visible inside) fresh
              | false =>
                  exact onward (by simpa [moved, stood] using equal) (fun _ => by rw [moved, stood])

end Items

section Load

variable {newThreadId : ThreadId} {workspaceId : WorkspaceId} {stamp : Nat → DateTime × Uuid}

theorem forkInherited_threadId {seq : Nat} {sources : List EventEnvelope}
    {envelope : EventEnvelope}
    (member : envelope ∈ Database.forkInherited newThreadId workspaceId stamp seq sources) :
    envelope.threadId = newThreadId := by
  induction sources generalizing seq with
  | nil => cases member
  | cons source rest ih =>
      rcases List.mem_cons.mp member with rfl | later
      · rfl
      · exact ih later

theorem map_seq_forkInherited (seq : Nat) (sources : List EventEnvelope) :
    (Database.forkInherited newThreadId workspaceId stamp seq sources).map EventEnvelope.seq =
      List.range' (seq + 1) sources.length := by
  induction sources generalizing seq with
  | nil => rfl
  | cons source rest ih =>
      simp [Database.forkInherited, Database.forkCopy, ih, List.range'_succ]

/-- Rows that are numbered on from one are loaded as they are. -/
theorem loadEvents_of_numbered {db : Database} {threadId : ThreadId} {row : ThreadRow}
    {events : List EventEnvelope} (found : db.thread threadId = some row)
    (rows : db.threadEvents threadId = events)
    (numbered : events.map EventEnvelope.seq = List.range' 1 events.length)
    (small : events.length < 2 ^ 63) : db.loadEvents threadId 0 = .ok events := by
  have shown : ∀ envelope ∈ events,
      decide (Database.asI64 0 < Database.asI64 envelope.seq) = true := by
    intro envelope member
    have number : envelope.seq ∈ events.map EventEnvelope.seq := List.mem_map_of_mem member
    rw [numbered, List.mem_range'_1] at number
    rw [Database.asI64_of_lt (by omega), Database.asI64_of_lt (by omega)]
    exact decide_eq_true (by omega)
  have ordered : events.Pairwise fun left right => left.seq ≤ right.seq := by
    have increasing : (events.map EventEnvelope.seq).Pairwise (· < ·) := by
      rw [numbered]
      exact List.pairwise_lt_range'
    exact (List.pairwise_map.mp increasing).imp Nat.le_of_lt
  rw [Database.loadEvents, found]
  simp only [rows, List.filter_eq_self.mpr shown]
  rw [List.Pairwise.insertionSort_eq ordered]

end Load

section Fork

variable {db : Database} {threadId newThreadId : ThreadId} {events : List EventEnvelope}
  {atSeq : Nat}

/-- What a fork inherits begins with the thread's creation. -/
theorem inherited_cons (log : ThreadLog events) (positive : 1 ≤ atSeq) :
    ∃ first rest, inherited events atSeq = first :: rest ∧ first.event = .threadCreated := by
  obtain ⟨first, rest, rfl, created⟩ := log.created
  have number : first.seq = 1 := by
    have numbered := log.numbered
    simp only [List.map_cons, List.length_cons, List.range'_succ] at numbered
    exact (List.cons.inj numbered).1
  refine ⟨first, _, List.filter_cons_of_pos ?_, created⟩
  simp [number, positive, created, inheritable]

theorem last_of_numbered (log : ThreadLog events) :
    (events.getLast?.map EventEnvelope.seq).getD 0 = events.length := by
  have last := congrArg List.getLast? log.numbered
  rw [List.getLast?_map, List.getLast?_range'] at last
  obtain ⟨first, rest, rfl, -⟩ := log.created
  rw [last]
  simp

theorem loadEvents_insertFork (title : Option String) (updatedAt : DateTime)
    {created : EventEnvelope} {copies : List EventEnvelope}
    (absent : db.thread created.threadId = none) (unused : db.threadEvents created.threadId = [])
    (own : ∀ envelope ∈ copies, envelope.threadId = created.threadId)
    (numbered : (created :: copies).map EventEnvelope.seq =
      List.range' 1 (created :: copies).length)
    (small : (created :: copies).length < 2 ^ 63) :
    (db.insertFork title updatedAt created copies).loadEvents created.threadId 0 =
      .ok (created :: copies) := by
  have missing : db.threads.find? (fun row => decide (row.id = created.threadId)) = none := by
    simpa [Database.thread, Table.lookup] using absent
  have found : ∃ row,
      (db.insertFork title updatedAt created copies).thread created.threadId = some row := by
    exact ⟨_, by
      simp only [Database.thread, Table.lookup, Database.insertFork, List.find?_append, missing]
      simp
      rfl⟩
  obtain ⟨row, found⟩ := found
  have kept : (created :: copies).filter
      (fun envelope => decide (envelope.threadId = created.threadId)) = created :: copies := by
    apply List.filter_eq_self.mpr
    intro envelope member
    rcases List.mem_cons.mp member with rfl | copy
    · simp
    · simp [own envelope copy]
  have rows : (db.insertFork title updatedAt created copies).threadEvents created.threadId =
      created :: copies := by
    have old : db.events.filter (fun envelope => decide (envelope.threadId = created.threadId)) =
        [] := unused
    simp only [Database.threadEvents, Database.insertFork, List.filter_append, old, kept,
      List.nil_append]
  exact loadEvents_of_numbered found rows numbered small

/-- A fork at a sequence number of the log succeeds, and its own log is its creation
followed by the copies. -/
theorem forkThread_spec (title : Option String) (stamp : Nat → DateTime × Uuid)
    (updatedAt : DateTime) (loaded : db.loadEvents threadId 0 = .ok events)
    (log : ThreadLog events) (positive : 1 ≤ atSeq) (within : atSeq ≤ events.length)
    (absent : db.thread newThreadId = none) (unused : db.threadEvents newThreadId = []) :
    ∃ workspaceId created after,
      created = Database.forkCreated newThreadId workspaceId stamp ∧
      db.forkThread threadId atSeq newThreadId title stamp updatedAt = (.ok created, after) ∧
      after.loadEvents newThreadId 0 = .ok (created ::
        Database.forkInherited newThreadId workspaceId stamp 1
          ((inherited events atSeq).drop 1)) := by
  have nonzero : atSeq ≠ 0 := by omega
  have reached : ¬ (events.getLast?.map EventEnvelope.seq).getD 0 < atSeq := by
    rw [last_of_numbered log]
    omega
  have shorter : (inherited events atSeq).length ≤ events.length := List.length_filter_le _ _
  have small := log.stored
  obtain ⟨origin, sources, sourcesEq, -⟩ := inherited_cons log positive
  obtain ⟨first, rest, rfl, -⟩ := log.created
  refine ⟨origin.workspaceId, _, db.insertFork title updatedAt
    (Database.forkCreated newThreadId origin.workspaceId stamp)
    (Database.forkInherited newThreadId origin.workspaceId stamp 1 sources), rfl, ?_, ?_⟩
  · simp only [Database.forkThread, if_neg nonzero, loaded, if_neg reached, absent, sourcesEq]
    rfl
  · rw [sourcesEq, List.drop_one, List.tail_cons]
    rw [sourcesEq, List.length_cons] at shorter
    have numbers : (Database.forkInherited newThreadId origin.workspaceId stamp 1 sources).map
        EventEnvelope.seq = List.range' 2 sources.length := map_seq_forkInherited 1 sources
    have length : (Database.forkInherited newThreadId origin.workspaceId stamp 1
        sources).length = sources.length := by simpa using congrArg List.length numbers
    refine loadEvents_insertFork title updatedAt absent unused
      (fun envelope member => forkInherited_threadId member) ?_ ?_
    · simp [numbers, length, Database.forkCreated, List.range'_succ]
    · rw [List.length_cons, length]
      omega

/-- A thread's creation carries neither a range nor an item. -/
theorem compactedRanges_cons_created {first : EventEnvelope} (rest : List EventEnvelope)
    (created : first.event = .threadCreated) :
    compactedRanges (first :: rest) = compactedRanges rest := by
  simp [compactedRanges, created, compactedRange]

theorem filterMap_cons_created {promptBlock : IncidentContext → String}
    {range : Nat → Nat → String} (covered : List (Nat × Nat)) {first : EventEnvelope}
    (rest : List EventEnvelope) (created : first.event = .threadCreated) :
    (first :: rest).filterMap (visibleItem promptBlock range covered) =
      rest.filterMap (visibleItem promptBlock range covered) := by
  simp [visibleItem, created, eventItem]

/-- The items of the parent up to the sequence number, in terms of what is inherited. -/
theorem modelItems_parent (promptBlock : IncidentContext → String)
    (range : Nat → Nat → String) (events : List EventEnvelope) (atSeq : Nat) :
    modelItemsWith promptBlock range
        (events.filter fun envelope => decide (envelope.seq ≤ atSeq)) =
      (inherited events atSeq).filterMap
        (visibleItem promptBlock range (compactedRanges (inherited events atSeq))) := by
  rw [inherited_eq, compactedRanges_filter, filterMap_visibleItem_filter]
  rfl

/-- Every fork of a thread's log succeeds. It has the parent's model context up to its
sequence number if the cover of what it inherits is kept; and where no two items are
the same, only then. -/
theorem forkThread_modelItems (promptBlock : IncidentContext → String)
    (title : Option String) (stamp : Nat → DateTime × Uuid) (updatedAt : DateTime)
    (loaded : db.loadEvents threadId 0 = .ok events) (log : ThreadLog events)
    (positive : 1 ≤ atSeq) (within : atSeq ≤ events.length)
    (absent : db.thread newThreadId = none) (unused : db.threadEvents newThreadId = []) :
    ∃ created after copies,
      db.forkThread threadId atSeq newThreadId title stamp updatedAt = (.ok created, after) ∧
      after.loadEvents newThreadId 0 = .ok copies ∧
      (CoverKept events atSeq →
        modelItemsFromEvents promptBlock copies =
          modelItemsFromEvents promptBlock
            (events.filter fun envelope => decide (envelope.seq ≤ atSeq))) ∧
      ((((inherited events atSeq).map EventEnvelope.event).filterMap
          (eventItem promptBlock fun _ _ => "")).Nodup →
        modelItemsWith promptBlock (fun _ _ => "") copies =
          modelItemsWith promptBlock (fun _ _ => "")
            (events.filter fun envelope => decide (envelope.seq ≤ atSeq)) →
        CoverKept events atSeq) := by
  obtain ⟨workspaceId, created, after, createdEq, forked, copied⟩ :=
    forkThread_spec title stamp updatedAt loaded log positive within absent unused
  obtain ⟨first, rest, sources, firstCreated⟩ := inherited_cons log positive
  rw [sources, List.drop_one, List.tail_cons] at copied
  have isCreated : created.event = .threadCreated := createdEq ▸ rfl
  have ranges : compactedRanges (created ::
      Database.forkInherited newThreadId workspaceId stamp 1 rest) = compactedRanges rest := by
    rw [compactedRanges_cons_created _ isCreated, compactedRanges_forkInherited]
  have kept : compactedRanges (inherited events atSeq) = compactedRanges rest := by
    rw [sources, compactedRanges_cons_created _ firstCreated]
  refine ⟨created, after, _, forked, copied, ?_, ?_⟩
  · intro cover
    have aligned : ∀ index envelope, rest[index]? = some envelope →
        envelope.event.contributes = true →
        isCovered (1 + index + 1) (compactedRanges rest) =
          isCovered envelope.seq (compactedRanges rest) := by
      intro index envelope found contributes
      have placed := cover (index + 1) envelope (by simpa [sources] using found) contributes
      rw [kept] at placed
      rwa [Nat.add_comm 1 index]
    rw [modelItemsFromEvents, modelItemsFromEvents, modelItems_parent, modelItemsWith, ranges,
      filterMap_cons_created _ _ isCreated, filterMap_forkInherited _ 1 rest aligned, kept,
      sources, filterMap_cons_created _ _ firstCreated]
  · intro distinct equal index envelope found contributes
    rw [modelItems_parent, modelItemsWith, ranges, filterMap_cons_created _ _ isCreated, kept,
      sources, filterMap_cons_created _ _ firstCreated] at equal
    have restDistinct : ((rest.map EventEnvelope.event).filterMap
        (eventItem promptBlock fun _ _ => "")).Nodup := by
      rw [sources] at distinct
      exact distinct.sublist (((List.sublist_cons_self first rest).map _).filterMap _)
    rw [sources] at found
    rw [kept]
    cases index with
    | zero =>
        have same : first = envelope := by simpa using found
        rw [← same, firstCreated] at contributes
        cases contributes
    | succ index =>
        have aligned := aligned_of_filterMap_eq _ 1 rest restDistinct equal index envelope
          (by simpa using found) contributes
        rwa [Nat.add_comm 1 index] at aligned

end Fork

namespace Demo.Fork

def parent : ThreadId := ⟨0⟩

def child : ThreadId := ⟨1⟩

def envelope (seq : Nat) (event : RuntimeEvent) : EventEnvelope where
  schemaVersion := eventSchemaVersion
  streamKind := streamKindFor event
  eventId := ⟨seq⟩
  seq := seq
  workspaceId := .default
  threadId := parent
  turnId := none
  itemId := none
  causationId := none
  timestamp := 0
  event := event

/-- A first turn that was compacted, and the message of a second one. -/
def events : List EventEnvelope := [
  envelope 1 .threadCreated,
  envelope 2 (.userMessage "what happened?" none),
  envelope 3 .turnStarted,
  envelope 4 (.assistantCompleted "the disk is full" none),
  envelope 5 .turnCompleted,
  envelope 6 (.userMessage "which disk?" none),
  envelope 7 (.contextCompacted "0" 2 4 [] [] "" none none none "a full disk")]

def database : Database where
  threads := [{
    id := parent
    workspaceId := .default
    status := .idle
    title := none
    updatedAt := 0 }]
  events := events
  turns := []
  checkpoints := []
  approvals := []
  leases := []
  resumeOps := []
  actionPlans := []
  actions := []
  auditLog := []

def stamp (seq : Nat) : DateTime × Uuid := (1, 10 + seq)

/-- A first turn that was compacted where its fork has it too, and the message of a second
one. -/
def compacted : List EventEnvelope := [
  envelope 1 .threadCreated,
  envelope 2 (.userMessage "what happened?" none),
  envelope 3 (.assistantCompleted "the disk is full" none),
  envelope 4 (.contextCompacted "0" 2 3 [] [] "" none none none "a full disk"),
  envelope 5 .turnStarted,
  envelope 6 (.userMessage "which disk?" none)]

def compactedDatabase : Database := { database with events := compacted }

theorem threadLog_compacted : ThreadLog compacted where
  created := ⟨_, _, rfl, rfl⟩
  numbered := by decide
  stored := by decide

end Demo.Fork

/-- A fork behind a compaction that covers the same events of the fork keeps every item. -/
theorem forkThread_modelItems_compacted :
    ∃ created after copies,
      Demo.Fork.compactedDatabase.forkThread Demo.Fork.parent 6 Demo.Fork.child none
        Demo.Fork.stamp 0 = (.ok created, after) ∧
      after.loadEvents Demo.Fork.child 0 = .ok copies ∧
      modelItemsFromEvents (fun _ => "") copies =
        modelItemsFromEvents (fun _ => "")
          (Demo.Fork.compacted.filter fun envelope => decide (envelope.seq ≤ 6)) := by
  obtain ⟨created, after, copies, forked, copied, kept, -⟩ :=
    forkThread_modelItems (fun _ => "") none Demo.Fork.stamp 0
      (rfl : Demo.Fork.compactedDatabase.loadEvents Demo.Fork.parent 0 = .ok Demo.Fork.compacted)
      Demo.Fork.threadLog_compacted (by decide : 1 ≤ 6) (by decide)
      (rfl : Demo.Fork.compactedDatabase.thread Demo.Fork.child = none) rfl
  exact ⟨created, after, copies, forked, copied, kept (by decide)⟩

/-- A fork after the compaction moves the second message under the compacted range and
loses it. -/
theorem not_forkThread_modelItems :
    ∃ created after copies,
      Demo.Fork.database.loadEvents Demo.Fork.parent 0 = .ok Demo.Fork.events ∧
      Demo.Fork.database.forkThread Demo.Fork.parent 7 Demo.Fork.child none Demo.Fork.stamp 0 =
        (.ok created, after) ∧
      after.loadEvents Demo.Fork.child 0 = .ok copies ∧
      ¬ modelItemsWith (fun _ => "") (fun _ _ => "") copies =
        modelItemsWith (fun _ => "") (fun _ _ => "")
          (Demo.Fork.events.filter fun envelope => decide (envelope.seq ≤ 7)) := by
  refine ⟨_, _, _, rfl, rfl, rfl, fun equal => ?_⟩
  exact absurd (congrArg List.length equal) (by decide)

end OpsCodex.Store
