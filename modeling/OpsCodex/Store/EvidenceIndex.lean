import OpsCodex.Store.Fork

/-! The evidence table, which is keyed by evidence id over all threads, and what a fork
does to the rows of its parent. -/

set_option autoImplicit false

namespace OpsCodex.Store

open OpsCodex.Json OpsCodex.Runtime OpsCodex.Action OpsCodex.Evidence

structure EvidenceRow where
  evidenceId : EvidenceId
  threadId : ThreadId
  artifactRef : Option String
  sha256 : String
  payload : EvidenceMeta

/-- The database with its evidence table. -/
structure IndexedDatabase where
  db : Database
  evidence : List EvidenceRow

section

variable (synthesize : ThreadId → Nat → String → EvidenceId)

/-- The evidence's own identifier, or the one derived from where it stands. -/
def evidenceIdOrSynthesize (evidence : EvidenceMeta) (threadId : ThreadId) (seq : Nat) :
    EvidenceId :=
  evidence.evidenceId.getD (synthesize threadId seq evidence.source)

/-- The evidence that an event puts into the table. -/
def evidenceOf (envelope : EventEnvelope) : Option EvidenceRow :=
  match envelope.event with
  | .toolCompleted _ _ _ evidence true => some {
      evidenceId := evidenceIdOrSynthesize synthesize evidence envelope.threadId envelope.seq
      threadId := envelope.threadId
      artifactRef := evidence.artifactRef
      sha256 := evidence.sha256
      payload := evidence }
  | _ => none

/-- `INSERT OR REPLACE`: a row with the same id makes room, whatever its thread. -/
def upsertEvidence (rows : List EvidenceRow) (row : EvidenceRow) : List EvidenceRow :=
  rows.filter (fun other => decide (other.evidenceId ≠ row.evidenceId)) ++ [row]

def indexEvidence (rows : List EvidenceRow) (envelope : EventEnvelope) : List EvidenceRow :=
  match evidenceOf synthesize envelope with
  | some row => upsertEvidence rows row
  | none => rows

/-- The copies that a fork writes. -/
def Database.forkCopies (db : Database) (threadId : ThreadId) (atSeq : Nat)
    (newThreadId : ThreadId) (stamp : Nat → DateTime × Uuid) : List EventEnvelope :=
  match db.loadEvents threadId 0 with
  | .error _ => []
  | .ok events =>
      forkInherited newThreadId
        (((inherited events atSeq).head?.map EventEnvelope.workspaceId).getD .default) stamp 1
        ((inherited events atSeq).drop 1)

namespace IndexedDatabase

def appendEvent (store : IndexedDatabase) (command : AppendEvent) (clock : DateTime)
    (fresh : Uuid) : Result EventEnvelope × IndexedDatabase :=
  match store.db.appendEvent command clock fresh with
  | (.ok envelope, db) => (.ok envelope, {
      db := db, evidence := indexEvidence synthesize store.evidence envelope })
  | (.error error, db) => (.error error, { store with db := db })

def forkThread (store : IndexedDatabase) (threadId : ThreadId) (atSeq : Nat)
    (newThreadId : ThreadId) (title : Option String) (stamp : Nat → DateTime × Uuid)
    (updatedAt : DateTime) : Result EventEnvelope × IndexedDatabase :=
  match store.db.forkThread threadId atSeq newThreadId title stamp updatedAt with
  | (.ok created, db) => (.ok created, {
      db := db
      evidence := (store.db.forkCopies threadId atSeq newThreadId stamp).foldl
        (indexEvidence synthesize) store.evidence })
  | (.error error, db) => (.error error, { store with db := db })

end IndexedDatabase

end

/-- The rows of a thread are the same before and after. -/
structure ThreadKept (threadId : ThreadId) (before after : IndexedDatabase) : Prop where
  events : after.db.threadEvents threadId = before.db.threadEvents threadId
  evidence : after.evidence.filter (fun row => decide (row.threadId = threadId)) =
    before.evidence.filter fun row => decide (row.threadId = threadId)
  turns : after.db.turns.filter (fun row => decide (row.threadId = threadId)) =
    before.db.turns.filter fun row => decide (row.threadId = threadId)
  checkpoints : after.db.checkpoints.filter (fun row => decide (row.threadId = threadId)) =
    before.db.checkpoints.filter fun row => decide (row.threadId = threadId)
  approvals : after.db.approvals.filter
      (fun row => decide (row.payload.threadId = some threadId)) =
    before.db.approvals.filter fun row => decide (row.payload.threadId = some threadId)
  leases : after.db.leases.filter (fun row => decide (row.threadId = threadId)) =
    before.db.leases.filter fun row => decide (row.threadId = threadId)
  actions : after.db.actions.filter (fun row => decide (row.threadId = threadId)) =
    before.db.actions.filter fun row => decide (row.threadId = threadId)

/-- A fork that can be made: of a thread with events, within its log, to a new thread. -/
def Forkable (db : Database) (threadId : ThreadId) (atSeq : Nat) (newThreadId : ThreadId) : Prop :=
  atSeq ≠ 0 ∧ db.thread newThreadId = none ∧
    ∃ first rest, db.loadEvents threadId 0 = .ok (first :: rest) ∧
      atSeq ≤ ((first :: rest).getLast?.map EventEnvelope.seq).getD 0

/-- No copied result has the evidence id of a row of the parent. -/
def Unclaimed (synthesize : ThreadId → Nat → String → EvidenceId) (store : IndexedDatabase)
    (threadId : ThreadId) (copies : List EventEnvelope) : Prop :=
  ∀ row ∈ store.evidence, row.threadId = threadId →
    ∀ copy ∈ copies, ∀ copied, evidenceOf synthesize copy = some copied →
      copied.evidenceId ≠ row.evidenceId

section

variable {synthesize : ThreadId → Nat → String → EvidenceId} {store : IndexedDatabase}
  {threadId newThreadId : ThreadId} {atSeq : Nat} {title : Option String}
  {stamp : Nat → DateTime × Uuid} {updatedAt : DateTime}

theorem thread_of_loadEvents {db : Database} {events : List EventEnvelope}
    (loaded : db.loadEvents threadId 0 = .ok events) : db.thread threadId ≠ none := by
  intro absent
  simp [Database.loadEvents, absent] at loaded

/-- What a fork leaves in the database, if it can be made, and that it fails if not. -/
theorem forkThread_cases (db : Database) (threadId : ThreadId) (atSeq : Nat)
    (newThreadId : ThreadId) (title : Option String) (stamp : Nat → DateTime × Uuid)
    (updatedAt : DateTime) :
    (Forkable db threadId atSeq newThreadId ∧ ∃ created, created.threadId = newThreadId ∧
      db.forkThread threadId atSeq newThreadId title stamp updatedAt = (.ok created,
        db.insertFork title updatedAt created
          (db.forkCopies threadId atSeq newThreadId stamp))) ∨
    (¬ Forkable db threadId atSeq newThreadId ∧ ∃ error,
      db.forkThread threadId atSeq newThreadId title stamp updatedAt = (.error error, db)) := by
  by_cases zero : atSeq = 0
  · exact .inr ⟨fun forkable => forkable.1 zero, _, by rw [Database.forkThread, if_pos zero]⟩
  · cases loaded : db.loadEvents threadId 0 with
    | error error =>
        refine .inr ⟨fun forkable => ?_, error, ?_⟩
        · obtain ⟨-, -, first, rest, other, -⟩ := forkable
          rw [loaded] at other
          cases other
        · simp only [Database.forkThread, if_neg zero, loaded]
    | ok events =>
        cases events with
        | nil =>
            refine .inr ⟨fun forkable => ?_, .notFound s!"thread {threadId}", ?_⟩
            · obtain ⟨-, -, first, rest, other, -⟩ := forkable
              rw [loaded] at other
              cases other
            · simp only [Database.forkThread, if_neg zero, loaded]
        | cons first rest =>
            by_cases past : ((first :: rest).getLast?.map EventEnvelope.seq).getD 0 < atSeq
            · refine .inr ⟨fun forkable => ?_,
                .protocol s!"fork seq {atSeq} is past the last committed event", ?_⟩
              · obtain ⟨-, -, first', rest', other, within⟩ := forkable
                rw [loaded] at other
                cases other
                exact absurd past (Nat.not_lt.mpr within)
              · simp only [Database.forkThread, if_neg zero, loaded, if_pos past]
            · cases taken : db.thread newThreadId with
              | some row =>
                  refine .inr ⟨fun forkable => ?_,
                    .storage s!"thread {newThreadId} already exists", ?_⟩
                  · obtain ⟨-, absent, -⟩ := forkable
                    rw [taken] at absent
                    cases absent
                  · simp only [Database.forkThread, if_neg zero, loaded, if_neg past, taken]
              | none =>
                  refine .inl ⟨⟨zero, taken, first, rest, loaded, Nat.not_lt.mp past⟩,
                    Database.forkCreated newThreadId
                      (((inherited (first :: rest) atSeq).head?.map
                        EventEnvelope.workspaceId).getD .default) stamp, rfl, ?_⟩
                  simp only [Database.forkThread, if_neg zero, loaded, if_neg past, taken,
                    Database.forkCopies]

theorem evidenceOf_threadId {envelope : EventEnvelope} {row : EvidenceRow}
    (found : evidenceOf synthesize envelope = some row) : row.threadId = envelope.threadId := by
  unfold evidenceOf at found
  split at found
  · cases found
    rfl
  · cases found

/-- No event has taken the id of a row. -/
def untaken (synthesize : ThreadId → Nat → String → EvidenceId) (events : List EventEnvelope)
    (row : EvidenceRow) : Bool :=
  events.all fun envelope =>
    (evidenceOf synthesize envelope).all fun copied => decide (row.evidenceId ≠ copied.evidenceId)

theorem filter_upsertEvidence (rows : List EvidenceRow) (row : EvidenceRow)
    (other : row.threadId ≠ threadId) :
    (upsertEvidence rows row).filter (fun row => decide (row.threadId = threadId)) =
      (rows.filter fun row => decide (row.threadId = threadId)).filter fun kept =>
        decide (kept.evidenceId ≠ row.evidenceId) := by
  simp [upsertEvidence, List.filter_append, other, List.filter_filter, Bool.and_comm]

/-- The rows of another thread after events were indexed: those whose id no event has
taken. -/
theorem filter_indexEvidence (synthesize : ThreadId → Nat → String → EvidenceId)
    (events : List EventEnvelope) (rows : List EvidenceRow)
    (others : ∀ envelope ∈ events, envelope.threadId ≠ threadId) :
    (events.foldl (indexEvidence synthesize) rows).filter
        (fun row => decide (row.threadId = threadId)) =
      (rows.filter fun row => decide (row.threadId = threadId)).filter
        (untaken synthesize events) := by
  induction events generalizing rows with
  | nil => simp [untaken]
  | cons envelope events ih =>
      have later := ih (indexEvidence synthesize rows envelope) fun other member =>
        others other (List.mem_cons_of_mem envelope member)
      rw [List.foldl_cons, later]
      cases found : evidenceOf synthesize envelope with
      | none =>
          have same : untaken synthesize (envelope :: events) = untaken synthesize events := by
            funext row
            simp [untaken, found]
          rw [indexEvidence, found, same]
      | some row =>
          have elsewhere : row.threadId ≠ threadId := by
            rw [evidenceOf_threadId found]
            exact others envelope List.mem_cons_self
          have both : untaken synthesize (envelope :: events) = fun kept =>
              untaken synthesize events kept && decide (kept.evidenceId ≠ row.evidenceId) := by
            funext kept
            simp [untaken, found, Bool.and_comm]
          rw [indexEvidence, found]
          dsimp only
          rw [filter_upsertEvidence rows row elsewhere, List.filter_filter, both]

theorem filter_untaken_iff (copies : List EventEnvelope) :
    (store.evidence.filter fun row => decide (row.threadId = threadId)).filter
        (untaken synthesize copies) =
      (store.evidence.filter fun row => decide (row.threadId = threadId)) ↔
    Unclaimed synthesize store threadId copies := by
  rw [List.filter_eq_self]
  constructor
  · intro kept row member own copy copied' copied found
    have free := kept row (List.mem_filter.mpr ⟨member, decide_eq_true own⟩)
    have each := List.all_eq_true.mp free copy copied'
    rw [found] at each
    exact fun same => of_decide_eq_true each same.symm
  · intro unclaimed row member
    obtain ⟨found, own⟩ := List.mem_filter.mp member
    refine List.all_eq_true.mpr fun copy copied' => ?_
    cases taken : evidenceOf synthesize copy with
    | none => rfl
    | some copied =>
        exact decide_eq_true fun same =>
          unclaimed row found (of_decide_eq_true own) copy copied' copied taken same.symm

theorem forkCopies_threadId {db : Database} {copy : EventEnvelope}
    (member : copy ∈ db.forkCopies threadId atSeq newThreadId stamp) :
    copy.threadId = newThreadId := by
  unfold Database.forkCopies at member
  split at member
  · cases member
  · exact forkInherited_threadId member

/-- A fork leaves the rows of its parent alone exactly if it cannot be made or no
inherited result has the evidence id of a row of the parent. -/
theorem forkThread_keeps_iff (synthesize : ThreadId → Nat → String → EvidenceId)
    (store : IndexedDatabase) (threadId : ThreadId) (atSeq : Nat) (newThreadId : ThreadId)
    (title : Option String) (stamp : Nat → DateTime × Uuid) (updatedAt : DateTime) :
    ThreadKept threadId store
        (store.forkThread synthesize threadId atSeq newThreadId title stamp updatedAt).2 ↔
      (Forkable store.db threadId atSeq newThreadId →
        Unclaimed synthesize store threadId
          (store.db.forkCopies threadId atSeq newThreadId stamp)) := by
  obtain ⟨forkable, created, own, forked⟩ | ⟨unforkable, error, failed⟩ :=
    forkThread_cases store.db threadId atSeq newThreadId title stamp updatedAt
  · obtain ⟨-, absent, first, rest, loaded, -⟩ := id forkable
    have different : newThreadId ≠ threadId := by
      intro same
      subst same
      exact thread_of_loadEvents loaded absent
    have others : ∀ copy ∈ store.db.forkCopies threadId atSeq newThreadId stamp,
        copy.threadId ≠ threadId := by
      intro copy member
      rw [forkCopies_threadId member]
      exact different
    have evidence := filter_indexEvidence synthesize _ store.evidence others
    simp only [IndexedDatabase.forkThread, forked]
    constructor
    · intro kept _
      rw [← filter_untaken_iff, ← evidence]
      exact kept.evidence
    · intro unclaimed
      have free := (filter_untaken_iff _).mpr (unclaimed forkable)
      constructor
      · have none : (created :: store.db.forkCopies threadId atSeq newThreadId stamp).filter
            (fun envelope => decide (envelope.threadId = threadId)) = [] := by
          refine List.filter_eq_nil_iff.mpr fun envelope member same => ?_
          obtain rfl | member := List.mem_cons.mp member
          · exact different (own.symm.trans (of_decide_eq_true same))
          · exact others envelope member (of_decide_eq_true same)
        simp only [Database.threadEvents, Database.insertFork, List.filter_append, none,
          List.append_nil]
      · exact evidence.trans free
      · rfl
      · rfl
      · rfl
      · rfl
      · rfl
  · simp only [IndexedDatabase.forkThread, failed]
    exact ⟨fun _ forkable => absurd forkable unforkable,
      fun _ => ⟨rfl, rfl, rfl, rfl, rfl, rfl, rfl⟩⟩

end

namespace Demo.Fork

/-- A store whose thread has one result, written by the store itself. -/
def indexed : IndexedDatabase :=
  (IndexedDatabase.appendEvent (fun _ _ _ => ⟨0⟩)
    { db := { database with events := [envelope 1 .threadCreated] }, evidence := [] }
    { threadId := parent, turnId := none, itemId := none, causationId := none, streamKind := none
      event := .toolCompleted "call" "list" .null
        { EvidenceMeta.new "shell" 0 0 with evidenceId := some ⟨7⟩ } true } 0 2).2

end Demo.Fork

/-- A fork takes the evidence row of an inherited result away from its parent. -/
theorem not_forkThread_keeps :
    ¬ ThreadKept Demo.Fork.parent Demo.Fork.indexed
      (Demo.Fork.indexed.forkThread (fun _ _ _ => ⟨0⟩) Demo.Fork.parent 2 Demo.Fork.child none
        Demo.Fork.stamp 0).2 := by
  intro kept
  exact absurd (congrArg List.length kept.evidence) (by decide)

end OpsCodex.Store
