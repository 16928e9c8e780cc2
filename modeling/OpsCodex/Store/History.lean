import OpsCodex.Runtime.Frame
import OpsCodex.Store.Threads
import OpsCodex.Store.TurnTable

/-! Histories of the SQLite store. Whatever is created, appended, forked or imported,
each thread's log is numbered on from its creation. -/

set_option autoImplicit false

namespace OpsCodex.Store

open OpsCodex.Json OpsCodex.Runtime OpsCodex.Action

namespace Jsonl

variable {codec : EnvelopeCodec} {path : ThreadId → String} {threadId : ThreadId}

/-- The events belong to one thread and one workspace. -/
structure Owned (threadId : ThreadId) (events : List EventEnvelope) : Prop where
  thread : ∀ envelope ∈ events, envelope.threadId = threadId
  workspace : ∀ first, events.head? = some first →
    ∀ envelope ∈ events, envelope.workspaceId = first.workspaceId

theorem validateEnvelope_owned {previous : List EventEnvelope} {envelope : EventEnvelope}
    (valid : validateEnvelope path threadId previous envelope = .ok ()) :
    envelope.threadId = threadId ∧
      ∀ first, previous.head? = some first → envelope.workspaceId = first.workspaceId := by
  by_cases owner : envelope.threadId = threadId
  · refine ⟨owner, fun first head => ?_⟩
    by_contra different
    have other : first.workspaceId ≠ envelope.workspaceId := fun same => different same.symm
    cases last : previous.getLast? with
    | none => simp [List.getLast?_eq_none_iff.mp last] at head
    | some event =>
        by_cases room : event.seq + 1 < 2 ^ 64
        · by_cases next : envelope.seq = event.seq + 1
          · simp only [validateEnvelope, owner, last, head, if_pos room, bind, Except.bind, pure,
              Except.pure, throw, throwThe, MonadExceptOf.throw] at valid
            simp [next, other] at valid
          · simp only [validateEnvelope, owner, last, if_pos room, bind, Except.bind, pure,
              Except.pure, throw, throwThe, MonadExceptOf.throw] at valid
            simp [next] at valid
        · simp only [validateEnvelope, owner, last, if_neg room, bind, Except.bind,
            throw, throwThe, MonadExceptOf.throw] at valid
          simp at valid
  · simp [validateEnvelope, owner, bind, Except.bind,
      throw, throwThe, MonadExceptOf.throw] at valid

theorem Owned.snoc {events : List EventEnvelope} {envelope : EventEnvelope}
    (owned : Owned threadId events)
    (valid : validateEnvelope path threadId events envelope = .ok ()) :
    Owned threadId (events ++ [envelope]) := by
  obtain ⟨thread, workspace⟩ := validateEnvelope_owned valid
  constructor
  · intro other member
    obtain member | member := List.mem_append.mp member
    · exact owned.thread other member
    · rw [List.mem_singleton.mp member]
      exact thread
  · intro first head other member
    cases events with
    | nil =>
        rw [List.nil_append] at head member
        rw [List.mem_singleton.mp member, Option.some.inj head]
    | cons opening events =>
        have same : opening = first := by simpa using head
        subst same
        obtain member | member := List.mem_append.mp member
        · exact owned.workspace opening rfl other member
        · rw [List.mem_singleton.mp member]
          exact workspace opening rfl

theorem parseLines_owned {lines : List Bytes} {index : Nat} {events parsed : List EventEnvelope}
    (owned : Owned threadId events)
    (read : parseLines codec path threadId index events lines = .ok parsed) :
    Owned threadId parsed := by
  induction lines generalizing index events with
  | nil =>
      simp only [parseLines, Except.ok.injEq] at read
      exact read ▸ owned
  | cons line lines ih =>
      simp only [parseLines] at read
      cases decoded : codec.fromSlice (stripCarriageReturn line) with
      | error error => simp [decoded] at read
      | ok envelope =>
          simp only [decoded, bind, Except.bind] at read
          cases valid : validateEnvelope path threadId events envelope with
          | error error => simp [valid] at read
          | ok _ =>
              simp only [valid] at read
              exact ih (owned.snoc valid) read

theorem parseLog_owned {bytes : Bytes} {log : ParsedLog}
    (parsed : parseLog codec path threadId bytes = .ok log) : Owned threadId log.events := by
  obtain ⟨lines, rest, events, -, read, shape⟩ := parseLog_cases parsed
  have empty : Owned threadId [] := by
    constructor <;> simp
  have owned := parseLines_owned empty read
  obtain ⟨-, rfl⟩ | ⟨envelope, -, valid, rfl⟩ | rfl := shape
  · exact owned
  · exact owned.snoc valid
  · exact owned

end Jsonl

namespace Database

def empty : Database where
  threads := []
  events := []
  turns := []
  checkpoints := []
  approvals := []
  leases := []
  resumeOps := []
  actionPlans := []
  actions := []
  auditLog := []

/-- The calls that write to the store, with what the clock and the source of fresh
identifiers give them. -/
inductive Call where
  | createThread (threadId : ThreadId) (workspaceId : WorkspaceId) (clock : DateTime)
      (fresh : Uuid)
  | forkThread (threadId : ThreadId) (atSeq : Nat) (newThreadId : ThreadId)
      (title : Option String) (stamp : Nat → DateTime × Uuid) (updatedAt : DateTime)
  | importThread (events : List EventEnvelope)
  | write (command : Command) (clock : DateTime) (fresh : Uuid)

/-- The store after a call has returned, with a value or an error of its own. -/
def Call.run (codec : Codec) (wire : Jsonl.EnvelopeCodec) (db : Database) :
    Call → Database
  | .createThread threadId workspaceId clock fresh =>
      (db.createThread threadId workspaceId clock fresh).2
  | .forkThread threadId atSeq newThreadId title stamp updatedAt =>
      (db.forkThread threadId atSeq newThreadId title stamp updatedAt).2
  | .importThread events => (db.importThread codec wire events).2
  | .write command clock fresh => (command.run codec clock fresh db).2

/-- How a call ends: it returns, SQLite fails it and rolls it back, or fails the second
of its two statements. -/
inductive Attempt where
  | returned (call : Call)
  | rolledBack (call : Call)
  | halved (command : Command)

def Attempt.run (codec : Codec) (wire : Jsonl.EnvelopeCodec) (db : Database) :
    Attempt → Option Database
  | .returned call => some (call.run codec wire db)
  | .rolledBack _ => some db
  | .halved command => command.interrupted db

def Unused (db : Database) (id : Uuid) : Prop := ∀ envelope ∈ db.events, envelope.eventId ≠ ⟨id⟩

instance (db : Database) (id : Uuid) : Decidable (db.Unused id) :=
  inferInstanceAs (Decidable (∀ envelope ∈ db.events, envelope.eventId ≠ ⟨id⟩))

/-- What is generated is new, and an imported log is one that a JSONL store has read. -/
def Call.Admissible (db : Database) : Call → Prop
  | .createThread _ _ _ fresh => db.Unused fresh
  | .forkThread _ _ _ _ stamp _ =>
      (Function.Injective fun seq => (stamp seq).2) ∧ ∀ seq, db.Unused (stamp seq).2
  | .importThread events => ∃ envelopes path threadId bytes log,
      Jsonl.parseLog envelopes path threadId bytes = .ok log ∧ events = log.events
  | .write _ _ fresh => db.Unused fresh

def Attempt.Admissible (db : Database) : Attempt → Prop
  | .returned call => call.Admissible db
  | _ => True

/-- The states of a store that begins empty and whose calls end in ways that `allowed`
admits. -/
inductive Reached (codec : Codec) (wire : Jsonl.EnvelopeCodec)
    (allowed : Database → Attempt → Prop) : Database → Prop
  | start : Reached codec wire allowed empty
  | step {before after : Database} {attempt : Attempt}
      (reached : Reached codec wire allowed before) (fine : allowed before attempt)
      (ran : attempt.run codec wire before = some after) :
      Reached codec wire allowed after

theorem Reached.returned {codec : Codec} {wire : Jsonl.EnvelopeCodec}
    {allowed : Database → Attempt → Prop} {db : Database}
    (reached : Reached codec wire allowed db) (call : Call)
    (fine : allowed db (.returned call)) :
    Reached codec wire allowed (call.run codec wire db) := .step reached fine rfl

/-- The log of a thread's row. -/
structure LogOf (db : Database) (row : ThreadRow) : Prop where
  created : ∃ first rest, db.threadEvents row.id = first :: rest ∧ first.event = .threadCreated
  numbered : (db.threadEvents row.id).map EventEnvelope.seq =
    List.range' 1 (db.threadEvents row.id).length
  thread : ∀ envelope ∈ db.threadEvents row.id, envelope.threadId = row.id
  workspace : ∀ envelope ∈ db.threadEvents row.id, envelope.workspaceId = row.workspaceId

structure WellFormed (db : Database) : Prop where
  threads : (db.threads.map ThreadRow.id).Nodup
  logs : ∀ row ∈ db.threads, db.LogOf row
  owned : ∀ envelope ∈ db.events, envelope.threadId ∈ db.threads.map ThreadRow.id
  events : (db.events.map EventEnvelope.eventId).Nodup

section

variable {db : Database}

theorem thread_eq_none {threadId : ThreadId} :
    db.thread threadId = none ↔ threadId ∉ db.threads.map ThreadRow.id := by
  simp [thread, Table.lookup]

/-- The numbers of a log reach its length. -/
theorem lastSeq_of_numbered {threadId : ThreadId}
    (numbered : (db.threadEvents threadId).map EventEnvelope.seq =
      List.range' 1 (db.threadEvents threadId).length) :
    db.lastSeq threadId = (db.threadEvents threadId).length := by
  have highest (count : Nat) : (List.range' 1 count).foldl max 0 = count := by
    induction count with
    | zero => rfl
    | succ count ih =>
        rw [List.range'_concat, List.foldl_append, ih]
        simp
        omega
  rw [lastSeq, ← highest (db.threadEvents threadId).length, ← numbered, List.foldl_map]

/-- Only the rows' owners and the events matter. -/
theorem WellFormed.of_same {after : Database} (well : db.WellFormed)
    (threads : after.threads.map (fun row => (row.id, row.workspaceId)) =
      db.threads.map fun row => (row.id, row.workspaceId))
    (events : after.events = db.events) : after.WellFormed := by
  have ids : after.threads.map ThreadRow.id = db.threads.map ThreadRow.id := by
    have first := congrArg (List.map Prod.fst) threads
    simpa [Function.comp_def] using first
  have rows (id : ThreadId) : after.threadEvents id = db.threadEvents id := by
    rw [threadEvents, threadEvents, events]
  constructor
  · rw [ids]
    exact well.threads
  · intro row member
    have owner : (row.id, row.workspaceId) ∈
        db.threads.map fun row => (row.id, row.workspaceId) := by
      rw [← threads]
      exact List.mem_map.mpr ⟨row, member, rfl⟩
    obtain ⟨old, found, same⟩ := List.mem_map.mp owner
    obtain ⟨id, workspace⟩ := Prod.mk.inj same
    obtain ⟨created, numbered, thread, workspaces⟩ := well.logs old found
    rw [id] at created numbered thread workspaces
    constructor
    · rw [rows]
      exact created
    · rw [rows]
      exact numbered
    · rw [rows]
      exact thread
    · rw [rows, ← workspace]
      exact workspaces
  · rw [ids, events]
    exact well.owned
  · rw [events]
    exact well.events

theorem threadEvents_addThread_own {row : ThreadRow} {log : List EventEnvelope}
    (well : db.WellFormed) (absent : db.thread row.id = none)
    (own : ∀ envelope ∈ log, envelope.threadId = row.id) :
    (db.addThread row log).threadEvents row.id = log := by
  have none : db.events.filter (fun envelope => decide (envelope.threadId = row.id)) = [] := by
    refine List.filter_eq_nil_iff.mpr fun envelope member same => ?_
    apply thread_eq_none.mp absent
    rw [← of_decide_eq_true same]
    exact well.owned envelope member
  have all : log.filter (fun envelope => decide (envelope.threadId = row.id)) = log :=
    List.filter_eq_self.mpr fun envelope member => decide_eq_true (own envelope member)
  rw [threadEvents, addThread, List.filter_append, none, all, List.nil_append]

theorem threadEvents_addThread_other {row : ThreadRow} {log : List EventEnvelope}
    {threadId : ThreadId} (own : ∀ envelope ∈ log, envelope.threadId = row.id)
    (different : row.id ≠ threadId) :
    (db.addThread row log).threadEvents threadId = db.threadEvents threadId := by
  have none : log.filter (fun envelope => decide (envelope.threadId = threadId)) = [] := by
    refine List.filter_eq_nil_iff.mpr fun envelope member same => different ?_
    rw [← own envelope member]
    exact of_decide_eq_true same
  rw [threadEvents, addThread, List.filter_append, none, List.append_nil]
  rfl

/-- A new thread whose log is in order keeps the store in order. -/
theorem WellFormed.addThread (well : db.WellFormed) {row : ThreadRow}
    {first : EventEnvelope} {rest : List EventEnvelope} (absent : db.thread row.id = none)
    (created : first.event = .threadCreated)
    (numbered : (first :: rest).map EventEnvelope.seq = List.range' 1 (first :: rest).length)
    (thread : ∀ envelope ∈ first :: rest, envelope.threadId = row.id)
    (workspace : ∀ envelope ∈ first :: rest, envelope.workspaceId = row.workspaceId)
    (unique : ((db.events ++ first :: rest).map EventEnvelope.eventId).Nodup) :
    (db.addThread row (first :: rest)).WellFormed := by
  have missing := thread_eq_none.mp absent
  constructor
  · rw [Database.addThread, List.map_append, List.nodup_append]
    refine ⟨well.threads, List.nodup_singleton _, ?_⟩
    intro old member new single same
    rw [List.map_singleton, List.mem_singleton] at single
    exact missing (single ▸ same ▸ member)
  · intro other member
    obtain member | member := List.mem_append.mp member
    · have different : row.id ≠ other.id := by
        intro same
        exact missing (same ▸ List.mem_map_of_mem member)
      have rows : (db.addThread row (first :: rest)).threadEvents other.id =
          db.threadEvents other.id := threadEvents_addThread_other thread different
      obtain ⟨oldCreated, oldNumbered, oldThread, oldWorkspace⟩ := well.logs other member
      constructor
      · rw [rows]
        exact oldCreated
      · rw [rows]
        exact oldNumbered
      · rw [rows]
        exact oldThread
      · rw [rows]
        exact oldWorkspace
    · rw [List.mem_singleton.mp member]
      have rows := threadEvents_addThread_own well absent thread
      constructor
      · rw [rows]
        exact ⟨first, rest, rfl, created⟩
      · rw [rows]
        exact numbered
      · rw [rows]
        exact thread
      · rw [rows]
        exact workspace
  · intro envelope member
    rw [Database.addThread, List.map_append, List.mem_append]
    obtain member | member := List.mem_append.mp member
    · exact .inl (well.owned envelope member)
    · right
      rw [thread envelope member]
      exact List.mem_singleton_self _
  · exact unique

theorem nodup_snoc_eventId {fresh : Uuid} {envelope : EventEnvelope}
    (unique : (db.events.map EventEnvelope.eventId).Nodup) (unused : db.Unused fresh)
    (stamped : envelope.eventId = ⟨fresh⟩) :
    ((db.events ++ [envelope]).map EventEnvelope.eventId).Nodup := by
  rw [List.map_append, List.nodup_append]
  refine ⟨unique, List.nodup_singleton _, ?_⟩
  intro old member new single same
  obtain ⟨other, found, rfl⟩ := List.mem_map.mp member
  rw [List.map_singleton, List.mem_singleton] at single
  exact unused other found (same.trans (single.trans stamped))

/-- The next event of a thread keeps the store in order. -/
theorem WellFormed.append (well : db.WellFormed) {row : ThreadRow} {envelope : EventEnvelope}
    {fresh : Uuid} (found : db.thread envelope.threadId = some row)
    (next : envelope.seq = db.lastSeq envelope.threadId + 1)
    (workspace : envelope.workspaceId = row.workspaceId)
    (stamped : envelope.eventId = ⟨fresh⟩) (unused : db.Unused fresh) :
    WellFormed { db with events := db.events ++ [envelope] } := by
  have member := Table.lookup_mem found
  have owner : row.id = envelope.threadId := Table.lookup_key found
  constructor
  · exact well.threads
  · intro other otherMember
    obtain ⟨⟨first, rest, log, created⟩, numbered, thread, workspaces⟩ :=
      well.logs other otherMember
    by_cases own : envelope.threadId = other.id
    · have rows : (Database.threadEvents { db with events := db.events ++ [envelope] } other.id) =
          db.threadEvents other.id ++ [envelope] := by
        simp [Database.threadEvents, own]
      have same : row = other := by
        have lookup := Table.lookup_of_mem well.threads otherMember
        rw [← own] at lookup
        exact Option.some.inj (found.symm.trans lookup)
      constructor
      · rw [rows, log]
        exact ⟨first, rest ++ [envelope], rfl, created⟩
      · rw [rows, List.map_append, numbered, List.map_singleton, next, own,
          lastSeq_of_numbered numbered, List.length_append, List.length_singleton,
          List.range'_concat]
        simp [Nat.add_comm]
      · rw [rows]
        intro event inside
        obtain inside | inside := List.mem_append.mp inside
        · exact thread event inside
        · rw [List.mem_singleton.mp inside]
          exact own
      · rw [rows]
        intro event inside
        obtain inside | inside := List.mem_append.mp inside
        · exact workspaces event inside
        · rw [List.mem_singleton.mp inside, ← same]
          exact workspace
    · have rows : (Database.threadEvents { db with events := db.events ++ [envelope] } other.id) =
          db.threadEvents other.id := by
        simp [Database.threadEvents, own]
      constructor
      · rw [rows]
        exact ⟨first, rest, log, created⟩
      · rw [rows]
        exact numbered
      · rw [rows]
        exact thread
      · rw [rows]
        exact workspaces
  · intro event inside
    obtain inside | inside := List.mem_append.mp inside
    · exact well.owned event inside
    · rw [List.mem_singleton.mp inside, ← owner]
      exact List.mem_map_of_mem member
  · exact nodup_snoc_eventId well.events unused stamped

theorem owners_update {rows : List ThreadRow} {selects : ThreadRow → Bool}
    {change : ThreadRow → ThreadRow}
    (keeps : ∀ row, (change row).id = row.id ∧ (change row).workspaceId = row.workspaceId) :
    (Table.update selects change rows).map (fun row => (row.id, row.workspaceId)) =
      rows.map fun row => (row.id, row.workspaceId) := by
  apply Table.keys_update
  intro row _
  rw [(keeps row).1, (keeps row).2]

theorem WellFormed.appendEvent (well : db.WellFormed) (command : AppendEvent) (clock : DateTime)
    {fresh : Uuid} (unused : db.Unused fresh) :
    (db.appendEvent command clock fresh).2.WellFormed := by
  unfold Database.appendEvent
  cases found : db.thread command.threadId with
  | none => exact well
  | some row =>
      dsimp only
      exact (well.append found rfl rfl rfl unused).of_same
        (owners_update fun _ => ⟨rfl, rfl⟩) rfl

theorem WellFormed.createThread (well : db.WellFormed) (threadId : ThreadId)
    (workspaceId : WorkspaceId) (clock : DateTime) {fresh : Uuid} (unused : db.Unused fresh) :
    (db.createThread threadId workspaceId clock fresh).2.WellFormed := by
  obtain ⟨error, failed⟩ | ⟨absent, row, rfl, rfl, -, made⟩ :=
    createThread_cases db threadId workspaceId clock fresh
  · rw [failed]
    exact well
  · rw [made]
    apply well.addThread absent rfl rfl
    · intro envelope member
      rw [List.mem_singleton.mp member]
      rfl
    · intro envelope member
      rw [List.mem_singleton.mp member]
      rfl
    · exact nodup_snoc_eventId well.events unused rfl

section Fork

variable {threadId newThreadId : ThreadId} {atSeq : Nat} {title : Option String}
  {workspaceId : WorkspaceId} {stamp : Nat → DateTime × Uuid} {updatedAt : DateTime}

/-- The events of a fork of some events. -/
def forkLog (newThreadId : ThreadId) (workspaceId : WorkspaceId) (stamp : Nat → DateTime × Uuid)
    (sources : List EventEnvelope) : List EventEnvelope :=
  forkCreated newThreadId workspaceId stamp ::
    forkInherited newThreadId workspaceId stamp 1 sources

theorem eventIds_forkInherited (seq : Nat) (sources : List EventEnvelope) :
    (forkInherited newThreadId workspaceId stamp seq sources).map EventEnvelope.eventId =
      (List.range' (seq + 1) sources.length).map fun seq => ⟨(stamp seq).2⟩ := by
  induction sources generalizing seq with
  | nil => rfl
  | cons source rest ih =>
      simp [forkInherited, forkCopy, ih, List.range'_succ]

theorem workspaceId_forkInherited {seq : Nat} {sources : List EventEnvelope}
    {envelope : EventEnvelope}
    (member : envelope ∈ forkInherited newThreadId workspaceId stamp seq sources) :
    envelope.workspaceId = workspaceId := by
  induction sources generalizing seq with
  | nil => cases member
  | cons source rest ih =>
      obtain rfl | later := List.mem_cons.mp member
      · rfl
      · exact ih later

/-- A fork leaves the store alone or adds a thread with copies of some events. -/
theorem forkThread_adds (db : Database) (threadId : ThreadId) (atSeq : Nat)
    (newThreadId : ThreadId) (title : Option String) (stamp : Nat → DateTime × Uuid)
    (updatedAt : DateTime) :
    (db.forkThread threadId atSeq newThreadId title stamp updatedAt).2 = db ∨
    (db.thread newThreadId = none ∧ ∃ (row : ThreadRow) (sources : List EventEnvelope),
      row.id = newThreadId ∧
      row.status = (forkInherited newThreadId row.workspaceId stamp 1 sources).foldl
        (fun status envelope => statusAfter status envelope.event) .idle ∧
      (db.forkThread threadId atSeq newThreadId title stamp updatedAt).2 =
        db.addThread row (forkLog newThreadId row.workspaceId stamp sources)) := by
  unfold forkThread
  split
  · exact .inl rfl
  · split
    · exact .inl rfl
    · exact .inl rfl
    · dsimp only
      split
      · exact .inl rfl
      · cases taken : db.thread newThreadId with
        | some row => exact .inl rfl
        | none => exact .inr ⟨rfl, ⟨newThreadId, _, _, _, updatedAt⟩, _, rfl, rfl, rfl⟩

theorem WellFormed.forkThread (well : db.WellFormed) (threadId : ThreadId) (atSeq : Nat)
    (newThreadId : ThreadId) (title : Option String) (updatedAt : DateTime)
    (injective : Function.Injective fun seq => (stamp seq).2)
    (unused : ∀ seq, db.Unused (stamp seq).2) :
    (db.forkThread threadId atSeq newThreadId title stamp updatedAt).2.WellFormed := by
  obtain same | ⟨absent, row, sources, rfl, -, forked⟩ :=
    forkThread_adds db threadId atSeq newThreadId title stamp updatedAt
  · rw [same]
    exact well
  · rw [forked]
    have ids : (forkLog row.id row.workspaceId stamp sources).map EventEnvelope.eventId =
        (List.range' 1 (sources.length + 1)).map fun seq => ⟨(stamp seq).2⟩ := by
      rw [forkLog, List.map_cons, eventIds_forkInherited, List.range'_succ, List.map_cons]
      rfl
    apply well.addThread absent rfl
    · have numbers : (forkInherited row.id row.workspaceId stamp 1 sources).map EventEnvelope.seq =
          List.range' 2 sources.length := map_seq_forkInherited 1 sources
      have lengths := congrArg List.length numbers
      simp only [List.length_map, List.length_range'] at lengths
      rw [List.map_cons, numbers, List.length_cons, lengths, List.range'_succ]
      rfl
    · intro envelope member
      obtain rfl | member := List.mem_cons.mp member
      · rfl
      · exact forkInherited_threadId member
    · intro envelope member
      obtain rfl | member := List.mem_cons.mp member
      · rfl
      · exact workspaceId_forkInherited member
    · rw [List.map_append, List.nodup_append]
      refine ⟨well.events, ?_, ?_⟩
      · change ((forkLog row.id row.workspaceId stamp sources).map EventEnvelope.eventId).Nodup
        rw [ids]
        apply List.Nodup.map _ List.nodup_range'
        intro left right same
        exact injective (EventId.mk.inj same)
      · intro old member new added same
        obtain ⟨other, found, rfl⟩ := List.mem_map.mp member
        change new ∈ (forkLog row.id row.workspaceId stamp sources).map EventEnvelope.eventId
          at added
        rw [ids] at added
        obtain ⟨seq, -, rfl⟩ := List.mem_map.mp added
        exact unused seq other found same

end Fork

theorem viewThread_ok {threadId : ThreadId} {first : EventEnvelope} {rest : List EventEnvelope}
    {view : ThreadView} (viewed : viewThread threadId (first :: rest) = .ok view) :
    first.event = .threadCreated ∧ view.status =
      ((first :: rest).map EventEnvelope.event).foldl statusAfter .idle := by
  unfold viewThread at viewed
  dsimp only at viewed
  split at viewed
  · rename_i created
    refine ⟨created, ?_⟩
    cases viewed
    dsimp only
    rw [foldl_applyEvent]
  · cases viewed

theorem WellFormed.importThread (well : db.WellFormed) (codec : Codec)
    (wire : Jsonl.EnvelopeCodec) {envelopes : Jsonl.EnvelopeCodec}
    {path : ThreadId → String} {threadId : ThreadId} {bytes : Jsonl.Bytes} {log : Jsonl.ParsedLog}
    (parsed : Jsonl.parseLog envelopes path threadId bytes = .ok log) :
    (db.importThread codec wire log.events).2.WellFormed := by
  obtain same | ⟨first, rest, view, row, log', absent, viewed, id, workspace, -, added, unique⟩ :=
    importThread_cases codec wire log.events well.events
  · rw [same]
    exact well
  · have owned := Jsonl.parseLog_owned parsed
    have numbered := Jsonl.parseLog_contiguous parsed
    rw [log'] at owned numbered viewed unique
    rw [added, log']
    have own := owned.thread first List.mem_cons_self
    apply well.addThread (by rw [id]; exact absent) (viewThread_ok viewed).1 numbered
    · intro envelope member
      rw [owned.thread envelope member, id, own]
    · intro envelope member
      rw [owned.workspace first rfl envelope member, workspace]
    · exact unique

theorem WellFormed.upsertTurn (well : db.WellFormed) (record : TurnRecord) :
    (db.upsertTurn record).2.WellFormed := by
  have owners : (db.upsertTurn record).2.threads.map (fun row => (row.id, row.workspaceId)) =
      db.threads.map fun row => (row.id, row.workspaceId) := by
    unfold Database.upsertTurn
    cases wrote : db.writeTurn record with
    | mk outcome written =>
        have same := writeTurn_threads wrote
        cases outcome with
        | error error => simp only [same]
        | ok =>
            dsimp only
            unfold syncThreadStatus
            split
            · rw [same]
            · rw [← same]
              exact owners_update fun _ => ⟨rfl, rfl⟩
  exact well.of_same owners ((World.keeps_upsertTurn db record).events (by simp))

theorem WellFormed.write (well : db.WellFormed) (codec : Codec) (command : Command)
    (clock : DateTime) {fresh : Uuid} (unused : db.Unused fresh) :
    (command.run codec clock fresh db).2.WellFormed := by
  have kept := World.keeps_run codec clock fresh db command
  cases command with
  | appendEvent command => exact well.appendEvent command clock unused
  | upsertTurn record => exact well.upsertTurn record
  | _ =>
      exact well.of_same (congrArg _ (kept.threads (by simp [World.writes])))
        (kept.events (by simp [World.writes]))

theorem WellFormed.halved (well : db.WellFormed) {command : Command} {written : Database}
    (interrupted : command.interrupted db = some written) : written.WellFormed := by
  have kept := World.keeps_interrupted interrupted
  cases command with
  | upsertTurn record =>
      simp only [Command.interrupted] at interrupted
      split at interrupted
      · rename_i wrote
        cases interrupted
        exact well.of_same (congrArg _ (writeTurn_threads wrote))
          (kept.events (by simp [World.writes]))
      · cases interrupted
  | putCheckpoint checkpoint =>
      exact well.of_same (congrArg _ (kept.threads (by simp [World.writes])))
        (kept.events (by simp [World.writes]))
  | _ => cases interrupted

/-- Every way a call can end keeps the store in order. -/
theorem WellFormed.attempt (well : db.WellFormed) {codec : Codec}
    {wire : Jsonl.EnvelopeCodec} {attempt : Attempt} {after : Database}
    (admissible : attempt.Admissible db) (ran : attempt.run codec wire db = some after) :
    after.WellFormed := by
  cases attempt with
  | rolledBack call =>
      cases ran
      exact well
  | halved command => exact well.halved ran
  | returned call =>
      cases ran
      cases call with
      | createThread threadId workspaceId clock fresh =>
          exact well.createThread threadId workspaceId clock admissible
      | forkThread threadId atSeq newThreadId title stamp updatedAt =>
          exact well.forkThread threadId atSeq newThreadId title updatedAt admissible.1 admissible.2
      | importThread events =>
          obtain ⟨envelopes, path, threadId, bytes, log, parsed, rfl⟩ := admissible
          exact well.importThread codec wire parsed
      | write command clock fresh => exact well.write codec command clock admissible

theorem wellFormed_empty : empty.WellFormed := by
  constructor <;> simp [empty]

/-- The threads of a store that only its own calls have written are in order. -/
theorem wellFormed_of_reached {codec : Codec} {wire : Jsonl.EnvelopeCodec}
    (reached : Reached codec wire Attempt.Admissible db) :
    db.WellFormed := by
  induction reached with
  | start => exact wellFormed_empty
  | step _ admissible ran ih => exact ih.attempt admissible ran

end

namespace Demo.History

def codec : Codec where
  sha256Hex := fun bytes => toString bytes.length
  toVec := fun _ => []
  toRfc3339 := fun _ => ""

def wire : Jsonl.EnvelopeCodec := Jsonl.Demo.codec Jsonl.Demo.samples

def message : AppendEvent where
  threadId := ⟨2⟩
  turnId := none
  itemId := none
  causationId := none
  streamKind := none
  event := .userMessage "hello" none

def stamp (seq : Nat) : DateTime × Uuid := (0, 100 + seq)

/-- A thread is created, written to and forked, and another one is imported. -/
def calls : List Call := [
  .createThread ⟨2⟩ ⟨"team"⟩ 0 10,
  .write (.appendEvent message) 0 11,
  .forkThread ⟨2⟩ 2 ⟨3⟩ none stamp 0,
  .importThread [Jsonl.Demo.createdSample.envelope]]

def after (count : Nat) : Database :=
  (calls.take count).foldl (fun db call => call.run codec wire db) empty

theorem stamp_injective : Function.Injective fun seq => (stamp seq).2 := by
  intro left right same
  exact Nat.add_left_cancel same

theorem after_reached : Reached codec wire Attempt.Admissible (after 4) := by
  have small : ∀ envelope ∈ (after 2).events, envelope.eventId.uuid < 100 := by decide
  have created : Reached codec wire Attempt.Admissible (after 1) :=
    Reached.returned .start (.createThread ⟨2⟩ ⟨"team"⟩ 0 10)
      (show empty.Unused 10 by simp [Unused, empty])
  have written := created.returned (.write (.appendEvent message) 0 11)
    (show (after 1).Unused 11 by decide)
  have forked := written.returned (.forkThread ⟨2⟩ 2 ⟨3⟩ none stamp 0) ⟨stamp_injective, by
    intro seq envelope member same
    have low : envelope.eventId.uuid < 100 := small envelope member
    rw [same] at low
    exact absurd low (Nat.not_lt.mpr (Nat.le_add_right 100 seq))⟩
  exact forked.returned (.importThread [Jsonl.Demo.createdSample.envelope])
    ⟨Jsonl.Demo.codec Jsonl.Demo.samples, Jsonl.Demo.path, Jsonl.Demo.threadId, _, _,
      Jsonl.Demo.created_settled.parseLog_eq, rfl⟩

end Demo.History

theorem wellFormed_of_reached_forkAndImport : (Demo.History.after 4).WellFormed :=
  wellFormed_of_reached Demo.History.after_reached

end Database

end OpsCodex.Store
