import OpsCodex.Store.Export
import OpsCodex.Store.Ledger

/-! The JSONL and the SQLite store under the same calls: each is compared with the store
that keeps nothing but records. -/

set_option autoImplicit false

namespace OpsCodex.Store

open OpsCodex.Json OpsCodex.Runtime OpsCodex.Action

/-- A call, and what each of the two stores makes up for it. -/
structure Request where
  call : StoreCall
  jsonl : Stamp
  sqlite : Stamp

def StoreCall.WellTyped : StoreCall → Prop
  | .appendEvent command => command.event.WellTyped
  | _ => True

/-- The record that a call writes can be read back. -/
def StoreCall.Legible : StoreCall → Prop
  | .appendEvent command => command.event.Legible
  | _ => True

/-- What the library gives back of an acknowledged record. -/
def Recordable (text : JsonText) (format : Format) (answer : Result StoreAnswer) : Prop :=
  ∀ envelope, answer = .ok (.event envelope) → text.Restores (envelope.toValue format)

variable {number : Number → Number}

theorem records_blank (events : List EventEnvelope) (threadId : ThreadId) :
    Ledger.records (events.map blankEnvelope) threadId =
      (Jsonl.ofThread threadId events).map blankEnvelope := by
  rw [Ledger.records, List.filter_map]
  rfl

/-- The events that a ledger loads are those of the records it stands for. -/
theorem filter_restored_blank (records : List EventEnvelope) (afterSeq : Nat) :
    ((((records.map blankEnvelope).map (EventEnvelope.restored number)).filter fun envelope =>
      decide (afterSeq < envelope.seq)).map blankEnvelope) =
    ((records.map (EventEnvelope.restored number)).filter fun envelope =>
      decide (afterSeq < envelope.seq)).map blankEnvelope := by
  simp only [List.filter_map, List.map_map]
  rfl

theorem eventsAfter_blank {events : List EventEnvelope} {threadId : ThreadId}
    {records : List EventEnvelope} (own : Jsonl.ofThread threadId events = records)
    (kept : records ≠ []) (afterSeq : Nat) :
    (Ledger.eventsAfter number (events.map blankEnvelope) threadId afterSeq).toOption.map
      (List.map blankEnvelope) =
    some (((records.map (EventEnvelope.restored number)).filter fun envelope =>
      decide (afterSeq < envelope.seq)).map blankEnvelope) := by
  obtain ⟨first, rest, rfl⟩ := List.exists_cons_of_ne_nil kept
  have found : Ledger.records (events.map blankEnvelope) threadId =
      blankEnvelope first :: rest.map blankEnvelope := by
    rw [records_blank, own, List.map_cons]
  simp only [Ledger.eventsAfter, found]
  exact congrArg Option.some (filter_restored_blank (first :: rest) afterSeq)

theorem lastSeq_blank {events : List EventEnvelope} {threadId : ThreadId}
    {records : List EventEnvelope} (own : Jsonl.ofThread threadId events = records)
    (kept : records ≠ []) :
    Ledger.lastSeq (events.map blankEnvelope) threadId = .ok records.length := by
  obtain ⟨first, rest, rfl⟩ := List.exists_cons_of_ne_nil kept
  have found : Ledger.records (events.map blankEnvelope) threadId =
      blankEnvelope first :: rest.map blankEnvelope := by
    rw [records_blank, own, List.map_cons]
  simp [Ledger.lastSeq, found]

namespace Jsonl

section

variable (codec : EnvelopeCodec) (path : ThreadId → String) (projections : Projections)

def lastSeq (directory : Directory) (threadId : ThreadId) : Result Nat := do
  let events ← eventsAfter codec path directory threadId 0
  return (events.getLast?.map EventEnvelope.seq).getD 0

def perform (directory : Directory) (stamp : Stamp) :
    StoreCall → Result StoreAnswer × Directory
  | .createThread threadId workspaceId =>
      match createThread codec path threadId workspaceId stamp.clock stamp.fresh directory with
      | .error error => (.error error, directory)
      | .ok (envelope, line) =>
          (.ok (.event envelope), directory ++ [{ threadId := threadId, bytes := line }])
  | .appendEvent command =>
      let (answer, operations) := appendEvent codec path command stamp.clock stamp.fresh
        (read directory command.threadId)
      (answer.map .event, write directory command.threadId (Storage.perform operations))
  | .query threadId query =>
      (projections.answer threadId (eventsAfter codec path directory threadId)
        (lastSeq codec path directory threadId) query, directory)

def performRequest (directory : Directory) (request : Request) :
    Result StoreAnswer × Directory :=
  perform codec path projections directory request.jsonl request.call

end

section

variable {text : JsonText} {format : Format} {path : ThreadId → String}

/-- The directory holds the records of a ledger. -/
def Keeps (text : JsonText) (format : Format) (path : ThreadId → String)
    (directory : Directory) (ledger : Ledger) : Prop :=
  ∃ acknowledged, HoldsAll text format path directory acknowledged ∧
    acknowledged.map blankEnvelope = ledger

variable {directory : Directory} {acknowledged : List EventEnvelope}

theorem HoldsAll.ofThread_ne_nil (holds : HoldsAll text format path directory acknowledged)
    {threadId : ThreadId} {bytes : Bytes} (stored : read directory threadId = some bytes) :
    ofThread threadId acknowledged ≠ [] := by
  obtain ⟨first, rest, records, -⟩ := ((holds threadId).2 bytes stored).created
  rw [records]
  exact List.cons_ne_nil first rest

theorem HoldsAll.eventsAfter_eq (holds : HoldsAll text format path directory acknowledged)
    {threadId : ThreadId} {bytes : Bytes} (stored : read directory threadId = some bytes)
    (afterSeq : Nat) :
    eventsAfter (wireCodec text format) path directory threadId afterSeq =
      .ok (((ofThread threadId acknowledged).map (EventEnvelope.restored text.number)).filter
        fun envelope =>
        decide (afterSeq < envelope.seq)) := by
  have parsed := ((holds threadId).2 bytes stored).settled.parseLog_eq
  simp only [eventsAfter, stored, parsed, bind, Except.bind]
  rfl

theorem HoldsAll.contiguous (holds : HoldsAll text format path directory acknowledged)
    {threadId : ThreadId} {bytes : Bytes} (stored : read directory threadId = some bytes) :
    Contiguous (ofThread threadId acknowledged) := by
  have parsed := ((holds threadId).2 bytes stored).settled.parseLog_eq
  have numbered := parseLog_contiguous parsed
  rw [Contiguous, List.map_map, List.length_map] at numbered
  exact numbered

theorem HoldsAll.lastSeq_eq (holds : HoldsAll text format path directory acknowledged)
    {threadId : ThreadId} {bytes : Bytes} (stored : read directory threadId = some bytes) :
    lastSeq (wireCodec text format) path directory threadId =
      .ok (ofThread threadId acknowledged).length := by
  have parsed := ((holds threadId).2 bytes stored).settled.parseLog_eq
  have numbered := parseLog_contiguous parsed
  have all := eventsAfter_zero stored parsed
  have kept := holds.ofThread_ne_nil stored
  cases last :
    ((ofThread threadId acknowledged).map (EventEnvelope.restored text.number)).getLast? with
  | none =>
      rw [List.getLast?_eq_none_iff, List.map_eq_nil_iff] at last
      exact absurd last kept
  | some event =>
      have number := numbered.getLast last
      rw [List.length_map] at number
      simp only [lastSeq, all, bind, Except.bind, last, Option.map_some, Option.getD_some, number]
      rfl

/-- A read of a store that holds the records of a ledger is the ledger's. -/
theorem HoldsAll.query (holds : HoldsAll text format path directory acknowledged)
    (projections : Projections) (threadId : ThreadId) (query : StoreQuery) :
    comparable (projections.answer threadId
      (eventsAfter (wireCodec text format) path directory threadId)
      (lastSeq (wireCodec text format) path directory threadId) query) =
    comparable (projections.answer threadId
      (Ledger.eventsAfter text.number (acknowledged.map blankEnvelope) threadId)
      (Ledger.lastSeq (acknowledged.map blankEnvelope) threadId) query) := by
  cases stored : read directory threadId with
  | none =>
      have nothing : Ledger.records (acknowledged.map blankEnvelope) threadId = [] := by
        rw [records_blank, (holds threadId).1 stored, List.map_nil]
      apply comparable_answer
      · simp only [eventsAfter, stored, Ledger.eventsAfter, nothing]
      · simp only [lastSeq, eventsAfter, stored, Ledger.lastSeq, nothing]
        rfl
  | some bytes =>
      have kept := holds.ofThread_ne_nil stored
      apply comparable_answer
      · rw [holds.eventsAfter_eq stored, eventsAfter_blank rfl kept]
        rfl
      · rw [holds.lastSeq_eq stored, lastSeq_blank rfl kept]

/-- The record that an append to a thread with some records gets. -/
theorem HoldsAll.appendEvent_eq (holds : HoldsAll text format path directory acknowledged)
    {command : AppendEvent} {bytes : Bytes}
    (stored : read directory command.threadId = some bytes)
    (room : (ofThread command.threadId acknowledged).length + 1 < 2 ^ 64) (clock : DateTime)
    (fresh : Uuid) :
    (Jsonl.appendEvent (wireCodec text format) path command clock fresh (some bytes)).1 =
      .ok (appendedEnvelope command clock fresh
        ((ofThread command.threadId acknowledged).map (EventEnvelope.restored text.number))
        ((ofThread command.threadId acknowledged).length + 1)) := by
  have parsed := ((holds command.threadId).2 bytes stored).settled.parseLog_eq
  have numbered := parseLog_contiguous parsed
  have kept := holds.ofThread_ne_nil stored
  have next : nextSeq command.threadId
      ((ofThread command.threadId acknowledged).map (EventEnvelope.restored text.number)) =
        .ok ((ofThread command.threadId acknowledged).length + 1) := by
    unfold nextSeq
    cases last : ((ofThread command.threadId acknowledged).map
      (EventEnvelope.restored text.number)).getLast? with
    | none =>
        rw [List.getLast?_eq_none_iff, List.map_eq_nil_iff] at last
        exact absurd last kept
    | some event =>
        have number := numbered.getLast last
        rw [List.length_map] at number
        simp only [number, if_pos room]
  simp only [Jsonl.appendEvent, parsed, next, repair, encodeLine_wireCodec]

theorem blank_appendedEnvelope (number : Number → Number) (command : AppendEvent)
    (stamp : Stamp) (records : List EventEnvelope) (seq : Nat) :
    blankEnvelope (appendedEnvelope command stamp.clock stamp.fresh
      (records.map (EventEnvelope.restored number)) seq) =
    appendedEnvelope command 0 0 (records.map blankEnvelope) seq := by
  cases records <;> rfl

/-- One call of the JSONL store is one of the ledger. -/
theorem keeps_perform (lines : Lines text) (lawful : format.Lawful) (projections : Projections)
    {ledger : Ledger} (keeps : Keeps text format path directory ledger)
    {call : StoreCall} {stamp : Stamp} (room : ledger.length + 1 < 2 ^ 64)
    (typed : call.WellTyped) (legible : call.Legible)
    (exact : Recordable text format
      (perform (wireCodec text format) path projections directory stamp call).1) :
    comparable (perform (wireCodec text format) path projections directory stamp call).1 =
      (ledger.perform text.number projections call).1 ∧
    Keeps text format path
      (perform (wireCodec text format) path projections directory stamp call).2
      (ledger.perform text.number projections call).2 := by
  obtain ⟨acknowledged, holds, rfl⟩ := keeps
  cases call with
  | query threadId query => exact ⟨holds.query projections threadId query, acknowledged, holds, rfl⟩
  | createThread threadId workspaceId =>
      simp only [perform] at exact ⊢
      cases valid : workspaceId.validate with
      | error error =>
          have failed : createThread (wireCodec text format) path threadId workspaceId stamp.clock
              stamp.fresh directory = .error error := by
            simp only [createThread, valid, bind, Except.bind]
          simp only [failed, Ledger.perform, valid]
          exact ⟨rfl, acknowledged, holds, rfl⟩
      | ok =>
          cases stored : read directory threadId with
          | some bytes =>
              obtain ⟨error, failed⟩ : ∃ error, createThread (wireCodec text format) path threadId
                  workspaceId stamp.clock stamp.fresh directory = .error error := by
                simp only [createThread, valid, stored, bind, Except.bind]
                exact ⟨_, rfl⟩
              obtain ⟨first, rest, records⟩ :=
                List.exists_cons_of_ne_nil (holds.ofThread_ne_nil stored)
              have found : Ledger.records (acknowledged.map blankEnvelope) threadId =
                  blankEnvelope first :: rest.map blankEnvelope := by
                rw [records_blank, records, List.map_cons]
              simp only [failed, Ledger.perform, valid, found]
              exact ⟨rfl, acknowledged, holds, rfl⟩
          | none =>
              have made : createThread (wireCodec text format) path threadId workspaceId
                  stamp.clock stamp.fresh directory =
                .ok (createdEnvelope threadId workspaceId stamp.clock stamp.fresh,
                  (createdEnvelope threadId workspaceId stamp.clock stamp.fresh).toVec text format
                    ++ [newline]) := by
                simp only [createThread, valid, stored, encodeLine_wireCodec, bind, Except.bind]
                rfl
              have nothing : Ledger.records (acknowledged.map blankEnvelope) threadId = [] := by
                rw [records_blank, (holds threadId).1 stored, List.map_nil]
              rw [made] at exact
              simp only [made, Ledger.perform, valid, nothing]
              refine ⟨rfl, _, holds.createThread lines lawful made (exact _ rfl), ?_⟩
              rw [List.map_append]
              rfl
  | appendEvent command =>
      have next := holds.appendEvent lines lawful command stamp.clock stamp.fresh typed legible
      simp only [perform] at exact ⊢
      simp only [Call.run] at next
      cases stored : read directory command.threadId with
      | none =>
          have nothing : Ledger.records (acknowledged.map blankEnvelope) command.threadId = [] := by
            rw [records_blank, (holds command.threadId).1 stored, List.map_nil]
          simp only [stored] at next
          simp only [Ledger.perform, nothing]
          refine ⟨rfl, acknowledged, ?_, rfl⟩
          have same := next (by intro envelope member; cases member)
          rwa [show (Except.toOption (appendEvent (wireCodec text format) path command stamp.clock
            stamp.fresh none).1).toList = [] from rfl, List.append_nil] at same
      | some bytes =>
          have fewer : (ofThread command.threadId acknowledged).length + 1 < 2 ^ 64 := by
            have shorter := List.length_filter_le
              (fun envelope => decide (envelope.threadId = command.threadId)) acknowledged
            rw [List.length_map] at room
            unfold ofThread
            omega
          have answer := holds.appendEvent_eq stored fewer stamp.clock stamp.fresh
          obtain ⟨first, rest, records⟩ :=
            List.exists_cons_of_ne_nil (holds.ofThread_ne_nil stored)
          have found : Ledger.records (acknowledged.map blankEnvelope) command.threadId =
              blankEnvelope first :: rest.map blankEnvelope := by
            rw [records_blank, records, List.map_cons]
          have blank := blank_appendedEnvelope text.number command stamp
            (ofThread command.threadId acknowledged)
            ((ofThread command.threadId acknowledged).length + 1)
          rw [records, List.length_cons] at blank
          rw [records, List.length_cons] at answer
          simp only [stored, answer] at exact next ⊢
          have written := next (by
            intro envelope member
            rw [← Option.some.inj member]
            exact exact _ rfl)
          simp only [Ledger.perform, found, List.length_cons, List.length_map]
          rw [← List.map_cons, ← blank]
          refine ⟨rfl, _, written, ?_⟩
          rw [List.map_append]
          rfl

end

end Jsonl

namespace Database

section

variable (codec : Jsonl.EnvelopeCodec) (projections : Projections)

def perform (db : Database) (stamp : Stamp) : StoreCall → Result StoreAnswer × Database
  | .createThread threadId workspaceId =>
      let (answer, after) := db.createThread threadId workspaceId stamp.clock stamp.fresh
      (answer.map .event, after)
  | .appendEvent command =>
      let (answer, after) := db.appendEvent command stamp.clock stamp.fresh
      (answer.map .event, after)
  | .query threadId query =>
      (projections.answer threadId (db.readEvents codec threadId) (db.lastSeqOf threadId) query,
        db)

def performRequest (db : Database) (request : Request) : Result StoreAnswer × Database :=
  perform codec projections db request.sqlite request.call

end

section

variable {text : JsonText} {format : Format} {db : Database} {ledger : Ledger}

/-- The database holds the records of a ledger. -/
structure Keeps (text : JsonText) (format : Format) (db : Database) (ledger : Ledger) :
    Prop where
  well : db.WellFormed
  same : db.events.map blankEnvelope = ledger
  typed : ∀ envelope ∈ db.events, envelope.WellTyped
  restores : ∀ envelope ∈ db.events, text.Restores (envelope.toValue format)
  legible : ∀ envelope ∈ db.events, envelope.event.Legible

theorem WellFormed.threadEvents_of_none (well : db.WellFormed) {threadId : ThreadId}
    (absent : db.thread threadId = none) : db.threadEvents threadId = [] := by
  apply List.filter_eq_nil_iff.mpr
  intro envelope member own
  apply thread_eq_none.mp absent
  rw [← of_decide_eq_true own]
  exact well.owned envelope member

theorem WellFormed.logOf (well : db.WellFormed) {threadId : ThreadId} {row : ThreadRow}
    (found : db.thread threadId = some row) : db.LogOf row ∧ row.id = threadId :=
  ⟨well.logs row (Table.lookup_mem found), Table.lookup_key found⟩

/-- The rows of a log that a query returns: the ones behind the cursor as the signed
parameter holds it. -/
theorem loadEvents_eq (well : db.WellFormed) {threadId : ThreadId} {row : ThreadRow}
    (found : db.thread threadId = some row) (afterSeq : Nat) :
    db.loadEvents threadId afterSeq = .ok ((db.threadEvents threadId).filter fun envelope =>
      decide (asI64 afterSeq < asI64 envelope.seq)) := by
  obtain ⟨log, rfl⟩ := well.logOf found
  have increasing : ((db.threadEvents row.id).map EventEnvelope.seq).Pairwise (· < ·) := by
    rw [log.numbered]
    exact List.pairwise_lt_range'
  have ordered : (db.threadEvents row.id).Pairwise fun left right => left.seq ≤ right.seq :=
    (List.pairwise_map.mp increasing).imp Nat.le_of_lt
  simp only [loadEvents, found]
  rw [List.Pairwise.insertionSort_eq (ordered.filter _)]

theorem seq_of_threadEvents (well : db.WellFormed) {threadId : ThreadId} {row : ThreadRow}
    (found : db.thread threadId = some row) (few : db.events.length < 2 ^ 63)
    {envelope : EventEnvelope} (member : envelope ∈ db.threadEvents threadId) :
    0 < envelope.seq ∧ envelope.seq < 2 ^ 63 := by
  obtain ⟨log, rfl⟩ := well.logOf found
  have shorter : (db.threadEvents row.id).length ≤ db.events.length :=
    List.length_filter_le _ db.events
  have number : envelope.seq ∈ (db.threadEvents row.id).map EventEnvelope.seq :=
    List.mem_map_of_mem member
  rw [log.numbered, List.mem_range'_1] at number
  omega

theorem Keeps.readEvents_eq (keeps : Keeps text format db ledger) (lawful : format.Lawful)
    {threadId : ThreadId} {row : ThreadRow} (found : db.thread threadId = some row)
    (afterSeq : Nat) :
    db.readEvents (Jsonl.wireCodec text format) threadId afterSeq =
      .ok (((db.threadEvents threadId).filter fun envelope =>
        decide (asI64 afterSeq < asI64 envelope.seq)).map
          (EventEnvelope.restored text.number)) := by
  have inside : ∀ envelope ∈ (db.threadEvents threadId).filter (fun envelope =>
      decide (asI64 afterSeq < asI64 envelope.seq)), envelope ∈ db.events :=
    fun envelope member => List.mem_of_mem_filter (List.mem_of_mem_filter member)
  exact Database.readEvents_eq lawful
    (fun envelope member => keeps.typed envelope (inside envelope member))
    (fun envelope member => keeps.restores envelope (inside envelope member))
    (fun envelope member => keeps.legible envelope (inside envelope member))
    (loadEvents_eq keeps.well found afterSeq)

/-- A cursor below the sign bit selects the events behind it. -/
theorem Keeps.readEvents_signed (keeps : Keeps text format db ledger) (lawful : format.Lawful)
    (few : db.events.length < 2 ^ 63) {threadId : ThreadId} {row : ThreadRow}
    (found : db.thread threadId = some row) {afterSeq : Nat} (small : afterSeq < 2 ^ 63) :
    db.readEvents (Jsonl.wireCodec text format) threadId afterSeq =
      .ok (((db.threadEvents threadId).map (EventEnvelope.restored text.number)).filter
        fun envelope =>
        decide (afterSeq < envelope.seq)) := by
  have selected : (db.threadEvents threadId).filter (fun envelope =>
      decide (asI64 afterSeq < asI64 envelope.seq)) =
        (db.threadEvents threadId).filter fun envelope => decide (afterSeq < envelope.seq) := by
    apply List.filter_congr
    intro envelope member
    have bounds := seq_of_threadEvents keeps.well found few member
    rw [asI64_of_lt small, asI64_of_lt bounds.2]
    exact decide_eq_decide.mpr Int.ofNat_lt
  rw [keeps.readEvents_eq lawful found, selected, List.filter_map]
  rfl

/-- A cursor above it is negative for the query, which then selects every event. -/
theorem Keeps.readEvents_unsigned (keeps : Keeps text format db ledger)
    (lawful : format.Lawful) (few : db.events.length < 2 ^ 63) {threadId : ThreadId}
    {row : ThreadRow} (found : db.thread threadId = some row) {afterSeq : Nat}
    (large : 2 ^ 63 ≤ afterSeq) (word : afterSeq < 2 ^ 64) :
    db.readEvents (Jsonl.wireCodec text format) threadId afterSeq =
      .ok ((db.threadEvents threadId).map (EventEnvelope.restored text.number)) := by
  rw [keeps.readEvents_eq lawful found, List.filter_eq_self.mpr]
  intro envelope member
  have bounds := seq_of_threadEvents keeps.well found few member
  rw [asI64_of_lt bounds.2]
  unfold asI64
  exact decide_eq_true (by omega)

theorem Keeps.lastSeqOf_eq (keeps : Keeps text format db ledger) {threadId : ThreadId}
    {row : ThreadRow} (found : db.thread threadId = some row) :
    db.lastSeqOf threadId = .ok (db.threadEvents threadId).length := by
  obtain ⟨log, rfl⟩ := keeps.well.logOf found
  simp only [lastSeqOf, found, lastSeq_of_numbered log.numbered]

theorem Keeps.threadEvents_ne_nil (keeps : Keeps text format db ledger) {threadId : ThreadId}
    {row : ThreadRow} (found : db.thread threadId = some row) :
    db.threadEvents threadId ≠ [] := by
  obtain ⟨log, rfl⟩ := keeps.well.logOf found
  obtain ⟨first, rest, events, -⟩ := log.created
  rw [events]
  exact List.cons_ne_nil first rest

theorem Keeps.records_eq_nil_iff (keeps : Keeps text format db ledger) (threadId : ThreadId) :
    ledger.records threadId = [] ↔ db.thread threadId = none := by
  rw [← keeps.same, records_blank, List.map_eq_nil_iff]
  constructor
  · intro nothing
    cases found : db.thread threadId with
    | none => rfl
    | some row => exact absurd nothing (keeps.threadEvents_ne_nil found)
  · exact keeps.well.threadEvents_of_none

/-- A read answers as the ledger does exactly if its cursor is one that the query's signed
parameter holds, or the thread is not there. -/
theorem Keeps.query_iff (keeps : Keeps text format db ledger) (lawful : format.Lawful)
    (few : db.events.length < 2 ^ 63) (projections : Projections) (threadId : ThreadId)
    (query : StoreQuery) :
    comparable (projections.answer threadId
      (db.readEvents (Jsonl.wireCodec text format) threadId) (db.lastSeqOf threadId) query) =
    comparable (projections.answer threadId (ledger.eventsAfter text.number threadId)
      (ledger.lastSeq threadId) query) ↔
    query.cursor < 2 ^ 63 ∨ ledger.records threadId = [] := by
  cases found : db.thread threadId with
  | none =>
      have nothing := (keeps.records_eq_nil_iff threadId).mpr found
      simp only [nothing, or_true, iff_true]
      apply comparable_answer
      · simp only [readEvents, loadEvents, found, Ledger.eventsAfter, nothing]
        rfl
      · simp only [lastSeqOf, found, Ledger.lastSeq, nothing]
  | some row =>
      have kept := keeps.threadEvents_ne_nil found
      have there : ledger.records threadId ≠ [] := by
        rw [Ne, keeps.records_eq_nil_iff, found]
        exact Option.some_ne_none row
      simp only [there, or_false]
      constructor
      · intro same
        by_contra large
        cases query with
        | eventsAfter afterSeq =>
            simp only [StoreQuery.cursor, Nat.not_lt] at large
            have none : ((db.threadEvents threadId).map (EventEnvelope.restored text.number)).filter
                (fun envelope => decide (afterSeq.toNat < envelope.seq)) = [] := by
              apply List.filter_eq_nil_iff.mpr
              intro envelope member behind
              obtain ⟨row', inside, rfl⟩ := List.mem_map.mp member
              have bounds := seq_of_threadEvents keeps.well found few inside
              have behind := of_decide_eq_true behind
              simp only [EventEnvelope.restored, EventEnvelope.mapNumbers,
                EventEnvelope.reread] at behind
              omega
            have word := afterSeq.toNat_lt
            have rows : Jsonl.ofThread threadId db.events = db.threadEvents threadId := rfl
            have loaded : (Ledger.eventsAfter text.number (db.events.map blankEnvelope) threadId
                afterSeq.toNat).toOption.map (List.map blankEnvelope) = _ :=
              eventsAfter_blank rows kept afterSeq.toNat
            rw [keeps.same, none] at loaded
            rw [comparable_eventsAfter, comparable_eventsAfter, loaded,
              keeps.readEvents_unsigned lawful few found large word] at same
            simp [Except.toOption, kept] at same
        | lastSeq => exact large (Nat.two_pow_pos 63)
        | getThread => exact large (Nat.two_pow_pos 63)
        | modelContext budget => exact large (Nat.two_pow_pos 63)
        | getEvidence evidenceId => exact large (Nat.two_pow_pos 63)
      · intro small
        apply comparable_answer
        · rw [keeps.readEvents_signed lawful few found small, ← keeps.same,
            eventsAfter_blank rfl kept]
          rfl
        · rw [keeps.lastSeqOf_eq found, ← keeps.same, lastSeq_blank rfl kept]
          rfl

/-- One call of the SQLite store is one of the ledger, and it answers as the ledger does
exactly if the cursor of a read is one that the query's signed parameter holds. -/
theorem keeps_perform (lawful : format.Lawful) (projections : Projections)
    (keeps : Keeps text format db ledger) {call : StoreCall} {stamp : Stamp}
    (few : ledger.length + 1 < 2 ^ 63) (unused : db.Unused stamp.fresh)
    (typed : call.WellTyped) (legible : call.Legible)
    (exact : Recordable text format
      (perform (Jsonl.wireCodec text format) projections db stamp call).1) :
    (comparable (perform (Jsonl.wireCodec text format) projections db stamp call).1 =
      (ledger.perform text.number projections call).1 ↔ ledger.Signed call) ∧
    Keeps text format (perform (Jsonl.wireCodec text format) projections db stamp call).2
      (ledger.perform text.number projections call).2 := by
  rw [← keeps.same, List.length_map] at few
  cases call with
  | query threadId query =>
      exact ⟨keeps.query_iff lawful (by omega) projections threadId query, keeps⟩
  | createThread threadId workspaceId =>
      have well := keeps.well.createThread threadId workspaceId stamp.clock unused
      simp only [perform, Ledger.Signed, iff_true] at exact ⊢
      cases valid : workspaceId.validate with
      | error error =>
          simp only [createThread, valid, Ledger.perform]
          exact ⟨rfl, keeps⟩
      | ok =>
          cases found : db.thread threadId with
          | some row =>
              obtain ⟨first, rest, records⟩ := List.exists_cons_of_ne_nil fun nothing =>
                Option.some_ne_none row
                  (found.symm.trans ((keeps.records_eq_nil_iff threadId).mp nothing))
              simp only [createThread, valid, found, Ledger.perform, records]
              exact ⟨rfl, keeps⟩
          | none =>
              have nothing := (keeps.records_eq_nil_iff threadId).mpr found
              simp only [createThread, valid, found] at exact well
              simp only [createThread, valid, found, Ledger.perform, nothing]
              refine ⟨rfl, well, ?_, ?_, ?_, ?_⟩
              · rw [List.map_append, keeps.same]
                rfl
              · intro envelope member
                rcases List.mem_append.mp member with old | new
                · exact keeps.typed envelope old
                · rw [List.mem_singleton.mp new]
                  exact ⟨show 1 < 2 ^ 64 by decide, trivial⟩
              · intro envelope member
                rcases List.mem_append.mp member with old | new
                · exact keeps.restores envelope old
                · rw [List.mem_singleton.mp new]
                  exact exact _ rfl
              · intro envelope member
                rcases List.mem_append.mp member with old | new
                · exact keeps.legible envelope old
                · rw [List.mem_singleton.mp new]
                  exact fun payload carried => by cases carried
  | appendEvent command =>
      have well := keeps.well.appendEvent command stamp.clock unused
      simp only [perform, Ledger.Signed, iff_true] at exact ⊢
      cases found : db.thread command.threadId with
      | none =>
          have nothing := (keeps.records_eq_nil_iff command.threadId).mpr found
          simp only [appendEvent, found, Ledger.perform, nothing]
          exact ⟨rfl, keeps⟩
      | some row =>
          obtain ⟨log, own⟩ := keeps.well.logOf found
          have last : db.lastSeq command.threadId = (db.threadEvents command.threadId).length := by
            rw [← own]
            exact lastSeq_of_numbered log.numbered
          obtain ⟨first, rest, events, -⟩ := log.created
          have workspace := log.workspace first (by rw [events]; exact List.mem_cons_self)
          rw [own] at events
          have rows : Jsonl.ofThread command.threadId db.events = first :: rest := events
          have records : ledger.records command.threadId =
              blankEnvelope first :: rest.map blankEnvelope := by
            rw [← keeps.same, records_blank, rows, List.map_cons]
          have shorter : (db.threadEvents command.threadId).length ≤ db.events.length :=
            List.length_filter_le _ db.events
          rw [events, List.length_cons] at last shorter
          simp only [appendEvent, found, last] at exact well
          simp only [appendEvent, found, last, Ledger.perform, records, List.length_cons,
            List.length_map]
          refine ⟨?_, well, ?_, ?_, ?_, ?_⟩
          · rw [← workspace]
            rfl
          · rw [List.map_append, keeps.same, ← workspace]
            rfl
          · intro envelope member
            rcases List.mem_append.mp member with old | new
            · exact keeps.typed envelope old
            · rw [List.mem_singleton.mp new]
              exact ⟨show rest.length + 1 + 1 < 2 ^ 64 by omega, typed⟩
          · intro envelope member
            rcases List.mem_append.mp member with old | new
            · exact keeps.restores envelope old
            · rw [List.mem_singleton.mp new]
              exact exact _ rfl
          · intro envelope member
            rcases List.mem_append.mp member with old | new
            · exact keeps.legible envelope old
            · rw [List.mem_singleton.mp new]
              exact legible

end

end Database

namespace Ledger

variable (number : Number → Number) (projections : Projections)

def performRequest (ledger : Ledger) (request : Request) : Option StoreAnswer × Ledger :=
  ledger.perform number projections request.call

/-- Among some requests there is one that creates the thread. -/
def Created (threadId : ThreadId) (requests : List Request) : Prop :=
  ∃ request ∈ requests, ∃ workspaceId, request.call = .createThread threadId workspaceId ∧
    workspaceId.validate = .ok ()

variable {number projections}

theorem records_snoc_own (ledger : Ledger) (envelope : EventEnvelope) :
    Ledger.records (ledger ++ [envelope]) envelope.threadId ≠ [] := by
  simp [Ledger.records]

theorem records_snoc_other (ledger : Ledger) {envelope : EventEnvelope} {threadId : ThreadId}
    (different : envelope.threadId ≠ threadId) :
    Ledger.records (ledger ++ [envelope]) threadId = ledger.records threadId := by
  simp [Ledger.records, different]

theorem records_perform (ledger : Ledger) (call : StoreCall) (threadId : ThreadId) :
    (ledger.perform number projections call).2.records threadId = [] ↔
      ledger.records threadId = [] ∧ ∀ workspaceId,
        call = .createThread threadId workspaceId → workspaceId.validate ≠ .ok () := by
  cases call with
  | query threadId query => simp [perform]
  | createThread created workspaceId =>
      cases valid : workspaceId.validate with
      | error error =>
          simp only [perform, valid]
          constructor
          · intro nothing
            refine ⟨nothing, fun other same => ?_⟩
            cases same
            rw [valid]
            exact fun equal => by cases equal
          · exact And.left
      | ok =>
          cases records : ledger.records created with
          | nil =>
              simp only [perform, valid, records]
              by_cases own : created = threadId
              · subst own
                constructor
                · intro nothing
                  exact absurd nothing (records_snoc_own ledger
                    (Jsonl.createdEnvelope created workspaceId 0 0))
                · intro ⟨_, invalid⟩
                  exact absurd valid (invalid workspaceId rfl)
              · rw [records_snoc_other ledger own]
                constructor
                · intro nothing
                  exact ⟨nothing, fun other same => by cases same; exact absurd rfl own⟩
                · exact And.left
          | cons first rest =>
              simp only [perform, valid, records]
              constructor
              · intro nothing
                refine ⟨nothing, fun other same => ?_⟩
                cases same
                rw [nothing] at records
                cases records
              · exact And.left
  | appendEvent command =>
      have other (workspaceId : WorkspaceId) :
          StoreCall.appendEvent command ≠ .createThread threadId workspaceId := by
        intro same
        cases same
      cases records : ledger.records command.threadId with
      | nil => simp [perform, records]
      | cons first rest =>
          simp only [perform, records]
          by_cases own : command.threadId = threadId
          · subst own
            constructor
            · intro nothing
              exact absurd nothing (records_snoc_own ledger
                (Jsonl.appendedEnvelope command 0 0 (first :: rest) (rest.length + 1 + 1)))
            · intro ⟨nothing, _⟩
              rw [nothing] at records
              cases records
          · rw [records_snoc_other ledger own]
            simp

theorem records_final (ledger : Ledger) (requests : List Request) (threadId : ThreadId) :
    Ledger.records (Transcript.final (performRequest number projections) ledger requests)
        threadId = [] ↔
      ledger.records threadId = [] ∧ ¬ Created threadId requests := by
  induction requests generalizing ledger with
  | nil => simp [Transcript.final, Created]
  | cons request requests ih =>
      rw [Transcript.final, ih, performRequest, records_perform]
      constructor
      · intro ⟨⟨nothing, invalid⟩, uncreated⟩
        refine ⟨nothing, fun ⟨other, member, workspaceId, call, valid⟩ => ?_⟩
        rcases List.mem_cons.mp member with rfl | later
        · exact invalid workspaceId call valid
        · exact uncreated ⟨other, later, workspaceId, call, valid⟩
      · intro ⟨nothing, uncreated⟩
        refine ⟨⟨nothing, fun workspaceId call valid => ?_⟩, ?_⟩
        · exact uncreated ⟨request, List.mem_cons_self, workspaceId, call, valid⟩
        · intro ⟨other, member, workspaceId, call, valid⟩
          exact uncreated ⟨other, List.mem_cons_of_mem request member, workspaceId, call, valid⟩

theorem length_perform (ledger : Ledger) (request : Request) :
    (performRequest number projections ledger request).2.length ≤ ledger.length + 1 := by
  simp only [performRequest]
  cases request.call with
  | query threadId query => exact Nat.le_succ _
  | createThread threadId workspaceId =>
      simp only [perform]
      split
      · simp
      · exact Nat.le_succ _
  | appendEvent command =>
      simp only [perform]
      split
      · exact Nat.le_succ _
      · simp

/-- The cursors of a run are ones that a signed parameter holds. -/
theorem throughout_signed_iff (requests : List Request) :
    Transcript.Throughout (performRequest number projections)
      (fun ledger request => Ledger.Signed ledger request.call) [] requests ↔
    ∀ before request after threadId query, requests = before ++ request :: after →
      request.call = .query threadId query →
      query.cursor < 2 ^ 63 ∨ ¬ Created threadId before := by
  rw [Transcript.throughout_iff]
  constructor
  · intro signed before request after threadId query split call
    have here := signed before request after split
    rw [call, Ledger.Signed, records_final] at here
    exact here.imp_right And.right
  · intro signed before request after split
    cases call : request.call with
    | createThread threadId workspaceId => trivial
    | appendEvent command => trivial
    | query threadId query =>
        rw [Ledger.Signed, records_final]
        exact (signed before request after threadId query split call).imp_right fun uncreated =>
          ⟨rfl, uncreated⟩

end Ledger

section

variable (text : JsonText) (format : Format) (path : ThreadId → String)
  (projections : Projections)

/-- The answers of an empty JSONL store. -/
def jsonlAnswers (requests : List Request) : List (Result StoreAnswer) :=
  Transcript.outputs (Jsonl.performRequest (Jsonl.wireCodec text format) path projections) []
    requests

/-- The answers of an empty SQLite store. -/
def sqliteAnswers (requests : List Request) : List (Result StoreAnswer) :=
  Transcript.outputs (Database.performRequest (Jsonl.wireCodec text format) projections)
    Database.empty requests

end

section

variable {text : JsonText} {format : Format} {path : ThreadId → String}
  {projections : Projections} {requests : List Request}

theorem few_records (few : requests.length < 2 ^ 63) :
    Transcript.Throughout (Ledger.performRequest text.number projections)
      (fun ledger _ => ledger.length + 1 < 2 ^ 63) [] requests :=
  Transcript.throughout_of_grows (fun ledger request => Ledger.length_perform ledger request)
    (by rwa [List.length_nil, Nat.zero_add])

theorem jsonlAnswers_eq (lines : Jsonl.Lines text) (lawful : format.Lawful)
    (few : requests.length < 2 ^ 63) (typed : ∀ request ∈ requests, request.call.WellTyped)
    (legible : ∀ request ∈ requests, request.call.Legible)
    (exact : ∀ answer ∈ jsonlAnswers text format path projections requests,
      Recordable text format answer) :
    (jsonlAnswers text format path projections requests).map comparable =
      Transcript.outputs (Ledger.performRequest text.number projections) [] requests := by
  have step (directory : Jsonl.Directory) (ledger : Ledger) (request : Request)
      (keeps : Jsonl.Keeps text format path directory ledger)
      (fits : (request.call.WellTyped ∧ request.call.Legible) ∧ Recordable text format
        (Jsonl.performRequest
        (Jsonl.wireCodec text format) path projections directory request).1)
      (room : ledger.length + 1 < 2 ^ 63) :
      (comparable (Jsonl.performRequest (Jsonl.wireCodec text format) path projections directory
        request).1 = (Ledger.performRequest text.number projections ledger request).1 ↔ True) ∧
      Jsonl.Keeps text format path (Jsonl.performRequest (Jsonl.wireCodec text format) path
        projections directory request).2
      (Ledger.performRequest text.number projections ledger request).2 := by
    rw [iff_true]
    exact Jsonl.keeps_perform lines lawful projections keeps (by omega) fits.1.1 fits.1.2 fits.2
  have start : Jsonl.Keeps text format path [] [] :=
    ⟨[], fun _ => ⟨fun _ => rfl, fun _ found => by cases found⟩, rfl⟩
  have recorded := Transcript.throughout_of_outputs exact
  have fine : ∀ request ∈ requests, request.call.WellTyped ∧ request.call.Legible :=
    fun request member => ⟨typed request member, legible request member⟩
  have fits := (Transcript.throughout_of_inputs fine).and recorded
  have same := Transcript.outputs_map_eq_iff step start fits (few_records few)
  exact same.mpr (Transcript.throughout_of_inputs fun _ _ => trivial)

theorem eventIds_perform (codec : Jsonl.EnvelopeCodec) (db : Database) (request : Request) :
    (Database.performRequest codec projections db request).2.events.map EventEnvelope.eventId ⊆
      ⟨request.sqlite.fresh⟩ :: db.events.map EventEnvelope.eventId := by
  simp only [Database.performRequest]
  cases request.call with
  | query threadId query => exact List.subset_cons_self _ _
  | createThread threadId workspaceId =>
      simp only [Database.perform, Database.createThread]
      split
      · exact List.subset_cons_self _ _
      · split
        · exact List.subset_cons_self _ _
        · intro id member
          rw [List.map_append] at member
          rcases List.mem_append.mp member with old | new
          · exact List.mem_cons_of_mem _ old
          · rw [List.mem_singleton.mp new]
            exact List.mem_cons_self
  | appendEvent command =>
      simp only [Database.perform, Database.appendEvent]
      split
      · exact List.subset_cons_self _ _
      · intro id member
        rw [List.map_append] at member
        rcases List.mem_append.mp member with old | new
        · exact List.mem_cons_of_mem _ old
        · rw [List.mem_singleton.mp new]
          exact List.mem_cons_self

theorem sqliteAnswers_iff (lawful : format.Lawful) (few : requests.length < 2 ^ 63)
    (typed : ∀ request ∈ requests, request.call.WellTyped)
    (legible : ∀ request ∈ requests, request.call.Legible)
    (fresh : (requests.map fun request => request.sqlite.fresh).Nodup)
    (exact : ∀ answer ∈ sqliteAnswers text format projections requests,
      Recordable text format answer) :
    (sqliteAnswers text format projections requests).map comparable =
      Transcript.outputs (Ledger.performRequest text.number projections) [] requests ↔
    Transcript.Throughout (Ledger.performRequest text.number projections)
      (fun ledger request => Ledger.Signed ledger request.call) [] requests := by
  have step (db : Database) (ledger : Ledger) (request : Request)
      (keeps : Database.Keeps text format db ledger)
      (fits : ((request.call.WellTyped ∧ request.call.Legible) ∧
        (⟨request.sqlite.fresh⟩ : EventId) ∉ db.events.map EventEnvelope.eventId) ∧
        Recordable text format (Database.performRequest (Jsonl.wireCodec text format) projections
          db request).1)
      (room : ledger.length + 1 < 2 ^ 63) :
      (comparable (Database.performRequest (Jsonl.wireCodec text format) projections db
        request).1 = (Ledger.performRequest text.number projections ledger request).1 ↔
          Ledger.Signed ledger request.call) ∧
      Database.Keeps text format (Database.performRequest (Jsonl.wireCodec text format)
        projections db request).2
      (Ledger.performRequest text.number projections ledger request).2 := by
    have unused : db.Unused request.sqlite.fresh := fun envelope member same =>
      fits.1.2 (List.mem_map.mpr ⟨envelope, member, same⟩)
    exact Database.keeps_perform lawful projections keeps room unused fits.1.1.1 fits.1.1.2
      fits.2
  have start : Database.Keeps text format Database.empty [] :=
    ⟨Database.wellFormed_empty, rfl, fun _ member => (by cases member),
      fun _ member => (by cases member), fun _ member => (by cases member)⟩
  have distinct : (requests.map fun request => (⟨request.sqlite.fresh⟩ : EventId)).Nodup := by
    have mapped := fresh.map (f := EventId.mk) fun _ _ same => EventId.mk.inj same
    rwa [List.map_map] at mapped
  have unused : Transcript.Throughout
      (Database.performRequest (Jsonl.wireCodec text format) projections)
      (fun db request =>
        (⟨request.sqlite.fresh⟩ : EventId) ∉ db.events.map EventEnvelope.eventId)
      Database.empty requests := by
    apply Transcript.throughout_of_nodup (eventIds_perform (Jsonl.wireCodec text format)) distinct
    intro request member taken
    cases taken
  have recorded := Transcript.throughout_of_outputs exact
  have fine : ∀ request ∈ requests, request.call.WellTyped ∧ request.call.Legible :=
    fun request member => ⟨typed request member, legible request member⟩
  have fits := ((Transcript.throughout_of_inputs fine).and unused).and recorded
  exact Transcript.outputs_map_eq_iff step start fits (few_records few)

/-- The two stores give the same answers to a run of calls that write readable records, up
to what each makes up, exactly if no cursor of a read of an existing thread has its sign bit set. -/
theorem sameAnswers_iff (lines : Jsonl.Lines text) (lawful : format.Lawful)
    (few : requests.length < 2 ^ 63) (typed : ∀ request ∈ requests, request.call.WellTyped)
    (legible : ∀ request ∈ requests, request.call.Legible)
    (fresh : (requests.map fun request => request.sqlite.fresh).Nodup)
    (jsonlExact : ∀ answer ∈ jsonlAnswers text format path projections requests,
      Recordable text format answer)
    (sqliteExact : ∀ answer ∈ sqliteAnswers text format projections requests,
      Recordable text format answer) :
    (jsonlAnswers text format path projections requests).map comparable =
      (sqliteAnswers text format projections requests).map comparable ↔
    ∀ before request after threadId query, requests = before ++ request :: after →
      request.call = .query threadId query →
      query.cursor < 2 ^ 63 ∨ ¬ Ledger.Created threadId before := by
  rw [jsonlAnswers_eq lines lawful few typed legible jsonlExact, ← Ledger.throughout_signed_iff,
    ← sqliteAnswers_iff lawful few typed legible fresh sqliteExact]
  exact eq_comm

end

section

open Demo.Export OpsCodex.Runtime.Demo.EventText

namespace Demo.Backends

def projections : Projections where
  promptBlock := fun _ => ""
  itemBytes := fun _ => 0
  synthesize := fun _ _ _ => ⟨0⟩

def request (call : StoreCall) (fresh : Uuid) : Request where
  call := call
  jsonl := { clock := 0, fresh := fresh }
  sqlite := { clock := 0, fresh := fresh }

def create : Request := request (.createThread ⟨1⟩ ⟨"team"⟩) 1

/-- A read of a new thread from a cursor with its sign bit set. -/
def signBit : List Request := [create, request (.query ⟨1⟩ (.eventsAfter 0x8000000000000000)) 2]

def requests : List Request :=
  [create, request (.appendEvent (append completed.event)) 2,
    request (.query ⟨1⟩ (.eventsAfter 1)) 3,
    request (.query ⟨1⟩ .getThread) 4]

variable {answer : Result StoreAnswer} {envelope : EventEnvelope}

theorem recordable_event (restores : (known samples).Restores (envelope.toValue format))
    (answered : answer = .ok (.event envelope)) : Recordable (known samples) format answer := by
  intro other same
  rw [answered] at same
  cases same
  exact restores

theorem recordable_query {threadId : ThreadId}
    {eventsAfter : Nat → Result (List EventEnvelope)} {lastSeq : Result Nat} {query : StoreQuery}
    (answered : answer = projections.answer threadId eventsAfter lastSeq query) :
    Recordable (known samples) format answer := by
  intro other same
  exact absurd (answered.symm.trans same) (answer_ne_event _ _ _ _ _ _)

/-- Requests that only read. -/
def Reads (queries : List Request) : Prop :=
  ∀ request ∈ queries, ∃ threadId query, request.call = .query threadId query

theorem jsonl_reads {queries : List Request} (reads : Reads queries)
    {directory : Jsonl.Directory} (member : answer ∈ Transcript.outputs
      (Jsonl.performRequest (Jsonl.wireCodec (known samples) format) path projections) directory
      queries) : Recordable (known samples) format answer := by
  obtain ⟨reached, request, inside, answered⟩ := Transcript.mem_outputs member
  obtain ⟨threadId, query, call⟩ := reads request inside
  simp only [Jsonl.performRequest, call, Jsonl.perform] at answered
  exact recordable_query answered

theorem sqlite_reads {queries : List Request} (reads : Reads queries) {db : Database}
    (member : answer ∈ Transcript.outputs
      (Database.performRequest (Jsonl.wireCodec (known samples) format) projections) db
      queries) : Recordable (known samples) format answer := by
  obtain ⟨reached, request, inside, answered⟩ := Transcript.mem_outputs member
  obtain ⟨threadId, query, call⟩ := reads request inside
  simp only [Database.performRequest, call, Database.perform] at answered
  exact recordable_query answered

theorem signBit_reads : Reads [request (.query ⟨1⟩ (.eventsAfter 0x8000000000000000)) 2] := by
  intro other member
  rw [List.mem_singleton.mp member]
  exact ⟨_, _, rfl⟩

theorem requests_reads :
    Reads [request (.query ⟨1⟩ (.eventsAfter 1)) 3, request (.query ⟨1⟩ .getThread) 4] := by
  intro other member
  rcases List.mem_cons.mp member with rfl | member
  · exact ⟨_, _, rfl⟩
  · rw [List.mem_singleton.mp member]
    exact ⟨_, _, rfl⟩

theorem jsonl_signBit : ∀ answer ∈ jsonlAnswers (known samples) format path projections signBit,
    Recordable (known samples) format answer := by
  intro answer member
  rcases List.mem_cons.mp member with rfl | member
  · exact recordable_event created_restores rfl
  · exact jsonl_reads signBit_reads member

theorem sqlite_signBit : ∀ answer ∈ sqliteAnswers (known samples) format projections signBit,
    Recordable (known samples) format answer := by
  intro answer member
  rcases List.mem_cons.mp member with rfl | member
  · exact recordable_event created_restores rfl
  · exact sqlite_reads signBit_reads member

theorem jsonl_requests : ∀ answer ∈ jsonlAnswers (known samples) format path projections requests,
    Recordable (known samples) format answer := by
  intro answer member
  have appended : Jsonl.performRequest (Jsonl.wireCodec (known samples) format) path projections
      (opened (known samples)) (request (.appendEvent (append completed.event)) 2) =
        (.ok (.event completed), closed (known samples) completed.event) := by
    have stored : Jsonl.read (opened (known samples)) (append completed.event).threadId =
        some (line (known samples) created) := rfl
    have answered :=
      appendEvent_second samples_holds (show streamKindFor completed.event = .domain from rfl)
    simp only [Jsonl.performRequest, Jsonl.perform, request, stored, answered]
    rfl
  have first : Jsonl.performRequest (Jsonl.wireCodec (known samples) format) path projections []
      create = (.ok (.event created), opened (known samples)) := rfl
  rw [jsonlAnswers, requests, Transcript.outputs, first, Transcript.outputs, appended] at member
  rcases List.mem_cons.mp member with rfl | member
  · exact recordable_event created_restores rfl
  · rcases List.mem_cons.mp member with rfl | member
    · exact recordable_event completed_restores rfl
    · exact jsonl_reads requests_reads member

theorem sqlite_requests : ∀ answer ∈ sqliteAnswers (known samples) format projections requests,
    Recordable (known samples) format answer := by
  intro answer member
  rcases List.mem_cons.mp member with rfl | member
  · exact recordable_event created_restores rfl
  · rcases List.mem_cons.mp member with rfl | member
    · exact recordable_event completed_restores rfl
    · exact sqlite_reads requests_reads member

end Demo.Backends

open Demo.Backends

theorem sameAnswers_iff_completed :
    (jsonlAnswers (known samples) format Demo.Export.path projections requests).map comparable =
      (sqliteAnswers (known samples) format projections requests).map comparable := by
  have typed : ∀ request ∈ requests, request.call.WellTyped := by
    intro request member
    rcases List.mem_cons.mp member with rfl | member
    · trivial
    · rcases List.mem_cons.mp member with rfl | member
      · rfl
      · rcases List.mem_cons.mp member with rfl | member
        · trivial
        · rw [List.mem_singleton.mp member]
          trivial
  have legible : ∀ request ∈ requests, request.call.Legible := by
    intro request member
    rcases List.mem_cons.mp member with rfl | member
    · trivial
    · rcases List.mem_cons.mp member with rfl | member
      · exact completed_legible
      · rcases List.mem_cons.mp member with rfl | member
        · trivial
        · rw [List.mem_singleton.mp member]
          trivial
  apply (sameAnswers_iff samples_lines lawful (by decide) typed legible (by decide) jsonl_requests
    sqlite_requests).mpr
  intro before other after threadId query split call
  have member : other ∈ requests := by
    rw [split]
    exact List.mem_append_right _ List.mem_cons_self
  left
  rcases List.mem_cons.mp member with rfl | member
  · cases call
  · rcases List.mem_cons.mp member with rfl | member
    · cases call
    · rcases List.mem_cons.mp member with rfl | member
      · cases call
        decide
      · rw [List.mem_singleton.mp member] at call
        cases call
        decide

theorem not_sameAnswers :
    (jsonlAnswers (known samples) format Demo.Export.path projections signBit).map comparable ≠
      (sqliteAnswers (known samples) format projections signBit).map comparable := by
  have typed : ∀ request ∈ signBit, request.call.WellTyped := by
    intro request member
    rcases List.mem_cons.mp member with rfl | member
    · trivial
    · rw [List.mem_singleton.mp member]
      trivial
  have legible : ∀ request ∈ signBit, request.call.Legible := by
    intro request member
    rcases List.mem_cons.mp member with rfl | member
    · trivial
    · rw [List.mem_singleton.mp member]
      trivial
  rw [jsonlAnswers_eq samples_lines lawful (by decide) typed legible jsonl_signBit]
  intro same
  have signed := (sqliteAnswers_iff lawful (by decide) typed legible (by decide)
    sqlite_signBit).mp same.symm
  have cursor := (Ledger.throughout_signed_iff signBit).mp signed [create] _ [] ⟨1⟩ _ rfl rfl
  rcases cursor with small | uncreated
  · exact absurd small (by decide)
  · exact uncreated ⟨create, List.mem_singleton_self create, ⟨"team"⟩, rfl, rfl⟩

end

end OpsCodex.Store
