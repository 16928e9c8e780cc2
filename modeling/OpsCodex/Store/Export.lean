import OpsCodex.Runtime.EventText
import OpsCodex.Store.History
import OpsCodex.Store.JsonlCreation

/-! A thread's log on its way from the JSONL store through the SQLite store into an
exported file. -/

set_option autoImplicit false

namespace OpsCodex.Store

open OpsCodex.Json OpsCodex.Runtime OpsCodex.Action

namespace Jsonl

/-- The store's records as the serialisation library writes and reads them. -/
def wireCodec (text : JsonText) (format : Format) : EnvelopeCodec where
  toVec envelope := .ok (envelope.toVec text format)
  fromSlice := EventEnvelope.fromSlice text format
  eventVec := RuntimeEvent.toVec text format
  number := text.number

@[simp] theorem wireCodec_eventVec (text : JsonText) (format : Format) :
    (wireCodec text format).eventVec = RuntimeEvent.toVec text format := rfl

/-- The file that an export writes. -/
def writeJsonl (codec : EnvelopeCodec) : List EventEnvelope → Result Bytes
  | [] => .ok []
  | envelope :: envelopes => do
      return (← encodeLine codec envelope) ++ (← writeJsonl codec envelopes)

/-- The calls that write a JSONL store. -/
inductive Call where
  | createThread (threadId : ThreadId) (workspaceId : WorkspaceId) (clock : DateTime)
      (fresh : Uuid)
  | appendEvent (command : AppendEvent) (clock : DateTime) (fresh : Uuid)

def Call.fresh : Call → Uuid
  | .createThread _ _ _ fresh => fresh
  | .appendEvent _ _ fresh => fresh

def Call.WellTyped : Call → Prop
  | .createThread .. => True
  | .appendEvent command _ _ => command.event.WellTyped

/-- The record that a call writes can be read back. -/
def Call.Legible : Call → Prop
  | .createThread .. => True
  | .appendEvent command _ _ => command.event.Legible

section

variable (codec : EnvelopeCodec) (path : ThreadId → String)

/-- The record that a call acknowledges, if it succeeds, and the directory after it. -/
def Call.run (directory : Directory) : Call → Option EventEnvelope × Directory
  | .createThread threadId workspaceId clock fresh =>
      match Jsonl.createThread codec path threadId workspaceId clock fresh directory with
      | .error _ => (none, directory)
      | .ok (envelope, line) =>
          (some envelope, directory ++ [{ threadId := threadId, bytes := line }])
  | .appendEvent command clock fresh =>
      let (answer, operations) := Jsonl.appendEvent codec path command clock fresh
        (read directory command.threadId)
      (answer.toOption, write directory command.threadId (Storage.perform operations))

def runCalls : List Call → Directory → List EventEnvelope × Directory
  | [], directory => ([], directory)
  | call :: calls, directory =>
      let (acknowledged, next) := call.run codec path directory
      let (later, last) := runCalls calls next
      (acknowledged.toList ++ later, last)

end

/-- The text of a value is one line, and a carriage return behind it does not matter. -/
structure Lines (text : JsonText) : Prop where
  single : ∀ value, newline ∉ text.print value
  returns : ∀ bytes value, text.parse (bytes ++ [carriageReturn]) = .ok value →
    text.parse bytes = .ok value

section

variable {text : JsonText} {format : Format} {path : ThreadId → String}

theorem Lines.ignoresReturn (lines : Lines text) : (wireCodec text format).IgnoresReturn := by
  intro bytes envelope decoded
  simp only [wireCodec, EventEnvelope.fromSlice, bind, Except.bind] at decoded ⊢
  cases parsed : text.parse (bytes ++ [carriageReturn]) with
  | error error => simp [parsed] at decoded
  | ok value =>
      rw [parsed] at decoded
      rw [lines.returns bytes value parsed]
      exact decoded

/-- A thread's file holds the lines of some records and nothing else. -/
structure HoldsLines (text : JsonText) (format : Format) (path : ThreadId → String)
    (threadId : ThreadId) (bytes : Bytes) (records : List EventEnvelope) : Prop where
  content : bytes = records.flatMap fun envelope => envelope.toVec text format ++ [newline]
  settled : Settled (wireCodec text format) path threadId bytes
    (records.map (EventEnvelope.restored text.number))
  created : ∃ first rest, records = first :: rest ∧ first.event = .threadCreated
  typed : ∀ envelope ∈ records, envelope.WellTyped
  legible : ∀ envelope ∈ records, envelope.event.Legible

theorem HoldsLines.snoc {threadId : ThreadId} {bytes : Bytes} {records : List EventEnvelope}
    {envelope : EventEnvelope} (holds : HoldsLines text format path threadId bytes records)
    (lines : Lines text) (lawful : format.Lawful) (typed : envelope.WellTyped)
    (restores : text.Restores (envelope.toValue format)) (legible : envelope.event.Legible)
    (valid : validateEnvelope path threadId (records.map (EventEnvelope.restored text.number))
      envelope = .ok ()) :
    HoldsLines text format path threadId
      (bytes ++ (envelope.toVec text format ++ [newline])) (records ++ [envelope]) := by
  obtain ⟨first, rest, rfl, created⟩ := holds.created
  have validRead : validateEnvelope path threadId
      ((first :: rest).map (EventEnvelope.restored text.number))
      (envelope.restored text.number) = .ok () := valid
  constructor
  · rw [holds.content, List.flatMap_append, List.flatMap_singleton]
  · rw [List.map_append, List.map_singleton]
    exact holds.settled.line lines.ignoresReturn (lines.single _)
      (EventEnvelope.fromSlice_toVec restores lawful typed legible) validRead
  · exact ⟨first, rest ++ [envelope], rfl, created⟩
  · intro other member
    rcases List.mem_append.mp member with member | member
    · exact holds.typed other member
    · rw [List.mem_singleton.mp member]
      exact typed
  · intro other member
    rcases List.mem_append.mp member with member | member
    · exact holds.legible other member
    · rw [List.mem_singleton.mp member]
      exact legible

theorem HoldsLines.first {threadId : ThreadId} {envelope : EventEnvelope} (lines : Lines text)
    (lawful : format.Lawful) (typed : envelope.WellTyped)
    (restores : text.Restores (envelope.toValue format)) (created : envelope.event = .threadCreated)
    (valid : validateEnvelope path threadId [] envelope = .ok ()) :
    HoldsLines text format path threadId (envelope.toVec text format ++ [newline])
      [envelope] := by
  have validRead : validateEnvelope path threadId [] (envelope.restored text.number) = .ok () :=
    valid
  have settled : Settled (wireCodec text format) path threadId [] [] := settled_nil
  have legible : envelope.event.Legible := by
    rw [created]
    exact fun payload carried => by cases carried
  constructor
  · simp
  · exact settled.line lines.ignoresReturn (lines.single _)
      (EventEnvelope.fromSlice_toVec restores lawful typed legible) validRead
  · exact ⟨envelope, [], rfl, created⟩
  · intro other member
    rw [List.mem_singleton.mp member]
    exact typed
  · intro other member
    rw [List.mem_singleton.mp member]
    exact legible

theorem nextSeq_lt {threadId : ThreadId} {events : List EventEnvelope} {seq : Nat}
    (next : nextSeq threadId events = .ok seq) : seq < 2 ^ 64 := by
  unfold nextSeq at next
  split at next
  · split at next
    · rename_i room
      cases next
      exact room
    · cases next
  · cases next
    decide

/-- The records of a thread among those that a store has acknowledged. -/
def ofThread (threadId : ThreadId) (acknowledged : List EventEnvelope) : List EventEnvelope :=
  acknowledged.filter fun envelope => decide (envelope.threadId = threadId)

/-- Each file holds the acknowledged records of its thread. -/
def HoldsAll (text : JsonText) (format : Format) (path : ThreadId → String)
    (directory : Directory) (acknowledged : List EventEnvelope) : Prop :=
  ∀ threadId, (read directory threadId = none → ofThread threadId acknowledged = []) ∧
    ∀ bytes, read directory threadId = some bytes →
      HoldsLines text format path threadId bytes (ofThread threadId acknowledged)

theorem ofThread_append (threadId : ThreadId) (acknowledged added : List EventEnvelope) :
    ofThread threadId (acknowledged ++ added) =
      ofThread threadId acknowledged ++ ofThread threadId added := List.filter_append ..

theorem ofThread_own (envelope : EventEnvelope) :
    ofThread envelope.threadId [envelope] = [envelope] := by
  simp [ofThread]

theorem ofThread_other {threadId : ThreadId} {envelope : EventEnvelope}
    (different : envelope.threadId ≠ threadId) : ofThread threadId [envelope] = [] := by
  simp [ofThread, different]

theorem read_append_same {directory : Directory} {threadId : ThreadId}
    (absent : read directory threadId = none) (bytes : Bytes) :
    read (directory ++ [{ threadId := threadId, bytes := bytes }]) threadId = some bytes := by
  have missing : directory.find? (fun file => decide (file.threadId = threadId)) = none := by
    simpa [read, Table.lookup] using absent
  simp [read, Table.lookup, List.find?_append, missing]

theorem read_append_other {directory : Directory} {threadId other : ThreadId}
    (different : threadId ≠ other) (bytes : Bytes) :
    read (directory ++ [{ threadId := threadId, bytes := bytes }]) other =
      read directory other := by
  simp [read, Table.lookup, List.find?_append, different]

/-- The lines of other threads stay when a thread gains a record. -/
theorem HoldsAll.other {directory next : Directory} {acknowledged : List EventEnvelope}
    (holds : HoldsAll text format path directory acknowledged) {envelope : EventEnvelope}
    {threadId : ThreadId} (different : envelope.threadId ≠ threadId)
    (same : read next threadId = read directory threadId) :
    (read next threadId = none → ofThread threadId (acknowledged ++ [envelope]) = []) ∧
    ∀ bytes, read next threadId = some bytes →
      HoldsLines text format path threadId bytes
        (ofThread threadId (acknowledged ++ [envelope])) := by
  rw [ofThread_append, ofThread_other different, List.append_nil, same]
  exact holds threadId

theorem HoldsAll.createThread {directory : Directory} {acknowledged : List EventEnvelope}
    (holds : HoldsAll text format path directory acknowledged) (lines : Lines text)
    (lawful : format.Lawful) {threadId : ThreadId} {workspaceId : WorkspaceId}
    {clock : DateTime} {fresh : Uuid} {envelope : EventEnvelope} {line : Bytes}
    (made : Jsonl.createThread (wireCodec text format) path threadId workspaceId clock fresh
      directory = .ok (envelope, line))
    (restores : text.Restores (envelope.toValue format)) :
    HoldsAll text format path (directory ++ [{ threadId := threadId, bytes := line }])
      (acknowledged ++ [envelope]) := by
  obtain ⟨rfl, absent, json, encoded, rfl⟩ := createThread_eq_ok made
  cases encoded
  have typed : (createdEnvelope threadId workspaceId clock fresh).WellTyped :=
    ⟨show 1 < 2 ^ 64 by decide, trivial⟩
  have valid : validateEnvelope path threadId []
      (createdEnvelope threadId workspaceId clock fresh) = .ok () := by
    simp [validateEnvelope, createdEnvelope, bind, Except.bind, pure, Except.pure]
  intro other
  by_cases own : threadId = other
  · subst own
    have none := (holds threadId).1 absent
    have gained : ofThread threadId (acknowledged ++
        [createdEnvelope threadId workspaceId clock fresh]) =
          [createdEnvelope threadId workspaceId clock fresh] := by
      rw [ofThread_append, none, List.nil_append]
      exact ofThread_own (createdEnvelope threadId workspaceId clock fresh)
    rw [gained, read_append_same absent]
    refine ⟨fun missing => (by cases missing), fun bytes stored => ?_⟩
    rw [← Option.some.inj stored]
    exact HoldsLines.first lines lawful typed restores rfl valid
  · exact holds.other own (read_append_other own _)

theorem encodeLine_wireCodec (envelope : EventEnvelope) :
    encodeLine (wireCodec text format) envelope =
      .ok (envelope.toVec text format ++ [newline]) := rfl

/-- Nothing is written and nothing acknowledged. -/
theorem HoldsAll.unwritten {directory : Directory} {acknowledged : List EventEnvelope}
    (holds : HoldsAll text format path directory acknowledged) (threadId : ThreadId) :
    HoldsAll text format path (write directory threadId (Storage.perform []))
      (acknowledged ++ (none : Option EventEnvelope).toList) := by
  intro other
  have same : read (write directory threadId (Storage.perform [])) other =
      read directory other := by
    by_cases own : threadId = other
    · subst own
      rw [read_write_same]
      cases read directory threadId <;> rfl
    · exact read_write_other own directory _
  rw [same, Option.toList_none, List.append_nil]
  exact holds other

theorem HoldsAll.appendEvent {directory : Directory} {acknowledged : List EventEnvelope}
    (holds : HoldsAll text format path directory acknowledged) (lines : Lines text)
    (lawful : format.Lawful) (command : AppendEvent) (clock : DateTime) (fresh : Uuid)
    (typed : command.event.WellTyped) (legible : command.event.Legible)
    (restores : ∀ envelope ∈ ((Call.appendEvent command clock fresh).run (wireCodec text format)
      path directory).1, text.Restores (envelope.toValue format)) :
    HoldsAll text format path
      ((Call.appendEvent command clock fresh).run (wireCodec text format) path directory).2
      (acknowledged ++ ((Call.appendEvent command clock fresh).run (wireCodec text format)
        path directory).1.toList) := by
  simp only [Call.run] at restores ⊢
  cases stored : read directory command.threadId with
  | none =>
      simp only [Jsonl.appendEvent]
      exact holds.unwritten command.threadId
  | some bytes =>
      have log := (holds command.threadId).2 bytes stored
      have parsed := log.settled.parseLog_eq
      cases next : nextSeq command.threadId
          ((ofThread command.threadId acknowledged).map
            (EventEnvelope.restored text.number)) with
      | error error =>
          simp only [Jsonl.appendEvent, parsed, next]
          exact holds.unwritten command.threadId
      | ok seq =>
          obtain ⟨envelope, built⟩ : ∃ envelope, envelope = appendedEnvelope command clock fresh
            ((ofThread command.threadId acknowledged).map
            (EventEnvelope.restored text.number)) seq := ⟨_, rfl⟩
          have answer : Jsonl.appendEvent (wireCodec text format) path command clock fresh
              (some bytes) = (.ok envelope,
                [.append (envelope.toVec text format ++ [newline])]) := by
            simp only [Jsonl.appendEvent, parsed, next, built, repair, encodeLine_wireCodec,
              List.nil_append]
          have valid : validateEnvelope path command.threadId
              ((ofThread command.threadId acknowledged).map
            (EventEnvelope.restored text.number)) envelope =
                .ok () := by
            rw [built]
            exact validateEnvelope_appended next
          have own : envelope.threadId = command.threadId := by
            rw [built]
            rfl
          have fits : envelope.WellTyped := by
            rw [built]
            exact ⟨nextSeq_lt next, typed⟩
          have readable : envelope.event.Legible := by
            rw [built]
            exact legible
          rw [stored] at restores
          simp only [answer, Except.toOption, Option.mem_def, Option.some.injEq,
            forall_eq'] at restores
          simp only [answer, Except.toOption, Option.toList_some]
          intro other
          by_cases same : command.threadId = other
          · subst same
            have gained : ofThread command.threadId (acknowledged ++ [envelope]) =
                ofThread command.threadId acknowledged ++ [envelope] := by
              rw [ofThread_append, ← own, ofThread_own]
            rw [gained, read_write_same, stored]
            refine ⟨fun missing => (by cases missing), fun bytes' written => ?_⟩
            rw [← Option.some.inj written]
            exact log.snoc lines lawful fits restores readable valid
          · rw [← own] at same
            apply holds.other same
            rw [← own]
            exact read_write_other same directory _

/-- After any calls on an empty store each file holds the acknowledged records of its
thread. -/
theorem HoldsAll.runCalls (lines : Lines text) (lawful : format.Lawful) {calls : List Call}
    {directory : Directory} {acknowledged : List EventEnvelope}
    (holds : HoldsAll text format path directory acknowledged)
    (typed : ∀ call ∈ calls, call.WellTyped) (legible : ∀ call ∈ calls, call.Legible)
    (restores : ∀ envelope ∈ (runCalls (wireCodec text format) path calls directory).1,
      text.Restores (envelope.toValue format)) :
    HoldsAll text format path (runCalls (wireCodec text format) path calls directory).2
      (acknowledged ++ (runCalls (wireCodec text format) path calls directory).1) := by
  induction calls generalizing directory acknowledged with
  | nil =>
      rw [Jsonl.runCalls, List.append_nil]
      exact holds
  | cons call calls ih =>
      have later := fun other member => typed other (List.mem_cons_of_mem call member)
      have readable := fun other member => legible other (List.mem_cons_of_mem call member)
      rw [Jsonl.runCalls] at restores ⊢
      dsimp only at restores ⊢
      rw [← List.append_assoc]
      have known : ∀ envelope ∈ (call.run (wireCodec text format) path directory).1,
          text.Restores (envelope.toValue format) := by
        intro envelope member
        exact restores envelope (List.mem_append_left _ (Option.mem_toList.mpr member))
      apply ih _ later readable fun envelope member =>
        restores envelope (List.mem_append_right _ member)
      cases call with
      | createThread threadId workspaceId clock fresh =>
          cases made : Jsonl.createThread (wireCodec text format) path threadId workspaceId clock
              fresh directory with
          | error error =>
              simp only [Call.run, made, Option.toList_none, List.append_nil]
              exact holds
          | ok created =>
              obtain ⟨envelope, line⟩ := created
              simp only [Call.run, made, Option.mem_def, Option.some.injEq, forall_eq'] at known
              simp only [Call.run, made, Option.toList_some]
              exact holds.createThread lines lawful made known
      | appendEvent command clock fresh =>
          exact holds.appendEvent lines lawful command clock fresh
            (typed _ List.mem_cons_self) (legible _ List.mem_cons_self) known

/-- A call acknowledges at most a record with its own fresh identifier. -/
theorem eventId_of_run {call : Call} {directory : Directory} {envelope : EventEnvelope}
    (acknowledged : (call.run (wireCodec text format) path directory).1 = some envelope) :
    envelope.eventId = ⟨call.fresh⟩ := by
  cases call with
  | createThread threadId workspaceId clock fresh =>
      cases made : Jsonl.createThread (wireCodec text format) path threadId workspaceId clock
          fresh directory with
      | error error => simp [Call.run, made] at acknowledged
      | ok created =>
          simp only [Call.run, made, Option.some.injEq] at acknowledged
          obtain ⟨same, -⟩ := createThread_eq_ok made
          rw [← acknowledged, same]
          rfl
  | appendEvent command clock fresh =>
      simp only [Call.run, Jsonl.appendEvent] at acknowledged
      cases stored : read directory command.threadId with
      | none => simp [stored, Except.toOption] at acknowledged
      | some bytes =>
          cases parsed : parseLog (wireCodec text format) path command.threadId bytes with
          | error error => simp [stored, parsed, Except.toOption] at acknowledged
          | ok log =>
              cases next : nextSeq command.threadId log.events with
              | error error => simp [stored, parsed, next, Except.toOption] at acknowledged
              | ok seq =>
                  simp only [stored, parsed, next, encodeLine_wireCodec, Except.toOption,
                    Option.some.injEq] at acknowledged
                  rw [← acknowledged]
                  rfl

theorem eventIds_sublist (calls : List Call) (directory : Directory) :
    ((runCalls (wireCodec text format) path calls directory).1.map
      EventEnvelope.eventId).Sublist (calls.map fun call => ⟨call.fresh⟩) := by
  induction calls generalizing directory with
  | nil => exact .slnil
  | cons call calls ih =>
      have later := ih (call.run (wireCodec text format) path directory).2
      rw [runCalls]
      dsimp only
      rw [List.map_append]
      cases acknowledged : (call.run (wireCodec text format) path directory).1 with
      | none => exact later.cons _
      | some envelope =>
          rw [Option.toList_some, List.map_singleton, eventId_of_run acknowledged]
          exact later.cons_cons _

end

end Jsonl

namespace Database

section

variable {db : Database}

/-- Events of a thread that is there, with new identifiers and numbers, are inserted. -/
theorem insertEvents_eq {envelopes : List EventEnvelope} (threadId : ThreadId)
    (found : db.thread threadId ≠ none) (own : ∀ envelope ∈ envelopes, envelope.threadId = threadId)
    (unique : ((db.events ++ envelopes).map EventEnvelope.eventId).Nodup)
    (numbered : ((db.threadEvents threadId ++ envelopes).map fun envelope =>
      asI64 envelope.seq).Nodup) :
    db.insertEvents envelopes = .ok { db with events := db.events ++ envelopes } := by
  induction envelopes generalizing db with
  | nil => simp [insertEvents]
  | cons envelope envelopes ih =>
      have thread := own envelope List.mem_cons_self
      have first : db.insertEvent envelope =
          .ok { db with events := db.events ++ [envelope] } := by
        have newId : ¬ db.events.any (fun other => decide (other.eventId = envelope.eventId)) := by
          intro taken
          obtain ⟨other, member, same⟩ := List.any_eq_true.mp taken
          rw [List.map_append, List.nodup_append] at unique
          exact unique.2.2 other.eventId (List.mem_map_of_mem member) envelope.eventId
            List.mem_cons_self (of_decide_eq_true same)
        have newSeq : ¬ db.events.any (fun other => decide (other.threadId = envelope.threadId ∧
            asI64 other.seq = asI64 envelope.seq)) := by
          intro taken
          obtain ⟨other, member, same⟩ := List.any_eq_true.mp taken
          obtain ⟨sameThread, sameSeq⟩ := of_decide_eq_true same
          have inside : other ∈ db.threadEvents threadId :=
            List.mem_filter.mpr ⟨member, decide_eq_true (sameThread.trans thread)⟩
          rw [List.map_append, List.nodup_append] at numbered
          exact numbered.2.2 (asI64 other.seq) (List.mem_map.mpr ⟨other, inside, rfl⟩)
            (asI64 envelope.seq) List.mem_cons_self sameSeq
        rw [insertEvent, if_neg newId, if_neg newSeq, thread]
        cases row : db.thread threadId with
        | none => exact absurd row found
        | some row => rfl
      simp only [insertEvents, first, bind, Except.bind]
      rw [ih]
      · simp
      · exact found
      · exact fun other member => own other (List.mem_cons_of_mem envelope member)
      · simpa using unique
      · simpa [threadEvents, List.filter_append, thread] using numbered

/-- The import of a log into a store that has nothing of it. -/
theorem importThread_eq (codec : Codec) (wire : Jsonl.EnvelopeCodec)
    (well : db.WellFormed) {first : EventEnvelope} {rest : List EventEnvelope}
    (absent : db.thread first.threadId = none) (created : first.event = .threadCreated)
    (own : ∀ envelope ∈ first :: rest, envelope.threadId = first.threadId)
    (numbered : Jsonl.Contiguous (first :: rest)) (few : (first :: rest).length < 2 ^ 63)
    (unique : ((db.events ++ first :: rest).map EventEnvelope.eventId).Nodup) :
    ∃ row, row.id = first.threadId ∧ db.importThread codec wire (first :: rest) =
      (.ok (), db.addThread row (first :: rest)) := by
  obtain ⟨view, viewed⟩ : ∃ view, viewThread first.threadId (first :: rest) = .ok view := by
    simp [viewThread, created]
  obtain ⟨row, opened⟩ : ∃ row : ThreadRow, row = {
      id := first.threadId, workspaceId := first.workspaceId, status := view.status
      title := importedTitle view.items, updatedAt := view.updatedAt } := ⟨_, rfl⟩
  have inserted : insertEvents { db with threads := db.threads ++ [row] } (first :: rest) =
      .ok (db.addThread row (first :: rest)) := by
    apply insertEvents_eq first.threadId
    · rw [Ne, thread_eq_none, opened]
      simp
    · exact own
    · exact unique
    · have none : db.events.filter (fun envelope =>
          decide (envelope.threadId = first.threadId)) = [] := by
        refine List.filter_eq_nil_iff.mpr fun envelope member same => ?_
        apply thread_eq_none.mp absent
        rw [← of_decide_eq_true same]
        exact well.owned envelope member
      have small : (first :: rest).map (fun envelope => asI64 envelope.seq) =
          (List.range' 1 (first :: rest).length).map Int.ofNat := by
        rw [← numbered, List.map_map]
        apply List.map_congr_left
        intro envelope member
        have number : envelope.seq ∈ (first :: rest).map EventEnvelope.seq :=
          List.mem_map_of_mem member
        rw [numbered, List.mem_range'_1] at number
        exact asI64_of_lt (by omega)
      rw [threadEvents, none, List.nil_append, small]
      exact List.Nodup.map (fun _ _ same => Int.ofNat.inj same) List.nodup_range'
  refine ⟨row, by rw [opened], ?_⟩
  rw [opened] at inserted ⊢
  simp only [importThread, absent, viewed, inserted]

theorem mapM_ok {rows : List EventEnvelope} {read : EventEnvelope → Result EventEnvelope}
    {change : EventEnvelope → EventEnvelope} (reads : ∀ row ∈ rows, read row = .ok (change row)) :
    rows.mapM read = .ok (rows.map change) := by
  induction rows with
  | nil => rfl
  | cons row rows ih =>
      have later := ih fun other member => reads other (List.mem_cons_of_mem row member)
      simp only [List.mapM_cons, reads row List.mem_cons_self, later, bind, Except.bind, pure,
        Except.pure, List.map_cons]

theorem mapM_self {rows : List EventEnvelope} {read : EventEnvelope → Result EventEnvelope}
    (same : ∀ row ∈ rows, read row = .ok row) : rows.mapM read = .ok rows := by
  have reads : rows.mapM read = .ok (rows.map id) := mapM_ok same
  rwa [List.map_id] at reads

end

section

variable {text : JsonText} {format : Format}

theorem toVec_reread (envelope : EventEnvelope) :
    envelope.reread.toVec text format = envelope.toVec text format := by
  rw [EventEnvelope.toVec, EventEnvelope.toVec, EventEnvelope.toValue_reread]

theorem writeJsonl_reread (records : List EventEnvelope) :
    Jsonl.writeJsonl (Jsonl.wireCodec text format) (records.map EventEnvelope.reread) =
      .ok (records.flatMap fun envelope => envelope.toVec text format ++ [Jsonl.newline]) := by
  induction records with
  | nil => rfl
  | cons envelope records ih =>
      simp only [List.map_cons, Jsonl.writeJsonl, Jsonl.encodeLine_wireCodec, ih, toVec_reread,
        bind, Except.bind, pure, Except.pure, List.flatMap_cons]

/-- The events that a query returns are read again from the text of their rows. -/
theorem readEvents_eq (lawful : format.Lawful) {rows : List EventEnvelope}
    (typed : ∀ envelope ∈ rows, envelope.WellTyped)
    (restores : ∀ envelope ∈ rows, text.Restores (envelope.toValue format))
    (legible : ∀ envelope ∈ rows, envelope.event.Legible) {db : Database}
    {threadId : ThreadId} {afterSeq : Nat} (loaded : db.loadEvents threadId afterSeq = .ok rows) :
    db.readEvents (Jsonl.wireCodec text format) threadId afterSeq =
      .ok (rows.map (EventEnvelope.restored text.number)) := by
  simp only [readEvents, loaded, bind, Except.bind]
  apply mapM_ok
  intro row member
  have decoded := EventEnvelope.fromSlice_toVec (restores row member) lawful (typed row member)
    (legible row member)
  simp only [Jsonl.wireCodec, decoded]

/-- A row that is nested too deep keeps the thread from being read. -/
theorem readEvents_refused {rows : List EventEnvelope} {envelope : EventEnvelope}
    (member : envelope ∈ rows) (restores : text.Restores (envelope.toValue format))
    (deep : ¬ envelope.event.Legible) {db : Database} {threadId : ThreadId} {afterSeq : Nat}
    (loaded : db.loadEvents threadId afterSeq = .ok rows) :
    ∃ error, db.readEvents (Jsonl.wireCodec text format) threadId afterSeq = .error error := by
  obtain ⟨error, refused⟩ := EventEnvelope.fromSlice_toVec_beyond restores deep
  cases read : db.readEvents (Jsonl.wireCodec text format) threadId afterSeq with
  | error error => exact ⟨error, rfl⟩
  | ok events =>
      simp only [readEvents, loaded, bind, Except.bind] at read
      obtain ⟨value, decoded⟩ := Jsonl.forall_of_mapM_ok read envelope member
      simp only [Jsonl.wireCodec, refused] at decoded
      cases decoded

theorem readEvents_reread (lawful : format.Lawful) (exact : ∀ value, text.number value = value)
    {records : List EventEnvelope} (typed : ∀ envelope ∈ records, envelope.WellTyped)
    (restores : ∀ envelope ∈ records, text.Restores (envelope.toValue format))
    (legible : ∀ envelope ∈ records, envelope.event.Legible) {db : Database}
    {threadId : ThreadId}
    (loaded : db.loadEvents threadId 0 = .ok (records.map EventEnvelope.reread)) :
    db.readEvents (Jsonl.wireCodec text format) threadId 0 =
      .ok (records.map EventEnvelope.reread) := by
  simp only [readEvents, loaded, bind, Except.bind]
  apply mapM_self
  intro row member
  obtain ⟨envelope, inside, rfl⟩ := List.mem_map.mp member
  have decoded := EventEnvelope.fromSlice_toVec (restores envelope inside) lawful
    (typed envelope inside) (legible envelope inside)
  rw [EventEnvelope.restored_exact exact] at decoded
  simp only [Jsonl.wireCodec, toVec_reread, decoded]

/-- The log of a JSONL store whose records can be read back, imported into an SQLite store
and exported from it, is the file it was. -/
theorem exportedFile_eq (lines : Jsonl.Lines text) (lawful : format.Lawful)
    (path : ThreadId → String) (codec : Codec) (wire : Jsonl.EnvelopeCodec)
    {calls : List Jsonl.Call} {threadId : ThreadId} {bytes : Jsonl.Bytes} {db : Database}
    (typed : ∀ call ∈ calls, call.WellTyped) (legible : ∀ call ∈ calls, call.Legible)
    (exact : ∀ value, text.number value = value)
    (restores : ∀ envelope ∈ (Jsonl.runCalls (Jsonl.wireCodec text format) path calls []).1,
      text.Restores (envelope.toValue format))
    (fresh : (calls.map Jsonl.Call.fresh).Nodup) (few : calls.length < 2 ^ 63)
    (stored : Jsonl.read (Jsonl.runCalls (Jsonl.wireCodec text format) path calls []).2
      threadId = some bytes)
    (well : db.WellFormed) (absent : db.thread threadId = none)
    (unused : ∀ call ∈ calls, db.Unused call.fresh) :
    ∃ events written again,
      Jsonl.eventsAfter (Jsonl.wireCodec text format) path
        (Jsonl.runCalls (Jsonl.wireCodec text format) path calls []).2 threadId 0 = .ok events ∧
      db.importThread codec wire events = (.ok (), written) ∧
      written.readEvents (Jsonl.wireCodec text format) threadId 0 = .ok again ∧
      Jsonl.writeJsonl (Jsonl.wireCodec text format) again = .ok bytes := by
  have nothing : Jsonl.HoldsAll text format path [] [] := by
    intro other
    exact ⟨fun _ => rfl, fun bytes found => by cases found⟩
  have holds := nothing.runCalls lines lawful typed legible restores
  rw [List.nil_append] at holds
  have log := (holds threadId).2 bytes stored
  have inside : ∀ envelope ∈ Jsonl.ofThread threadId
      (Jsonl.runCalls (Jsonl.wireCodec text format) path calls []).1,
      envelope ∈ (Jsonl.runCalls (Jsonl.wireCodec text format) path calls []).1 :=
    fun envelope member => List.mem_of_mem_filter member
  have ids : ((Jsonl.ofThread threadId (Jsonl.runCalls (Jsonl.wireCodec text format) path calls
      []).1).map EventEnvelope.eventId).Sublist (calls.map fun call => ⟨call.fresh⟩) :=
    (List.filter_sublist.map _).trans (Jsonl.eventIds_sublist calls [])
  generalize Jsonl.ofThread threadId (Jsonl.runCalls (Jsonl.wireCodec text format) path calls
    []).1 = records at log inside ids
  have parsed := log.settled.parseLog_eq
  have same : EventEnvelope.restored text.number = EventEnvelope.reread :=
    funext (EventEnvelope.restored_exact exact)
  rw [same] at parsed
  have contiguous := Jsonl.parseLog_contiguous parsed
  have owned := Jsonl.parseLog_owned parsed
  obtain ⟨first, rest, rfl, created⟩ := log.created
  have own : first.reread.threadId = threadId := owned.thread first.reread List.mem_cons_self
  have few' : ((first :: rest).map EventEnvelope.reread).length < 2 ^ 63 := by
    have shorter := ids.length_le
    rw [List.length_map, List.length_map] at shorter
    rw [List.length_map]
    omega
  have rereadIds : ((first :: rest).map EventEnvelope.reread).map EventEnvelope.eventId =
      (first :: rest).map EventEnvelope.eventId := by
    rw [List.map_map]
    rfl
  have unique : ((db.events ++ (first :: rest).map EventEnvelope.reread).map
      EventEnvelope.eventId).Nodup := by
    have made : (calls.map fun call => (⟨call.fresh⟩ : EventId)).Nodup := by
      have mapped := fresh.map (f := EventId.mk) fun _ _ same => EventId.mk.inj same
      rwa [List.map_map] at mapped
    rw [List.map_append, rereadIds, List.nodup_append]
    refine ⟨well.events, made.sublist ids, ?_⟩
    intro old oldMember new newMember same
    obtain ⟨other, member, rfl⟩ := List.mem_map.mp oldMember
    obtain ⟨call, called, equal⟩ := List.mem_map.mp (ids.subset newMember)
    exact unused call called other member (same.trans equal.symm)
  obtain ⟨row, rowId, imported⟩ := importThread_eq codec wire well (by rw [own]; exact absent)
    (by simp [EventEnvelope.reread, created, RuntimeEvent.reread])
    (fun envelope member => (owned.thread envelope member).trans own.symm) contiguous few' unique
  have loaded : (db.addThread row ((first :: rest).map EventEnvelope.reread)).loadEvents threadId
      0 = .ok ((first :: rest).map EventEnvelope.reread) := by
    rw [own] at rowId
    have missing : db.thread row.id = none := by rw [rowId]; exact absent
    have rows : (db.addThread row ((first :: rest).map EventEnvelope.reread)).threadEvents row.id =
        (first :: rest).map EventEnvelope.reread :=
      threadEvents_addThread_own well missing (by rw [rowId]; exact owned.thread)
    rw [rowId] at rows
    have found : (db.addThread row ((first :: rest).map EventEnvelope.reread)).thread threadId =
        some row := by
      have before : db.threads.find? (fun row => decide (row.id = threadId)) = none := absent
      simp [thread, Table.lookup, addThread, List.find?_append, before, rowId]
    exact loadEvents_of_numbered found rows contiguous few'
  refine ⟨(first :: rest).map EventEnvelope.reread, _, (first :: rest).map EventEnvelope.reread,
    Jsonl.eventsAfter_zero stored parsed, imported, ?_, ?_⟩
  · exact readEvents_reread lawful exact log.typed (fun envelope member =>
      restores envelope (inside envelope member)) log.legible loaded
  · rw [log.content]
    exact writeJsonl_reread (first :: rest)

end

end Database

namespace Demo.Export

open OpsCodex.Runtime.Demo.EventText

def path (threadId : ThreadId) : String := s!"/var/lib/opscodex/{threadId}.jsonl"

def append (event : RuntimeEvent) : AppendEvent where
  threadId := ⟨1⟩
  turnId := none
  itemId := none
  causationId := none
  streamKind := none
  event := event

/-- A thread is created and an event appended to it. -/
def calls (event : RuntimeEvent) : List Jsonl.Call :=
  [.createThread ⟨1⟩ ⟨"team"⟩ 0 1, .appendEvent (append event) 0 2]

section

variable (text : JsonText)

def line (envelope : EventEnvelope) : Jsonl.Bytes := envelope.toVec text format ++ [Jsonl.newline]

/-- The directory after the first call. -/
def opened : Jsonl.Directory := [{ threadId := ⟨1⟩, bytes := line text created }]

/-- The directory after both calls. -/
def closed (event : RuntimeEvent) : Jsonl.Directory :=
  [{ threadId := ⟨1⟩, bytes := line text created ++ line text (envelope 2 event) }]

theorem run_createThread :
    Jsonl.Call.run (Jsonl.wireCodec text format) path [] (.createThread ⟨1⟩ ⟨"team"⟩ 0 1) =
      (some created, opened text) :=
  rfl

variable {text}

theorem created_holds (lines : Jsonl.Lines text)
    (restores : text.Restores (created.toValue format)) :
    Jsonl.HoldsLines text format path ⟨1⟩ (line text created) [created] :=
  .first lines lawful ⟨by decide, trivial⟩ restores rfl rfl

variable (holds : Jsonl.HoldsLines text format path ⟨1⟩ (line text created) [created])
  {event : RuntimeEvent} (domain : streamKindFor event = .domain)

include holds domain

theorem appendEvent_second :
    Jsonl.appendEvent (Jsonl.wireCodec text format) path (append event) 0 2
      (some (line text created)) =
        (.ok (envelope 2 event), [.append (line text (envelope 2 event))]) := by
  have parsed := holds.settled.parseLog_eq
  have next : Jsonl.nextSeq ⟨1⟩ ([created].map (EventEnvelope.restored text.number)) = .ok 2 := rfl
  have built : Jsonl.appendedEnvelope (append event) 0 2
      ([created].map (EventEnvelope.restored text.number)) 2 = envelope 2 event := by
    simp only [Jsonl.appendedEnvelope, append, Option.getD_none, domain]
    rfl
  have own : (append event).threadId = ⟨1⟩ := rfl
  simp only [Jsonl.appendEvent, own, parsed, next, built, Jsonl.repair,
    Jsonl.encodeLine_wireCodec, List.nil_append]
  rfl

theorem run_appendEvent :
    Jsonl.Call.run (Jsonl.wireCodec text format) path (opened text)
      (.appendEvent (append event) 0 2) = (some (envelope 2 event), closed text event) := by
  have stored : Jsonl.read (opened text) (append event).threadId = some (line text created) := rfl
  simp only [Jsonl.Call.run, stored, appendEvent_second holds domain]
  rfl

theorem runCalls_calls :
    Jsonl.runCalls (Jsonl.wireCodec text format) path (calls event) [] =
      ([created, envelope 2 event], closed text event) := by
  simp only [calls, Jsonl.runCalls, run_createThread, run_appendEvent holds domain]
  rfl

end

theorem lines_of_free {samples : List Sample} (free : ∀ sample ∈ samples,
    Jsonl.newline ∉ sample.bytes ∧ Jsonl.carriageReturn ∉ sample.bytes) :
    Jsonl.Lines (known samples) := by
  constructor
  · intro value
    simp only [known]
    cases found : Table.lookup Sample.seq (seqOf value) samples with
    | none => simp
    | some sample => exact (free sample (Table.lookup_mem found)).1
  · intro bytes value parsed
    simp only [known] at parsed
    cases found : Table.lookup Sample.bytes (bytes ++ [Jsonl.carriageReturn]) samples with
    | none => simp [found] at parsed
    | some sample =>
        have text : sample.bytes = bytes ++ [Jsonl.carriageReturn] := Table.lookup_key found
        have ended := (free sample (Table.lookup_mem found)).2
        rw [text] at ended
        simp at ended

set_option maxRecDepth 20000 in
theorem samples_free : ∀ sample ∈ samples,
    Jsonl.newline ∉ sample.bytes ∧ Jsonl.carriageReturn ∉ sample.bytes := by decide +kernel

set_option maxRecDepth 20000 in
theorem buriedSamples_free : ∀ sample ∈ buriedSamples,
    Jsonl.newline ∉ sample.bytes ∧ Jsonl.carriageReturn ∉ sample.bytes := by decide +kernel

theorem samples_lines : Jsonl.Lines (known samples) := lines_of_free samples_free

theorem samples_holds : Jsonl.HoldsLines (known samples) format path ⟨1⟩
    (line (known samples) created) [created] :=
  created_holds samples_lines created_restores

theorem buriedSamples_holds : Jsonl.HoldsLines (known buriedSamples) format path ⟨1⟩
    (line (known buriedSamples) created) [created] :=
  created_holds (lines_of_free buriedSamples_free)
    (buriedSamples_restore createdSample List.mem_cons_self)

theorem calls_restore : ∀ envelope ∈ (Jsonl.runCalls (Jsonl.wireCodec (known samples) format) path
    (calls completed.event) []).1, (known samples).Restores (envelope.toValue format) := by
  intro envelope member
  rw [runCalls_calls samples_holds rfl] at member
  rcases List.mem_cons.mp member with rfl | member
  · exact created_restores
  · rw [List.mem_singleton.mp member]
    exact completed_restores

theorem buriedCalls_restore : ∀ envelope ∈ (Jsonl.runCalls
    (Jsonl.wireCodec (known buriedSamples) format) path (calls buried.event) []).1,
    (known buriedSamples).Restores (envelope.toValue format) := by
  intro envelope member
  rw [runCalls_calls buriedSamples_holds rfl] at member
  rcases List.mem_cons.mp member with rfl | member
  · exact buriedSamples_restore createdSample List.mem_cons_self
  · rw [List.mem_singleton.mp member]
    exact buriedSamples_restore buriedSample (List.mem_cons_of_mem _ List.mem_cons_self)

end Demo.Export

open Demo.Export OpsCodex.Runtime.Demo.EventText in
theorem exportedFile_eq_completed : ∃ events written again,
    Jsonl.eventsAfter (Jsonl.wireCodec (known samples) format) path
      (Jsonl.runCalls (Jsonl.wireCodec (known samples) format) path (calls completed.event) []).2
      ⟨1⟩ 0 = .ok events ∧
    Database.empty.importThread Database.Demo.History.codec Database.Demo.History.wire
      events = (.ok (), written) ∧
    written.readEvents (Jsonl.wireCodec (known samples) format) ⟨1⟩ 0 = .ok again ∧
    Jsonl.writeJsonl (Jsonl.wireCodec (known samples) format) again =
      .ok (line (known samples) created ++ line (known samples) completed) :=
  Database.exportedFile_eq samples_lines lawful path _ _
    (by
      intro call member
      rcases List.mem_cons.mp member with rfl | member
      · trivial
      · rw [List.mem_singleton.mp member]
        rfl)
    (by
      intro call member
      rcases List.mem_cons.mp member with rfl | member
      · trivial
      · rw [List.mem_singleton.mp member]
        exact completed_legible)
    (fun _ => rfl) calls_restore (by decide) (by decide)
    (by
      rw [runCalls_calls samples_holds rfl]
      rfl)
    Database.wellFormed_empty rfl
    (by
      intro call member envelope inside
      cases inside)

open Demo.Export OpsCodex.Runtime.Demo.EventText in
/-- The records are acknowledged, and the log that they leave cannot be read. -/
theorem not_exportedFile_eq :
    (∀ value, (known buriedSamples).number value = value) ∧
    (∀ envelope ∈ (Jsonl.runCalls (Jsonl.wireCodec (known buriedSamples) format) path
      (calls buried.event) []).1, (known buriedSamples).Restores (envelope.toValue format)) ∧
    Jsonl.runCalls (Jsonl.wireCodec (known buriedSamples) format) path (calls buried.event) [] =
      ([created, buried], closed (known buriedSamples) buried.event) ∧
    ∃ error, Jsonl.eventsAfter (Jsonl.wireCodec (known buriedSamples) format) path
      (closed (known buriedSamples) buried.event) ⟨1⟩ 0 = .error error := by
  refine ⟨fun _ => rfl, buriedCalls_restore, runCalls_calls buriedSamples_holds rfl, ?_⟩
  have member : buriedSample ∈ buriedSamples := List.mem_cons_of_mem _ List.mem_cons_self
  have free := buriedSamples_free buriedSample member
  obtain ⟨error, refused⟩ := EventEnvelope.fromSlice_toVec_beyond
    (buriedSamples_restore buriedSample member) not_legible_buried
  have printed : buried.toVec (known buriedSamples) format = buriedSample.bytes := rfl
  have single : Jsonl.newline ∉ buried.toVec (known buriedSamples) format := printed ▸ free.1
  have returns : Jsonl.carriageReturn ∉ buried.toVec (known buriedSamples) format :=
    printed ▸ free.2
  obtain ⟨failure, failed⟩ := buriedSamples_holds.settled.unreadable single returns refused
  have stored : Jsonl.read (closed (known buriedSamples) buried.event) ⟨1⟩ =
    some (line (known buriedSamples) created ++ line (known buriedSamples) buried) := rfl
  have parsed : Jsonl.parseLog (Jsonl.wireCodec (known buriedSamples) format) path ⟨1⟩
      (line (known buriedSamples) created ++ line (known buriedSamples) buried) =
    .error failure := failed
  refine ⟨failure, ?_⟩
  simp only [Jsonl.eventsAfter, stored, parsed, bind, Except.bind]

end OpsCodex.Store
