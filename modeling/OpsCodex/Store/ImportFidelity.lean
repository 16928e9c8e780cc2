import Mathlib.Data.List.Forall2
import Std.Data.String.ToNat
import OpsCodex.Action.Preimage
import OpsCodex.Store.Export

/-! What an accepted import says about the store: which logs it returns as they were
given, when the events' hash covers only a part of each record. -/

set_option autoImplicit false

namespace OpsCodex.Store

open OpsCodex.Json OpsCodex.Runtime OpsCodex.Action

/-- Equal in what the hash of the events covers. -/
structure SameHashed (eventVec : RuntimeEvent → List UInt8) (stored logged : EventEnvelope) :
    Prop where
  seq : stored.seq = logged.seq
  eventId : stored.eventId = logged.eventId
  event : eventVec stored.event = eventVec logged.event

/-- Equal in the fields that the hash leaves out. -/
structure SameRest (stored logged : EventEnvelope) : Prop where
  schemaVersion : stored.schemaVersion = logged.schemaVersion
  streamKind : stored.streamKind = logged.streamKind
  workspaceId : stored.workspaceId = logged.workspaceId
  threadId : stored.threadId = logged.threadId
  turnId : stored.turnId = logged.turnId
  itemId : stored.itemId = logged.itemId
  causationId : stored.causationId = logged.causationId
  timestamp : stored.timestamp = logged.timestamp

/-- A record whose text keeps all of it: evidence does not name the content type that is
left out of the text. -/
def Spelled (envelope : EventEnvelope) : Prop :=
  ∀ callId tool output evidence success,
    envelope.event = .toolCompleted callId tool output evidence success →
      evidence.contentType ≠ "application/json"

/-- How the texts of the events of some records behave: they are JSON objects. -/
structure EventTexts (eventVec : RuntimeEvent → List UInt8) (envelopes : List EventEnvelope) :
    Prop where
  opens : ∀ envelope ∈ envelopes, ∃ rest, eventVec envelope.event = 123 :: rest
  delimited : ∀ envelope ∈ envelopes, ∀ other ∈ envelopes, ∀ rest rest',
    eventVec envelope.event ++ rest = eventVec other.event ++ rest' →
      eventVec envelope.event = eventVec other.event ∧ rest = rest'
  determined : ∀ envelope ∈ envelopes, ∀ other ∈ envelopes,
    eventVec envelope.event = eventVec other.event →
      envelope.event.reread = other.event.reread

theorem EventTexts.mono {eventVec : RuntimeEvent → List UInt8}
    {envelopes fewer : List EventEnvelope} (texts : EventTexts eventVec envelopes)
    (subset : fewer ⊆ envelopes) : EventTexts eventVec fewer where
  opens envelope member := texts.opens envelope (subset member)
  delimited envelope member other member' :=
    texts.delimited envelope (subset member) other (subset member')
  determined envelope member other member' :=
    texts.determined envelope (subset member) other (subset member')

section Text

/-- A number is written without an opening brace. -/
theorem brace_notMem_number (number : Nat) : (123 : UInt8) ∉ utf8 (toString number) := by
  intro member
  rw [utf8_eq_flatMap] at member
  obtain ⟨digit, inside, encoded⟩ := List.mem_flatMap.mp member
  have digits : digit ∈ Nat.toDigits 10 number := by
    rw [← Nat.toList_repr]
    exact inside
  have isDigit := Nat.isDigit_of_mem_toDigits (by decide) (by decide) digits
  simp only [Char.isDigit, ge_iff_le, Bool.and_eq_true, decide_eq_true_eq] at isDigit
  have below : digit.val ≤ 57 := isDigit.2
  have short : digit.utf8Size = 1 :=
    Char.utf8Size_eq_one_iff.mpr (UInt32.le_trans below (by decide))
  rw [String.utf8EncodeChar_eq_singleton short, List.mem_singleton] at encoded
  have number := congrArg UInt8.toNat encoded
  have bound : digit.val.toNat ≤ 57 := below
  simp only [UInt32.toNat_toUInt8] at number
  rw [Nat.mod_eq_of_lt (by omega)] at number
  rw [← number] at bound
  exact absurd bound (by decide)

/-- A symbol that neither text has ends both at one place. -/
theorem split_at_symbol {symbol : UInt8} {first second rest rest' : List UInt8}
    (free : symbol ∉ first) (free' : symbol ∉ second)
    (same : first ++ symbol :: rest = second ++ symbol :: rest') : first = second := by
  induction first generalizing second with
  | nil =>
      cases second with
      | nil => rfl
      | cons head tail =>
          rw [List.nil_append, List.cons_append, List.cons.injEq] at same
          exact absurd same.1 (fun equal => free' (equal ▸ List.mem_cons_self))
  | cons head tail ih =>
      cases second with
      | nil =>
          rw [List.nil_append, List.cons_append, List.cons.injEq] at same
          exact absurd same.1.symm (fun equal => free (equal ▸ List.mem_cons_self))
      | cons other others =>
          rw [List.cons_append, List.cons_append, List.cons.injEq] at same
          rw [same.1, ih (fun member => free (List.mem_cons_of_mem _ member))
            (fun member => free' (List.mem_cons_of_mem _ member)) same.2]

end Text

section Hash

variable {eventVec : RuntimeEvent → List UInt8}

/-- What is hashed of some events. -/
def hashedText (eventVec : RuntimeEvent → List UInt8) (events : List EventEnvelope) :
    List UInt8 :=
  events.flatMap fun envelope =>
    utf8 (toString envelope.seq) ++ utf8 (toString envelope.eventId) ++ eventVec envelope.event

theorem hashedText_congr {stored logged : List EventEnvelope}
    (same : List.Forall₂ (SameHashed eventVec) stored logged) :
    hashedText eventVec stored = hashedText eventVec logged := by
  induction same with
  | nil => rfl
  | cons first _ ih =>
      simp only [hashedText, List.flatMap_cons] at ih ⊢
      rw [first.seq, first.eventId, first.event, ih]

/-- The hashed text of numbered events determines what it is written from. -/
theorem sameHashed_of_text {stored logged : List EventEnvelope}
    (texts : EventTexts eventVec (stored ++ logged)) {start : Nat}
    (numbered : stored.map EventEnvelope.seq = List.range' start stored.length)
    (numbered' : logged.map EventEnvelope.seq = List.range' start logged.length)
    (same : hashedText eventVec stored = hashedText eventVec logged) :
    List.Forall₂ (SameHashed eventVec) stored logged := by
  induction stored generalizing logged start with
  | nil =>
      cases logged with
      | nil => exact .nil
      | cons first rest =>
          obtain ⟨text, opens⟩ := texts.opens first (by simp)
          simp [hashedText, opens] at same
  | cons envelope stored ih =>
      cases logged with
      | nil =>
          obtain ⟨text, opens⟩ := texts.opens envelope (by simp)
          simp [hashedText, opens] at same
      | cons other logged =>
          simp only [List.map_cons, List.length_cons, List.range'_succ, List.cons.injEq]
            at numbered numbered'
          have seqs : envelope.seq = other.seq := numbered.1.trans numbered'.1.symm
          have inFirst : envelope ∈ (envelope :: stored) ++ other :: logged := by simp
          have inSecond : other ∈ (envelope :: stored) ++ other :: logged := by simp
          obtain ⟨text, opens⟩ := texts.opens envelope inFirst
          obtain ⟨text', opens'⟩ := texts.opens other inSecond
          have step (first : EventEnvelope) (rest : List EventEnvelope) :
              hashedText eventVec (first :: rest) = utf8 (toString first.seq) ++
                (utf8 (toString first.eventId) ++
                  (eventVec first.event ++ hashedText eventVec rest)) := by
            simp only [hashedText, List.flatMap_cons, List.append_assoc]
          rw [step, step, seqs, List.append_cancel_left_eq] at same
          have split := same
          simp only [opens, opens', List.cons_append] at split
          have ids := utf8_injective (split_at_symbol
            (brace_notMem_number envelope.eventId.uuid)
            (brace_notMem_number other.eventId.uuid) split)
          have uuids : envelope.eventId = other.eventId :=
            congrArg EventId.mk (Nat.repr_injective ids)
          rw [uuids, List.append_cancel_left_eq] at same
          obtain ⟨events, rests⟩ := texts.delimited envelope inFirst other inSecond _ _ same
          refine .cons ⟨seqs, uuids, events⟩ (ih (texts.mono ?_) numbered.2 numbered'.2 rests)
          intro record member
          simp only [List.mem_append, List.mem_cons] at member ⊢
          exact member.imp .inr .inr

end Hash

section Import

variable {text : JsonText} {format : Format} {codec : Codec}
  {eventVec : RuntimeEvent → List UInt8} {db after : Database} {threadId : ThreadId}
  {events : List EventEnvelope} {number : Number → Number}

theorem Spelled.reread_eq {envelope : EventEnvelope} (spelled : Spelled envelope) :
    envelope.reread = envelope := envelope.reread_eq_iff.mpr spelled

theorem spelled_reread (envelope : EventEnvelope) : Spelled envelope.reread := by
  obtain ⟨schemaVersion, streamKind, eventId, seq, workspaceId, threadId, turnId, itemId,
    causationId, timestamp, event⟩ := envelope
  cases event with
  | toolCompleted callId tool output evidence success =>
      intro _ _ _ kept _ equal
      cases equal
      unfold Evidence.EvidenceMeta.reread
      split
      · exact fun (impossible : "" = "application/json") => absurd impossible (by decide)
      · rename_i other
        exact other
  | _ =>
      intro _ _ _ _ _ equal
      cases equal

/-- A stored record is returned as the logged one if and only if they agree in what the
hash leaves out and the logged one is spelled out. -/
theorem reread_eq_iff_of_hashed {stored logged : EventEnvelope}
    (determined : stored.event.reread = logged.event.reread)
    (hashed : SameHashed eventVec stored logged) :
    stored.reread = logged ↔ SameRest stored logged ∧ Spelled logged := by
  constructor
  · intro same
    have rest : SameRest stored logged := by
      rw [← same]
      exact ⟨rfl, rfl, rfl, rfl, rfl, rfl, rfl, rfl⟩
    refine ⟨rest, ?_⟩
    rw [← same]
    exact spelled_reread stored
  · intro both
    obtain ⟨rest, spelled⟩ := both
    rw [← spelled.reread_eq]
    simp only [EventEnvelope.reread, EventEnvelope.mk.injEq]
    exact ⟨rest.schemaVersion, rest.streamKind, hashed.eventId, hashed.seq, rest.workspaceId,
      rest.threadId, rest.turnId, rest.itemId, rest.causationId, rest.timestamp, determined⟩

theorem rereads_eq_iff {stored logged : List EventEnvelope}
    (texts : EventTexts eventVec (stored ++ logged))
    (hashed : List.Forall₂ (SameHashed eventVec) stored logged) :
    stored.map EventEnvelope.reread = logged ↔
      List.Forall₂ SameRest stored logged ∧ ∀ envelope ∈ logged, Spelled envelope := by
  induction hashed with
  | nil => exact iff_of_true rfl ⟨.nil, fun _ member => absurd member List.not_mem_nil⟩
  | @cons record other stored logged first rest ih =>
      have inFirst : record ∈ (record :: stored) ++ other :: logged :=
        List.mem_append_left _ List.mem_cons_self
      have inSecond : other ∈ (record :: stored) ++ other :: logged :=
        List.mem_append_right _ List.mem_cons_self
      have determined := texts.determined record inFirst other inSecond first.event
      have later := ih (texts.mono (by
        intro record member
        simp only [List.mem_append, List.mem_cons] at member ⊢
        exact member.imp .inr .inr))
      rw [List.map_cons, List.cons.injEq, reread_eq_iff_of_hashed determined first, later,
        List.forall₂_cons, List.forall_mem_cons]
      tauto

theorem map_restored_eq_iff {records : List EventEnvelope} :
    records.map (EventEnvelope.restored number) = records ↔ ∀ envelope ∈ records,
      Spelled envelope ∧ envelope.event.mapNumbers number = envelope.event := by
  induction records with
  | nil => exact iff_of_true rfl fun _ member => absurd member List.not_mem_nil
  | cons record records ih =>
      rw [List.map_cons, List.cons.injEq, ih, List.forall_mem_cons, record.restored_eq_iff number]
      exact and_congr_left fun _ => and_congr_left fun _ => record.reread_eq_iff

/-- The records of a thread as the store gives them back. -/
def Database.restoredEvents (number : Number → Number) (db : Database) (threadId : ThreadId) :
    List EventEnvelope :=
  (db.threadEvents threadId).map (EventEnvelope.restored number)

/-- Every record that the store has of a thread can be read back. -/
def Database.Legible (db : Database) (threadId : ThreadId) : Prop :=
  ∀ envelope ∈ db.threadEvents threadId, envelope.event.Legible

theorem reread_restoredEvents :
    (db.restoredEvents number threadId).map EventEnvelope.reread =
      db.restoredEvents number threadId := by
  rw [Database.restoredEvents, List.map_map]
  apply List.map_congr_left
  intro envelope _
  exact (spelled_reread (envelope.mapNumbers number)).reread_eq

theorem sameRest_restoredEvents :
    List.Forall₂ SameRest (db.restoredEvents number threadId) events ↔
      List.Forall₂ SameRest (db.threadEvents threadId) events := by
  rw [Database.restoredEvents, List.forall₂_map_left_iff]
  have same (stored logged : EventEnvelope) :
      SameRest (stored.restored number) logged ↔ SameRest stored logged := by
    constructor
    · intro rest
      exact ⟨rest.schemaVersion, rest.streamKind, rest.workspaceId, rest.threadId, rest.turnId,
        rest.itemId, rest.causationId, rest.timestamp⟩
    · intro rest
      exact ⟨rest.schemaVersion, rest.streamKind, rest.workspaceId, rest.threadId, rest.turnId,
        rest.itemId, rest.causationId, rest.timestamp⟩
  simp only [same]

/-- The import of a log is accepted. -/
def Acceptable (text : JsonText) (format : Format) (db : Database) (threadId : ThreadId)
    (events : List EventEnvelope) : Prop :=
  (db.thread threadId = none ∧ (∃ first rest, events = first :: rest ∧
    first.event = .threadCreated) ∧ ((db.events ++ events).map EventEnvelope.eventId).Nodup) ∨
  (db.thread threadId ≠ none ∧ events ≠ [] ∧ db.Legible threadId ∧
    List.Forall₂ (SameHashed (RuntimeEvent.toVec text format))
      (db.restoredEvents text.number threadId) events)

/-- The log is spelled out. It agrees with what the store has of its thread, and if the
store has nothing, its records can be read back with the same numbers. -/
structure Agrees (number : Number → Number) (db : Database) (threadId : ThreadId)
    (events : List EventEnvelope) : Prop where
  spelled : ∀ envelope ∈ events, Spelled envelope
  held : db.thread threadId ≠ none →
    List.Forall₂ SameRest (db.threadEvents threadId) events
  added : db.thread threadId = none → ∀ envelope ∈ events,
    envelope.event.Legible ∧ envelope.event.mapNumbers number = envelope.event

/-- What is known of a log that the parser accepts, and of the store it is given to. -/
structure Given (text : JsonText) (format : Format) (codec : Codec) (db : Database)
    (threadId : ThreadId) (events : List EventEnvelope) : Prop where
  lawful : format.Lawful
  well : db.WellFormed
  parsed : ∃ path bytes log, Jsonl.parseLog (Jsonl.wireCodec text format) path threadId bytes =
    .ok log ∧ events = log.events
  few : (db.threadEvents threadId).length < 2 ^ 63 ∧ events.length < 2 ^ 63
  typed : ∀ envelope ∈ db.threadEvents threadId ++ events, envelope.WellTyped
  restores : ∀ envelope ∈ db.threadEvents threadId ++ events,
    text.Restores (envelope.toValue format)
  texts : EventTexts (RuntimeEvent.toVec text format)
    (db.restoredEvents text.number threadId ++ events)
  collisionFree :
    Database.eventHash codec (RuntimeEvent.toVec text format)
        (db.restoredEvents text.number threadId) =
      Database.eventHash codec (RuntimeEvent.toVec text format) events →
    hashedText (RuntimeEvent.toVec text format) (db.restoredEvents text.number threadId) =
      hashedText (RuntimeEvent.toVec text format) events

namespace Given

variable (given : Given text format codec db threadId events)

include given

theorem contiguous : Jsonl.Contiguous events := by
  obtain ⟨path, bytes, log, parsed, rfl⟩ := given.parsed
  exact Jsonl.parseLog_contiguous parsed

theorem owned : Jsonl.Owned threadId events := by
  obtain ⟨path, bytes, log, parsed, rfl⟩ := given.parsed
  exact Jsonl.parseLog_owned parsed

theorem stored_numbered (held : db.thread threadId ≠ none) :
    (db.threadEvents threadId).map EventEnvelope.seq =
      List.range' 1 (db.threadEvents threadId).length := by
  cases found : db.thread threadId with
  | none => exact absurd found held
  | some row =>
      have member := Table.lookup_mem found
      have own : row.id = threadId := Table.lookup_key found
      rw [← own]
      exact (given.well.logs row member).numbered

theorem loadEvents_eq (held : db.thread threadId ≠ none) :
    db.loadEvents threadId 0 = .ok (db.threadEvents threadId) := by
  cases found : db.thread threadId with
  | none => exact absurd found held
  | some row =>
      exact loadEvents_of_numbered found rfl (given.stored_numbered held) given.few.1

theorem readEvents_held (held : db.thread threadId ≠ none) (legible : db.Legible threadId) :
    db.readEvents (Jsonl.wireCodec text format) threadId 0 =
      .ok (db.restoredEvents text.number threadId) :=
  Database.readEvents_eq given.lawful
    (fun envelope member => given.typed envelope (List.mem_append_left _ member))
    (fun envelope member => given.restores envelope (List.mem_append_left _ member)) legible
    (given.loadEvents_eq held)

theorem readEvents_illegible (held : db.thread threadId ≠ none)
    (illegible : ¬ db.Legible threadId) :
    ∃ error, db.readEvents (Jsonl.wireCodec text format) threadId 0 = .error error := by
  rw [Database.Legible, not_forall] at illegible
  obtain ⟨envelope, illegible⟩ := illegible
  obtain ⟨member, deep⟩ := Classical.not_imp.mp illegible
  exact Database.readEvents_refused member
    (given.restores envelope (List.mem_append_left _ member)) deep (given.loadEvents_eq held)

/-- The hashes agree if and only if the records do in what they cover. -/
theorem eventHash_iff (held : db.thread threadId ≠ none) :
    Database.eventHash codec (RuntimeEvent.toVec text format)
        (db.restoredEvents text.number threadId) =
        Database.eventHash codec (RuntimeEvent.toVec text format) events ↔
      List.Forall₂ (SameHashed (RuntimeEvent.toVec text format))
        (db.restoredEvents text.number threadId) events := by
  have numbered : (db.restoredEvents text.number threadId).map EventEnvelope.seq =
      List.range' 1 (db.restoredEvents text.number threadId).length := by
    rw [Database.restoredEvents, List.map_map, List.length_map]
    exact given.stored_numbered held
  constructor
  · intro same
    exact sameHashed_of_text given.texts numbered given.contiguous (given.collisionFree same)
  · intro hashed
    exact congrArg codec.sha256Hex (hashedText_congr hashed)

theorem first_threadId {first : EventEnvelope} {rest : List EventEnvelope}
    (shape : events = first :: rest) : first.threadId = threadId :=
  given.owned.thread first (shape ▸ List.mem_cons_self)

/-- The import of a log of a thread that the store has. -/
theorem importThread_held (held : db.thread threadId ≠ none) :
    ((∃ error, db.importThread codec (Jsonl.wireCodec text format) events = (.error error, db)) ∧
      ¬ Acceptable text format db threadId events) ∨
    (Acceptable text format db threadId events ∧
      db.importThread codec (Jsonl.wireCodec text format) events = (.ok (), db)) := by
  obtain ⟨row, found⟩ := Option.ne_none_iff_exists'.mp held
  cases shape : events with
  | nil =>
      refine .inl ⟨⟨_, rfl⟩, ?_⟩
      intro acceptable
      rcases acceptable with ⟨absent, -⟩ | ⟨-, nonempty, -⟩
      · exact held absent
      · exact nonempty rfl
  | cons first rest =>
      have own := given.first_threadId shape
      subst shape
      by_cases legible : db.Legible threadId
      · have read := given.readEvents_held held legible
        by_cases hashed : List.Forall₂ (SameHashed (RuntimeEvent.toVec text format))
            (db.restoredEvents text.number threadId) (first :: rest)
        · have same := (given.eventHash_iff held).mpr hashed
          refine .inr ⟨.inr ⟨held, List.cons_ne_nil _ _, legible, hashed⟩, ?_⟩
          simp only [Database.importThread, own, found, read, Jsonl.wireCodec_eventVec, same, ne_eq,
            not_true, if_false]
        · have different : ¬ Database.eventHash codec (RuntimeEvent.toVec text format)
              (db.restoredEvents text.number threadId) =
                Database.eventHash codec (RuntimeEvent.toVec text format) (first :: rest) :=
            fun same => hashed ((given.eventHash_iff held).mp same)
          refine .inl ⟨?_, ?_⟩
          · simp only [Database.importThread, own, found, read, Jsonl.wireCodec_eventVec, ne_eq,
              different, not_false_eq_true, if_true]
            exact ⟨_, rfl⟩
          · intro acceptable
            rcases acceptable with ⟨absent, -⟩ | ⟨-, -, -, same⟩
            · exact held absent
            · exact hashed same
      · obtain ⟨error, failed⟩ := given.readEvents_illegible held legible
        refine .inl ⟨⟨error, ?_⟩, ?_⟩
        · simp only [Database.importThread, own, found, failed]
        · intro acceptable
          rcases acceptable with ⟨absent, -⟩ | ⟨-, -, readable, -⟩
          · exact held absent
          · exact legible readable

/-- What an import does, and when it is accepted. -/
theorem importThread_spec :
    ((∃ error, db.importThread codec (Jsonl.wireCodec text format) events = (.error error, db)) ∧
      ¬ Acceptable text format db threadId events) ∨
    (Acceptable text format db threadId events ∧ db.thread threadId ≠ none ∧
      db.importThread codec (Jsonl.wireCodec text format) events = (.ok (), db)) ∨
    (Acceptable text format db threadId events ∧ db.thread threadId = none ∧ ∃ row : ThreadRow,
      row.id = threadId ∧ db.importThread codec (Jsonl.wireCodec text format) events =
        (.ok (), db.addThread row events)) := by
  by_cases held : db.thread threadId ≠ none
  · rcases given.importThread_held held with refused | ⟨acceptable, kept⟩
    · exact .inl refused
    · exact .inr (.inl ⟨acceptable, held, kept⟩)
  · have found := not_not.mp held
    cases shape : events with
    | nil =>
        refine .inl ⟨⟨_, rfl⟩, ?_⟩
        intro acceptable
        rcases acceptable with ⟨-, ⟨_, _, impossible, -⟩, -⟩ | ⟨-, nonempty, -⟩
        · cases impossible
        · exact nonempty rfl
    | cons first rest =>
        subst shape
        have own := given.first_threadId rfl
        by_cases fine : first.event = .threadCreated ∧
            ((db.events ++ first :: rest).map EventEnvelope.eventId).Nodup
        · obtain ⟨created, unique⟩ := fine
          have absent : db.thread first.threadId = none := by rw [own, found]
          obtain ⟨row, rowId, imported⟩ := Database.importThread_eq codec
            (Jsonl.wireCodec text format) given.well absent created
            (fun envelope member => (given.owned.thread envelope member).trans own.symm)
            given.contiguous given.few.2 unique
          exact .inr (.inr ⟨.inl ⟨found, ⟨first, rest, rfl, created⟩, unique⟩, found, row,
            rowId.trans own, imported⟩)
        · refine .inl ⟨?_, ?_⟩
          · simp only [Database.importThread, own, found]
            cases viewed : viewThread threadId (first :: rest) with
            | error error => exact ⟨error, rfl⟩
            | ok view =>
                dsimp only
                split
                · exact ⟨_, rfl⟩
                · rename_i written inserted
                  have unique := (Database.insertEvents_ok inserted given.well.events).2
                  exact absurd ⟨(Database.viewThread_ok viewed).1, unique⟩ fine
          · intro acceptable
            rcases acceptable with ⟨-, ⟨_, _, same, created⟩, unique⟩ | ⟨held, -⟩
            · cases same
              exact fine ⟨created, unique⟩
            · exact held found

theorem loadEvents_added {row : ThreadRow} (rowId : row.id = threadId)
    (absent : db.thread threadId = none) :
    (db.addThread row events).loadEvents threadId 0 = .ok events := by
  subst rowId
  have rows : (db.addThread row events).threadEvents row.id = events :=
    Database.threadEvents_addThread_own given.well absent given.owned.thread
  have found : (db.addThread row events).thread row.id = some row := by
    have before : db.threads.find? (fun other => decide (other.id = row.id)) = none := absent
    simp [Database.thread, Table.lookup, Database.addThread, List.find?_append, before]
  exact loadEvents_of_numbered found rows given.contiguous given.few.2

/-- A log that the store had nothing of is returned as it was if and only if it is spelled
out and its records can be read back with the same numbers. -/
theorem returned_added_iff {row : ThreadRow} (rowId : row.id = threadId)
    (absent : db.thread threadId = none) :
    (db.addThread row events).readEvents (Jsonl.wireCodec text format) threadId 0 = .ok events ↔
      Agrees text.number db threadId events := by
  have loaded := given.loadEvents_added rowId absent
  have restores (envelope : EventEnvelope) (member : envelope ∈ events) :
      text.Restores (envelope.toValue format) :=
    given.restores envelope (List.mem_append_right _ member)
  by_cases legible : ∀ envelope ∈ events, envelope.event.Legible
  · have read := Database.readEvents_eq given.lawful
      (fun envelope member => given.typed envelope (List.mem_append_right _ member)) restores
      legible loaded
    rw [read, Except.ok.injEq, map_restored_eq_iff]
    constructor
    · intro same
      exact ⟨fun envelope member => (same envelope member).1, fun held => absurd absent held,
        fun _ envelope member => ⟨legible envelope member, (same envelope member).2⟩⟩
    · intro agrees envelope member
      exact ⟨agrees.spelled envelope member, (agrees.added absent envelope member).2⟩
  · refine iff_of_false ?_ fun agrees => legible fun envelope member =>
      (agrees.added absent envelope member).1
    rw [not_forall] at legible
    obtain ⟨envelope, illegible⟩ := legible
    obtain ⟨member, deep⟩ := Classical.not_imp.mp illegible
    obtain ⟨error, failed⟩ := Database.readEvents_refused member (restores envelope member) deep
      loaded
    rw [failed]
    intro same
    cases same

/-- A thread whose events hash as the log does is returned as the log if and only if the
two agree. -/
theorem returned_held_iff (held : db.thread threadId ≠ none) (legible : db.Legible threadId)
    (hashed : List.Forall₂ (SameHashed (RuntimeEvent.toVec text format))
      (db.restoredEvents text.number threadId) events) :
    db.readEvents (Jsonl.wireCodec text format) threadId 0 = .ok events ↔
      Agrees text.number db threadId events := by
  have same := rereads_eq_iff given.texts hashed
  rw [reread_restoredEvents, sameRest_restoredEvents] at same
  rw [given.readEvents_held held legible, Except.ok.injEq, same]
  constructor
  · intro both
    exact ⟨both.2, fun _ => both.1, fun absent => absurd absent held⟩
  · intro agrees
    exact ⟨agrees.held held, agrees.spelled⟩

/-- The store returns an accepted log as it was given if and only if it agrees. -/
theorem returned_iff {after : Database}
    (imported : db.importThread codec (Jsonl.wireCodec text format) events = (.ok (), after)) :
    after.readEvents (Jsonl.wireCodec text format) threadId 0 = .ok events ↔
      Agrees text.number db threadId events := by
  obtain ⟨⟨error, failed⟩, -⟩ | ⟨acceptable, held, kept⟩ | ⟨-, absent, row, rowId, added⟩ :=
    given.importThread_spec
  · rw [failed] at imported
    cases imported
  · rw [kept] at imported
    cases imported
    rcases acceptable with ⟨absent, -⟩ | ⟨-, -, legible, hashed⟩
    · exact absurd absent held
    · exact given.returned_held_iff held legible hashed
  · rw [added] at imported
    cases imported
    exact given.returned_added_iff rowId absent

end Given

/-- An accepted import leaves a store that returns the log as it was given, and a store
that has a different log of the thread refuses it. -/
structure Keeps (text : JsonText) (format : Format) (codec : Codec) (db : Database)
    (threadId : ThreadId) (events : List EventEnvelope) : Prop where
  returned : ∀ after,
    db.importThread codec (Jsonl.wireCodec text format) events = (.ok (), after) →
    after.readEvents (Jsonl.wireCodec text format) threadId 0 = .ok events
  refused : ∀ current, db.readEvents (Jsonl.wireCodec text format) threadId 0 = .ok current →
    current ≠ events →
    ∃ error, (db.importThread codec (Jsonl.wireCodec text format) events).1 = .error error

theorem keeps_iff (given : Given text format codec db threadId events) :
    Keeps text format codec db threadId events ↔
      (Acceptable text format db threadId events → Agrees text.number db threadId events) := by
  constructor
  · intro keeps acceptable
    rcases given.importThread_spec with ⟨-, rejected⟩ | ⟨-, -, kept⟩ | ⟨-, -, row, -, added⟩
    · exact absurd acceptable rejected
    · exact (given.returned_iff kept).mp (keeps.returned _ kept)
    · exact (given.returned_iff added).mp (keeps.returned _ added)
  · intro agrees
    have returned (after : Database)
        (imported : db.importThread codec (Jsonl.wireCodec text format) events =
          (.ok (), after)) :
        after.readEvents (Jsonl.wireCodec text format) threadId 0 = .ok events := by
      refine (given.returned_iff imported).mpr (agrees ?_)
      rcases given.importThread_spec with ⟨⟨error, failed⟩, -⟩ | ⟨acceptable, -⟩ | ⟨acceptable, -⟩
      · rw [failed] at imported
        cases imported
      · exact acceptable
      · exact acceptable
    refine ⟨returned, ?_⟩
    intro current read different
    rcases given.importThread_spec with ⟨⟨error, failed⟩, -⟩ | ⟨-, -, kept⟩ | ⟨-, absent, -⟩
    · exact ⟨error, congrArg Prod.fst failed⟩
    · rw [returned _ kept, Except.ok.injEq] at read
      exact absurd read.symm different
    · simp only [Database.readEvents, Database.loadEvents, absent, bind, Except.bind] at read
      cases read

end Import

end OpsCodex.Store
