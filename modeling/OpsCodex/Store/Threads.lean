import OpsCodex.Store.Fork
import OpsCodex.Store.Items
import OpsCodex.Store.JsonlTears

/-! Creating, importing and listing the threads of the SQLite store. -/

set_option autoImplicit false

namespace OpsCodex.Store

open OpsCodex.Json OpsCodex.Runtime OpsCodex.Action

namespace Database

/-- One transaction: the thread's row and its first event. -/
def createThread (db : Database) (threadId : ThreadId) (workspaceId : WorkspaceId)
    (clock : DateTime) (fresh : Uuid) : Result EventEnvelope × Database :=
  match workspaceId.validate with
  | .error error => (.error error, db)
  | .ok () =>
      let envelope := Jsonl.createdEnvelope threadId workspaceId clock fresh
      match db.thread threadId with
      | some _ => (.error (.storage s!"thread {threadId} already exists"), db)
      | none => (.ok envelope, { db with
          threads := db.threads ++ [{
            id := threadId, workspaceId := workspaceId, status := .idle, title := none
            updatedAt := clock }]
          events := db.events ++ [envelope] })

/-- The keys of the events table are the event id and the thread with the sequence number. -/
def insertEvent (db : Database) (envelope : EventEnvelope) : Result Database :=
  if db.events.any fun other => decide (other.eventId = envelope.eventId) then
    .error (.storage "sqlite insert event failed: UNIQUE constraint failed: events.event_id")
  else if db.events.any fun other => decide (other.threadId = envelope.threadId ∧
      asI64 other.seq = asI64 envelope.seq) then
    .error (.storage
      "sqlite insert event failed: UNIQUE constraint failed: events.thread_id, events.seq")
  else
    match db.thread envelope.threadId with
    | none => .error (.storage "sqlite insert event failed: FOREIGN KEY constraint failed")
    | some _ => .ok { db with events := db.events ++ [envelope] }

def insertEvents (db : Database) : List EventEnvelope → Result Database
  | [] => .ok db
  | envelope :: envelopes => do (← db.insertEvent envelope).insertEvents envelopes

/-- The events of a thread as they are read back from the payloads of their rows. -/
def readEvents (codec : Jsonl.EnvelopeCodec) (db : Database) (threadId : ThreadId)
    (afterSeq : Nat) : Result (List EventEnvelope) := do
  let rows ← db.loadEvents threadId afterSeq
  rows.mapM fun row =>
    match codec.toVec row with
    | .error error => .error (.storage s!"failed to encode event: {error}")
    | .ok payload =>
        match codec.fromSlice payload with
        | .error error => .error (.storage s!"invalid sqlite event: {error}")
        | .ok envelope => .ok envelope

def eventHash (codec : Codec) (eventVec : RuntimeEvent → List UInt8)
    (events : List EventEnvelope) : String :=
  codec.sha256Hex (events.flatMap fun envelope =>
    utf8 (toString envelope.seq) ++ utf8 (toString envelope.eventId) ++ eventVec envelope.event)

/-- The title of an imported thread. -/
def importedTitle (items : List Item) : Option String :=
  items.findSome? fun
    | .userMessage content => some (String.ofList (content.toList.take 120))
    | _ => none

def importThread (codec : Codec) (wire : Jsonl.EnvelopeCodec) (db : Database)
    (events : List EventEnvelope) : Result Unit × Database :=
  match events with
  | [] => (.error (.storage "cannot import an empty thread"), db)
  | first :: rest =>
      let threadId := first.threadId
      match db.thread threadId with
      | some _ =>
          match db.readEvents wire threadId 0 with
          | .error error => (.error error, db)
          | .ok current =>
              if eventHash codec wire.eventVec current ≠
                  eventHash codec wire.eventVec (first :: rest) then
                (.error (.storage
                  s!"thread {threadId} already exists with different content"), db)
              else (.ok (), db)
      | none =>
          match viewThread threadId (first :: rest) with
          | .error error => (.error error, db)
          | .ok view =>
              let opened : Database := { db with
                threads := db.threads ++ [{
                  id := threadId, workspaceId := first.workspaceId, status := view.status
                  title := importedTitle view.items, updatedAt := view.updatedAt }] }
              match opened.insertEvents (first :: rest) with
              | .error error => (.error error, db)
              | .ok written => (.ok (), written)

/-- The latest change first, and of two as late the one with the greater identifier. -/
def listedBefore (left right : ThreadRow) : Prop :=
  right.updatedAt < left.updatedAt ∨
    (right.updatedAt = left.updatedAt ∧ toString right.id ≤ toString left.id)

instance : DecidableRel listedBefore := fun _ _ => inferInstanceAs (Decidable (_ ∨ _))

def listThreads (db : Database) : List ThreadRow := db.threads.insertionSort listedBefore

/-- A thread as it is read with all of its items. -/
def getThreadView (db : Database) (threadId : ThreadId) : Result ThreadView := do
  viewThread threadId (← db.loadEvents threadId 0)

theorem mem_listThreads {db : Database} {row : ThreadRow} :
    row ∈ db.listThreads ↔ row ∈ db.threads := List.mem_insertionSort listedBefore

section

variable {db after : Database}

/-- The rows of a thread that is not there yet, once they are written. -/
def addThread (db : Database) (row : ThreadRow) (log : List EventEnvelope) : Database :=
  { db with threads := db.threads ++ [row], events := db.events ++ log }

theorem createThread_cases (db : Database) (threadId : ThreadId) (workspaceId : WorkspaceId)
    (clock : DateTime) (fresh : Uuid) :
    (∃ error, db.createThread threadId workspaceId clock fresh = (.error error, db)) ∨
    (db.thread threadId = none ∧ ∃ row : ThreadRow, row.id = threadId ∧
      row.workspaceId = workspaceId ∧ row.status = .idle ∧
      db.createThread threadId workspaceId clock fresh =
        (.ok (Jsonl.createdEnvelope threadId workspaceId clock fresh),
          db.addThread row [Jsonl.createdEnvelope threadId workspaceId clock fresh])) := by
  unfold createThread
  cases workspaceId.validate with
  | error error => exact .inl ⟨error, rfl⟩
  | ok =>
      cases found : db.thread threadId with
      | some row => exact .inl ⟨_, rfl⟩
      | none => exact .inr ⟨rfl, ⟨threadId, workspaceId, .idle, none, clock⟩, rfl, rfl, rfl, rfl⟩

theorem insertEvent_ok {envelope : EventEnvelope} (inserted : db.insertEvent envelope = .ok after) :
    after = { db with events := db.events ++ [envelope] } ∧
      ∀ other ∈ db.events, other.eventId ≠ envelope.eventId := by
  unfold insertEvent at inserted
  split at inserted
  · cases inserted
  · rename_i distinct
    split at inserted
    · cases inserted
    · split at inserted
      · cases inserted
      · refine ⟨(Except.ok.inj inserted).symm, fun other member same => distinct ?_⟩
        exact List.any_eq_true.mpr ⟨other, member, decide_eq_true same⟩

/-- Inserted events are added in their order, and no identifier is used twice. -/
theorem insertEvents_ok {envelopes : List EventEnvelope}
    (inserted : db.insertEvents envelopes = .ok after)
    (distinct : (db.events.map EventEnvelope.eventId).Nodup) :
    after = { db with events := db.events ++ envelopes } ∧
      ((db.events ++ envelopes).map EventEnvelope.eventId).Nodup := by
  induction envelopes generalizing db with
  | nil =>
      cases inserted
      simpa using distinct
  | cons envelope envelopes ih =>
      simp only [insertEvents, bind, Except.bind] at inserted
      cases first : db.insertEvent envelope with
      | error error => simp [first] at inserted
      | ok next =>
          obtain ⟨rfl, new⟩ := insertEvent_ok first
          simp only [first] at inserted
          have grown : ((db.events ++ [envelope]).map EventEnvelope.eventId).Nodup := by
            rw [List.map_append, List.nodup_append]
            refine ⟨distinct, List.nodup_singleton _, ?_⟩
            intro old member added single same
            obtain ⟨other, found, rfl⟩ := List.mem_map.mp member
            rw [List.map_singleton, List.mem_singleton] at single
            exact new other found (same.trans single)
          have later := ih inserted grown
          simpa using later

/-- An import leaves the store alone or adds the thread with its log. -/
theorem importThread_cases (codec : Codec) (wire : Jsonl.EnvelopeCodec)
    (events : List EventEnvelope) (distinct : (db.events.map EventEnvelope.eventId).Nodup) :
    (importThread codec wire db events).2 = db ∨
    ∃ first rest view row, events = first :: rest ∧ db.thread first.threadId = none ∧
      viewThread first.threadId events = .ok view ∧ row.id = first.threadId ∧
      row.workspaceId = first.workspaceId ∧ row.status = view.status ∧
      (importThread codec wire db events).2 = db.addThread row events ∧
      ((db.events ++ events).map EventEnvelope.eventId).Nodup := by
  unfold importThread
  cases events with
  | nil => exact .inl rfl
  | cons first rest =>
      dsimp only
      cases found : db.thread first.threadId with
      | some row =>
          left
          dsimp only
          split
          · rfl
          · split <;> rfl
      | none =>
          dsimp only
          cases viewed : viewThread first.threadId (first :: rest) with
          | error error => exact .inl rfl
          | ok view =>
              dsimp only
              split
              · exact .inl rfl
              · rename_i written inserted
                obtain ⟨rfl, unique⟩ := insertEvents_ok inserted distinct
                exact .inr ⟨first, rest, view, _, rfl, found, viewed, rfl, rfl, rfl, rfl, unique⟩

end

end Database

end OpsCodex.Store
