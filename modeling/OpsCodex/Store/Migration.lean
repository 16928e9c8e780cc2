import OpsCodex.Store.ImportFidelity

/-! The migration of a JSONL data directory to an SQLite store: the files that are listed
as threads, their import or verification, and the files that are moved away. -/

set_option autoImplicit false

namespace OpsCodex.Store

open OpsCodex.Json OpsCodex.Runtime OpsCodex.Action

inductive EntryContent where
  | file (bytes : Jsonl.Bytes)
  | directory

/-- An entry of a directory; its name is any bytes but a separator. -/
structure DirEntry where
  name : List UInt8
  content : EntryContent

abbrev DataDirectory := List DirEntry

def dot : UInt8 := 46

/-- The stem of a file name, and its extension unless its only dot comes first. -/
def splitExtension (name : List UInt8) : List UInt8 × Option (List UInt8) :=
  match name.reverse.span (· ≠ dot) with
  | (_, []) => (name, none)
  | (_, [_]) => (name, none)
  | (extension, _ :: stem) => (stem.reverse, some extension.reverse)

def isJsonl (name : List UInt8) : Bool := decide ((splitExtension name).2 = some (utf8 "jsonl"))

structure MigrateOptions where
  dryRun : Bool
  verify : Bool

structure MigrateReport where
  threads : Nat
  events : Nat
  hash : String
  backupDir : Option String

/-- How a migration ends: its answer, the store, and the entries moved to the backup. -/
structure Migration where
  answer : Result MigrateReport
  db : Database
  moved : List DirEntry

section

variable (codec : Codec) (text : JsonText) (format : Format) (path : ThreadId → String)

/-- The thread that a file name is listed as: any text of its identifier is accepted. -/
def listedThread (name : List UInt8) : Option ThreadId :=
  if isJsonl name then
    (String.fromUTF8? ⟨(splitExtension name).1.toArray⟩).bind fun stem =>
      (format.readUuid stem).toOption.map ThreadId.mk
  else none

/-- The name of the file that a thread's log is read from. -/
def threadFile (threadId : ThreadId) : List UInt8 :=
  utf8 (format.uuidText threadId.uuid) ++ utf8 ".jsonl"

def readExisting (directory : DataDirectory) (threadId : ThreadId) : Result Jsonl.Bytes :=
  match directory.find? fun entry => decide (entry.name = threadFile format threadId) with
  | none => .error (.notFound s!"thread {threadId}")
  | some { content := .file bytes, .. } => .ok bytes
  | some { content := .directory, .. } =>
      .error (.storage s!"failed to read {path threadId}: Is a directory (os error 21)")

def directoryEvents (directory : DataDirectory) (threadId : ThreadId) :
    Result (List EventEnvelope) := do
  let bytes ← readExisting format path directory threadId
  Jsonl.eventsAfter (Jsonl.wireCodec text format) path [{ threadId := threadId, bytes := bytes }]
    threadId 0

def directorySummary (directory : DataDirectory) (threadId : ThreadId) :
    Result Jsonl.ThreadSummary := do
  let bytes ← readExisting format path directory threadId
  Jsonl.summarizeThread (Jsonl.wireCodec text format) path
    [{ threadId := threadId, bytes := bytes }] threadId

def directoryThreads (directory : DataDirectory) : Result (List Jsonl.ThreadSummary) := do
  let summaries ← (directory.filterMap fun entry => listedThread format entry.name).mapM
    (directorySummary text format path directory)
  return summaries.insertionSort Jsonl.ThreadSummary.listedBefore

def importAll : Database → List (List EventEnvelope) → Result Unit × Database
  | db, [] => (.ok (), db)
  | db, log :: logs =>
      match db.importThread codec (Jsonl.wireCodec text format) log with
      | (.error error, written) => (.error error, written)
      | (.ok (), written) => importAll written logs

def verifyAll (db : Database) : List (List EventEnvelope) → Result Unit
  | [] => .ok ()
  -- the source indexes the first event; a listed log is never empty
  | [] :: _ => .error (.protocol "index out of bounds: the len is 0 but the index is 0")
  | (first :: rest) :: logs => do
      let current ← db.readEvents (Jsonl.wireCodec text format) first.threadId 0
      if Database.eventHash codec (RuntimeEvent.toVec text format) current ≠
          Database.eventHash codec (RuntimeEvent.toVec text format) (first :: rest) then
        throw (.storage s!"sqlite verification failed for thread {first.threadId}")
      verifyAll db logs

/-- The logs that a migration reads, in the order of the listing. -/
def readLogs (directory : DataDirectory) : Result (List (List EventEnvelope)) := do
  let summaries ← directoryThreads text format path directory
  summaries.mapM fun summary => directoryEvents text format path directory summary.id

def migrateReport (logs : List (List EventEnvelope)) (backupDir : Option String) :
    MigrateReport where
  threads := logs.length
  events := (logs.map List.length).sum
  hash := codec.sha256Hex (logs.flatMap fun log =>
    utf8 (Database.eventHash codec (RuntimeEvent.toVec text format) log))
  backupDir := backupDir

def migrateJsonlToSqlite (directory : DataDirectory) (db : Database) (options : MigrateOptions)
    (backupDir : String) : Migration :=
  match readLogs text format path directory with
  | .error error => { answer := .error error, db := db, moved := [] }
  | .ok logs =>
      if options.dryRun then
        { answer := .ok (migrateReport codec text format logs none), db := db, moved := [] }
      else if options.verify then
        { answer := (verifyAll codec text format db logs).map fun _ =>
            migrateReport codec text format logs none
          db := db
          moved := [] }
      else
        match importAll codec text format db logs with
        | (.error error, written) => { answer := .error error, db := written, moved := [] }
        | (.ok (), written) =>
            { answer := .ok (migrateReport codec text format logs (some backupDir))
              db := written
              moved := directory.filter fun entry => isJsonl entry.name }

end

section Verify

variable {text : JsonText} {format : Format} {codec : Codec} {path : ThreadId → String}
  {db : Database}

/-- The store has the thread, with the hashed part of its log. -/
def Verified (text : JsonText) (format : Format) (db : Database) (threadId : ThreadId)
    (events : List EventEnvelope) : Prop :=
  events ≠ [] ∧ db.thread threadId ≠ none ∧ db.Legible threadId ∧
    List.Forall₂ (SameHashed (RuntimeEvent.toVec text format))
      (db.restoredEvents text.number threadId) events

theorem verifyAll_cons {threadId : ThreadId} {events : List EventEnvelope}
    {logs : List (List EventEnvelope)} (given : Given text format codec db threadId events) :
    verifyAll codec text format db (events :: logs) = .ok () ↔
      Verified text format db threadId events ∧ verifyAll codec text format db logs = .ok () := by
  cases shape : events with
  | nil => exact iff_of_false (fun passed => by cases passed) fun both => both.1.1 rfl
  | cons first rest =>
      have own := given.first_threadId shape
      subst shape
      by_cases held : db.thread threadId = none
      · have missing : db.readEvents (Jsonl.wireCodec text format) threadId 0 =
            .error (.notFound s!"thread {threadId}") := by
          simp only [Database.readEvents, Database.loadEvents, held, bind, Except.bind]
        simp only [verifyAll, own, missing, bind, Except.bind]
        exact iff_of_false (fun passed => by cases passed) fun both => both.1.2.1 held
      · by_cases legible : db.Legible threadId
        · have read := given.readEvents_held held legible
          simp only [verifyAll, own, read, bind, Except.bind]
          by_cases hashes : Database.eventHash codec (RuntimeEvent.toVec text format)
              (db.restoredEvents text.number threadId) =
                Database.eventHash codec (RuntimeEvent.toVec text format) (first :: rest)
          · have verified : Verified text format db threadId (first :: rest) :=
              ⟨List.cons_ne_nil first rest, held, legible, (given.eventHash_iff held).mp hashes⟩
            simp only [hashes, ne_eq, not_true, if_false]
            exact ⟨fun rest => ⟨verified, rest⟩, And.right⟩
          · simp only [ne_eq, hashes, not_false_eq_true, if_true]
            refine iff_of_false (fun passed => by cases passed) fun both => ?_
            exact hashes ((given.eventHash_iff held).mpr both.1.2.2.2)
        · obtain ⟨error, failed⟩ := given.readEvents_illegible held legible
          simp only [verifyAll, own, failed, bind, Except.bind]
          exact iff_of_false (fun passed => by cases passed) fun both => legible both.1.2.2.1

theorem verifyAll_ok_iff {listed : List (ThreadId × List EventEnvelope)}
    (given : ∀ entry ∈ listed, Given text format codec db entry.1 entry.2) :
    verifyAll codec text format db (listed.map Prod.snd) = .ok () ↔
      ∀ entry ∈ listed, Verified text format db entry.1 entry.2 := by
  induction listed with
  | nil => exact iff_of_true rfl fun _ member => absurd member List.not_mem_nil
  | cons entry listed ih =>
      rw [List.map_cons, verifyAll_cons (given entry List.mem_cons_self),
        ih fun other member => given other (List.mem_cons_of_mem entry member),
        List.forall_mem_cons]

theorem Verified.returned_iff {threadId : ThreadId} {events : List EventEnvelope}
    (given : Given text format codec db threadId events)
    (verified : Verified text format db threadId events) :
    db.readEvents (Jsonl.wireCodec text format) threadId 0 = .ok events ↔
      Agrees text.number db threadId events :=
  given.returned_held_iff verified.2.1 verified.2.2.1 verified.2.2.2

/-- A migration that verifies returns whether the logs it has read are verified. -/
theorem migrate_verify {directory : DataDirectory} {logs : List (List EventEnvelope)}
    {backupDir : String} (read : readLogs text format path directory = .ok logs) :
    (∃ report, (migrateJsonlToSqlite codec text format path directory db
      { dryRun := false, verify := true } backupDir).answer = .ok report) ↔
      verifyAll codec text format db logs = .ok () := by
  simp only [migrateJsonlToSqlite, read, Bool.false_eq_true, if_false, if_true]
  cases verifyAll codec text format db logs with
  | error error => exact iff_of_false nofun nofun
  | ok => exact iff_of_true ⟨_, rfl⟩ rfl

/-- An accepted import, and a verification, vouch for a log exactly when it agrees with
the store in what their hash does not cover, and a new one can be read back as it was. -/
theorem importVerification_iff (text : JsonText) (format : Format) (codec : Codec)
    (path : ThreadId → String) (db : Database) :
    (∀ threadId events, Given text format codec db threadId events →
      (Keeps text format codec db threadId events ↔
        (Acceptable text format db threadId events → Agrees text.number db threadId events))) ∧
    ∀ directory backupDir (listed : List (ThreadId × List EventEnvelope)),
      readLogs text format path directory = .ok (listed.map Prod.snd) →
      (∀ entry ∈ listed, Given text format codec db entry.1 entry.2) →
      (((∃ report, (migrateJsonlToSqlite codec text format path directory db
          { dryRun := false, verify := true } backupDir).answer = .ok report) →
        ∀ entry ∈ listed, db.readEvents (Jsonl.wireCodec text format) entry.1 0 = .ok entry.2) ↔
      ((∀ entry ∈ listed, Verified text format db entry.1 entry.2) →
        ∀ entry ∈ listed, Agrees text.number db entry.1 entry.2)) := by
  refine ⟨fun threadId events given => keeps_iff given, ?_⟩
  intro directory backupDir listed read given
  rw [migrate_verify read, verifyAll_ok_iff given]
  constructor
  · intro returned verified entry member
    exact ((verified entry member).returned_iff (given entry member)).mp
      (returned verified entry member)
  · intro agrees verified entry member
    exact ((verified entry member).returned_iff (given entry member)).mpr
      (agrees verified entry member)

end Verify

namespace Demo.Migration

open OpsCodex.Runtime.Demo.EventText

/-- A log that differs from a created thread's in a field that the hash leaves out. -/
def withTurn : EventEnvelope := { created with turnId := some ⟨1⟩ }

def withTurnSample : Sample where
  json :=
    "\x7b\"schema_version\":2,\"stream_kind\":\"domain\",\"event_id\":".toList ++
      "\"00000000-0000-0000-0000-000000000001\",\"seq\":1,\"workspace_id\":\"team\",".toList ++
      "\"thread_id\":\"00000000-0000-0000-0000-000000000001\",".toList ++
      "\"turn_id\":\"00000000-0000-0000-0000-000000000001\",".toList ++
      "\"timestamp\":\"1970-01-01T00:00:00Z\",\"type\":\"thread_created\",".toList ++
      "\"event\":\x7b\"type\":\"thread_created\"\x7d\x7d".toList
  value := withTurn.toValue format

/-- The text of the event of both. -/
def createdEvent : Jsonl.Bytes := "\x7b\"type\":\"thread_created\"\x7d".toList.map Char.toUInt8

/-- The texts of both records and of their event. -/
def text : JsonText where
  print value :=
    if (value.get? "turn_id").isSome then withTurnSample.bytes
    else if (value.get? "seq").isSome then createdSample.bytes
    else createdEvent
  parse bytes :=
    if bytes = withTurnSample.bytes then .ok withTurnSample.value.canonical
    else if bytes = createdSample.bytes then .ok createdSample.value.canonical
    else .error "expected value"
  number := id
  integer := JsonText.integer_id

def codec : Codec := Database.Demo.History.codec

def path (threadId : ThreadId) : String := s!"/var/lib/opscodex/{threadId}.jsonl"

set_option maxRecDepth 20000 in
theorem bytes_ne : createdSample.bytes ≠ withTurnSample.bytes := by decide +kernel

theorem created_restores : text.Restores (created.toValue format) := by
  have printed : text.print (created.toValue format) = createdSample.bytes := rfl
  have fixed : (created.toValue format).mapNumbers id = created.toValue format :=
    Value.mapNumbers_id _
  constructor
  · intro _
    rw [printed]
    simp only [text, if_neg bytes_ne, fixed]
    rfl
  · intro deep
    exact absurd deep (by decide)

theorem withTurn_restores : text.Restores (withTurn.toValue format) := by
  have printed : text.print (withTurn.toValue format) = withTurnSample.bytes := rfl
  have fixed : (withTurn.toValue format).mapNumbers id = withTurn.toValue format :=
    Value.mapNumbers_id _
  constructor
  · intro _
    rw [printed]
    simp only [text, fixed]
    rfl
  · intro deep
    exact absurd deep (by decide)

set_option maxRecDepth 20000 in
theorem bytes_free : ∀ bytes ∈ [withTurnSample.bytes, createdSample.bytes, createdEvent],
    Jsonl.newline ∉ bytes ∧ Jsonl.carriageReturn ∉ bytes := by decide +kernel

theorem lines : Jsonl.Lines text := by
  constructor
  · intro value
    simp only [text]
    split
    · exact (bytes_free withTurnSample.bytes (by simp)).1
    · split
      · exact (bytes_free createdSample.bytes (by simp)).1
      · exact (bytes_free createdEvent (by simp)).1
  · intro bytes value parsed
    simp only [text] at parsed
    split at parsed
    · rename_i same
      have free := (bytes_free withTurnSample.bytes (by simp)).2
      rw [← same] at free
      simp at free
    · split at parsed
      · rename_i same
        have free := (bytes_free createdSample.bytes (by simp)).2
        rw [← same] at free
        simp at free
      · cases parsed

theorem parsed_withTurn : Jsonl.parseLog (Jsonl.wireCodec text format) path ⟨1⟩
    (withTurn.toVec text format ++ [Jsonl.newline]) =
      .ok { events := [withTurn], tail := .clean } := by
  have holds : Jsonl.HoldsLines text format path ⟨1⟩
      (withTurn.toVec text format ++ [Jsonl.newline]) [withTurn] :=
    .first lines lawful ⟨by decide, trivial⟩ withTurn_restores rfl rfl
  exact holds.settled.parseLog_eq

theorem parsed_created : Jsonl.parseLog (Jsonl.wireCodec text format) path ⟨1⟩
    (created.toVec text format ++ [Jsonl.newline]) =
      .ok { events := [created], tail := .clean } := by
  have holds : Jsonl.HoldsLines text format path ⟨1⟩
      (created.toVec text format ++ [Jsonl.newline]) [created] :=
    .first lines lawful ⟨by decide, trivial⟩ created_restores rfl rfl
  exact holds.settled.parseLog_eq

/-- The store after the import of a created thread. -/
def imported : Database :=
  (Database.empty.importThread codec (Jsonl.wireCodec text format) [created]).2

theorem imported_readEvents :
    imported.readEvents (Jsonl.wireCodec text format) ⟨1⟩ 0 = .ok [created] := by
  have loaded : imported.loadEvents ⟨1⟩ 0 = .ok [created] := rfl
  refine Database.readEvents_eq lawful ?_ ?_ ?_ loaded
  · intro envelope member
    rw [List.mem_singleton.mp member]
    exact ⟨by decide, trivial⟩
  · intro envelope member
    rw [List.mem_singleton.mp member]
    exact created_restores
  · intro envelope member
    rw [List.mem_singleton.mp member]
    decide

/-- A log of one created thread, given to a store without the thread. -/
theorem given_created : Given text format codec Database.empty ⟨1⟩ [created] where
  lawful := lawful
  well := Database.wellFormed_empty
  parsed := ⟨path, _, _, parsed_created, rfl⟩
  few := ⟨by decide, by decide⟩
  typed := by
    intro envelope member
    rw [List.mem_singleton.mp member]
    exact ⟨by decide, trivial⟩
  restores := by
    intro envelope member
    rw [List.mem_singleton.mp member]
    exact created_restores
  texts := by
    constructor
    · intro envelope member
      rw [List.mem_singleton.mp member]
      exact ⟨_, rfl⟩
    · intro envelope member other member' rest rest' same
      rw [List.mem_singleton.mp member, List.mem_singleton.mp member'] at same ⊢
      exact ⟨rfl, List.append_cancel_left same⟩
    · intro envelope member other member' _
      rw [List.mem_singleton.mp member, List.mem_singleton.mp member']
  collisionFree := by
    intro same
    exact absurd same (by decide +kernel)

end Demo.Migration

open Demo.Migration OpsCodex.Runtime.Demo.EventText in
theorem importVerification_iff_created :
    Keeps Demo.Migration.text format codec Database.empty ⟨1⟩ [created] := by
  apply ((importVerification_iff Demo.Migration.text format codec path
    Database.empty).1 ⟨1⟩ [created] given_created).mpr
  intro _
  constructor
  · intro envelope member
    rw [List.mem_singleton.mp member]
    intro _ _ _ _ _ equal
    cases equal
  · intro held
    exact absurd rfl held
  · intro _ envelope member
    rw [List.mem_singleton.mp member]
    exact ⟨by decide, rfl⟩

open Demo.Migration OpsCodex.Runtime.Demo.EventText in
/-- A log that differs in its first record's turn is accepted as the stored one. -/
theorem not_importVerification :
    (∃ log, Jsonl.parseLog (Jsonl.wireCodec Demo.Migration.text format) path ⟨1⟩
      (withTurn.toVec Demo.Migration.text format ++ [Jsonl.newline]) = .ok log ∧
        log.events = [withTurn]) ∧
    imported.importThread codec (Jsonl.wireCodec Demo.Migration.text format) [withTurn] =
      (.ok (), imported) ∧
    imported.readEvents (Jsonl.wireCodec Demo.Migration.text format) ⟨1⟩ 0 = .ok [created] ∧
    created ≠ withTurn := by
  refine ⟨⟨_, parsed_withTurn, rfl⟩, ?_, imported_readEvents, ?_⟩
  · have same : Database.eventHash codec (RuntimeEvent.toVec Demo.Migration.text format)
        [created] =
      Database.eventHash codec (RuntimeEvent.toVec Demo.Migration.text format) [withTurn] := rfl
    have read : imported.readEvents (Jsonl.wireCodec Demo.Migration.text format)
        withTurn.threadId 0 = .ok [created] := imported_readEvents
    have found : ∃ row, imported.thread withTurn.threadId = some row := ⟨_, rfl⟩
    obtain ⟨row, found⟩ := found
    simp only [Database.importThread, found, read, Jsonl.wireCodec_eventVec, same, ne_eq,
      not_true, if_false]
  · intro equal
    exact absurd (congrArg EventEnvelope.turnId equal) (by decide)

end OpsCodex.Store
