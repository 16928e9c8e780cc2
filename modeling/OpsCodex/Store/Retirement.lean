import OpsCodex.Sequence.Traversal
import OpsCodex.Store.Migration

/-! Which files a migration moves away: exactly the logs it has imported, when every
file of the extension is named as the log of a thread. -/

set_option autoImplicit false

namespace OpsCodex.Store

open OpsCodex.Json OpsCodex.Runtime OpsCodex.Action

section

variable {text : JsonText} {format : Format} {codec : Codec}
  {path : ThreadId → String} {db after : Database}

/-- The databases agree on a thread and its events. -/
structure SameThread (before after : Database) (threadId : ThreadId) : Prop where
  thread : after.thread threadId = before.thread threadId
  events : after.threadEvents threadId = before.threadEvents threadId

theorem SameThread.readEvents {codec : Jsonl.EnvelopeCodec} {threadId : ThreadId}
    (same : SameThread db after threadId) (afterSeq : Nat) :
    after.readEvents codec threadId afterSeq = db.readEvents codec threadId afterSeq := by
  simp only [Database.readEvents, Database.loadEvents, same.thread, same.events]

theorem SameThread.agrees {threadId : ThreadId} {events : List EventEnvelope}
    (same : SameThread db after threadId) :
    Agrees text.number after threadId events ↔ Agrees text.number db threadId events := by
  constructor
  · intro agrees
    refine ⟨agrees.spelled, fun held => ?_, fun absent => agrees.added (same.thread ▸ absent)⟩
    rw [← same.events]
    exact agrees.held (same.thread ▸ held)
  · intro agrees
    refine ⟨agrees.spelled, fun held => ?_, fun absent => agrees.added (same.thread ▸ absent)⟩
    rw [same.events]
    exact agrees.held (same.thread ▸ held)

theorem SameThread.given {threadId : ThreadId} {events : List EventEnvelope}
    (same : SameThread db after threadId) (well : after.WellFormed)
    (given : Given text format codec db threadId events) :
    Given text format codec after threadId events where
  lawful := given.lawful
  well := well
  parsed := given.parsed
  few := by
    rw [same.events]
    exact given.few
  typed := by
    rw [same.events]
    exact given.typed
  restores := by
    rw [same.events]
    exact given.restores
  texts := by
    rw [Database.restoredEvents, same.events]
    exact given.texts
  collisionFree := by
    rw [Database.restoredEvents, same.events]
    exact given.collisionFree

theorem sameThread_addThread {row : ThreadRow} {log : List EventEnvelope} {other : ThreadId}
    (own : ∀ envelope ∈ log, envelope.threadId = row.id) (different : row.id ≠ other) :
    SameThread db (db.addThread row log) other where
  thread := by
    simp [Database.thread, Table.lookup, Database.addThread, List.find?_append, different]
  events := Database.threadEvents_addThread_other own different

/-- An accepted import keeps the store in order and leaves the other threads alone. -/
theorem Given.imported {threadId : ThreadId} {events : List EventEnvelope}
    (given : Given text format codec db threadId events)
    (ran : db.importThread codec (Jsonl.wireCodec text format) events = (.ok (), after)) :
    after.WellFormed ∧ ∀ other, other ≠ threadId → SameThread db after other := by
  have well : (db.importThread codec (Jsonl.wireCodec text format) events).2.WellFormed := by
    obtain ⟨path, bytes, log, parsed, rfl⟩ := given.parsed
    exact given.well.importThread codec (Jsonl.wireCodec text format) parsed
  rw [ran] at well
  refine ⟨well, fun other different => ?_⟩
  obtain ⟨⟨error, failed⟩, -⟩ | ⟨-, -, kept⟩ | ⟨-, -, row, rowId, added⟩ := given.importThread_spec
  · rw [failed] at ran
    cases ran
  · rw [kept] at ran
    cases ran
    exact ⟨rfl, rfl⟩
  · rw [added] at ran
    cases ran
    refine sameThread_addThread (fun envelope member => ?_) (rowId ▸ different.symm)
    exact (given.owned.thread envelope member).trans rowId.symm

/-- The store after the import of several threads. -/
theorem importAll_returned {listed : List (ThreadId × List EventEnvelope)}
    (given : ∀ entry ∈ listed, Given text format codec db entry.1 entry.2)
    (distinct : (listed.map Prod.fst).Nodup)
    (ran : importAll codec text format db (listed.map Prod.snd) = (.ok (), after)) :
    (∀ other, other ∉ listed.map Prod.fst → SameThread db after other) ∧
    ∀ entry ∈ listed, (after.readEvents (Jsonl.wireCodec text format) entry.1 0 = .ok entry.2 ↔
      Agrees text.number db entry.1 entry.2) := by
  induction listed generalizing db with
  | nil =>
      cases ran
      exact ⟨fun _ _ => ⟨rfl, rfl⟩, fun _ member => absurd member List.not_mem_nil⟩
  | cons entry listed ih =>
      obtain ⟨fresh, distinct⟩ := List.nodup_cons.mp distinct
      have own := given entry List.mem_cons_self
      simp only [List.map_cons, importAll] at ran
      cases first : db.importThread codec (Jsonl.wireCodec text format) entry.2 with
      | mk answer written =>
          rw [first] at ran
          cases answer with
          | error error => cases ran
          | ok =>
              obtain ⟨well, others⟩ := own.imported first
              have apart : ∀ other ∈ listed, other.1 ≠ entry.1 := by
                intro other member same
                exact fresh (same ▸ List.mem_map_of_mem member)
              obtain ⟨kept, returned⟩ := ih (fun other member =>
                (others other.1 (apart other member)).given well
                  (given other (List.mem_cons_of_mem entry member))) distinct ran
              constructor
              · intro other absent
                rw [List.map_cons, List.mem_cons, not_or] at absent
                have before := others other absent.1
                have later := kept other absent.2
                exact ⟨later.thread.trans before.thread, later.events.trans before.events⟩
              · intro other member
                rcases List.mem_cons.mp member with rfl | member
                · rw [(kept other.1 fresh).readEvents 0]
                  exact own.returned_iff first
                · rw [returned other member]
                  exact (others other.1 (apart other member)).agrees

end

section Names

theorem utf8_jsonl : utf8 "jsonl" = [106, 115, 111, 110, 108] := by
  rw [utf8_eq_flatMap]
  decide

theorem utf8_dotJsonl : utf8 ".jsonl" = 46 :: utf8 "jsonl" := by
  rw [utf8_eq_flatMap, utf8_eq_flatMap]
  decide

theorem splitExtension_jsonl (stem : List UInt8) : splitExtension (stem ++ utf8 ".jsonl") =
    if stem = [] then (utf8 ".jsonl", none) else (stem, some (utf8 "jsonl")) := by
  have spanned (rest : List UInt8) : List.span (fun symbol => decide (symbol ≠ dot))
      (108 :: 110 :: 111 :: 115 :: 106 :: 46 :: rest) =
        ([108, 110, 111, 115, 106], 46 :: rest) := rfl
  have reversed : (stem ++ utf8 ".jsonl").reverse =
      108 :: 110 :: 111 :: 115 :: 106 :: 46 :: stem.reverse := by
    simp [utf8_dotJsonl, utf8_jsonl]
  unfold splitExtension
  rw [reversed, spanned]
  by_cases empty : stem = []
  · subst empty
    simp
  · obtain ⟨last, rest, shape⟩ := List.exists_cons_of_ne_nil (List.reverse_ne_nil_iff.mpr empty)
    have back : stem = (last :: rest).reverse := by rw [← shape, List.reverse_reverse]
    rw [if_neg empty, shape]
    simp [back, utf8_jsonl]

theorem isJsonl_threadFile {format : Format} {threadId : ThreadId} :
    isJsonl (threadFile format threadId) = true ↔ utf8 (format.uuidText threadId.uuid) ≠ [] := by
  rw [isJsonl, threadFile, splitExtension_jsonl]
  split
  · rename_i empty
    simp [empty]
  · rename_i stem
    simp [stem]

/-- A thread's own file is listed as the thread. -/
theorem listedThread_threadFile {format : Format} (lawful : format.Lawful) {threadId : ThreadId}
    (jsonl : isJsonl (threadFile format threadId) = true) :
    listedThread format (threadFile format threadId) = some threadId := by
  have stem : (splitExtension (threadFile format threadId)).1 =
      utf8 (format.uuidText threadId.uuid) := by
    rw [threadFile, splitExtension_jsonl, if_neg (isJsonl_threadFile.mp jsonl)]
  rw [listedThread, if_pos jsonl, stem, fromUTF8?_utf8, Option.bind_some, lawful.uuid]
  rfl

theorem isJsonl_of_listedThread {format : Format} {name : List UInt8} {threadId : ThreadId}
    (listed : listedThread format name = some threadId) : isJsonl name = true := by
  unfold listedThread at listed
  split at listed
  · assumption
  · cases listed

end Names

section Listing

variable {text : JsonText} {format : Format} {codec : Codec}
  {path : ThreadId → String} {db after : Database}
  {directory : DataDirectory}

/-- A log that the directory has in the file of its thread. -/
def Logged (text : JsonText) (format : Format) (path : ThreadId → String)
    (directory : DataDirectory) (threadId : ThreadId) (events : List EventEnvelope) : Prop :=
  ∃ entry ∈ directory, ∃ bytes log, entry.name = threadFile format threadId ∧
    entry.content = .file bytes ∧
    Jsonl.parseLog (Jsonl.wireCodec text format) path threadId bytes = .ok log ∧
    events = log.events

theorem readExisting_ok {threadId : ThreadId} {bytes : Jsonl.Bytes}
    (read : readExisting format path directory threadId = .ok bytes) :
    ∃ entry ∈ directory, entry.name = threadFile format threadId ∧
      entry.content = .file bytes := by
  unfold readExisting at read
  split at read
  · cases read
  · rename_i found
    cases read
    have named := List.find?_some found
    exact ⟨_, List.mem_of_find?_eq_some found, of_decide_eq_true named, rfl⟩
  · cases read

theorem eventsAfter_single {threadId : ThreadId} {bytes : Jsonl.Bytes} {log : Jsonl.ParsedLog}
    (parsed : Jsonl.parseLog (Jsonl.wireCodec text format) path threadId bytes = .ok log) :
    Jsonl.eventsAfter (Jsonl.wireCodec text format) path
      [{ threadId := threadId, bytes := bytes }] threadId 0 = .ok log.events :=
  Jsonl.eventsAfter_zero (by simp [Jsonl.read, Table.lookup]) parsed

theorem logged_of_events {threadId : ThreadId} {events : List EventEnvelope}
    (read : directoryEvents text format path directory threadId = .ok events) :
    Logged text format path directory threadId events := by
  simp only [directoryEvents] at read
  cases opened : readExisting format path directory threadId with
  | error error =>
      rw [opened] at read
      cases read
  | ok bytes =>
      rw [opened] at read
      change Jsonl.eventsAfter _ _ _ _ _ = _ at read
      obtain ⟨entry, member, name, content⟩ := readExisting_ok opened
      cases parsed : Jsonl.parseLog (Jsonl.wireCodec text format) path threadId bytes with
      | error error =>
          have stored : Jsonl.read [{ threadId := threadId, bytes := bytes }] threadId =
              some bytes := by simp [Jsonl.read, Table.lookup]
          simp only [Jsonl.eventsAfter, stored, parsed] at read
          cases read
      | ok log =>
          rw [eventsAfter_single parsed] at read
          cases read
          exact ⟨entry, member, bytes, log, name, content, parsed, rfl⟩

theorem reconstructThread_id {threadId : ThreadId} {events : List EventEnvelope} {thread : Thread}
    (read : reconstructThread threadId events = .ok thread) : thread.id = threadId := by
  unfold reconstructThread at read
  split at read
  · cases read
  · split at read
    · cases read
      rfl
    · cases read

theorem directorySummary_id {threadId : ThreadId} {summary : Jsonl.ThreadSummary}
    (read : directorySummary text format path directory threadId = .ok summary) :
    summary.id = threadId := by
  simp only [directorySummary, Jsonl.summarizeThread] at read
  cases opened : readExisting format path directory threadId with
  | error error =>
      rw [opened] at read
      cases read
  | ok bytes =>
      simp only [opened, bind, Except.bind] at read
      split at read
      · cases read
      · rename_i events _
        cases viewed : reconstructThread threadId events with
        | error error =>
            rw [viewed] at read
            cases read
        | ok thread =>
            rw [viewed] at read
            cases read
            exact reconstructThread_id viewed

/-- The logs of a migration are those of the listed threads, each of its own file. -/
theorem readLogs_spec {logs : List (List EventEnvelope)}
    (read : readLogs text format path directory = .ok logs) :
    ∃ listed : List (ThreadId × List EventEnvelope), logs = listed.map Prod.snd ∧
      (listed.map Prod.fst).Perm
        (directory.filterMap fun entry => listedThread format entry.name) ∧
      ∀ entry ∈ listed, Logged text format path directory entry.1 entry.2 := by
  simp only [readLogs, directoryThreads] at read
  cases summarized : (directory.filterMap fun entry => listedThread format entry.name).mapM
      (directorySummary text format path directory) with
  | error error =>
      rw [summarized] at read
      cases read
  | ok summaries =>
      rw [summarized] at read
      change (summaries.insertionSort Jsonl.ThreadSummary.listedBefore).mapM
        (fun summary => directoryEvents text format path directory summary.id) = .ok logs at read
      have ids := Traversal.map_eq_of_forall₂ id Jsonl.ThreadSummary.id
        (Traversal.forall₂_of_mapM summarized) fun read => (directorySummary_id read).symm
      have each : List.Forall₂ (fun threadId log =>
          directoryEvents text format path directory threadId = .ok log)
          ((summaries.insertionSort Jsonl.ThreadSummary.listedBefore).map Jsonl.ThreadSummary.id)
          logs := List.forall₂_map_left_iff.mpr (Traversal.forall₂_of_mapM read)
      obtain ⟨lengths, zipped⟩ := List.forall₂_iff_zip.mp each
      refine ⟨((summaries.insertionSort Jsonl.ThreadSummary.listedBefore).map
        Jsonl.ThreadSummary.id).zip logs, ?_, ?_, ?_⟩
      · rw [List.map_snd_zip lengths.ge]
      · rw [List.map_fst_zip lengths.le]
        rw [List.map_id] at ids
        rw [ids]
        exact (List.perm_insertionSort _ _).map _
      · intro entry member
        exact logged_of_events (zipped member)

/-- The entry is the file of a thread whose log it holds, and the store has the log. -/
def Imported (text : JsonText) (format : Format) (path : ThreadId → String) (db : Database)
    (entry : DirEntry) : Prop :=
  ∃ threadId bytes log, entry.name = threadFile format threadId ∧ entry.content = .file bytes ∧
    Jsonl.parseLog (Jsonl.wireCodec text format) path threadId bytes = .ok log ∧
    db.readEvents (Jsonl.wireCodec text format) threadId 0 = .ok log.events

/-- The entry is named as the file of a thread, and the log it holds agrees with what the
store has of the thread. -/
def Fit (text : JsonText) (format : Format) (path : ThreadId → String) (db : Database)
    (entry : DirEntry) : Prop :=
  ∃ threadId, entry.name = threadFile format threadId ∧
    ∀ bytes log, entry.content = .file bytes →
      Jsonl.parseLog (Jsonl.wireCodec text format) path threadId bytes = .ok log →
      Agrees text.number db threadId log.events

theorem threadFile_injective (lawful : format.Lawful) {first second : ThreadId}
    (jsonl : isJsonl (threadFile format first) = true)
    (same : threadFile format first = threadFile format second) : first = second := by
  have listed := listedThread_threadFile lawful jsonl
  have other := listedThread_threadFile lawful (same ▸ jsonl)
  rw [same, other, Option.some.injEq] at listed
  exact listed.symm

theorem entry_eq_of_name (names : (directory.map DirEntry.name).Nodup) {first second : DirEntry}
    (inFirst : first ∈ directory) (inSecond : second ∈ directory)
    (same : first.name = second.name) : first = second :=
  List.inj_on_of_nodup_map names inFirst inSecond same

/-- Entries named as their threads are listed once each. -/
theorem listed_nodup (lawful : format.Lawful) (names : (directory.map DirEntry.name).Nodup)
    (named : ∀ entry ∈ directory, isJsonl entry.name = true →
      ∃ threadId, entry.name = threadFile format threadId) :
    (directory.filterMap fun entry => listedThread format entry.name).Nodup := by
  have own {entry : DirEntry} (member : entry ∈ directory) {threadId : ThreadId}
      (listed : listedThread format entry.name = some threadId) :
      entry.name = threadFile format threadId := by
    have jsonl := isJsonl_of_listedThread listed
    obtain ⟨other, name⟩ := named entry member jsonl
    rw [name, listedThread_threadFile lawful (name ▸ jsonl), Option.some.injEq] at listed
    rw [name, listed]
  have distinct : directory.Pairwise fun first second => first.name ≠ second.name :=
    List.pairwise_map.mp names
  refine List.pairwise_filterMap.mpr (distinct.imp_of_mem ?_)
  intro first second inFirst inSecond different threadId listed other listed' same
  subst same
  exact different ((own inFirst listed).trans (own inSecond listed').symm)

/-- A file named as its thread's is one of the listed logs. -/
theorem mem_listed (lawful : format.Lawful) (names : (directory.map DirEntry.name).Nodup)
    {listed : List (ThreadId × List EventEnvelope)}
    (ids : (listed.map Prod.fst).Perm
      (directory.filterMap fun entry => listedThread format entry.name))
    (logged : ∀ entry ∈ listed, Logged text format path directory entry.1 entry.2)
    {entry : DirEntry} (member : entry ∈ directory) (jsonl : isJsonl entry.name = true)
    {threadId : ThreadId} (name : entry.name = threadFile format threadId) :
    ∃ bytes log, entry.content = .file bytes ∧
      Jsonl.parseLog (Jsonl.wireCodec text format) path threadId bytes = .ok log ∧
      (threadId, log.events) ∈ listed := by
  have shown : threadId ∈ directory.filterMap fun entry => listedThread format entry.name := by
    refine List.mem_filterMap.mpr ⟨entry, member, ?_⟩
    rw [name]
    exact listedThread_threadFile lawful (name ▸ jsonl)
  obtain ⟨pair, inside, rfl⟩ := List.mem_map.mp (ids.mem_iff.mpr shown)
  obtain ⟨other, member', bytes, log, name', content, parsed, events⟩ := logged pair inside
  obtain rfl := entry_eq_of_name names member' member (name'.trans name.symm)
  refine ⟨bytes, log, content, parsed, ?_⟩
  rw [← events]
  exact inside

/-- A migration that has moved the files away has imported each of them if and only if
every file of the extension is named as a thread's and agrees with the store. -/
theorem migrate_imported_iff {report : MigrateReport} {moved : List DirEntry} {backupDir : String}
    (lawful : format.Lawful) (names : (directory.map DirEntry.name).Nodup)
    (given : ∀ threadId events, Logged text format path directory threadId events →
      Given text format codec db threadId events)
    (ran : migrateJsonlToSqlite codec text format path directory db
      { dryRun := false, verify := false } backupDir =
        { answer := .ok report, db := after, moved := moved }) :
    (∀ entry ∈ moved, Imported text format path after entry) ↔
      ∀ entry ∈ directory, isJsonl entry.name = true → Fit text format path db entry := by
  cases read : readLogs text format path directory with
  | error error =>
      simp only [migrateJsonlToSqlite, read] at ran
      cases ran
  | ok logs =>
      obtain ⟨listed, rfl, ids, logged⟩ := readLogs_spec read
      simp only [migrateJsonlToSqlite, read, Bool.false_eq_true, if_false] at ran
      cases imported : importAll codec text format db (listed.map Prod.snd) with
      | mk answer written =>
          rw [imported] at ran
          cases answer with
          | error error => cases ran
          | ok =>
              cases ran
              have returned (named : ∀ entry ∈ directory, isJsonl entry.name = true →
                  ∃ threadId, entry.name = threadFile format threadId) :=
                (importAll_returned (fun entry member => given _ _ (logged entry member))
                  (ids.nodup_iff.mpr (listed_nodup lawful names named)) imported).2
              constructor
              · intro each entry member jsonl
                have named : ∀ entry ∈ directory, isJsonl entry.name = true →
                    ∃ threadId, entry.name = threadFile format threadId := by
                  intro other member' jsonl'
                  obtain ⟨threadId, -, -, name, -⟩ :=
                    each other (List.mem_filter.mpr ⟨member', jsonl'⟩)
                  exact ⟨threadId, name⟩
                obtain ⟨threadId, bytes, log, name, content, parsed, stored⟩ :=
                  each entry (List.mem_filter.mpr ⟨member, jsonl⟩)
                obtain ⟨bytes', log', content', parsed', inside⟩ :=
                  mem_listed lawful names ids logged member jsonl name
                refine ⟨threadId, name, fun bytes'' log'' content'' parsed'' => ?_⟩
                rw [content] at content' content''
                cases content'
                cases content''
                rw [parsed] at parsed' parsed''
                cases parsed'
                cases parsed''
                exact (returned named _ inside).mp stored
              · intro fits entry moved
                obtain ⟨member, jsonl⟩ := List.mem_filter.mp moved
                have named : ∀ entry ∈ directory, isJsonl entry.name = true →
                    ∃ threadId, entry.name = threadFile format threadId := by
                  intro other member' jsonl'
                  obtain ⟨threadId, name, -⟩ := fits other member' jsonl'
                  exact ⟨threadId, name⟩
                obtain ⟨threadId, name, agrees⟩ := fits entry member jsonl
                obtain ⟨bytes, log, content, parsed, inside⟩ :=
                  mem_listed lawful names ids logged member jsonl name
                exact ⟨threadId, bytes, log, name, content, parsed,
                  (returned named _ inside).mpr (agrees bytes log content parsed)⟩

end Listing

namespace Demo.Migration

open OpsCodex.Runtime.Demo.EventText

/-- A data directory with the log of one thread. -/
def directory : DataDirectory :=
  [{ name := threadFile format ⟨1⟩,
     content := .file (created.toVec text format ++ [Jsonl.newline]) }]

theorem isJsonl_one : isJsonl (threadFile format ⟨1⟩) = true := by
  refine isJsonl_threadFile.mpr fun empty => ?_
  have length := congrArg List.length empty
  rw [length_utf8] at length
  exact absurd length (by decide)

theorem logged_directory {threadId : ThreadId} {events : List EventEnvelope}
    (logged : Logged text format path directory threadId events) :
    threadId = ⟨1⟩ ∧ events = [created] := by
  obtain ⟨entry, member, bytes, log, name, content, parsed, rfl⟩ := logged
  rw [List.mem_singleton.mp member] at name content
  have own : (⟨1⟩ : ThreadId) = threadId := threadFile_injective lawful isJsonl_one name
  subst own
  cases content
  rw [parsed_created] at parsed
  cases parsed
  exact ⟨rfl, rfl⟩

theorem readExisting_single (threadId : ThreadId) (bytes : Jsonl.Bytes) :
    readExisting format path
      [{ name := threadFile format threadId, content := .file bytes }] threadId = .ok bytes := by
  simp [readExisting]

theorem readLogs_single {threadId : ThreadId} {bytes : Jsonl.Bytes} {log : Jsonl.ParsedLog}
    {thread : Thread} (jsonl : isJsonl (threadFile format threadId) = true)
    (parsed : Jsonl.parseLog (Jsonl.wireCodec text format) path threadId bytes = .ok log)
    (read : reconstructThread threadId log.events = .ok thread) :
    readLogs text format path [{ name := threadFile format threadId, content := .file bytes }] =
      .ok [log.events] := by
  have listed := listedThread_threadFile lawful jsonl
  have own := reconstructThread_id read
  simp [readLogs, directoryThreads, listed, directorySummary, directoryEvents,
    readExisting_single, Jsonl.summarizeThread, eventsAfter_single parsed, read, own, bind,
    Except.bind, pure, Except.pure]

theorem readLogs_directory : readLogs text format path directory = .ok [[created]] :=
  readLogs_single isJsonl_one parsed_created rfl

end Demo.Migration

open Demo.Migration OpsCodex.Runtime.Demo.EventText in
theorem migrate_imported_iff_created :
    (∀ entry ∈ directory, Imported Demo.Migration.text format path imported entry) ↔
      ∀ entry ∈ directory, isJsonl entry.name = true →
        Fit Demo.Migration.text format path Database.empty entry := by
  have moved : (directory.filter fun entry => isJsonl entry.name) = directory := by
    simp [directory, isJsonl_one]
  have ran : migrateJsonlToSqlite codec Demo.Migration.text format path directory
      Database.empty { dryRun := false, verify := false } "backup-19700101T000000Z" =
        { answer := .ok (migrateReport codec Demo.Migration.text format [[created]]
            (some "backup-19700101T000000Z"))
          db := imported
          moved := directory } := by
    simp only [migrateJsonlToSqlite, readLogs_directory, Bool.false_eq_true, if_false, moved]
    rfl
  refine migrate_imported_iff lawful (List.nodup_singleton _) (fun threadId events logged => ?_) ran
  obtain ⟨rfl, rfl⟩ := logged_directory logged
  exact given_created

namespace Demo.Migration

open OpsCodex.Runtime.Demo.EventText

/-- Identifiers are read strictly. -/
def strict : Format :=
  { format with readUuid := fun text => if text = uuid 1 then .ok 1 else .error "invalid length" }

/-- A directory with a file that is no thread's. -/
def notes : DataDirectory := [{ name := utf8 "notes.jsonl", content := .file [] }]

end Demo.Migration

open Demo.Migration OpsCodex.Runtime.Demo.EventText in
/-- A file that is not listed as a thread is moved away without being read. -/
theorem not_migrate_imported :
    (∃ report, migrateJsonlToSqlite codec Demo.Migration.text strict path notes
      Database.empty { dryRun := false, verify := false } "backup-19700101T000000Z" =
        { answer := .ok report, db := Database.empty, moved := notes }) ∧
    ¬ ∀ entry ∈ notes, Imported Demo.Migration.text strict path Database.empty entry := by
  have suffix : utf8 "notes.jsonl" = utf8 "notes" ++ utf8 ".jsonl" := by
    rw [utf8_eq_flatMap, utf8_eq_flatMap, utf8_eq_flatMap]
    decide
  have stem : splitExtension (utf8 "notes.jsonl") = (utf8 "notes", some (utf8 "jsonl")) := by
    rw [suffix, splitExtension_jsonl, if_neg (by rw [utf8_eq_flatMap]; decide)]
  constructor
  · have unlisted : (notes.filterMap fun entry => listedThread strict entry.name) = [] := by
      simp only [notes, List.filterMap_cons, listedThread, isJsonl, stem, decide_true, if_true,
        fromUTF8?_utf8, Option.bind_some]
      rfl
    have moved : (notes.filter fun entry => isJsonl entry.name) = notes := by
      simp [notes, isJsonl, stem]
    have read : readLogs Demo.Migration.text strict path notes = .ok [] := by
      rw [readLogs, directoryThreads, unlisted]
      rfl
    simp only [migrateJsonlToSqlite, read, Bool.false_eq_true, if_false, moved, importAll]
    exact ⟨_, rfl⟩
  · intro each
    obtain ⟨threadId, -, -, name, -⟩ := each _ List.mem_cons_self
    rw [threadFile, suffix, List.append_cancel_right_eq] at name
    have same : "notes" = format.uuidText threadId.uuid := utf8_injective name
    simp only [format] at same
    split at same
    · rename_i known
      rcases known with one | two
      · rw [one] at same
        exact absurd same (by decide)
      · rw [two] at same
        exact absurd same (by decide)
    · exact padding_ne _ _ (by decide) same.symm

end OpsCodex.Store
