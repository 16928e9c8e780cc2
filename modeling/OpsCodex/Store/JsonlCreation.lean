import OpsCodex.Store.JsonlTears

/-! Thread creation that a crash cuts off. Creation has no repair of its own: a file
without its first record is taken for an empty log. -/

set_option autoImplicit false

namespace OpsCodex.Store.Jsonl

open OpsCodex.Runtime Framing Storage

theorem mapM_ok_of_forall {Item Value : Type} {f : Item → Result Value} {items : List Item}
    (each : ∀ item ∈ items, ∃ value, f item = .ok value) :
    ∃ values, items.mapM f = .ok values ∧
      ∀ item ∈ items, ∃ value ∈ values, f item = .ok value := by
  induction items with
  | nil => exact ⟨[], rfl, by simp⟩
  | cons item items ih =>
      obtain ⟨value, first⟩ := each item List.mem_cons_self
      obtain ⟨values, rest, found⟩ := ih fun other member =>
        each other (List.mem_cons_of_mem item member)
      refine ⟨value :: values, by simp [List.mapM_cons, first, rest, bind, Except.bind, pure,
        Except.pure], ?_⟩
      intro other member
      rcases List.mem_cons.mp member with rfl | later
      · exact ⟨value, List.mem_cons_self, first⟩
      · obtain ⟨answer, inside, equal⟩ := found other later
        exact ⟨answer, List.mem_cons_of_mem value inside, equal⟩

theorem forall_of_mapM_ok {Item Value : Type} {f : Item → Result Value} {items : List Item}
    {values : List Value} (all : items.mapM f = .ok values) :
    ∀ item ∈ items, ∃ value, f item = .ok value := by
  induction items generalizing values with
  | nil => simp
  | cons item items ih =>
      cases first : f item with
      | error error => simp [List.mapM_cons, first, bind, Except.bind] at all
      | ok value =>
          cases rest : items.mapM f with
          | error error => simp [List.mapM_cons, first, rest, bind, Except.bind] at all
          | ok others =>
              intro other member
              rcases List.mem_cons.mp member with rfl | later
              · exact ⟨value, first⟩
              · exact ih rest other later

section

variable (codec : EnvelopeCodec) (path : ThreadId → String)

/-- The directory after a crash inside a creation that had created the file and
written some of the line. -/
def tornCreation (directory : Directory) (threadId : ThreadId) (line : Bytes) (count : Nat) :
    Directory :=
  directory ++ [{ threadId := threadId, bytes := line.take count }]

/-- A thread can be opened: its log parses and begins with its creation. -/
def Opens (directory : Directory) (threadId : ThreadId) : Prop :=
  ∃ bytes log first, read directory threadId = some bytes ∧
    parseLog codec path threadId bytes = .ok log ∧ log.events.head? = some first ∧
    first.event = .threadCreated

/-- What a creation promises of the store, whatever became of it. -/
structure CreationKept (directory : Directory) (threadId : ThreadId)
    (workspaceId : WorkspaceId) : Prop where
  first_record : ∀ bytes log first, read directory threadId = some bytes →
    parseLog codec path threadId bytes = .ok log → log.events.head? = some first →
    first.event = .threadCreated ∧ first.seq = 1 ∧ first.workspaceId = workspaceId
  listed : ∃ summaries, listThreads codec path directory = .ok summaries ∧
    ∀ file ∈ directory, file.threadId ≠ threadId →
      ∃ summary ∈ summaries, summary.id = file.threadId

variable {codec path}

theorem eventsAfter_zero {directory : Directory} {threadId : ThreadId} {bytes : Bytes}
    {log : ParsedLog} (stored : read directory threadId = some bytes)
    (parsed : parseLog codec path threadId bytes = .ok log) :
    eventsAfter codec path directory threadId 0 = .ok log.events := by
  have all : ∀ envelope ∈ log.events, decide (0 < envelope.seq) = true := by
    intro envelope member
    have numbers : envelope.seq ∈ log.events.map EventEnvelope.seq := List.mem_map_of_mem member
    rw [parseLog_contiguous parsed] at numbers
    have positive := (List.mem_range'_1.mp numbers).1
    exact decide_eq_true (by omega)
  simp [eventsAfter, stored, parsed, bind, Except.bind, pure, Except.pure,
    List.filter_eq_self.mpr all]

/-- A thread is summarized exactly if it can be opened. -/
theorem summarizeThread_ok_iff {directory : Directory} {threadId : ThreadId} :
    (∃ summary, summarizeThread codec path directory threadId = .ok summary) ↔
      Opens codec path directory threadId := by
  constructor
  · intro ⟨summary, summarized⟩
    cases stored : read directory threadId with
    | none => simp [summarizeThread, eventsAfter, stored, bind, Except.bind] at summarized
    | some bytes =>
        cases parsed : parseLog codec path threadId bytes with
        | error error =>
            simp [summarizeThread, eventsAfter, stored, parsed, bind, Except.bind] at summarized
        | ok log =>
            simp only [summarizeThread, eventsAfter_zero stored parsed, bind, Except.bind]
              at summarized
            cases head : log.events.head? with
            | none => simp [List.head?_eq_none_iff.mp head, reconstructThread] at summarized
            | some first =>
                obtain ⟨rest, events⟩ := List.head?_eq_some_iff.mp head
                refine ⟨bytes, log, first, stored, parsed, head, ?_⟩
                rw [events] at summarized
                unfold reconstructThread at summarized
                split at summarized
                · cases summarized
                · rename_i made
                  split at made
                  · cases made
                  · rename_i same
                    obtain ⟨rfl, -⟩ := List.cons.inj same
                    split at made
                    · assumption
                    · cases made
  · intro ⟨bytes, log, first, stored, parsed, head, created⟩
    obtain ⟨rest, events⟩ := List.head?_eq_some_iff.mp head
    exact ⟨_, by
      simp only [summarizeThread, eventsAfter_zero stored parsed, bind, Except.bind]
      rw [events]
      simp only [reconstructThread, created]
      rfl⟩

theorem summarizeThread_id {directory : Directory} {threadId : ThreadId}
    {summary : ThreadSummary}
    (summarized : summarizeThread codec path directory threadId = .ok summary) :
    summary.id = threadId := by
  obtain ⟨bytes, log, first, stored, parsed, head, created⟩ :=
    summarizeThread_ok_iff.mp ⟨summary, summarized⟩
  obtain ⟨rest, events⟩ := List.head?_eq_some_iff.mp head
  simp only [summarizeThread, eventsAfter_zero stored parsed, bind, Except.bind] at summarized
  rw [events] at summarized
  simp only [reconstructThread, created, pure, Except.pure, Except.ok.injEq] at summarized
  exact summarized ▸ rfl

/-- The listing fails as a whole if one thread cannot be opened. -/
theorem opens_of_listThreads {directory : Directory} {summaries : List ThreadSummary}
    (listed : listThreads codec path directory = .ok summaries) :
    ∀ file ∈ directory, Opens codec path directory file.threadId := by
  intro file member
  cases all : (directory.map LogFile.threadId).mapM (summarizeThread codec path directory) with
  | error error => simp [listThreads, all, bind, Except.bind] at listed
  | ok unsorted =>
      apply summarizeThread_ok_iff.mp
      exact forall_of_mapM_ok all file.threadId (List.mem_map_of_mem member)

theorem listThreads_of_opens {directory : Directory}
    (opens : ∀ file ∈ directory, Opens codec path directory file.threadId) :
    ∃ summaries, listThreads codec path directory = .ok summaries ∧
      ∀ file ∈ directory, ∃ summary ∈ summaries, summary.id = file.threadId := by
  have each : ∀ id ∈ directory.map LogFile.threadId,
      ∃ summary, summarizeThread codec path directory id = .ok summary := by
    intro id member
    obtain ⟨file, inside, rfl⟩ := List.mem_map.mp member
    exact summarizeThread_ok_iff.mpr (opens file inside)
  obtain ⟨unsorted, all, found⟩ := mapM_ok_of_forall each
  refine ⟨unsorted.insertionSort ThreadSummary.listedBefore, ?_, ?_⟩
  · simp only [listThreads, all, bind, Except.bind]
    rfl
  · intro file member
    obtain ⟨summary, inside, summarized⟩ := found file.threadId (List.mem_map_of_mem member)
    refine ⟨summary, ?_, summarizeThread_id summarized⟩
    exact (List.mem_insertionSort ThreadSummary.listedBefore).mpr inside

/-- Appends, torn or not, leave every thread as openable as it was. -/
theorem Opens.runRounds (lawful : codec.Lawful) {directory : Directory} {threadId : ThreadId}
    (opens : Opens codec path directory threadId) {rounds : List Round}
    (legible : ∀ round ∈ rounds, round.command.event.Legible) :
    Opens codec path (runRounds codec path rounds directory).2 threadId := by
  obtain ⟨bytes, log, first, stored, parsed, head, created⟩ := opens
  obtain ⟨last, survived, tail, read, parses, -, -⟩ :=
    parseLog_runRounds lawful rounds (fun round member _ => legible round member) stored parsed
  refine ⟨last, _, first, read, parses, ?_, created⟩
  rw [List.head?_append, head]
  rfl

theorem runRounds_threadIds (codec : EnvelopeCodec) (path : ThreadId → String)
    (rounds : List Round) (directory : Directory) :
    (runRounds codec path rounds directory).2.map LogFile.threadId =
      directory.map LogFile.threadId := by
  induction rounds generalizing directory with
  | nil => rfl
  | cons round rounds ih =>
      obtain ⟨change, moved⟩ := round.run_snd codec path directory
      have keys : (round.run codec path directory).2.map LogFile.threadId =
          directory.map LogFile.threadId := by
        rw [moved]
        exact Table.keys_update fun _ _ => rfl
      exact (ih _).trans keys

theorem read_tornCreation_same {directory : Directory} {threadId : ThreadId}
    (absent : read directory threadId = none) (line : Bytes) (count : Nat) :
    read (tornCreation directory threadId line count) threadId = some (line.take count) := by
  have missing : directory.find? (fun file => decide (file.threadId = threadId)) = none := by
    simpa [read, Table.lookup] using absent
  simp [read, Table.lookup, tornCreation, List.find?_append, missing]

theorem read_tornCreation_other {directory : Directory} {threadId other : ThreadId}
    (different : other ≠ threadId) (line : Bytes) (count : Nat) :
    read (tornCreation directory threadId line count) other = read directory other := by
  have unlike : ¬ threadId = other := fun same => different same.symm
  simp [read, Table.lookup, tornCreation, List.find?_append, unlike]

theorem createThread_eq_ok {threadId : ThreadId} {workspaceId : WorkspaceId}
    {clock : DateTime} {fresh : Uuid} {directory : Directory} {envelope : EventEnvelope}
    {line : Bytes}
    (created : createThread codec path threadId workspaceId clock fresh directory =
      .ok (envelope, line)) :
    envelope = createdEnvelope threadId workspaceId clock fresh ∧
      read directory threadId = none ∧
      ∃ json, codec.toVec envelope = .ok json ∧ line = json ++ [newline] := by
  unfold createThread at created
  cases valid : workspaceId.validate with
  | error error => simp [valid, bind, Except.bind] at created
  | ok _ =>
      cases encoded : codec.toVec (createdEnvelope threadId workspaceId clock fresh) with
      | error error => simp [valid, encodeLine, encoded, bind, Except.bind] at created
      | ok json =>
          cases absent : read directory threadId with
          | some bytes =>
              simp [valid, encodeLine, encoded, absent, bind, Except.bind, throw, throwThe,
                MonadExceptOf.throw] at created
          | none =>
              simp only [valid, encodeLine, encoded, absent, bind, Except.bind, pure,
                Except.pure, Option.isSome_none, Bool.false_eq_true, if_false,
                Except.ok.injEq, Prod.mk.injEq] at created
              obtain ⟨rfl, rfl⟩ := created
              exact ⟨rfl, rfl, json, encoded, rfl⟩

/-- A torn creation keeps its promise through every later sequence of appends of readable
records exactly if all of the record but its newline was written. -/
theorem creationKept_iff (lawful : codec.Lawful) {threadId : ThreadId}
    {workspaceId : WorkspaceId} {clock : DateTime} {fresh : Uuid} {directory : Directory}
    {envelope : EventEnvelope} {line : Bytes} {before : List ThreadSummary}
    (listed : listThreads codec path directory = .ok before)
    (created : createThread codec path threadId workspaceId clock fresh directory =
      .ok (envelope, line)) (count : Nat) :
    (∀ rounds, (∀ round ∈ rounds, round.command.event.Legible) → CreationKept codec path
        (runRounds codec path rounds (tornCreation directory threadId line count)).2
        threadId workspaceId) ↔
      line.length ≤ count + 1 := by
  obtain ⟨envelopeEq, absent, json, encoded, lineEq⟩ := createThread_eq_ok created
  have valid : validateEnvelope path threadId [] envelope = .ok () := by
    subst envelopeEq
    simp [validateEnvelope, createdEnvelope, bind, Except.bind, pure, Except.pure]
  have legible : envelope.event.Legible := by
    subst envelopeEq
    exact fun payload carried => by cases carried
  have empty : Settled codec path threadId [] [] := settled_nil
  obtain ⟨tail, left⟩ := empty.torn lawful valid encoded legible count
  rw [List.nil_append, ← lineEq] at left
  have stored := read_tornCreation_same absent line count
  constructor
  · intro kept
    obtain ⟨summaries, succeeded, -⟩ := (kept [] fun _ member => by cases member).listed
    have opens := opens_of_listThreads succeeded
      { threadId := threadId, bytes := line.take count } (by simp [runRounds, tornCreation])
    obtain ⟨bytes, log, first, reads, parses, head, -⟩ := opens
    rw [runRounds, stored] at reads
    rw [← Option.some.inj reads, left] at parses
    rw [← Except.ok.inj parses] at head
    by_cases whole : json.length ≤ count
    · rw [lineEq]
      simpa using whole
    · simp [whole] at head
  · intro written
    have whole : json.length ≤ count := by
      rw [lineEq] at written
      simpa using written
    rw [if_pos whole] at left
    have opens : ∀ file ∈ tornCreation directory threadId line count,
        Opens codec path (tornCreation directory threadId line count) file.threadId := by
      intro file member
      by_cases own : file.threadId = threadId
      · rw [own]
        exact ⟨_, _, envelope.restored codec.number, stored, left, rfl, envelopeEq ▸ rfl⟩
      · rcases List.mem_append.mp member with older | newer
        · obtain ⟨bytes, log, first, reads, rest⟩ := opens_of_listThreads listed file older
          exact ⟨bytes, log, first, (read_tornCreation_other own line count).trans reads, rest⟩
        · rw [List.mem_singleton.mp newer] at own
          exact absurd rfl own
    intro rounds readable
    constructor
    · intro bytes log first reads parses head
      obtain ⟨last, survived, lastTail, lastRead, lastParses, -, -⟩ :=
        parseLog_runRounds lawful rounds (fun round member _ => readable round member) stored left
      rw [lastRead] at reads
      rw [← Option.some.inj reads, lastParses] at parses
      rw [← Except.ok.inj parses] at head
      have same : envelope.restored codec.number = first := by simpa using head
      rw [← same, envelopeEq]
      exact ⟨rfl, rfl, rfl⟩
    · have all : ∀ file ∈ (runRounds codec path rounds
            (tornCreation directory threadId line count)).2,
          Opens codec path (runRounds codec path rounds
            (tornCreation directory threadId line count)).2 file.threadId := by
        intro file member
        have ids := runRounds_threadIds codec path rounds
          (tornCreation directory threadId line count)
        have known := List.mem_map_of_mem (f := LogFile.threadId) member
        rw [ids] at known
        obtain ⟨earlier, inside, same⟩ := List.mem_map.mp known
        rw [← same]
        exact (opens earlier inside).runRounds lawful readable
      obtain ⟨summaries, succeeded, found⟩ := listThreads_of_opens all
      exact ⟨summaries, succeeded, fun file member _ => found file member⟩

end

/-- A creation of which every byte was written keeps its promise. -/
theorem creationKept_iff_wholeLine :
    (∀ rounds, (∀ round ∈ rounds, round.command.event.Legible) →
      CreationKept (Demo.codec Demo.samples) Demo.path
        (runRounds (Demo.codec Demo.samples) Demo.path rounds (tornCreation [] Demo.threadId
          (Demo.createdSample.json ++ [newline]) 400)).2
        Demo.threadId ⟨"team"⟩) ↔
      (Demo.createdSample.json ++ [newline]).length ≤ 400 + 1 :=
  creationKept_iff (Demo.lawful Demo.samples_legible)
    (show listThreads (Demo.codec Demo.samples) Demo.path [] = .ok [] from rfl)
    (show createThread (Demo.codec Demo.samples) Demo.path Demo.threadId ⟨"team"⟩ 0 2 [] =
      .ok (Demo.createdSample.envelope, Demo.createdSample.json ++ [newline]) from rfl) 400

/-- A creation that a crash stopped before its first byte: the next append starts the
log with its own record, in the default workspace. -/
theorem not_creationKept :
    createThread (Demo.codec Demo.samples) Demo.path Demo.threadId ⟨"team"⟩ 0 2 [] =
      .ok (Demo.createdSample.envelope, Demo.createdSample.json ++ [newline]) ∧
    ¬ ∀ rounds, (∀ round ∈ rounds, round.command.event.Legible) →
      CreationKept (Demo.codec Demo.samples) Demo.path
        (runRounds (Demo.codec Demo.samples) Demo.path rounds (tornCreation [] Demo.threadId
          (Demo.createdSample.json ++ [newline]) 0)).2
        Demo.threadId ⟨"team"⟩ := by
  refine ⟨rfl, fun kept => ?_⟩
  have settled : Settled (Demo.codec Demo.samples) Demo.path Demo.threadId [] [] := settled_nil
  have log := (settled.record (Demo.lawful Demo.samples_legible)
    (show validateEnvelope Demo.path Demo.threadId [] Demo.strayedSample.envelope = .ok ()
      from rfl)
    (show (Demo.codec Demo.samples).toVec Demo.strayedSample.envelope =
      .ok Demo.strayedSample.json from rfl)
    (by decide)).parseLog_eq
  have strayed := (kept [{ command := Demo.command, clock := 0, fresh := 3, torn := none }]
    (by decide)).first_record _ _ Demo.strayedSample.envelope rfl log rfl
  cases strayed.1

end OpsCodex.Store.Jsonl
