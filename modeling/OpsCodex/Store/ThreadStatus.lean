import OpsCodex.Store.History

/-! The status of a thread. The list of threads shows a stored status, a thread that is
read shows the status of its log. -/

set_option autoImplicit false

namespace OpsCodex.Store.Database

open OpsCodex.Json OpsCodex.Runtime OpsCodex.Action

/-- The status that a log leaves its thread in. -/
def logStatus (events : List EventEnvelope) : ThreadStatus :=
  (events.map EventEnvelope.event).foldl statusAfter .idle

/-- The status that the list shows for a thread is the one its log is replayed to. -/
def StatusAgrees (db : Database) : Prop :=
  ∀ row ∈ db.listThreads, ∃ view, viewThread row.id (db.threadEvents row.id) = .ok view ∧
    row.status = view.status ∧
    ((db.threadEvents row.id).length < 2 ^ 63 → db.getThreadView row.id = .ok view)

/-- A turn that is waiting, interrupted or in need of reconciliation is stored when its
thread's log says the same of the thread. -/
def Attempt.InStep (db : Database) : Attempt → Prop
  | .returned (.write (.upsertTurn record) _ _) =>
      ∀ row, db.thread record.threadId = some row →
        ∀ status, threadStatusOf record.status = some status →
          logStatus (db.threadEvents record.threadId) = status
  | _ => True

/-- Stored statuses are those of the logs. -/
def Recorded (db : Database) : Prop :=
  ∀ row ∈ db.threads, row.status = logStatus (db.threadEvents row.id)

section

variable {db after : Database}

theorem logStatus_append (events : List EventEnvelope) (envelope : EventEnvelope) :
    logStatus (events ++ [envelope]) = statusAfter (logStatus events) envelope.event := by
  simp [logStatus]

theorem viewThread_of_created (threadId : ThreadId) {first : EventEnvelope}
    (rest : List EventEnvelope) (created : first.event = .threadCreated) :
    ∃ view, viewThread threadId (first :: rest) = .ok view := by
  simp [viewThread, created]

theorem WellFormed.statusAgrees_iff (well : db.WellFormed) : db.StatusAgrees ↔ db.Recorded := by
  constructor
  · intro agrees row member
    obtain ⟨view, viewed, same, -⟩ := agrees row (mem_listThreads.mpr member)
    obtain ⟨⟨first, rest, log, -⟩, -⟩ := well.logs row member
    rw [log] at viewed ⊢
    rw [same, (viewThread_ok viewed).2]
    rfl
  · intro recorded row member
    have stored := mem_listThreads.mp member
    obtain ⟨⟨first, rest, log, created⟩, numbered, -, -⟩ := well.logs row stored
    obtain ⟨view, viewed⟩ := viewThread_of_created row.id rest created
    have known := recorded row stored
    refine ⟨view, by rw [log, viewed], ?_, ?_⟩
    · rw [known, log, (viewThread_ok viewed).2]
      rfl
    · intro small
      have found : db.thread row.id = some row := Table.lookup_of_mem well.threads stored
      have loaded := loadEvents_of_numbered found rfl numbered small
      simp only [getThreadView, loaded, bind, Except.bind]
      rw [log, viewed]

theorem Recorded.of_same (recorded : db.Recorded) (threads : after.threads = db.threads)
    (events : after.events = db.events) : after.Recorded := by
  intro row member
  rw [threads] at member
  rw [recorded row member, threadEvents, threadEvents, events]

theorem Recorded.addThread (recorded : db.Recorded) (well : db.WellFormed) {row : ThreadRow}
    {log : List EventEnvelope} (absent : db.thread row.id = none)
    (own : ∀ envelope ∈ log, envelope.threadId = row.id) (known : row.status = logStatus log) :
    (db.addThread row log).Recorded := by
  intro other member
  obtain member | member := List.mem_append.mp member
  · have different : row.id ≠ other.id := by
      intro same
      exact thread_eq_none.mp absent (same ▸ List.mem_map_of_mem member)
    rw [threadEvents_addThread_other own different]
    exact recorded other member
  · rw [List.mem_singleton.mp member, threadEvents_addThread_own well absent own]
    exact known

theorem Recorded.appendEvent (recorded : db.Recorded) (well : db.WellFormed)
    (command : AppendEvent) (clock : DateTime) (fresh : Uuid) :
    (db.appendEvent command clock fresh).2.Recorded := by
  unfold Database.appendEvent
  cases found : db.thread command.threadId with
  | none => exact recorded
  | some row =>
      intro other member
      obtain ⟨old, stored, rfl⟩ := List.mem_map.mp member
      dsimp only at member ⊢
      by_cases own : old.id = command.threadId
      · have same : row = old := by
          have lookup := Table.lookup_of_mem well.threads stored
          rw [own] at lookup
          exact Option.some.inj (found.symm.trans lookup)
        subst same
        rw [if_pos (decide_eq_true own)]
        have known := recorded row stored
        rw [own] at known
        simp only [threadEvents, own, List.filter_append, List.filter_singleton, decide_true,
          cond_true, logStatus_append, known]
      · have different : ¬ command.threadId = old.id := fun same => own same.symm
        rw [if_neg (fun same => own (of_decide_eq_true same))]
        have known := recorded old stored
        simp only [threadEvents, List.filter_append, List.filter_singleton, different,
          decide_false, cond_false, List.append_nil]
        exact known

/-- A turn's upsert keeps the stored statuses those of the logs only if the turn's own
status is one the log knows. -/
theorem Recorded.upsertTurn_iff (recorded : db.Recorded) (record : TurnRecord) :
    (db.upsertTurn record).2.Recorded ↔
      ∀ row, db.thread record.threadId = some row →
        ∀ status, threadStatusOf record.status = some status →
          logStatus (db.threadEvents record.threadId) = status := by
  cases found : db.thread record.threadId with
  | none =>
      simp [upsertTurn, writeTurn, found, recorded]
  | some row =>
      cases shown : threadStatusOf record.status with
      | none =>
          have same : (db.upsertTurn record).2.Recorded := by
            simp only [upsertTurn, writeTurn, found, syncThreadStatus, shown]
            exact recorded.of_same rfl rfl
          simp [same]
      | some status =>
          simp only [upsertTurn, writeTurn, found, syncThreadStatus, shown, Option.some.injEq,
            forall_eq']
          constructor
          · intro kept
            have member := Table.lookup_mem found
            have own : row.id = record.threadId := Table.lookup_key found
            have stored := kept _ (List.mem_map.mpr ⟨row, member, rfl⟩)
            rw [if_pos (decide_eq_true own)] at stored
            exact (stored.trans (congrArg _ (congrArg _ own))).symm
          · intro same other member
            obtain ⟨old, stored, rfl⟩ := List.mem_map.mp member
            dsimp only
            by_cases own : old.id = record.threadId
            · rw [if_pos (decide_eq_true own)]
              exact (same.symm.trans (congrArg _ (congrArg _ own.symm)))
            · rw [if_neg (fun same => own (of_decide_eq_true same))]
              exact recorded old stored

theorem Recorded.createThread (recorded : db.Recorded) (well : db.WellFormed)
    (threadId : ThreadId) (workspaceId : WorkspaceId) (clock : DateTime) (fresh : Uuid) :
    (db.createThread threadId workspaceId clock fresh).2.Recorded := by
  obtain ⟨error, failed⟩ | ⟨absent, row, rfl, rfl, idle, made⟩ :=
    createThread_cases db threadId workspaceId clock fresh
  · rw [failed]
    exact recorded
  · rw [made]
    apply recorded.addThread well absent
    · intro envelope member
      rw [List.mem_singleton.mp member]
      rfl
    · exact idle

theorem Recorded.forkThread (recorded : db.Recorded) (well : db.WellFormed)
    (threadId : ThreadId) (atSeq : Nat) (newThreadId : ThreadId) (title : Option String)
    (stamp : Nat → DateTime × Uuid) (updatedAt : DateTime) :
    (db.forkThread threadId atSeq newThreadId title stamp updatedAt).2.Recorded := by
  obtain same | ⟨absent, row, sources, rfl, status, forked⟩ :=
    forkThread_adds db threadId atSeq newThreadId title stamp updatedAt
  · rw [same]
    exact recorded
  · rw [forked]
    apply recorded.addThread well absent
    · intro envelope member
      obtain rfl | member := List.mem_cons.mp member
      · rfl
      · exact forkInherited_threadId member
    · rw [status, logStatus, forkLog, List.map_cons, List.foldl_cons, List.foldl_map]
      rfl

theorem Recorded.importThread (recorded : db.Recorded) (well : db.WellFormed) (codec : Codec)
    (wire : Jsonl.EnvelopeCodec) {envelopes : Jsonl.EnvelopeCodec}
    {path : ThreadId → String} {threadId : ThreadId} {bytes : Jsonl.Bytes} {log : Jsonl.ParsedLog}
    (parsed : Jsonl.parseLog envelopes path threadId bytes = .ok log) :
    (db.importThread codec wire log.events).2.Recorded := by
  obtain same | ⟨first, rest, view, row, log', absent, viewed, id, -, status, added, -⟩ :=
    importThread_cases codec wire log.events well.events
  · rw [same]
    exact recorded
  · have owned := Jsonl.parseLog_owned parsed
    rw [log'] at owned viewed
    rw [added, log']
    have own := owned.thread first List.mem_cons_self
    apply recorded.addThread well (by rw [id]; exact absent)
    · intro envelope member
      rw [owned.thread envelope member, id, own]
    · rw [status, (viewThread_ok viewed).2]
      rfl

theorem Recorded.halved (recorded : db.Recorded) {command : Command}
    (interrupted : command.interrupted db = some after) : after.Recorded := by
  have kept := World.keeps_interrupted interrupted
  cases command with
  | upsertTurn record =>
      simp only [Command.interrupted] at interrupted
      split at interrupted
      · rename_i wrote
        cases interrupted
        exact recorded.of_same (writeTurn_threads wrote) (kept.events (by simp [World.writes]))
      · cases interrupted
  | putCheckpoint checkpoint =>
      exact recorded.of_same (kept.threads (by simp [World.writes]))
        (kept.events (by simp [World.writes]))
  | _ => cases interrupted

/-- An attempt keeps the stored statuses those of the logs exactly if it is in step. -/
theorem Recorded.attempt_iff (recorded : db.Recorded) (well : db.WellFormed) {codec : Codec}
    {wire : Jsonl.EnvelopeCodec} {attempt : Attempt}
    (admissible : attempt.Admissible db) (ran : attempt.run codec wire db = some after) :
    after.Recorded ↔ attempt.InStep db := by
  cases attempt with
  | rolledBack call =>
      cases ran
      exact iff_of_true recorded trivial
  | halved command => exact iff_of_true (recorded.halved ran) trivial
  | returned call =>
      cases ran
      cases call with
      | createThread threadId workspaceId clock fresh =>
          exact iff_of_true (recorded.createThread well threadId workspaceId clock fresh) trivial
      | forkThread threadId atSeq newThreadId title stamp updatedAt =>
          exact iff_of_true
            (recorded.forkThread well threadId atSeq newThreadId title stamp updatedAt) trivial
      | importThread events =>
          obtain ⟨envelopes, path, threadId, bytes, log, parsed, rfl⟩ := admissible
          exact iff_of_true (recorded.importThread well codec wire parsed) trivial
      | write command clock fresh =>
          have kept := World.keeps_run codec clock fresh db command
          cases command with
          | appendEvent command =>
              exact iff_of_true (recorded.appendEvent well command clock fresh) trivial
          | upsertTurn record => exact recorded.upsertTurn_iff record
          | _ =>
              exact iff_of_true (recorded.of_same (kept.threads (by simp [World.writes]))
                (kept.events (by simp [World.writes]))) trivial

/-- In a store whose turns are stored in step with their threads' logs, the list shows the
status of each log; and a store that was so and still is has made such a step. -/
theorem statusAgrees_of_reached {codec : Codec} {wire : Jsonl.EnvelopeCodec}
    (reached : Reached codec wire
      (fun before attempt => attempt.Admissible before ∧ attempt.InStep before) db) :
    db.StatusAgrees ∧ ∀ (attempt : Attempt) (after : Database), attempt.Admissible db →
      attempt.run codec wire db = some after →
      (after.StatusAgrees ↔ attempt.InStep db) := by
  suffices kept : db.WellFormed ∧ db.Recorded by
    obtain ⟨well, recorded⟩ := kept
    refine ⟨well.statusAgrees_iff.mpr recorded, ?_⟩
    intro attempt after admissible ran
    rw [(well.attempt admissible ran).statusAgrees_iff]
    exact recorded.attempt_iff well admissible ran
  induction reached with
  | start =>
      refine ⟨wellFormed_empty, ?_⟩
      intro row member
      cases member
  | step _ allowed ran ih =>
      obtain ⟨well, recorded⟩ := ih
      exact ⟨well.attempt allowed.1 ran, (recorded.attempt_iff well allowed.1 ran).mpr allowed.2⟩

end

namespace Demo.History

def turn (status : TurnStatus) : TurnRecord where
  id := ⟨5⟩
  threadId := ⟨2⟩
  status := status
  activeLeaseId := none
  lastCheckpointId := none
  createdAt := 0
  updatedAt := 0

def asks : AppendEvent := { message with event := .approvalRequired ⟨6⟩ "shell" .null }

def opened : Database := (empty.createThread ⟨2⟩ ⟨"team"⟩ 0 10).2

def asked : Database := (opened.appendEvent asks 0 11).2

def turnCall (status : TurnStatus) : Call := .write (.upsertTurn (turn status)) 0 12

/-- A thread asks for an approval, and its turn is stored as waiting for it. -/
theorem waiting_reached : Reached codec wire
    (fun before attempt => attempt.Admissible before ∧ attempt.InStep before)
    ((turnCall .waitingApproval).run codec wire asked) := by
  have first : Reached codec wire
      (fun before attempt => attempt.Admissible before ∧ attempt.InStep before) opened :=
    Reached.returned .start (.createThread ⟨2⟩ ⟨"team"⟩ 0 10)
      ⟨show empty.Unused 10 by simp [Unused, empty], trivial⟩
  have second : Reached codec wire
      (fun before attempt => attempt.Admissible before ∧ attempt.InStep before) asked :=
    first.returned (.write (.appendEvent asks) 0 11)
      ⟨show opened.Unused 11 by decide, trivial⟩
  apply second.returned (turnCall .waitingApproval)
  refine ⟨show asked.Unused 12 by decide, ?_⟩
  intro row found status shown
  cases shown
  rfl

theorem interrupted_reached : Reached codec wire Attempt.Admissible
    ((turnCall .interrupted).run codec wire opened) := by
  have first : Reached codec wire Attempt.Admissible opened :=
    Reached.returned .start (.createThread ⟨2⟩ ⟨"team"⟩ 0 10)
      (show empty.Unused 10 by simp [Unused, empty])
  exact first.returned (turnCall .interrupted) (show opened.Unused 12 by decide)

end Demo.History

theorem statusAgrees_of_reached_waiting :
    (Demo.History.asked.upsertTurn (Demo.History.turn .waitingApproval)).2.StatusAgrees :=
  (statusAgrees_of_reached Demo.History.waiting_reached).1

/-- An interrupted turn is shown on the list of threads although its thread's log has
nothing of it. -/
theorem not_statusAgrees : ¬ ∀ db, Reached Demo.History.codec Demo.History.wire
    Attempt.Admissible db → db.StatusAgrees := by
  intro agrees
  have agree := agrees _ Demo.History.interrupted_reached
  have listed : ∃ row ∈ ((Demo.History.turnCall .interrupted).run Demo.History.codec
      Demo.History.wire Demo.History.opened).threads,
      row.id = ⟨2⟩ ∧ row.status = .interrupted := by decide
  obtain ⟨row, member, own, status⟩ := listed
  obtain ⟨view, viewed, same, -⟩ := agree row (mem_listThreads.mpr member)
  have replayed : (viewThread ⟨2⟩ (((Demo.History.turnCall .interrupted).run Demo.History.codec
      Demo.History.wire Demo.History.opened).threadEvents ⟨2⟩)).map ThreadView.status =
        .ok .idle := rfl
  rw [own] at viewed
  rw [viewed] at replayed
  rw [Except.ok.inj replayed, status] at same
  cases same

end OpsCodex.Store.Database
