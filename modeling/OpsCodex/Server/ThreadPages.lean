import OpsCodex.Sequence.Paging
import OpsCodex.Store.Backends

/-! A client that reads the events of a thread page by page, while calls go on writing to
the store. -/

set_option autoImplicit false

namespace OpsCodex.Server

open OpsCodex.Action OpsCodex.Runtime OpsCodex.Store

structure ThreadQuery where
  after : Nat
  limit : Option Nat
  streamKind : Option StreamKind

def ThreadQuery.wants (query : ThreadQuery) (envelope : EventEnvelope) : Bool :=
  match query.streamKind with
  | none => true
  | some kind => decide (envelope.streamKind = kind)

/-- The events that `get_thread` answers with. -/
def getThreadEvents (db : Database) (threadId : ThreadId) (query : ThreadQuery) :
    Result (List EventEnvelope) := do
  let _ ← db.getThread threadId
  let events ← db.loadEvents threadId query.after
  let events := match query.streamKind with
    | some kind => events.filter fun envelope => decide (envelope.streamKind = kind)
    | none => events
  return match query.limit with
    | some limit => events.take (max limit 1)
    | none => events

/-- The states of a store and of a client that has read pages of one thread: calls end in
any way that the store admits, and the client asks on from the last event that it has. -/
inductive Browses (codec : Codec) (wire : Jsonl.EnvelopeCodec) (threadId : ThreadId)
    (streamKind : Option StreamKind) : Database → List EventEnvelope → Prop where
  | start {db : Database}
      (reached : Database.Reached codec wire Database.Attempt.Admissible db) :
      Browses codec wire threadId streamKind db []
  | write {before after : Database} {attempt : Database.Attempt} {collected : List EventEnvelope}
      (browses : Browses codec wire threadId streamKind before collected)
      (admissible : attempt.Admissible before)
      (ran : attempt.run codec wire before = some after) :
      Browses codec wire threadId streamKind after collected
  | fetch {db : Database} {collected events : List EventEnvelope} {limit : Option Nat}
      (browses : Browses codec wire threadId streamKind db collected)
      (answered : getThreadEvents db threadId ⟨Paging.cursor EventEnvelope.seq collected, limit,
        streamKind⟩ = .ok events) :
      Browses codec wire threadId streamKind db (collected ++ events)

section

variable {codec : Codec} {wire : Jsonl.EnvelopeCodec} {threadId : ThreadId}
  {streamKind : Option StreamKind} {db : Database} {collected : List EventEnvelope}

theorem Browses.reached (browses : Browses codec wire threadId streamKind db collected) :
    Database.Reached codec wire Database.Attempt.Admissible db := by
  induction browses with
  | start reached => exact reached
  | write _ admissible ran ih => exact .step ih admissible ran
  | fetch _ _ ih => exact ih

/-- Calls only add events at the end of the store. -/
theorem attempt_events {before after : Database} {attempt : Database.Attempt}
    (well : before.WellFormed) (ran : attempt.run codec wire before = some after) :
    before.events <+: after.events := by
  have kept (command : Command) (written : Database)
      (keeps : World.Keeps (World.writes (.command command)) before written)
      (other : .events ∉ World.writes (.command command)) : before.events <+: written.events := by
    exact (keeps.events other).symm ▸ List.prefix_refl _
  have unchanged (written : Database) (same : written = before) :
      before.events <+: written.events := by
    subst same
    exact List.prefix_refl _
  cases attempt with
  | rolledBack call =>
      cases ran
      exact List.prefix_refl _
  | halved command =>
      refine kept command after (World.keeps_interrupted ran) ?_
      cases command with
      | upsertTurn record => simp [World.writes]
      | putCheckpoint checkpoint => simp [World.writes]
      | _ => cases ran
  | returned call =>
      cases ran
      cases call with
      | createThread threadId workspaceId clock fresh =>
          obtain ⟨error, same⟩ | ⟨_, row, _, _, _, created⟩ :=
            Database.createThread_cases before threadId workspaceId clock fresh
          · exact unchanged _ (by rw [Database.Call.run, same])
          · rw [Database.Call.run, created]
            exact List.prefix_append _ _
      | forkThread source atSeq newThreadId title stamp updatedAt =>
          obtain same | ⟨_, row, sources, _, _, added⟩ :=
            Database.forkThread_adds before source atSeq newThreadId title stamp updatedAt
          · exact unchanged _ (by rw [Database.Call.run, same])
          · rw [Database.Call.run, added]
            exact List.prefix_append _ _
      | importThread events =>
          obtain same | ⟨_, _, _, row, _, _, _, _, _, _, added, _⟩ :=
            Database.importThread_cases codec wire events well.events
          · exact unchanged _ (by rw [Database.Call.run, same])
          · rw [Database.Call.run, added]
            exact List.prefix_append _ _
      | write command clock fresh =>
          by_cases appends : ∃ append, command = .appendEvent append
          · obtain ⟨append, rfl⟩ := appends
            simp only [Database.Call.run, Command.run, Database.appendEvent]
            split
            · exact List.prefix_refl _
            · exact List.prefix_append _ _
          · refine kept command _ (World.keeps_run codec clock fresh before command) ?_
            cases command with
            | appendEvent append => exact absurd ⟨append, rfl⟩ appends
            | _ => simp [World.writes]

theorem threadEvents_grown {before after : Database} (grown : before.events <+: after.events) :
    before.threadEvents threadId <+: after.threadEvents threadId := by
  obtain ⟨added, same⟩ := grown
  rw [Database.threadEvents, Database.threadEvents, ← same, List.filter_append]
  exact List.prefix_append _ _

/-- The rows of a thread are numbered in the order in which they were written. -/
theorem ordered_threadEvents (well : db.WellFormed) (threadId : ThreadId) :
    Paging.Ordered EventEnvelope.seq (db.threadEvents threadId) := by
  cases found : db.thread threadId with
  | none =>
      rw [Database.WellFormed.threadEvents_of_none well found]
      exact ⟨List.Pairwise.nil, fun _ member => absurd member List.not_mem_nil⟩
  | some row =>
      obtain ⟨log, rfl⟩ := Database.WellFormed.logOf well found
      constructor
      · have increasing : ((db.threadEvents row.id).map EventEnvelope.seq).Pairwise (· < ·) := by
          rw [log.numbered]
          exact List.pairwise_lt_range'
        exact List.pairwise_map.mp increasing
      · intro envelope member
        have number : envelope.seq ∈ (db.threadEvents row.id).map EventEnvelope.seq :=
          List.mem_map_of_mem member
        rw [log.numbered, List.mem_range'_1] at number
        omega

/-- A page of a thread, while its numbers fit the signed column. -/
theorem getThreadEvents_page (well : db.WellFormed) (few : db.events.length < 2 ^ 63)
    {query : ThreadQuery} (small : query.after < 2 ^ 63) {events : List EventEnvelope}
    (answered : getThreadEvents db threadId query = .ok events) :
    events = Paging.page EventEnvelope.seq query.wants query.limit query.after
      (db.threadEvents threadId) := by
  unfold getThreadEvents at answered
  cases read : db.getThread threadId with
  | error error =>
      rw [read] at answered
      cases answered
  | ok thread =>
      rw [read] at answered
      cases found : db.thread threadId with
      | none =>
          rw [Database.getThread, Database.loadEvents, found] at read
          cases read
      | some row =>
          have loaded := Database.loadEvents_eq well found query.after
          have columns : ((db.threadEvents threadId).filter fun envelope =>
              decide (Database.asI64 query.after < Database.asI64 envelope.seq)) =
              (db.threadEvents threadId).filter fun envelope =>
                decide (query.after < envelope.seq) := by
            refine List.filter_congr fun envelope member => ?_
            have fits := (Database.seq_of_threadEvents well found few member).2
            rw [Database.asI64_of_lt small, Database.asI64_of_lt fits]
            simp
          rw [columns] at loaded
          rw [loaded] at answered
          obtain ⟨start, limit, streamKind⟩ := query
          obtain rfl := Except.ok.inj answered
          cases streamKind with
          | none =>
              have all (log : List EventEnvelope) :
                  log.filter (ThreadQuery.wants ⟨start, limit, none⟩) = log :=
                List.filter_eq_self.mpr fun _ _ => rfl
              unfold Paging.page
              dsimp only
              cases limit with
              | none => exact (all _).symm
              | some limit => exact congrArg (List.take (max limit 1)) (all _).symm
          | some kind => cases limit <;> rfl

theorem cursor_small (well : db.WellFormed) (few : db.events.length < 2 ^ 63)
    {wants : EventEnvelope → Bool} (known : collected <+: (db.threadEvents threadId).filter wants) :
    Paging.cursor EventEnvelope.seq collected < 2 ^ 63 := by
  unfold Paging.cursor
  cases last : collected.getLast? with
  | none => exact Nat.two_pow_pos 63
  | some envelope =>
      have stored : envelope ∈ db.threadEvents threadId :=
        List.mem_of_mem_filter (known.subset (List.mem_of_getLast? last))
      cases found : db.thread threadId with
      | none =>
          rw [Database.WellFormed.threadEvents_of_none well found] at stored
          cases stored
      | some row => exact (Database.seq_of_threadEvents well found few stored).2

/-- What a client has read is a beginning of what it wants of the thread. -/
theorem Browses.prefix_threadEvents
    (browses : Browses codec wire threadId streamKind db collected)
    (few : db.events.length < 2 ^ 63) :
    collected <+: (db.threadEvents threadId).filter
      (ThreadQuery.wants ⟨0, none, streamKind⟩) := by
  induction browses with
  | start reached => exact List.nil_prefix
  | @write before after attempt collected browses admissible ran ih =>
      have well := Database.wellFormed_of_reached browses.reached
      have grown := attempt_events well ran
      have shorter := grown.length_le
      exact Paging.prefix_of_grown (ih (by omega)) (threadEvents_grown grown)
  | @fetch db collected events limit browses answered ih =>
      have well := Database.wellFormed_of_reached browses.reached
      have known := ih few
      rw [getThreadEvents_page well few (cursor_small well few known) answered]
      exact Paging.page_prefix (ordered_threadEvents well threadId) known limit

/-- A client that reads page by page, whatever the limits, and whatever calls do to the store
in between, has at each moment a beginning of the events that it wants of the thread, in
their order, none of them twice; and when a page comes back empty it has them all. -/
theorem pages_complete (codec : Codec) (wire : Jsonl.EnvelopeCodec)
    (threadId : ThreadId) (streamKind : Option StreamKind) (db : Database)
    (collected : List EventEnvelope)
    (browses : Browses codec wire threadId streamKind db collected)
    (few : db.events.length < 2 ^ 63) :
    collected <+: (db.threadEvents threadId).filter
        (ThreadQuery.wants ⟨0, none, streamKind⟩) ∧
      (collected.map EventEnvelope.seq).Nodup ∧
      ∀ limit, getThreadEvents db threadId ⟨Paging.cursor EventEnvelope.seq collected, limit,
          streamKind⟩ = .ok [] →
        collected = (db.threadEvents threadId).filter
          (ThreadQuery.wants ⟨0, none, streamKind⟩) := by
  have known := browses.prefix_threadEvents few
  have well := Database.wellFormed_of_reached browses.reached
  have ordered := ordered_threadEvents well threadId
  refine ⟨known, ?_, fun limit answered => ?_⟩
  · have increasing := ordered.filter.increasing.sublist known.sublist
    exact (List.pairwise_map.mpr increasing).imp Nat.ne_of_lt
  · have empty := getThreadEvents_page well few (cursor_small well few known) answered
    exact Paging.eq_of_page_nil ordered known empty.symm

end

open Database.Demo.History in
/-- Two pages of one event each, and the empty one behind them. -/
theorem pages_complete_twoPages :
    ∃ collected, Browses codec wire ⟨2⟩ none (after 4) collected ∧ collected.length = 2 ∧
      collected = ((after 4).threadEvents ⟨2⟩).filter (ThreadQuery.wants ⟨0, none, none⟩) := by
  have first : getThreadEvents (after 4) ⟨2⟩ ⟨0, some 1, none⟩ =
      .ok (((after 4).threadEvents ⟨2⟩).take 1) := rfl
  have second : getThreadEvents (after 4) ⟨2⟩ ⟨1, some 1, none⟩ =
      .ok (((after 4).threadEvents ⟨2⟩).drop 1) := rfl
  have last : getThreadEvents (after 4) ⟨2⟩ ⟨2, some 1, none⟩ = .ok [] := rfl
  have browses := Browses.fetch (.fetch (.start after_reached) first) second
  have stored : (after 4).events.length = 5 := rfl
  have few : (after 4).events.length < 2 ^ 63 := by omega
  exact ⟨_, browses, rfl,
    (pages_complete codec wire ⟨2⟩ none (after 4) _ browses few).2.2 (some 1) last⟩

end OpsCodex.Server
