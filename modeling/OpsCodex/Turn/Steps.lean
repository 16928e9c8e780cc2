import OpsCodex.Store.TurnTable
import OpsCodex.Turn.Protocol

/-! What one request of a call on turns changes in the world and in the trace. -/

set_option autoImplicit false

namespace OpsCodex.Turn

open Effect OpsCodex.Action OpsCodex.Store OpsCodex.Runtime

section World

variable {content : Content} {codec : Codec} {op : Op} {choice : Choice}
  {world state : World} {answer : op.Answer}

theorem perform_append_seq {command : AppendEvent} {envelope : EventEnvelope}
    (performed : World.perform content codec (.command (.appendEvent command)) choice world =
      some (.ok envelope, state)) :
    envelope.seq = world.db.lastSeq command.threadId + 1 := by
  rcases World.perform_single (fun _ => rfl) performed with ⟨clock, answered, -⟩ | ⟨_, failed, -⟩
  · simp only [Command.run, Database.appendEvent] at answered
    split at answered <;> cases answered
    rfl
  · cases failed

/-- The log only grows, one event at a time. -/
theorem perform_events
    (performed : World.perform content codec op choice world = some (answer, state)) :
    state.db.events = world.db.events ∨ ∃ added,
      state.db.events = world.db.events ++ [added] ∧
      world.db.lastSeq added.threadId < added.seq := by
  by_cases append : ∃ command, op = .command (.appendEvent command)
  · obtain ⟨command, rfl⟩ := append
    rcases World.perform_append performed with ⟨envelope, -, grown, later, -⟩ | ⟨_, -, same⟩
    · exact .inr ⟨envelope, grown, later⟩
    · exact .inl same
  · refine .inl ((World.perform_keeps performed).events ?_)
    unfold World.writes
    split <;> simp_all

theorem perform_events_mem
    (performed : World.perform content codec op choice world = some (answer, state))
    {envelope : EventEnvelope} (member : envelope ∈ world.db.events) :
    envelope ∈ state.db.events := by
  rcases perform_events performed with same | ⟨added, grown, _⟩
  · rwa [same]
  · rw [grown]
    exact List.mem_append_left _ member

theorem Proposed.perform {site : CallSite} (proposed : Proposed site world.db)
    (performed : World.perform content codec op choice world = some (answer, state)) :
    Proposed site state.db := by
  obtain ⟨envelope, member, found⟩ := proposed
  exact ⟨envelope, perform_events_mem performed member, found⟩

theorem Completed.perform {site : CallSite} (completed : Completed site world.db)
    (performed : World.perform content codec op choice world = some (answer, state)) :
    Completed site state.db := by
  obtain ⟨envelope, member, found⟩ := completed
  exact ⟨envelope, perform_events_mem performed member, found⟩

/-- Threads are never removed. -/
theorem perform_thread
    (performed : World.perform content codec op choice world = some (answer, state))
    {threadId : ThreadId} (found : (world.db.thread threadId).isSome) :
    (state.db.thread threadId).isSome := by
  by_cases append : ∃ command, op = .command (.appendEvent command)
  · obtain ⟨command, rfl⟩ := append
    rcases World.perform_single (fun _ => rfl) performed with ⟨_, -, rfl⟩ | ⟨_, -, rfl⟩
    · exact Database.appendEvent_thread command _ _ found
    · exact found
  by_cases upsert : ∃ record, op = .command (.upsertTurn record)
  · obtain ⟨record, rfl⟩ := upsert
    rcases World.perform_command performed with
      ⟨_, -, rfl⟩ | ⟨_, -, rfl⟩ | ⟨_, db, interrupted, -, rfl⟩
    · exact Database.upsertTurn_thread record found
    · exact found
    · simp only [Command.interrupted] at interrupted
      split at interrupted
      · rename_i written
        cases interrupted
        rw [Database.thread, Database.writeTurn_threads written]
        exact found
      · cases interrupted
  · rw [Database.thread, (World.perform_keeps performed).threads ?_]
    · exact found
    · unfold World.writes
      split <;> simp_all

/-- A thread keeps its workspace. -/
theorem perform_getThread
    (performed : World.perform content codec op choice world = some (answer, state))
    {threadId : ThreadId} {thread : Thread} (found : world.db.getThread threadId = .ok thread) :
    state.db.getThread threadId = .ok thread :=
  Database.getThread_append (perform_thread performed) (perform_events performed) found

/-- A process keeps the catalog it was started with. -/
theorem perform_catalog
    (performed : World.perform content codec op choice world = some (answer, state)) :
    state.process.catalog = world.process.catalog := by
  unfold World.perform at performed
  split at performed
  all_goals first
    | (rw [World.awaitDecision_frame performed]; rfl)
    | (cases performed; rfl)
    | (cases performed; exact World.brokerResolve_catalog ..)
    | (simp only [Option.map_eq_some_iff] at performed
       obtain ⟨_, _, equal⟩ := performed
       cases equal
       rfl)
    | (split at performed <;> cases performed <;> rfl)
    | cases performed

theorem perform_catalog_answer {catalog : Catalog}
    (performed : World.perform content codec .catalog choice world = some (catalog, state)) :
    catalog = world.process.catalog := by
  cases choice <;> cases performed
  rfl

theorem perform_checkpoints (other : ∀ checkpoint, op ≠ .command (.putCheckpoint checkpoint))
    (performed : World.perform content codec op choice world = some (answer, state)) :
    state.db.checkpoints = world.db.checkpoints := by
  refine (World.perform_keeps performed).checkpoints ?_
  unfold World.writes
  split <;> simp_all

/-- A checkpoint is inserted, also by a write that fails at its second statement. -/
theorem perform_putCheckpoint {checkpoint : CheckpointRecord} {answer : Result Unit}
    (performed : World.perform content codec (.command (.putCheckpoint checkpoint)) choice world =
      some (answer, state)) :
    state.db.checkpoints = world.db.checkpoints ++ [checkpoint] ∨
      (state.db.checkpoints = world.db.checkpoints ∧ ∃ error, answer = .error error) := by
  rcases World.perform_command performed with
    ⟨clock, rfl, rfl⟩ | ⟨message, rfl, rfl⟩ | ⟨message, db, interrupted, rfl, rfl⟩
  · exact .inl rfl
  · exact .inr ⟨rfl, _, rfl⟩
  · cases interrupted
    exact .inl rfl

/-- A write of a turn's record, which may fail at its second statement. -/
theorem perform_upsertTurn {record : TurnRecord} {answer : Result Unit}
    (performed : World.perform content codec (.command (.upsertTurn record)) choice world =
      some (answer, state)) :
    state.db.turns = Table.upsert TurnRecord.id Database.mergeTurn record world.db.turns ∨
      (state.db.turns = world.db.turns ∧ ∃ error, answer = .error error) := by
  rcases World.perform_command performed with
    ⟨clock, rfl, rfl⟩ | ⟨message, rfl, rfl⟩ | ⟨message, db, interrupted, rfl, rfl⟩
  · simp only [Command.run, Database.upsertTurn]
    cases wrote : world.db.writeTurn record with
    | mk outcome written =>
        obtain ⟨rfl, turns⟩ | ⟨⟨error, rfl⟩, turns⟩ := Database.writeTurn_turns wrote
        · exact .inl ((Database.syncThreadStatus_turns record).trans turns)
        · exact .inr ⟨turns, error, rfl⟩
  · exact .inr ⟨rfl, _, rfl⟩
  · simp only [Command.interrupted] at interrupted
    split at interrupted
    · rename_i written wrote
      cases interrupted
      obtain ⟨-, turns⟩ | ⟨⟨error, failed⟩, -⟩ := Database.writeTurn_turns wrote
      · exact .inl turns
      · cases failed
    · cases interrupted

/-- A turn stays with the thread that its record was first written for. -/
theorem perform_owns {turnId : TurnId} {threadId : ThreadId}
    (performed : World.perform content codec op choice world = some (answer, state))
    (owns : world.db.Owns turnId threadId) : state.db.Owns turnId threadId := by
  by_cases upserts : ∃ record, op = .command (.upsertTurn record)
  · obtain ⟨record, rfl⟩ := upserts
    obtain turns | ⟨turns, -⟩ := perform_upsertTurn performed
    · exact Database.owns_upsert record owns turns
    · simpa only [Database.Owns, Database.getTurn, turns] using owns
  by_cases puts : ∃ checkpoint, op = .command (.putCheckpoint checkpoint)
  · obtain ⟨checkpoint, rfl⟩ := puts
    rcases World.perform_command performed with
      ⟨_, -, rfl⟩ | ⟨_, -, rfl⟩ | ⟨_, db, interrupted, -, rfl⟩
    · exact Database.owns_pointAtCheckpoint checkpoint owns
    · exact owns
    · cases interrupted
      exact owns
  · have turns : state.db.turns = world.db.turns := by
      refine (World.perform_keeps performed).turns ?_
      unfold World.writes
      split <;> simp_all
    simpa only [Database.Owns, Database.getTurn, turns] using owns

/-- Only the write of its record brings a turn into the table. -/
theorem perform_getTurn_none {turnId : TurnId}
    (performed : World.perform content codec op choice world = some (answer, state))
    (other : ∀ record, op ≠ .command (.upsertTurn record))
    (absent : world.db.getTurn turnId = none) : state.db.getTurn turnId = none := by
  by_cases puts : ∃ checkpoint, op = .command (.putCheckpoint checkpoint)
  · obtain ⟨checkpoint, rfl⟩ := puts
    rcases World.perform_command performed with
      ⟨_, -, rfl⟩ | ⟨_, -, rfl⟩ | ⟨_, db, interrupted, -, rfl⟩
    · refine (Database.getTurn_pointAtCheckpoint checkpoint turnId).trans ?_
      rw [show (world.db.insertCheckpoint checkpoint).getTurn turnId = world.db.getTurn turnId
        from rfl, absent]
      rfl
    · exact absent
    · cases interrupted
      exact absent
  · rw [Database.getTurn, (World.perform_keeps performed).turns ?_]
    · exact absent
    · unfold World.writes
      split <;> simp_all

end World

theorem executes_of_startedCall {op : Op} (starts : startedCall op ≠ none) :
    ∃ site workspaceId threadId name arguments,
      op = .executeTool site workspaceId threadId name arguments := by
  cases op with
  | executeTool site workspaceId threadId name arguments => exact ⟨_, _, _, _, _, rfl⟩
  | _ => exact absurd rfl starts

section Trace

variable {deployment : Deployment} {site : CallSite} {entry : Entry deployment}
  {trace : List (Entry deployment)}

theorem starts_cons : starts site (entry :: trace) = starts site trace +
    if startedCall entry.op = some site then 1 else 0 := by
  simp [starts, List.countP_cons]

theorem changed_cons : Changed site (entry :: trace) ↔
    (startedCall entry.op = some site ∧ startsChange entry.before entry.op = true) ∨
      Changed site trace := by
  simp [Changed]

/-- A start that changes something is one of a tool that may not be run again. -/
theorem startsChange_tool {world : World} {workspaceId : WorkspaceId} {threadId : ThreadId}
    {name : String} {arguments : Json.Value} {tools : ToolRegistry}
    (equipped : world.process.catalog.toolsFor workspaceId = .ok tools)
    (changes : startsChange world (.executeTool site workspaceId threadId name arguments) = true) :
    ∃ descriptor, tools.descriptor name = .ok descriptor ∧
      toolIsRetryable descriptor.effect descriptor.recovery = false := by
  simp only [startsChange, equipped] at changes
  cases found : tools.descriptor name with
  | error error => simp [found] at changes
  | ok descriptor => exact ⟨descriptor, rfl, by simpa [found] using changes⟩

/-- A call that was never started was not changed by. -/
theorem not_changed_of_starts (unstarted : starts site trace = 0) : ¬ Changed site trace := by
  rintro ⟨entry, member, started, -⟩
  rw [starts, List.countP_eq_zero] at unstarted
  exact unstarted entry member (by simpa using started)

end Trace

end OpsCodex.Turn
