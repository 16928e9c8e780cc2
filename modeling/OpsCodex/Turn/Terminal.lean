import OpsCodex.Turn.Steps
import OpsCodex.Turn.Span

/-! A turn ends once: its log has one terminal event, and its record agrees with the
event when the run returns, as long as no resume drives a turn. -/

set_option autoImplicit false

namespace OpsCodex.Turn

open Effect OpsCodex.Action OpsCodex.Store OpsCodex.Runtime

/-- The terminal events of a turn that the log holds. -/
def endings (turnId : TurnId) (db : Database) : Nat :=
  db.events.countP fun envelope =>
    decide (envelope.turnId = some turnId ∧ envelope.event.terminal = true)

/-- A turn has exactly one terminal event, and its record agrees with it. -/
def Closed (db : Database) (turnId : TurnId) : Prop :=
  endings turnId db = 1 ∧ ∃ envelope ∈ db.events, envelope.turnId = some turnId ∧
    envelope.event.terminal = true ∧ ∃ record, db.getTurn turnId = some record ∧
    envelope.event.Agrees record.status

/-- The turn that a call runs or resumes. -/
def Job.turn : Job → Option TurnId
  | .runTurn _ turnId _ => some turnId
  | .resumeTurn turnId _ => some turnId
  | _ => none

section

variable {deployment : Deployment}

/-- A call drove its turn: it looked its thread up to enter the agent loop. -/
def Drove (pool : Pool deployment) (caller : Nat) : Prop :=
  ∃ entry ∈ pool.trace, entry.caller = caller ∧ ∃ threadId, entry.op = .query (.getThread threadId)

/-- A call has returned in the last step. -/
def Returns (pool : Pool deployment) (caller : Nat) (job : Job) : Prop :=
  (∃ result, pool.calls caller = some (job, .pure result)) ∧
    ∃ entry rest, pool.trace = entry :: rest ∧ entry.caller = caller

/-- Every turn has at most one terminal event, and exactly one that its record agrees
with when a call that drove it returns. -/
def EndsOnce (pool : Pool deployment) : Prop :=
  (∀ turnId, endings turnId pool.state.db ≤ 1) ∧
    ∀ caller job turnId, Returns pool caller job → job.turn = some turnId →
      Drove pool caller → Closed pool.state.db turnId

end

namespace Terminal

variable {deployment : Deployment}

/-- Runs of turns with ids of their own, and recoveries that no turn runs beside. -/
def Separate (pool : Pool deployment) : Label (system deployment) → Prop
  | .spawn (.runTurn _ turnId _) =>
      (∀ envelope ∈ pool.state.db.events, envelope.turnId ≠ some turnId) ∧
      ∀ caller < pool.spawned, pool.running caller ≠ some .recover ∧
        ∀ threadId input, pool.running caller ≠ some (.runTurn threadId turnId input)
  | .spawn .recover => ∀ caller < pool.spawned, ∀ threadId turnId input,
      pool.running caller ≠ some (.runTurn threadId turnId input)
  | _ => True

/-- No resume drives its turn. -/
def Undriven (pool : Pool deployment) : Label (system deployment) → Prop
  | .perform caller _ => ∀ turnId key,
      pool.running caller = some (.resumeTurn turnId key) →
      ∀ threadId, pool.awaits caller ≠ some (.query (.getThread threadId))
  | _ => True

/-- The last record of a turn and the announcement of its failure are written. -/
def Written (pool : Pool deployment) : Label (system deployment) → Prop
  | .perform caller choice =>
      (∀ command, pool.awaits caller = some (.command (.appendEvent command)) →
        command.event.fails = true → World.faultless choice) ∧
      ∀ record, pool.awaits caller = some (.command (.upsertTurn record)) →
        record.status ≠ .running → World.faultless choice
  | _ => True

structure Guarded (pool : Pool deployment) (label : Label (system deployment)) : Prop where
  separate : Separate pool label
  undriven : Undriven pool label
  written : Written pool label

/-- The separation of runs, as a check. -/
def separate (pool : Pool deployment) : Label (system deployment) → Bool
  | .spawn (.runTurn _ turnId _) =>
      (pool.state.db.events.all fun envelope => decide (envelope.turnId ≠ some turnId)) &&
        (List.range pool.spawned).all fun caller =>
          match pool.running caller with
          | some .recover => false
          | some (.runTurn _ running _) => decide (running ≠ turnId)
          | _ => true
  | .spawn .recover =>
      (List.range pool.spawned).all fun caller =>
        match pool.running caller with
        | some (.runTurn ..) => false
        | _ => true
  | _ => true

theorem separate_sound (pool : Pool deployment) (label : Label (system deployment))
    (checked : separate pool label = true) : Separate pool label := by
  cases label with
  | spawn job =>
      cases job with
      | runTurn threadId turnId input =>
          simp only [separate, Bool.and_eq_true, List.all_eq_true, decide_eq_true_eq,
            List.mem_range] at checked
          obtain ⟨unlogged, apart⟩ := checked
          refine ⟨unlogged, fun caller early => ⟨fun running => ?_, fun _ _ running => ?_⟩⟩
          · have known := apart caller early
            rw [running] at known
            cases known
          · have known := apart caller early
            rw [running] at known
            exact of_decide_eq_true known rfl
      | recover =>
          simp only [separate, List.all_eq_true, List.mem_range] at checked
          intro caller early threadId turnId input running
          have known := checked caller early
          rw [running] at known
          cases known
      | resumeTurn => trivial
      | resolveApproval => trivial
  | perform caller choice => trivial
  | crash startup => trivial

def undriven (pool : Pool deployment) : Label (system deployment) → Bool
  | .perform caller _ =>
      match pool.running caller, pool.awaits caller with
      | some (.resumeTurn ..), some (.query (.getThread _)) => false
      | _, _ => true
  | _ => true

theorem undriven_sound (pool : Pool deployment) (label : Label (system deployment))
    (checked : undriven pool label = true) : Undriven pool label := by
  cases label with
  | perform caller choice =>
      intro turnId key running threadId awaited
      simp [undriven, running, awaited] at checked
  | spawn job => trivial
  | crash startup => trivial

/-- The writes at the end of a turn, as a check. -/
def written (pool : Pool deployment) : Label (system deployment) → Bool
  | .perform caller choice =>
      match pool.awaits caller with
      | some (.command (.appendEvent command)) =>
          !command.event.fails || World.settles choice
      | some (.command (.upsertTurn record)) =>
          decide (record.status = .running) || World.settles choice
      | _ => true
  | _ => true

theorem written_sound (pool : Pool deployment) (label : Label (system deployment))
    (checked : written pool label = true) : Written pool label := by
  cases label with
  | perform caller choice =>
      constructor
      · intro command awaited fails
        simp only [written, awaited, fails, Bool.not_true, Bool.false_or] at checked
        exact World.faultless_of_settles checked
      · intro record awaited final
        simp only [written, awaited, Bool.or_eq_true, decide_eq_true_eq] at checked
        exact World.faultless_of_settles (checked.resolve_left final)
  | spawn job => trivial
  | crash startup => trivial

def guarded (pool : Pool deployment) (label : Label (system deployment)) : Bool :=
  separate pool label && undriven pool label && written pool label

theorem guarded_sound (pool : Pool deployment) (label : Label (system deployment))
    (checked : guarded pool label = true) : Guarded pool label := by
  obtain ⟨both, last⟩ := Bool.and_eq_true_iff.mp checked
  obtain ⟨apart, resumes⟩ := Bool.and_eq_true_iff.mp both
  exact ⟨separate_sound pool label apart, undriven_sound pool label resumes,
    written_sound pool label last⟩

/-- A runtime that has just started, over a store in which no turn has ended. -/
def Boots (pool : Pool deployment) : Prop :=
  ∃ world : World, (∀ envelope ∈ world.db.events, envelope.turnId = none) ∧
    pool = Pool.boot world

/-- The status that the record of a turn has. -/
def Recorded (db : Database) (turnId : TurnId) (status : TurnStatus) : Prop :=
  ∃ record, db.getTurn turnId = some record ∧ record.status = status

/-- The only terminal event of a turn says that it completed. -/
def Completes (db : Database) (turnId : TurnId) : Prop :=
  endings turnId db = 1 ∧ ∃ envelope ∈ db.events, envelope.turnId = some turnId ∧
    envelope.event = .turnCompleted

/-- The outcome of a turn whose record is final. -/
def Final (db : Database) (threadId : ThreadId) (turnId : TurnId) (status : TurnStatus) : Prop :=
  (db.thread threadId).isSome ∧ Recorded db turnId status ∧
    (status = .completed ∧ Completes db turnId ∨ status.fails = true ∧ endings turnId db = 0)

/-- What a run knows of its turn. -/
def Known (db : Database) (threadId : ThreadId) (turnId : TurnId) : Phase → Prop
  | .outside | .held | .left none => endings turnId db = 0
  | .driving => endings turnId db = 0 ∧ (db.thread threadId).isSome
  | .finished => Completes db turnId ∧ (db.thread threadId).isSome
  | .closing status | .left (some status) => Final db threadId turnId status
  | .done none => True
  | .done (some _) => Closed db turnId

/-- The points before a call drives its turn. -/
def Span.undriven : Span → Bool
  | .foreign => true
  | .run _ _ phase =>
      match phase with
      | .outside | .held | .left none | .done none => true
      | _ => false
  | _ => false

/-- The same point but for the phase of a run. -/
def Akin : Span → Span → Prop
  | .run threadId turnId _, .run threadId' turnId' _ => threadId' = threadId ∧ turnId' = turnId
  | .sweeping, .sweeping | .foreign, .foreign | .aside, .aside => True
  | _, _ => False

/-- The points that a call can be at. -/
def Suits : Job → Span → Prop
  | .runTurn threadId turnId _, .run threadId' turnId' _ => threadId' = threadId ∧ turnId' = turnId
  | .resumeTurn .., .foreign => True
  | .recover, .sweeping => True
  | .resolveApproval .., .aside => True
  | _, _ => False

structure Holds (pool : Pool deployment) (controls : Nat → Option Span) : Prop where
  once : ∀ turnId, endings turnId pool.state.db ≤ 1
  early : ∀ entry ∈ pool.trace, entry.caller < pool.spawned
  suits : ∀ caller span, controls caller = some span →
    ∃ job program, pool.calls caller = some (job, program) ∧ Suits job span
  distinct : ∀ left right threadId threadId' turnId phase phase',
    controls left = some (.run threadId turnId phase) →
    controls right = some (.run threadId' turnId phase') → left = right
  apart : ∀ left right threadId turnId phase, controls left = some .sweeping →
    controls right ≠ some (.run threadId turnId phase)
  known : ∀ caller threadId turnId phase, controls caller = some (.run threadId turnId phase) →
    Known pool.state.db threadId turnId phase
  undriven : ∀ caller span, controls caller = some span → Span.undriven span = true →
    ¬ Drove pool caller
  returned : ∀ caller job turnId, controls caller = none → Returns pool caller job →
    job.turn = some turnId → Drove pool caller → Closed pool.state.db turnId

/-- What a step leaves alone of a turn. -/
structure Kept (before after : Database) (turnId : TurnId) : Prop where
  events : ∀ envelope ∈ before.events, envelope ∈ after.events
  endings : endings turnId after = endings turnId before
  record : ∀ record, before.getTurn turnId = some record →
    ∃ record', after.getTurn turnId = some record' ∧ record'.status = record.status
  thread : ∀ threadId, (before.thread threadId).isSome → (after.thread threadId).isSome

section

variable {before after : Database} {threadId : ThreadId} {turnId : TurnId}

theorem Kept.recorded (kept : Kept before after turnId) {status : TurnStatus}
    (recorded : Recorded before turnId status) : Recorded after turnId status := by
  obtain ⟨record, found, rfl⟩ := recorded
  exact kept.record record found

theorem Kept.completes (kept : Kept before after turnId) (completes : Completes before turnId) :
    Completes after turnId := by
  obtain ⟨once, envelope, member, own⟩ := completes
  exact ⟨kept.endings.trans once, envelope, kept.events envelope member, own⟩

theorem Kept.closed (kept : Kept before after turnId) (closed : Closed before turnId) :
    Closed after turnId := by
  obtain ⟨once, envelope, member, turn, terminal, record, found, agrees⟩ := closed
  obtain ⟨record', found', same⟩ := kept.record record found
  exact ⟨kept.endings.trans once, envelope, kept.events envelope member, turn, terminal, record',
    found', same ▸ agrees⟩

theorem Kept.final (kept : Kept before after turnId) {status : TurnStatus}
    (final : Final before threadId turnId status) : Final after threadId turnId status := by
  obtain ⟨thread, recorded, outcome⟩ := final
  refine ⟨kept.thread threadId thread, kept.recorded recorded, ?_⟩
  obtain ⟨completed, completes⟩ | ⟨fails, none⟩ := outcome
  · exact .inl ⟨completed, kept.completes completes⟩
  · exact .inr ⟨fails, kept.endings.trans none⟩

theorem Kept.known (kept : Kept before after turnId) {phase : Phase}
    (known : Known before threadId turnId phase) : Known after threadId turnId phase := by
  cases phase with
  | outside | held => exact kept.endings.trans known
  | driving => exact ⟨kept.endings.trans known.1, kept.thread threadId known.2⟩
  | finished => exact ⟨kept.completes known.1, kept.thread threadId known.2⟩
  | closing => exact kept.final known
  | left ended =>
      cases ended with
      | none => exact kept.endings.trans known
      | some status => exact kept.final known
  | done ended =>
      cases ended with
      | none => trivial
      | some status => exact kept.closed known

theorem endings_append {added : EventEnvelope} (grown : after.events = before.events ++ [added]) :
    endings turnId after = endings turnId before +
      if added.turnId = some turnId ∧ added.event.terminal = true then 1 else 0 := by
  simp [endings, grown, List.countP_append, List.countP_singleton]

end

section

variable {content : Content} {codec : Codec} {op : Op} {choice : Choice} {world state : World}
  {answer : op.Answer} {turnId : TurnId}

/-- A request that neither ends a turn nor writes its record. -/
theorem kept_perform (ongoing : ∀ command, op = .command (.appendEvent command) →
      ¬ (command.turnId = some turnId ∧ command.event.terminal = true))
    (others : ∀ record, op = .command (.upsertTurn record) → record.id ≠ turnId)
    (performed : World.perform content codec op choice world = some (answer, state)) :
    Kept world.db state.db turnId := by
  constructor
  · exact fun envelope member => perform_events_mem performed member
  · by_cases append : ∃ command, op = .command (.appendEvent command)
    · obtain ⟨command, rfl⟩ := append
      obtain ⟨envelope, -, grown, -, -, turn, event⟩ | ⟨_, -, same⟩ :=
        World.perform_append performed
      · rw [endings_append grown, turn, event, if_neg (ongoing command rfl), Nat.add_zero]
      · rw [endings, endings, same]
    · have same : state.db.events = world.db.events := by
        refine (World.perform_keeps performed).events ?_
        unfold World.writes
        split <;> simp_all
      rw [endings, endings, same]
  · intro record found
    by_cases upserts : ∃ record, op = .command (.upsertTurn record)
    · obtain ⟨record', rfl⟩ := upserts
      obtain turns | ⟨turns, -⟩ := perform_upsertTurn performed
      · refine ⟨record, ?_, rfl⟩
        rw [Database.getTurn, turns, Database.getTurn_upsert_other (others record' rfl), found]
      · exact ⟨record, by rwa [Database.getTurn, turns], rfl⟩
    by_cases puts : ∃ checkpoint, op = .command (.putCheckpoint checkpoint)
    · obtain ⟨checkpoint, rfl⟩ := puts
      obtain ⟨_, -, rfl⟩ | ⟨_, -, rfl⟩ | ⟨_, db, interrupted, -, rfl⟩ :=
        World.perform_command performed
      · refine ⟨_, (Database.getTurn_pointAtCheckpoint checkpoint turnId).trans
          (congrArg (Option.map _) found), ?_⟩
        dsimp only
        split <;> rfl
      · exact ⟨record, found, rfl⟩
      · cases interrupted
        exact ⟨record, found, rfl⟩
    · refine ⟨record, ?_, rfl⟩
      rw [Database.getTurn, (World.perform_keeps performed).turns ?_]
      · exact found
      · unfold World.writes
        split <;> simp_all
  · exact fun threadId found => perform_thread performed found

/-- A record is only accepted for a thread that exists. -/
theorem thread_of_upsert {record : TurnRecord}
    (performed : World.perform content codec (.command (.upsertTurn record)) choice world =
      some (.ok (), state)) : (world.db.thread record.threadId).isSome := by
  obtain ⟨clock, ok, -⟩ | ⟨_, failed, -⟩ | ⟨_, _, _, failed, -⟩ := World.perform_command performed
  · cases found : world.db.thread record.threadId with
    | none => simp [Command.run, Database.upsertTurn, Database.writeTurn, found] at ok
    | some row => rfl
  · cases failed
  · cases failed

theorem recorded_of_upsert {record : TurnRecord}
    (turns : state.db.turns = Table.upsert TurnRecord.id Database.mergeTurn record
      world.db.turns) : Recorded state.db record.id record.status := by
  cases found : world.db.getTurn record.id with
  | none =>
      refine ⟨record, ?_, rfl⟩
      rw [Database.getTurn, turns, Database.getTurn_upsert_absent found]
  | some current =>
      refine ⟨Database.mergeTurn current record, ?_, rfl⟩
      rw [Database.getTurn, turns, Database.getTurn_upsert_same found]

/-- A faultless store writes the record of a turn of a known thread. -/
theorem perform_upsert_faultless {record : TurnRecord} {answer : Result Unit}
    (thread : (world.db.thread record.threadId).isSome) (settles : World.faultless choice)
    (performed : World.perform content codec (.command (.upsertTurn record)) choice world =
      some (answer, state)) : Recorded state.db record.id record.status := by
  obtain turns | ⟨-, error, rfl⟩ := perform_upsertTurn performed
  · exact recorded_of_upsert turns
  · obtain ⟨clock, failed, -⟩ := World.perform_command_faultless settles performed
    obtain ⟨row, found⟩ := Option.isSome_iff_exists.mp thread
    simp [Command.run, Database.upsertTurn, Database.writeTurn, found] at failed

theorem perform_append_faultless {command : AppendEvent} {answer : Result EventEnvelope}
    (thread : (world.db.thread command.threadId).isSome) (settles : World.faultless choice)
    (performed : World.perform content codec (.command (.appendEvent command)) choice world =
      some (answer, state)) : ∃ envelope, answer = .ok envelope := by
  obtain ⟨clock, rfl, -⟩ := World.perform_command_faultless settles performed
  obtain ⟨row, found⟩ := Option.isSome_iff_exists.mp thread
  simp [Command.run, Database.appendEvent, found]

theorem perform_endings_other {command : AppendEvent} {answer : Result EventEnvelope}
    (other : command.turnId ≠ some turnId)
    (performed : World.perform content codec (.command (.appendEvent command)) choice world =
      some (answer, state)) : Kept world.db state.db turnId := by
  refine kept_perform (fun command' same => ?_) (fun record same => by cases same) performed
  cases same
  exact fun own => other own.1

end

section

variable {pool : Pool deployment} {controls : Nat → Option Span} {caller : Nat} {job : Job}
  {op : Op} {next : op.Answer → Program serviceInterface (Result Returned)}
  {before after : Span} {choice : Choice} {answer : op.Answer} {state : World}

theorem Akin.run_before {threadId : ThreadId} {turnId : TurnId} {phase : Phase}
    (akin : Akin before (.run threadId turnId phase)) :
    ∃ phase', before = .run threadId turnId phase' := by
  cases before with
  | run threadId' turnId' phase' =>
      obtain ⟨rfl, rfl⟩ := akin
      exact ⟨phase', rfl⟩
  | _ => exact akin.elim

theorem Akin.sweeping_before (akin : Akin before .sweeping) : before = .sweeping := by
  cases before with
  | sweeping => rfl
  | _ => exact akin.elim

theorem Suits.akin (suits : Suits job before) (akin : Akin before after) : Suits job after := by
  cases before <;> cases after <;> try exact akin.elim
  all_goals cases job <;> try exact suits.elim
  · trivial
  · trivial
  · trivial
  · obtain ⟨rfl, rfl⟩ := akin
    exact suits

theorem Suits.akin_self (suits : Suits job before) : Akin before before := by
  cases before with
  | run => exact ⟨rfl, rfl⟩
  | wild => cases job <;> exact suits.elim
  | _ => trivial

/-- A step of one call, by what it does to the turns. -/
theorem Holds.step {rest : Program serviceInterface (Result Returned)}
    {program : Program serviceInterface (Result Returned)} (holds : Holds pool controls)
    (tracks : pool.spawned ≤ caller → pool.calls caller = none)
    (found : pool.calls caller = some (job, program)) (held : controls caller = some before)
    (akin : Akin before after) (once : ∀ turnId, endings turnId state.db ≤ 1)
    (others : ∀ other threadId turnId phase, other ≠ caller →
      controls other = some (.run threadId turnId phase) → Kept pool.state.db state.db turnId)
    (own : ∀ threadId turnId phase, after = .run threadId turnId phase →
      Known state.db threadId turnId phase)
    (early : Span.undriven after = true →
      Span.undriven before = true ∧ ∀ threadId, op ≠ .query (.getThread threadId)) :
    Holds (pool.record caller job op answer rest state)
      (assign controls caller (some after)) := by
  have earlier {other : Nat} {threadId : ThreadId} {turnId : TurnId} {phase : Phase}
      (found : assign controls caller (some after) other = some (.run threadId turnId phase)) :
      ∃ phase', controls other = some (.run threadId turnId phase') := by
    obtain ⟨rfl, equal⟩ | ⟨-, old⟩ := assign_eq_some found
    · cases equal
      obtain ⟨phase', rfl⟩ := akin.run_before
      exact ⟨phase', held⟩
    · exact ⟨phase, old⟩
  have sweeping {other : Nat}
      (found : assign controls caller (some after) other = some .sweeping) :
      controls other = some .sweeping := by
    obtain ⟨rfl, equal⟩ | ⟨-, old⟩ := assign_eq_some found
    · cases equal
      rw [held, akin.sweeping_before]
    · exact old
  constructor
  · exact once
  · intro entry member
    obtain rfl | old := List.mem_cons.mp member
    · by_contra late
      rw [tracks (Nat.le_of_not_lt late)] at found
      cases found
    · exact holds.early entry old
  · intro other span found'
    obtain ⟨rfl, equal⟩ | ⟨different, old⟩ := assign_eq_some found'
    · cases equal
      obtain ⟨job', program', called, suits⟩ := holds.suits other before held
      rw [found] at called
      cases called
      exact ⟨job, rest, by simp [Pool.record], suits.akin akin⟩
    · obtain ⟨job', program', called, suits⟩ := holds.suits other span old
      exact ⟨job', program', by simpa [Pool.record, assign_other _ _ different] using called, suits⟩
  · intro left right threadId threadId' turnId phase phase' foundLeft foundRight
    obtain ⟨_, oldLeft⟩ := earlier foundLeft
    obtain ⟨_, oldRight⟩ := earlier foundRight
    exact holds.distinct left right threadId threadId' turnId _ _ oldLeft oldRight
  · intro left right threadId turnId phase foundLeft foundRight
    obtain ⟨_, oldRight⟩ := earlier foundRight
    exact holds.apart left right threadId turnId _ (sweeping foundLeft) oldRight
  · intro other threadId turnId phase found'
    obtain ⟨-, equal⟩ | ⟨different, old⟩ := assign_eq_some found'
    · exact own threadId turnId phase (Option.some.inj equal)
    · exact (others other threadId turnId phase different old).known
        (holds.known other threadId turnId phase old)
  · intro other span found' undriven
    obtain ⟨rfl, equal⟩ | ⟨different, old⟩ := assign_eq_some found'
    · cases equal
      obtain ⟨undriven', unlooked⟩ := early undriven
      intro drove
      obtain ⟨entry, member, same, threadId, looked⟩ := drove
      obtain rfl | older := List.mem_cons.mp member
      · exact unlooked threadId looked
      · exact holds.undriven other before held undriven' ⟨entry, older, same, threadId, looked⟩
    · intro drove
      obtain ⟨entry, member, same, threadId, looked⟩ := drove
      obtain rfl | older := List.mem_cons.mp member
      · exact different same.symm
      · exact holds.undriven other span old undriven ⟨entry, older, same, threadId, looked⟩
  · intro other job' turnId absent returns
    obtain ⟨-, entry, rest', newest, same⟩ := returns
    cases newest
    subst same
    rw [assign_same] at absent
    cases absent

/-- A step that neither ends a turn nor writes its record. -/
theorem Holds.quiet {rest : Program serviceInterface (Result Returned)}
    {program : Program serviceInterface (Result Returned)} (holds : Holds pool controls)
    (tracks : pool.spawned ≤ caller → pool.calls caller = none)
    (found : pool.calls caller = some (job, program)) (held : controls caller = some before)
    (performed : World.perform deployment.content deployment.codec op choice pool.state =
      some (answer, state))
    (akin : Akin before after)
    (ongoing : ∀ command, op = .command (.appendEvent command) →
      command.turnId = none ∨ command.event.terminal = false)
    (unwritten : ∀ record, op ≠ .command (.upsertTurn record))
    (moves : ∀ threadId turnId phase phase', before = .run threadId turnId phase →
      after = .run threadId turnId phase' → Known state.db threadId turnId phase →
      Known state.db threadId turnId phase')
    (early : Span.undriven after = true →
      Span.undriven before = true ∧ ∀ threadId, op ≠ .query (.getThread threadId)) :
    Holds (pool.record caller job op answer rest state)
      (assign controls caller (some after)) := by
  have kept (turnId : TurnId) : Kept pool.state.db state.db turnId := by
    refine kept_perform ?_ ?_ performed
    · intro command same own
      obtain none | ongoing := ongoing command same
      · rw [none] at own
        cases own.1
      · rw [ongoing] at own
        cases own.2
    · intro record same
      exact (unwritten record same).elim
  refine holds.step tracks found held akin ?_ ?_ ?_ early
  · intro turnId
    rw [(kept turnId).endings]
    exact holds.once turnId
  · exact fun _ _ turnId _ _ _ => kept turnId
  · intro threadId turnId phase same
    subst same
    obtain ⟨phase', rfl⟩ := akin.run_before
    exact moves threadId turnId phase' phase rfl rfl
      ((kept turnId).known (holds.known caller threadId turnId phase' held))

/-- A step that writes the record of a run's turn. -/
theorem Holds.records {rest : Program serviceInterface (Result Returned)}
    {program : Program serviceInterface (Result Returned)} {threadId : ThreadId}
    {phase phase' : Phase} {record : TurnRecord} {answer : Result Unit}
    (holds : Holds pool controls)
    (tracks : pool.spawned ≤ caller → pool.calls caller = none)
    (found : pool.calls caller = some (job, program))
    (held : controls caller = some (.run threadId record.id phase))
    (performed : World.perform deployment.content deployment.codec
      (.command (.upsertTurn record)) choice pool.state = some (answer, state))
    (known : Known state.db threadId record.id phase')
    (early : Span.undriven (.run threadId record.id phase') = true →
      Span.undriven (.run threadId record.id phase) = true) :
    Holds (pool.record caller job (.command (.upsertTurn record)) answer rest state)
      (assign controls caller (some (.run threadId record.id phase'))) := by
  have same : state.db.events = pool.state.db.events :=
    (World.perform_keeps performed).events (by simp [World.writes])
  refine holds.step tracks found held ⟨rfl, rfl⟩ ?_ ?_ ?_ ?_
  · intro turnId
    rw [endings, same]
    exact holds.once turnId
  · intro other threadId' turnId phase'' different old
    refine kept_perform (fun _ same => by cases same) ?_ performed
    intro record' same own
    cases same
    subst own
    exact different (holds.distinct other caller _ _ _ _ _ old held)
  · intro _ _ _ same
    cases same
    exact known
  · exact fun undriven => ⟨early undriven, fun _ same => by cases same⟩

/-- A step that logs a terminal event of a run's turn. -/
theorem Holds.ends {rest : Program serviceInterface (Result Returned)}
    {program : Program serviceInterface (Result Returned)} {threadId : ThreadId}
    {turnId : TurnId} {phase phase' : Phase} {command : AppendEvent}
    {answer : Result EventEnvelope} (holds : Holds pool controls)
    (tracks : pool.spawned ≤ caller → pool.calls caller = none)
    (found : pool.calls caller = some (job, program))
    (held : controls caller = some (.run threadId turnId phase))
    (turn : command.turnId = some turnId) (none : endings turnId pool.state.db = 0)
    (performed : World.perform deployment.content deployment.codec
      (.command (.appendEvent command)) choice pool.state = some (answer, state))
    (known : Known state.db threadId turnId phase')
    (early : Span.undriven (.run threadId turnId phase') = true →
      Span.undriven (.run threadId turnId phase) = true) :
    Holds (pool.record caller job (.command (.appendEvent command)) answer rest state)
      (assign controls caller (some (.run threadId turnId phase'))) := by
  refine holds.step tracks found held ⟨rfl, rfl⟩ ?_ ?_ ?_ ?_
  · intro other
    by_cases same : other = turnId
    · subst same
      obtain ⟨envelope, -, grown, -⟩ | ⟨_, -, same⟩ := World.perform_append performed
      · rw [endings_append grown, none]
        split <;> simp
      · rw [endings, same]
        exact holds.once other
    · have different : command.turnId ≠ some other := by
        rw [turn]
        exact fun equal => same (Option.some.inj equal).symm
      rw [(perform_endings_other different performed).endings]
      exact holds.once other
  · intro other threadId' turnId' phase'' different old
    refine perform_endings_other (fun equal => ?_) performed
    rw [turn] at equal
    cases equal
    exact different (holds.distinct other caller _ _ _ _ _ old held)
  · intro _ _ _ same
    cases same
    exact known
  · exact fun undriven => ⟨early undriven, fun _ same => by cases same⟩

/-- The one terminal event that an append has logged. -/
theorem ended_of_append {db grown : Database} {turnId : TurnId} {envelope : EventEnvelope}
    (none : endings turnId db = 0) (events : grown.events = db.events ++ [envelope])
    (turn : envelope.turnId = some turnId) (terminal : envelope.event.terminal = true) :
    endings turnId grown = 1 ∧ envelope ∈ grown.events := by
  refine ⟨?_, by simp [events]⟩
  rw [endings_append events, none, if_pos ⟨turn, terminal⟩]

theorem agrees_of_announces {status : TurnStatus} {event : RuntimeEvent}
    (fails : status.fails = true) (announces : Announces (some status) event) :
    event.Agrees status := by
  cases status with
  | cancelled =>
      obtain rfl := announces
      rfl
  | failed =>
      obtain ⟨error, rfl⟩ := announces
      exact .inl rfl
  | needsReconciliation =>
      obtain ⟨error, rfl⟩ := announces
      exact .inr rfl
  | completed => exact announces.elim
  | _ => cases fails

theorem terminal_of_fails {event : RuntimeEvent} (fails : event.fails = true) :
    event.terminal = true := by
  cases event <;> first | rfl | cases fails

/-- The turn whose end is announced is closed. -/
theorem closed_of_announced {command : AppendEvent} {answer : Result EventEnvelope}
    {threadId : ThreadId} {turnId : TurnId} {status : TurnStatus} {world state : World}
    (final : Final world.db threadId turnId status) (thread : command.threadId = threadId)
    (turn : command.turnId = some turnId) (announces : Announces (some status) command.event)
    (settles : World.faultless choice)
    (performed : World.perform deployment.content deployment.codec
      (.command (.appendEvent command)) choice world = some (answer, state)) :
    Closed state.db turnId := by
  obtain ⟨known, ⟨record, found, rfl⟩, ⟨completed, -⟩ | ⟨fails, none⟩⟩ := final
  · rw [completed] at announces
    exact announces.elim
  · subst thread
    obtain ⟨envelope, rfl⟩ := perform_append_faultless known settles performed
    obtain ⟨added, -, grown, -, -, turn', event⟩ | ⟨_, failed, -⟩ := World.perform_append performed
    · have terminal : added.event.terminal = true := by
        rw [event]
        exact terminal_of_fails (fails_of_announces announces)
      obtain ⟨once, member⟩ := ended_of_append none grown (turn'.trans turn) terminal
      refine ⟨once, added, member, turn'.trans turn, terminal, record, ?_, ?_⟩
      · rw [Database.getTurn, (World.perform_keeps performed).turns (by simp [World.writes])]
        exact found
      · rw [event]
        exact agrees_of_announces fails announces
    · cases failed

theorem Final.unended {db : Database} {threadId : ThreadId} {turnId : TurnId}
    {status : TurnStatus} {event : RuntimeEvent} (final : Final db threadId turnId status)
    (announces : Announces (some status) event) : endings turnId db = 0 := by
  obtain ⟨-, -, ⟨rfl, -⟩ | ⟨-, none⟩⟩ := final
  · exact announces.elim
  · exact none

theorem Final.closed {db : Database} {threadId : ThreadId} {turnId : TurnId}
    (final : Final db threadId turnId .completed) : Closed db turnId := by
  obtain ⟨-, ⟨record, found, completed⟩, ⟨-, once, envelope, member, turn, event⟩ | ⟨fails, -⟩⟩ :=
    final
  · refine ⟨once, envelope, member, turn, ?_, record, found, ?_⟩
    · rw [event]
      rfl
    · rw [event]
      exact completed
  · cases fails

theorem quiet_of_aside (aside : Aside op) :
    (∀ command, op = .command (.appendEvent command) →
      command.turnId = none ∨ command.event.terminal = false) ∧
    (∀ record, op ≠ .command (.upsertTurn record)) ∧
    ∀ threadId, op ≠ .query (.getThread threadId) := by
  refine ⟨?_, ?_, ?_⟩
  · intro command same
    subst same
    exact .inl aside
  · intro record same
    subst same
    exact aside
  · intro threadId same
    subst same
    exact aside

theorem Holds.perform {post : (system deployment).Job → (system deployment).Result → Span → Prop}
    {rest : Program serviceInterface (Result Returned)}
    (holds : Holds pool controls) (tracks : Tracks Span.protocol post pool controls)
    (admitted : Guarded pool (.perform caller choice))
    (found : pool.calls caller = some (job, .request op next))
    (held : controls caller = some before) (advance : Span.Advance before op answer after)
    (performed : World.perform deployment.content deployment.codec op choice pool.state =
      some (answer, state)) :
    Holds (pool.record caller job op answer rest state)
      (assign controls caller (some after)) := by
  have awaited : pool.awaits caller = some op := by
    simp only [Pool.awaits, found]
    rfl
  have late := tracks.fresh caller
  obtain ⟨_, _, called, suits⟩ := holds.suits caller before held
  rw [found] at called
  cases called
  cases advance with
  | aside aside =>
      obtain ⟨ongoing, unwritten, unlooked⟩ := quiet_of_aside aside
      refine holds.quiet late found held performed suits.akin_self ongoing unwritten ?_ ?_
      · intro _ _ _ _ same same' known
        rw [same] at same'
        cases same'
        exact known
      · exact fun undriven => ⟨undriven, unlooked⟩
  | lease =>
      refine holds.quiet late found held performed suits.akin_self (fun _ same => by cases same)
        (fun _ same => by cases same) ?_ ?_
      · intro _ _ _ _ same same' known
        cases same
        cases same'
        exact known
      · exact fun undriven => ⟨undriven, fun _ same => by cases same⟩
  | look =>
      refine holds.quiet late found held performed suits.akin_self (fun _ same => by cases same)
        (fun _ same => by cases same) ?_ ?_
      · intro _ _ _ _ same same' known
        cases same
        cases same'
        exact known
      · exact fun undriven => by cases undriven
  | enter | barred | leaveUnstarted =>
      refine holds.quiet late found held performed ⟨rfl, rfl⟩ (fun _ same => by cases same)
        (fun _ same => by cases same) ?_ ?_
      · intro _ _ _ _ same same' known
        cases same
        cases same'
        exact known
      · exact fun _ => ⟨rfl, fun _ same => by cases same⟩
  | leave =>
      refine holds.quiet late found held performed ⟨rfl, rfl⟩ (fun _ same => by cases same)
        (fun _ same => by cases same) ?_ ?_
      · intro _ _ _ _ same same' known
        cases same
        cases same'
        exact known
      · exact fun undriven => by cases undriven
  | pass | passOut | passLease | remember =>
      refine holds.quiet late found held performed trivial (fun _ same => by cases same)
        (fun _ same => by cases same) ?_ ?_
      · intro _ _ _ _ same
        cases same
      · exact fun _ => ⟨rfl, fun _ same => by cases same⟩
  | write thread turn ongoing =>
      refine holds.quiet late found held performed ⟨rfl, rfl⟩ ?_ (fun _ same => by cases same)
        ?_ ?_
      · intro command same
        cases same
        exact .inr ongoing
      · intro _ _ _ _ same same' known
        cases same
        cases same'
        exact known
      · exact fun undriven => by cases undriven
  | @complete threadId turnId command envelope thread turn event =>
      obtain ⟨none, known⟩ := holds.known _ _ _ _ held
      obtain ⟨added, -, grown, -, -, turn', event'⟩ | ⟨_, failed, -⟩ :=
        World.perform_append performed
      · have terminal : added.event.terminal = true := by
          rw [event', event]
          rfl
        obtain ⟨once, member⟩ := ended_of_append none grown (turn'.trans turn) terminal
        refine holds.ends late found held turn none performed ?_ (fun undriven => by cases undriven)
        exact ⟨⟨once, added, member, turn'.trans turn, event'.trans event⟩,
          perform_thread performed known⟩
      · cases failed
  | @completeFailed threadId turnId command error thread turn event =>
      obtain ⟨none, known⟩ := holds.known _ _ _ _ held
      obtain ⟨_, answered, -⟩ | ⟨_, -, same⟩ := World.perform_append performed
      · cases answered
      · refine holds.ends late found held turn none performed ?_ (fun undriven => undriven)
        refine ⟨?_, perform_thread performed known⟩
        rw [endings, same]
        exact none
  | @begin threadId turnId record turn thread status =>
      subst turn
      have none : endings record.id pool.state.db = 0 := holds.known _ _ _ _ held
      refine holds.records late found held performed ?_ (fun undriven => by cases undriven)
      refine ⟨?_, perform_thread performed ?_⟩
      · rw [endings, (World.perform_keeps performed).events (by simp [World.writes])]
        exact none
      · rw [← thread]
        exact thread_of_upsert performed
  | @beginFailed threadId turnId record error turn thread status =>
      subst turn
      have none : endings record.id pool.state.db = 0 := holds.known _ _ _ _ held
      refine holds.records late found held performed ?_ (fun undriven => undriven)
      show endings record.id state.db = 0
      rw [endings, (World.perform_keeps performed).events (by simp [World.writes])]
      exact none
  | @close threadId turnId record answer turn thread status =>
      subst turn
      obtain ⟨none, known⟩ := holds.known _ _ _ _ held
      have settles := admitted.written.2 record awaited (fun same => by
        rw [same] at status
        cases status)
      refine holds.records late found held performed ?_ (fun undriven => by cases undriven)
      refine ⟨perform_thread performed known, ?_, .inr ⟨status, ?_⟩⟩
      · exact perform_upsert_faultless (thread ▸ known) settles performed
      · rw [endings, (World.perform_keeps performed).events (by simp [World.writes])]
        exact none
  | @closeFinished threadId turnId record answer turn thread status =>
      subst turn
      obtain ⟨completes, known⟩ := holds.known _ _ _ _ held
      have settles := admitted.written.2 record awaited (fun same => by
        rw [same] at status
        cases status)
      have same : state.db.events = pool.state.db.events :=
        (World.perform_keeps performed).events (by simp [World.writes])
      refine holds.records late found held performed ?_ (fun undriven => by cases undriven)
      refine ⟨perform_thread performed known, ?_, .inl ⟨rfl, ?_⟩⟩
      · rw [← status]
        exact perform_upsert_faultless (thread ▸ known) settles performed
      · rw [Completes, endings, same]
        exact completes
  | @announce threadId turnId phase ended command answer at' thread turn announces =>
      have settles := admitted.written.1 command awaited (fails_of_announces announces)
      have known := holds.known _ _ _ _ held
      cases phase with
      | outside =>
          cases at'
          exact holds.ends late found held turn known performed trivial (fun _ => rfl)
      | left ended' =>
          cases at'
          cases ended with
          | none => exact holds.ends late found held turn known performed trivial (fun _ => rfl)
          | some status =>
              refine holds.ends late found held turn (Final.unended known announces) performed ?_
                (fun undriven => by cases undriven)
              exact closed_of_announced known thread turn announces settles performed
      | _ => cases at'
  | @sweep record answer =>
      have same : state.db.events = pool.state.db.events :=
        (World.perform_keeps performed).events (by simp [World.writes])
      refine holds.step late found held trivial ?_ ?_ ?_ ?_
      · intro turnId
        rw [endings, same]
        exact holds.once turnId
      · intro other threadId turnId phase _ old
        exact (holds.apart caller other threadId turnId phase held old).elim
      · intro _ _ _ same
        cases same
      · exact fun undriven => by cases undriven
  | @seize threadId answer =>
      cases job with
      | resumeTurn resumed key =>
          have running : pool.running caller = some (.resumeTurn resumed key) := by
            simp only [Pool.running, found]
          exact (admitted.undriven resumed key running _ awaited).elim
      | _ => exact suits.elim
  | wild => cases job <;> exact suits.elim

theorem suits_begins (job : Job) : Suits job (Span.begins job) := by
  cases job with
  | runTurn => exact ⟨rfl, rfl⟩
  | _ => trivial

theorem Holds.spawn {post : (system deployment).Job → (system deployment).Result → Span → Prop}
    (job : Job) (tracks : Tracks Span.protocol post pool controls)
    (admitted : Guarded pool (.spawn job)) (holds : Holds pool controls) :
    Holds (Pool.spawn pool job) (assign controls pool.spawned (some (Span.begins job))) := by
  have runs {other : Nat} {threadId : ThreadId} {turnId : TurnId} {phase : Phase}
      (old : controls other = some (.run threadId turnId phase)) : other < pool.spawned ∧
      ∃ input, pool.running other = some (.runTurn threadId turnId input) := by
    obtain ⟨known, program, called, suits⟩ := holds.suits other _ old
    obtain ⟨early, running⟩ := tracks.running_of_call old called
    cases known with
    | runTurn threadId' turnId' input =>
        obtain ⟨rfl, rfl⟩ := suits
        exact ⟨early, input, running⟩
    | _ => exact suits.elim
  have sweeps {other : Nat} (old : controls other = some .sweeping) :
      other < pool.spawned ∧ pool.running other = some .recover := by
    obtain ⟨known, program, called, suits⟩ := holds.suits other _ old
    obtain ⟨early, running⟩ := tracks.running_of_call old called
    cases known with
    | recover => exact ⟨early, running⟩
    | _ => exact suits.elim
  have begun {threadId : ThreadId} {turnId : TurnId} {phase : Phase}
      (same : Span.begins job = .run threadId turnId phase) :
      phase = .outside ∧ ∃ input, job = .runTurn threadId turnId input := by
    cases job <;> cases same
    exact ⟨rfl, _, rfl⟩
  have another {other : Nat} {threadId threadId' : ThreadId} {turnId : TurnId}
      {phase : Phase} {input : TurnInput} (spawned : job = .runTurn threadId' turnId input)
      (old : controls other = some (.run threadId turnId phase)) : False := by
    subst spawned
    obtain ⟨early, input', running⟩ := runs old
    exact (admitted.separate.2 other early).2 threadId input' running
  constructor
  · exact holds.once
  · intro entry member
    have early := holds.early entry member
    simp only [Pool.spawn]
    omega
  · intro other span found
    obtain ⟨rfl, equal⟩ | ⟨different, old⟩ := assign_eq_some found
    · cases equal
      exact ⟨job, (system deployment).program job, by simp [Pool.spawn], suits_begins job⟩
    · obtain ⟨job', program, called, suits⟩ := holds.suits other span old
      exact ⟨job', program, by simpa [Pool.spawn, assign_other _ _ different] using called, suits⟩
  · intro left right threadId threadId' turnId phase phase' foundLeft foundRight
    obtain ⟨rfl, equalLeft⟩ | ⟨_, oldLeft⟩ := assign_eq_some foundLeft <;>
      obtain ⟨rfl, equalRight⟩ | ⟨_, oldRight⟩ := assign_eq_some foundRight
    · rfl
    · obtain ⟨-, input, spawned⟩ := begun (Option.some.inj equalLeft)
      exact (another spawned oldRight).elim
    · obtain ⟨-, input, spawned⟩ := begun (Option.some.inj equalRight)
      exact (another spawned oldLeft).elim
    · exact holds.distinct left right threadId threadId' turnId phase phase' oldLeft oldRight
  · intro left right threadId turnId phase foundLeft foundRight
    obtain ⟨-, equalLeft⟩ | ⟨_, oldLeft⟩ := assign_eq_some foundLeft <;>
      obtain ⟨-, equalRight⟩ | ⟨_, oldRight⟩ := assign_eq_some foundRight
    · rw [Option.some.inj equalLeft] at equalRight
      cases equalRight
    · obtain ⟨early, input, running⟩ := runs oldRight
      cases job with
      | recover => exact admitted.separate right early _ _ _ running
      | _ => cases equalLeft
    · obtain ⟨-, input, rfl⟩ := begun (Option.some.inj equalRight)
      obtain ⟨early, running⟩ := sweeps oldLeft
      exact (admitted.separate.2 left early).1 running
    · exact holds.apart left right threadId turnId phase oldLeft oldRight
  · intro other threadId turnId phase found
    obtain ⟨-, equal⟩ | ⟨-, old⟩ := assign_eq_some found
    · obtain ⟨rfl, input, rfl⟩ := begun (Option.some.inj equal)
      refine List.countP_eq_zero.mpr fun envelope member ended => ?_
      exact admitted.separate.1 envelope member (of_decide_eq_true ended).1
    · exact holds.known other threadId turnId phase old
  · intro other span found undriven
    obtain ⟨rfl, equal⟩ | ⟨-, old⟩ := assign_eq_some found
    · intro drove
      obtain ⟨entry, member, same, -⟩ := drove
      exact absurd (holds.early entry member) (by omega)
    · exact holds.undriven other span old undriven
  · intro other job' turnId absent returns
    by_cases same : other = pool.spawned
    · subst same
      rw [assign_same] at absent
      cases absent
    · rw [assign_other _ _ same] at absent
      obtain ⟨⟨result, called⟩, newest⟩ := returns
      simp only [Pool.spawn, assign_other _ _ same] at called
      exact holds.returned other job' turnId absent ⟨⟨result, called⟩, newest⟩

theorem Holds.finish {control : Span} {returned : Result Returned}
    (found : pool.calls caller = some (job, .pure returned)) (held : controls caller = some control)
    (ends : Span.ends job returned control) (holds : Holds pool controls) :
    Holds pool (assign controls caller none) := by
  have earlier {other : Nat} {span : Span}
      (found : assign controls caller none other = some span) : controls other = some span := by
    obtain ⟨-, equal⟩ | ⟨-, old⟩ := assign_eq_some found
    · cases equal
    · exact old
  constructor
  · exact holds.once
  · exact holds.early
  · exact fun other span found => holds.suits other span (earlier found)
  · exact fun left right _ _ _ _ _ foundLeft foundRight =>
      holds.distinct left right _ _ _ _ _ (earlier foundLeft) (earlier foundRight)
  · exact fun left right _ _ _ foundLeft foundRight =>
      holds.apart left right _ _ _ (earlier foundLeft) (earlier foundRight)
  · exact fun other _ _ _ found => holds.known other _ _ _ (earlier found)
  · exact fun other span found => holds.undriven other span (earlier found)
  · intro other job' turnId absent returns turn drove
    by_cases same : other = caller
    · subst same
      obtain ⟨⟨result', called⟩, -⟩ := returns
      rw [found] at called
      cases called
      obtain ⟨_, _, called, suits⟩ := holds.suits other control held
      rw [found] at called
      cases called
      cases job with
      | runTurn threadId ran input =>
          cases turn
          obtain rfl | rfl | ⟨ended, rfl⟩ := ends
          · exact (holds.undriven other _ held rfl drove).elim
          · exact Final.closed (holds.known other _ _ _ held)
          · cases ended with
            | none => exact (holds.undriven other _ held rfl drove).elim
            | some status => exact holds.known other _ _ _ held
      | resumeTurn resumed key =>
          cases control with
          | foreign => exact (holds.undriven other _ held rfl drove).elim
          | _ => exact suits.elim
      | recover => cases turn
      | resolveApproval => cases turn
    · rw [assign_other _ _ same] at absent
      exact holds.returned other job' turnId absent returns turn drove

/-- A crash keeps the log; the calls that were running never return. -/
theorem Holds.crash (startup : Catalog) (holds : Holds pool controls) :
    Holds (Pool.crash pool startup) fun _ => none := by
  constructor
  · exact holds.once
  · exact holds.early
  · intro other span found
    cases found
  · intro left right threadId threadId' turnId phase phase' found
    cases found
  · intro left right threadId turnId phase found
    cases found
  · intro other threadId turnId phase found
    cases found
  · intro other span found
    cases found
  · intro other job' turnId absent returns
    obtain ⟨⟨result, called⟩, -⟩ := returns
    cases called

/-- The invariant of the guarded pool. -/
theorem invariant : Invariant (system deployment) Span.protocol Span.begins Span.ends
    Guarded Holds where
  spawn job tracks admitted holds := holds.spawn job tracks admitted
  perform := by
    intro pool controls caller job op next before after choice answer state tracks admitted found
      held advance performed holds
    exact Holds.perform holds tracks admitted found held advance performed
  finish := by
    intro pool controls caller job result control found held ends holds
    exact Holds.finish found held ends holds
  crash startup _ _ holds := holds.crash startup

theorem holds_of_boots {pool : Pool deployment} (boots : Boots pool) :
    (∀ caller, pool.calls caller = none) ∧ Holds pool fun _ => none := by
  obtain ⟨world, untagged, rfl⟩ := boots
  refine ⟨fun _ => rfl, ?_⟩
  constructor
  · intro turnId
    have none : endings turnId world.db = 0 := by
      refine List.countP_eq_zero.mpr fun envelope member ended => ?_
      have turn := (of_decide_eq_true ended).1
      rw [untagged envelope member] at turn
      cases turn
    exact none.le.trans (by omega)
  · intro entry member
    cases member
  · intro other span found
    cases found
  · intro left right threadId threadId' turnId phase phase' found
    cases found
  · intro left right threadId turnId phase found
    cases found
  · intro other threadId turnId phase found
    cases found
  · intro other span found
    cases found
  · intro other job' turnId absent returns
    obtain ⟨⟨result, called⟩, -⟩ := returns
    cases called

end

end Terminal

open Terminal in
/-- Turns end once in every run in which no resume drives a turn and the last writes of
a turn succeed. -/
theorem endsOnce_of_guarded (deployment : Deployment) (pool : Pool deployment)
    (reached : Pool.Reachable Guarded Boots pool) : EndsOnce pool := by
  obtain ⟨controls, tracks, holds⟩ :=
    Invariant.reachable invariant (fun _ => holds_of_boots) (Span.conforms deployment) reached
  refine ⟨holds.once, fun caller job turnId returns => ?_⟩
  have follows := tracks.follows caller
  obtain ⟨result, called⟩ := returns.1
  rw [called] at follows
  cases known : controls caller with
  | none => exact holds.returned caller job turnId known returns
  | some span =>
      rw [known] at follows
      obtain ⟨_, _, _, waits, _⟩ := follows.of_control
      cases waits

namespace Terminal

variable {deployment : Deployment}

/-- The turn of a call that has just returned, if it drove it. -/
def returned (pool : Pool deployment) (caller : Nat) : Option TurnId :=
  match pool.calls caller, pool.trace with
  | some (job, .pure _), entry :: rest =>
      if entry.caller = caller ∧ (entry :: rest).any (fun entry =>
          decide (entry.caller = caller) && match entry.op with
            | .query (.getThread _) => true
            | _ => false) then
        job.turn
      else none
  | _, _ => none

theorem returned_sound {pool : Pool deployment} {caller : Nat} {turnId : TurnId}
    (checked : returned pool caller = some turnId) :
    ∃ job, Returns pool caller job ∧ job.turn = some turnId ∧ Drove pool caller := by
  unfold returned at checked
  split at checked
  · rename_i job result entry rest called newest
    split at checked
    · rename_i driven
      obtain ⟨own, looked⟩ := driven
      refine ⟨job, ⟨⟨result, called⟩, entry, rest, newest, own⟩, checked, ?_⟩
      obtain ⟨look, member, found⟩ := List.any_eq_true.mp looked
      simp only [Bool.and_eq_true, decide_eq_true_eq] at found
      obtain ⟨same, query⟩ := found
      split at query
      · rename_i threadId equal
        exact ⟨look, newest ▸ member, same, threadId, equal⟩
      · cases query
    · cases checked
  · cases checked

theorem boots_demo : Boots Demo.pool := by
  refine ⟨Demo.world, fun envelope member => ?_, rfl⟩
  cases member with
  | head => rfl
  | tail _ rest => cases rest

/-- A run of a turn that ends as its model ends, without a tool call. -/
def answered : List Demo.Step :=
  Demo.run ++ Demo.settle 0 24 ++ Demo.model 0 [] ++ Demo.settle 0 12

/-- A turn that is lost at its first round, recovered and resumed to its end. -/
def resumed : List Demo.Step :=
  Demo.run ++ Demo.settle 0 16 ++ Demo.crash ++ Demo.spawn .recover ++ Demo.settle 1 9 ++
    Demo.resume ++ Demo.settle 2 17 ++ Demo.model 2 [] ++ Demo.settle 2 10

end Terminal

open Terminal

theorem endsOnce_of_guarded_answered :
    ∃ pool : Pool Demo.deployment, Pool.Reachable Guarded Boots pool ∧
      (∃ job, Returns pool 0 job ∧ job.turn = some Demo.turn ∧ Drove pool 0) ∧
      EndsOnce pool := by
  have ran : (Pool.runChecked guarded (Demo.labels 0 answered) Demo.pool).map
      (fun pool => returned pool 0) = some (some Demo.turn) := by
    decide +kernel
  obtain ⟨pool, final, driven⟩ := Option.map_eq_some_iff.mp ran
  have reached : Pool.Reachable Guarded Boots pool :=
    .of_runChecked guarded_sound (.start boots_demo) final
  exact ⟨pool, reached, returned_sound driven, endsOnce_of_guarded Demo.deployment pool reached⟩

/-- A resumed turn completes in the log, and its record stays interrupted. -/
theorem not_endsOnce_of_resumed :
    ¬ ∀ (deployment : Deployment) (pool : Pool deployment),
      Pool.Reachable Separate Boots pool → EndsOnce pool := by
  intro claimed
  have ran : (Pool.runChecked separate (Demo.labels 0 resumed) Demo.pool).map
      (fun pool => (returned pool 2, (pool.state.db.getTurn Demo.turn).map TurnRecord.status)) =
        some (some Demo.turn, some .interrupted) := by
    decide +kernel
  obtain ⟨pool, final, driven⟩ := Option.map_eq_some_iff.mp ran
  obtain ⟨drives, status⟩ := Prod.mk.inj driven
  obtain ⟨job, returns, turn, drove⟩ := returned_sound drives
  obtain ⟨-, envelope, -, -, -, record, found, agrees⟩ := (claimed Demo.deployment pool
    (.of_runChecked separate_sound (.start boots_demo) final)).2 2 job Demo.turn returns turn drove
  simp only [found, Option.map_some, Option.some.injEq] at status
  rw [status] at agrees
  cases event : envelope.event <;> simp [event, RuntimeEvent.Agrees] at agrees

end OpsCodex.Turn
