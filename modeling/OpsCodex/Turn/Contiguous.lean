import OpsCodex.Sequence.Blocks
import OpsCodex.Turn.Steps
import OpsCodex.Turn.Span

/-! The turns of a thread do not interleave in its log, as long as no run announces
its failure while another turn is being logged. -/

set_option autoImplicit false

namespace OpsCodex.Turn

open Effect Blocks OpsCodex.Action OpsCodex.Store OpsCodex.Runtime

/-- The turns of the turn-tagged events of a thread, in order. -/
def turnTags (db : Database) (threadId : ThreadId) : List TurnId :=
  (db.threadEvents threadId).filterMap EventEnvelope.turnId

namespace Contiguity

variable {deployment : Deployment}

/-- No event belongs to a turn. -/
def Unlogged (db : Database) (turnId : TurnId) : Prop :=
  ∀ envelope ∈ db.events, envelope.turnId ≠ some turnId

/-- Concurrent runs of fresh turns, without crashes and resumes. -/
def Concurrent (pool : Pool deployment) : Label (system deployment) → Prop
  | .spawn (.runTurn _ turnId _) => Unlogged pool.state.db turnId ∧
      ∀ caller < pool.spawned, ∀ threadId input,
        pool.running caller ≠ some (.runTurn threadId turnId input)
  | .spawn (.resumeTurn ..) => False
  | .crash _ => False
  | _ => True

/-- A run that announces that it failed continues the block of its turn, or begins it
after a block whose run has returned. -/
def Orderly (pool : Pool deployment) : Label (system deployment) → Prop
  | .perform caller _ => ∀ command turnId,
      pool.awaits caller = some (.command (.appendEvent command)) →
      command.turnId = some turnId → command.event.fails = true →
      (turnTags pool.state.db command.threadId).getLast? = some turnId ∨
        (turnId ∉ turnTags pool.state.db command.threadId ∧
          ∀ other < pool.spawned, other ≠ caller → ∀ threadId running input,
            pool.running other = some (.runTurn threadId running input) →
            (turnTags pool.state.db command.threadId).getLast? ≠ some running)
  | _ => True

structure Guarded (pool : Pool deployment) (label : Label (system deployment)) : Prop where
  concurrent : Concurrent pool label
  orderly : Orderly pool label

/-- The runs of fresh turns, as a check. -/
def concurrent (pool : Pool deployment) : Label (system deployment) → Bool
  | .spawn (.runTurn _ turnId _) =>
      (pool.state.db.events.all fun envelope => decide (envelope.turnId ≠ some turnId)) &&
        (List.range pool.spawned).all fun caller =>
          match pool.running caller with
          | some (.runTurn _ running _) => decide (running ≠ turnId)
          | _ => true
  | .spawn (.resumeTurn ..) => false
  | .crash _ => false
  | _ => true

theorem concurrent_sound (pool : Pool deployment) (label : Label (system deployment))
    (checked : concurrent pool label = true) : Concurrent pool label := by
  cases label with
  | spawn job =>
      cases job with
      | runTurn threadId turnId input =>
          simp only [concurrent, Bool.and_eq_true, List.all_eq_true, decide_eq_true_eq,
            List.mem_range] at checked
          obtain ⟨unlogged, distinct⟩ := checked
          refine ⟨unlogged, fun caller early threadId input running => ?_⟩
          have known := distinct caller early
          rw [running] at known
          exact of_decide_eq_true known rfl
      | resumeTurn => cases checked
      | recover => trivial
      | resolveApproval => trivial
  | perform caller choice => trivial
  | crash startup => cases checked

/-- The order of announcements, as a check. -/
def orderly (pool : Pool deployment) : Label (system deployment) → Bool
  | .perform caller _ =>
      match pool.awaits caller with
      | some (.command (.appendEvent command)) =>
          command.turnId.all fun turnId =>
            !command.event.fails ||
            decide ((turnTags pool.state.db command.threadId).getLast? = some turnId) ||
            (decide (turnId ∉ turnTags pool.state.db command.threadId) &&
              (List.range pool.spawned).all fun other =>
                decide (other = caller) ||
                match pool.running other with
                | some (.runTurn _ running _) => decide
                    ((turnTags pool.state.db command.threadId).getLast? ≠ some running)
                | _ => true)
      | _ => true
  | _ => true

theorem orderly_sound (pool : Pool deployment) (label : Label (system deployment))
    (checked : orderly pool label = true) : Orderly pool label := by
  cases label with
  | perform caller choice =>
      intro command turnId awaited turn fails
      simp only [orderly, awaited, turn, fails, Option.all_some, Bool.not_true, Bool.false_or,
        Bool.or_eq_true, Bool.and_eq_true, decide_eq_true_eq, List.all_eq_true,
        List.mem_range] at checked
      obtain last | ⟨absent, idle⟩ := checked
      · exact .inl last
      · refine .inr ⟨absent, fun other early different threadId turnId' input running => ?_⟩
        have known := (idle other early).resolve_left different
        rw [running] at known
        exact of_decide_eq_true known
  | spawn job => trivial
  | crash startup => trivial

def guarded (pool : Pool deployment) (label : Label (system deployment)) : Bool :=
  concurrent pool label && orderly pool label

theorem guarded_sound (pool : Pool deployment) (label : Label (system deployment))
    (checked : guarded pool label = true) : Guarded pool label := by
  obtain ⟨apart, ordered⟩ := Bool.and_eq_true_iff.mp checked
  exact ⟨concurrent_sound pool label apart, orderly_sound pool label ordered⟩

/-- A runtime that has just started, over a store with contiguous turns. -/
def Boots (pool : Pool deployment) : Prop :=
  ∃ world : World, world.process.activeThreads = [] ∧
    (∀ threadId, Contiguous (turnTags world.db threadId)) ∧ pool = Pool.boot world

/-- The phases in which a run holds the guard of its thread. -/
def Phase.inside : Phase → Bool
  | .held | .driving | .finished | .closing _ => true
  | _ => false

/-- What a run knows of its turn in the log. -/
def Logs (db : Database) (threadId : ThreadId) (turnId : TurnId) : Phase → Prop
  | .outside | .held => Unlogged db turnId
  | .driving | .finished | .closing _ =>
      turnId ∉ turnTags db threadId ∨ (turnTags db threadId).getLast? = some turnId
  | _ => True

structure Holds (pool : Pool deployment) (controls : Nat → Option Span) : Prop where
  contiguous : ∀ threadId, Contiguous (turnTags pool.state.db threadId)
  fresh : ∀ caller, controls caller ≠ some .foreign ∧ controls caller ≠ some .wild
  jobs : ∀ caller threadId turnId phase, controls caller = some (.run threadId turnId phase) →
    ∃ input program, pool.calls caller = some (.runTurn threadId turnId input, program)
  distinct : ∀ left right threadId threadId' turnId phase phase',
    controls left = some (.run threadId turnId phase) →
    controls right = some (.run threadId' turnId phase') → left = right
  active : ∀ caller threadId turnId phase, controls caller = some (.run threadId turnId phase) →
    Phase.inside phase = true → threadId ∈ pool.state.process.activeThreads
  exclusive : ∀ left right threadId turnId turnId' phase phase',
    controls left = some (.run threadId turnId phase) → Phase.inside phase = true →
    controls right = some (.run threadId turnId' phase') → Phase.inside phase' = true →
    left = right
  logs : ∀ caller threadId turnId phase, controls caller = some (.run threadId turnId phase) →
    Logs pool.state.db threadId turnId phase

section

variable {content : Content} {codec : Codec} {op : Op} {choice : Choice} {world state : World}
  {answer : op.Answer} {threadId : ThreadId} {turnId : TurnId}

/-- A log that has grown by one event. -/
theorem turnTags_append {before after : Database} {added : EventEnvelope}
    (grown : after.events = before.events ++ [added]) : turnTags after threadId =
      turnTags before threadId ++
        if added.threadId = threadId then added.turnId.toList else [] := by
  by_cases own : added.threadId = threadId
  · cases tag : added.turnId <;> simp [turnTags, Database.threadEvents, grown, own, tag]
  · simp [turnTags, Database.threadEvents, grown, own]

theorem turnTags_congr {before after : Database} (same : after.events = before.events) :
    turnTags after threadId = turnTags before threadId := by
  rw [turnTags, turnTags, Database.threadEvents, Database.threadEvents, same]

/-- A request that appends no event of a turn. -/
theorem perform_untagged (untagged : ∀ command, op = .command (.appendEvent command) →
      command.turnId = none)
    (performed : World.perform content codec op choice world = some (answer, state)) :
    (∀ threadId, turnTags state.db threadId = turnTags world.db threadId) ∧
      ∀ turnId, Unlogged world.db turnId → Unlogged state.db turnId := by
  have kept (same : state.db.events = world.db.events) :
      (∀ threadId, turnTags state.db threadId = turnTags world.db threadId) ∧
        ∀ turnId, Unlogged world.db turnId → Unlogged state.db turnId :=
    ⟨fun _ => turnTags_congr same, fun _ unlogged => by rwa [Unlogged, same]⟩
  by_cases append : ∃ command, op = .command (.appendEvent command)
  · obtain ⟨command, rfl⟩ := append
    obtain ⟨envelope, -, grown, -, -, turn, -⟩ | ⟨_, -, same⟩ := World.perform_append performed
    · have none : envelope.turnId = none := turn.trans (untagged command rfl)
      refine ⟨fun threadId => ?_, fun turnId unlogged other member => ?_⟩
      · rw [turnTags_append grown, none]
        simp
      · rw [grown, List.mem_append, List.mem_singleton] at member
        obtain old | rfl := member
        · exact unlogged other old
        · rw [none]
          simp
    · exact kept same
  · refine kept ((World.perform_keeps performed).events ?_)
    unfold World.writes
    split <;> simp_all

/-- An event of a turn, or nothing, is added to the log of its thread. -/
theorem perform_tagged {command : AppendEvent} {answer : Result EventEnvelope}
    (turn : command.turnId = some turnId)
    (performed : World.perform content codec (.command (.appendEvent command)) choice world =
      some (answer, state)) :
    state.db.events = world.db.events ∨
      ((∀ threadId, turnTags state.db threadId = turnTags world.db threadId ++
          if command.threadId = threadId then [turnId] else []) ∧
        ∀ other, other ≠ turnId → Unlogged world.db other → Unlogged state.db other) := by
  obtain ⟨envelope, -, grown, -, thread, turn', -⟩ | ⟨_, -, same⟩ := World.perform_append performed
  · refine .inr ⟨fun threadId => ?_, fun other different unlogged added member => ?_⟩
    · rw [turnTags_append grown, thread, turn', turn]
      rfl
    · rw [grown, List.mem_append, List.mem_singleton] at member
      obtain old | rfl := member
      · exact unlogged added old
      · rw [turn', turn]
        exact fun same => different (Option.some.inj same).symm
  · exact .inl same

theorem not_mem_of_unlogged {db : Database} (unlogged : Unlogged db turnId) :
    turnId ∉ turnTags db threadId := by
  intro member
  obtain ⟨envelope, found, tag⟩ := List.mem_filterMap.mp member
  exact unlogged envelope (List.mem_filter.mp found).1 tag

theorem brokerResolve_activeThreads (process : Process) (id : ApprovalId) (approved : Bool) :
    (process.brokerResolve id approved).2.activeThreads = process.activeThreads := by
  unfold Process.brokerResolve
  split
  · rfl
  · dsimp only
    split
    · split <;> rfl
    · rfl

/-- Only entering and leaving a thread moves the guards. -/
theorem perform_activeThreads
    (performed : World.perform content codec op choice world = some (answer, state))
    (enters : ∀ threadId, op ≠ .enterThread threadId)
    (leaves : ∀ threadId, op ≠ .leaveThread threadId) :
    state.process.activeThreads = world.process.activeThreads := by
  unfold World.perform at performed
  split at performed
  all_goals first
    | exact absurd rfl (enters _)
    | exact absurd rfl (leaves _)
    | (rw [World.awaitDecision_frame performed]; rfl)
    | (cases performed; rfl)
    | (cases performed; exact brokerResolve_activeThreads ..)
    | (simp only [Option.map_eq_some_iff] at performed
       obtain ⟨_, _, equal⟩ := performed
       cases equal
       rfl)
    | (split at performed <;> cases performed <;> rfl)
    | cases performed

theorem perform_enter {entered : Bool}
    (performed : World.perform content codec (.enterThread threadId) choice world =
      some (entered, state)) :
    state.db = world.db ∧
      ((entered = true ∧ threadId ∉ world.process.activeThreads ∧
          state.process.activeThreads = threadId :: world.process.activeThreads) ∨
        (entered = false ∧ state.process.activeThreads = world.process.activeThreads)) := by
  cases choice with
  | settle clock =>
      simp only [World.perform] at performed
      split at performed
      · cases performed
        exact ⟨rfl, .inr ⟨rfl, rfl⟩⟩
      · rename_i absent
        cases performed
        exact ⟨rfl, .inl ⟨rfl, absent, rfl⟩⟩
  | _ => cases performed

theorem perform_leave
    (performed : World.perform content codec (.leaveThread threadId) choice world =
      some ((), state)) :
    state.db = world.db ∧ state.process.activeThreads =
      world.process.activeThreads.filter (· ≠ threadId) := by
  cases choice with
  | settle clock =>
      cases performed
      exact ⟨rfl, rfl⟩
  | _ => cases performed

end

section

variable {pool : Pool deployment} {controls : Nat → Option Span} {caller : Nat} {job : Job}
  {op : Op} {next : op.Answer → Program serviceInterface (Result Returned)}
  {before after : Span} {choice : Choice} {answer : op.Answer} {state : World}

/-- A step of one run, by what it does to the logs and to the guards. -/
theorem Holds.step {rest : Program serviceInterface (Result Returned)}
    (holds : Holds pool controls) {program : Program serviceInterface (Result Returned)}
    (found : pool.calls caller = some (job, program)) (held : controls caller = some before)
    (keeps : ∀ threadId turnId phase, after = .run threadId turnId phase →
      ∃ phase', before = .run threadId turnId phase')
    (fresh : after ≠ .foreign ∧ after ≠ .wild)
    (contiguous : ∀ threadId, Contiguous (turnTags state.db threadId))
    (active : ∀ other threadId turnId phase, other ≠ caller →
      controls other = some (.run threadId turnId phase) → Phase.inside phase = true →
      threadId ∈ state.process.activeThreads)
    (enters : ∀ threadId turnId phase, after = .run threadId turnId phase →
      Phase.inside phase = true → threadId ∈ state.process.activeThreads ∧
        ∀ other turnId' phase', other ≠ caller →
          controls other = some (.run threadId turnId' phase') → Phase.inside phase' = false)
    (others : ∀ other threadId turnId phase, other ≠ caller →
      controls other = some (.run threadId turnId phase) →
      Logs state.db threadId turnId phase)
    (own : ∀ threadId turnId phase, after = .run threadId turnId phase →
      Logs state.db threadId turnId phase) :
    Holds (pool.record caller job op answer rest state)
      (assign controls caller (some after)) := by
  have earlier {other : Nat} {threadId : ThreadId} {turnId : TurnId} {phase : Phase}
      (found : assign controls caller (some after) other = some (.run threadId turnId phase)) :
      ∃ phase', controls other = some (.run threadId turnId phase') := by
    obtain ⟨rfl, equal⟩ | ⟨-, old⟩ := assign_eq_some found
    · obtain ⟨phase', same⟩ := keeps threadId turnId phase (Option.some.inj equal)
      exact ⟨phase', same ▸ held⟩
    · exact ⟨phase, old⟩
  constructor
  · exact contiguous
  · intro other
    by_cases same : other = caller
    · subst same
      rw [assign_same]
      exact ⟨fun equal => fresh.1 (Option.some.inj equal),
        fun equal => fresh.2 (Option.some.inj equal)⟩
    · rw [assign_other _ _ same]
      exact holds.fresh other
  · intro other threadId turnId phase found'
    obtain ⟨phase', old⟩ := earlier found'
    obtain ⟨input, program', called⟩ := holds.jobs other threadId turnId phase' old
    by_cases same : other = caller
    · subst same
      rw [found] at called
      cases called
      exact ⟨input, rest, by simp [Pool.record]⟩
    · exact ⟨input, program', by simpa [Pool.record, assign_other _ _ same] using called⟩
  · intro left right threadId threadId' turnId phase phase' foundLeft foundRight
    obtain ⟨_, oldLeft⟩ := earlier foundLeft
    obtain ⟨_, oldRight⟩ := earlier foundRight
    exact holds.distinct left right threadId threadId' turnId _ _ oldLeft oldRight
  · intro other threadId turnId phase found' inside
    obtain ⟨-, equal⟩ | ⟨different, old⟩ := assign_eq_some found'
    · exact (enters threadId turnId phase (Option.some.inj equal) inside).1
    · exact active other threadId turnId phase different old inside
  · intro left right threadId turnId turnId' phase phase' foundLeft insideLeft foundRight
      insideRight
    obtain ⟨rfl, equalLeft⟩ | ⟨differentLeft, oldLeft⟩ := assign_eq_some foundLeft <;>
      obtain ⟨rfl, equalRight⟩ | ⟨differentRight, oldRight⟩ := assign_eq_some foundRight
    · rfl
    · have alone := (enters threadId turnId phase (Option.some.inj equalLeft) insideLeft).2
      rw [alone right turnId' phase' differentRight oldRight] at insideRight
      cases insideRight
    · have alone := (enters threadId turnId' phase' (Option.some.inj equalRight) insideRight).2
      rw [alone left turnId phase differentLeft oldLeft] at insideLeft
      cases insideLeft
    · exact holds.exclusive left right threadId turnId turnId' phase phase' oldLeft insideLeft
        oldRight insideRight
  · intro other threadId turnId phase found'
    obtain ⟨-, equal⟩ | ⟨different, old⟩ := assign_eq_some found'
    · exact own threadId turnId phase (Option.some.inj equal)
    · exact others other threadId turnId phase different old

theorem Logs.congr {db grown : Database} {threadId : ThreadId} {turnId : TurnId} {phase : Phase}
    (tags : turnTags grown threadId = turnTags db threadId)
    (unlogged : Unlogged db turnId → Unlogged grown turnId)
    (logs : Logs db threadId turnId phase) : Logs grown threadId turnId phase := by
  cases phase with
  | outside | held => exact unlogged logs
  | driving | finished | closing =>
      simp only [Logs, tags] at logs ⊢
      exact logs
  | left | done => trivial

/-- A step that logs nothing of a turn and moves no guard. -/
theorem Holds.silent {rest : Program serviceInterface (Result Returned)}
    (holds : Holds pool controls) {program : Program serviceInterface (Result Returned)}
    (found : pool.calls caller = some (job, program)) (held : controls caller = some before)
    (untagged : ∀ command, op = .command (.appendEvent command) → command.turnId = none)
    (unentered : ∀ threadId, op ≠ .enterThread threadId)
    (unleft : ∀ threadId, op ≠ .leaveThread threadId)
    (performed : World.perform deployment.content deployment.codec op choice pool.state =
      some (answer, state))
    (fresh : after ≠ .foreign ∧ after ≠ .wild)
    (keeps : ∀ threadId turnId phase, after = .run threadId turnId phase →
      ∃ phase', before = .run threadId turnId phase' ∧
        (Phase.inside phase = true → Phase.inside phase' = true) ∧
        ∀ db, Logs db threadId turnId phase' → Logs db threadId turnId phase) :
    Holds (pool.record caller job op answer rest state)
      (assign controls caller (some after)) := by
  obtain ⟨tags, unlogged⟩ := perform_untagged untagged performed
  have guards := perform_activeThreads performed unentered unleft
  refine holds.step found held ?_ fresh ?_ ?_ ?_ ?_ ?_
  · intro threadId turnId phase same
    obtain ⟨phase', old, -⟩ := keeps threadId turnId phase same
    exact ⟨phase', old⟩
  · intro threadId
    rw [tags]
    exact holds.contiguous threadId
  · intro other threadId turnId phase _ old inside
    rw [guards]
    exact holds.active other threadId turnId phase old inside
  · intro threadId turnId phase same inside
    obtain ⟨phase', rfl, kept, -⟩ := keeps threadId turnId phase same
    refine ⟨?_, fun other turnId' phase'' different old => ?_⟩
    · rw [guards]
      exact holds.active caller threadId turnId phase' held (kept inside)
    · by_contra both
      exact different (holds.exclusive other caller threadId turnId' turnId phase'' phase' old
        (by simpa using both) held (kept inside))
  · intro other threadId turnId phase _ old
    exact (holds.logs other threadId turnId phase old).congr (tags threadId) (unlogged turnId)
  · intro threadId turnId phase same
    obtain ⟨phase', rfl, -, moves⟩ := keeps threadId turnId phase same
    exact moves _ ((holds.logs caller threadId turnId phase' held).congr (tags threadId)
      (unlogged turnId))

/-- A step that logs an event of a run's turn, if the run of no other block goes on. -/
theorem Holds.tagged {rest : Program serviceInterface (Result Returned)} {threadId : ThreadId}
    {turnId : TurnId} {phase phase' : Phase} {command : AppendEvent}
    {answer : Result EventEnvelope} (holds : Holds pool controls)
    {program : Program serviceInterface (Result Returned)}
    (found : pool.calls caller = some (job, program))
    (held : controls caller = some (.run threadId turnId phase))
    (thread : command.threadId = threadId) (turn : command.turnId = some turnId)
    (inside : Phase.inside phase' = true → Phase.inside phase = true)
    (continues : turnId ∉ turnTags pool.state.db threadId ∨
      (turnTags pool.state.db threadId).getLast? = some turnId)
    (idle : ∀ other turnId' phase'', other ≠ caller →
      controls other = some (.run threadId turnId' phase'') → Phase.inside phase'' = true →
      turnId' ∈ turnTags pool.state.db threadId →
      (turnTags pool.state.db threadId).getLast? = some turnId' → False)
    (logs : ∀ db, turnId ∉ turnTags db threadId ∨
      (turnTags db threadId).getLast? = some turnId → Logs db threadId turnId phase')
    (performed : World.perform deployment.content deployment.codec
      (.command (.appendEvent command)) choice pool.state = some (answer, state)) :
    Holds (pool.record caller job (.command (.appendEvent command)) answer rest state)
      (assign controls caller (some (.run threadId turnId phase'))) := by
  have guards : state.process.activeThreads = pool.state.process.activeThreads :=
    perform_activeThreads performed (fun _ same => by cases same) (fun _ same => by cases same)
  have grows : (∀ other, turnTags state.db other = turnTags pool.state.db other) ∧
      (∀ other, Unlogged pool.state.db other → Unlogged state.db other) ∨
      (∀ other, turnTags state.db other = turnTags pool.state.db other ++
        if threadId = other then [turnId] else []) ∧
      ∀ other, other ≠ turnId → Unlogged pool.state.db other → Unlogged state.db other := by
    obtain same | grown := perform_tagged turn performed
    · exact .inl ⟨fun _ => turnTags_congr same, fun _ unlogged => by rwa [Unlogged, same]⟩
    · rw [thread] at grown
      exact .inr grown
  refine holds.step found held ?_ ⟨by simp, by simp⟩ ?_ ?_ ?_ ?_ ?_
  · intro _ _ _ same
    cases same
    exact ⟨phase, rfl⟩
  · intro other
    obtain ⟨tags, -⟩ | ⟨tags, -⟩ := grows
    · rw [tags]
      exact holds.contiguous other
    · rw [tags]
      split
      · rename_i own
        exact (holds.contiguous other).append (own ▸ continues)
      · simpa using holds.contiguous other
  · intro other threadId' turnId' phase'' _ old within
    rw [guards]
    exact holds.active other threadId' turnId' phase'' old within
  · intro _ _ _ same within
    cases same
    refine ⟨?_, fun other turnId' phase'' different old => ?_⟩
    · rw [guards]
      exact holds.active caller threadId turnId phase held (inside within)
    · by_contra both
      exact different (holds.exclusive other caller threadId turnId' turnId phase'' phase old
        (by simpa using both) held (inside within))
  · intro other threadId' turnId' phase'' different old
    have known := holds.logs other threadId' turnId' phase'' old
    have another : turnId' ≠ turnId := by
      intro same
      subst same
      exact different
        (holds.distinct other caller threadId' threadId turnId' phase'' phase old held)
    obtain ⟨tags, unlogged⟩ | ⟨tags, unlogged⟩ := grows
    · exact known.congr (tags threadId') (unlogged turnId')
    · by_cases own : threadId = threadId'
      · subst own
        have grown := tags threadId
        rw [if_pos rfl] at grown
        cases phase'' with
        | outside | held => exact unlogged turnId' another known
        | driving | finished | closing =>
            obtain absent | last := known
            · left
              rw [grown, List.mem_append, List.mem_singleton]
              exact fun member => member.elim absent another
            · exact (idle other turnId' _ different old rfl (List.mem_of_getLast? last) last).elim
        | left | done => trivial
      · refine known.congr ?_ (unlogged turnId' another)
        rw [tags, if_neg own, List.append_nil]
  · intro _ _ _ same
    cases same
    refine logs _ ?_
    obtain ⟨tags, -⟩ | ⟨tags, -⟩ := grows
    · rw [tags]
      exact continues
    · rw [tags, if_pos rfl]
      exact .inr (by simp)

theorem untagged_of_aside (aside : Aside op) :
    (∀ command, op = .command (.appendEvent command) → command.turnId = none) ∧
      (∀ threadId, op ≠ .enterThread threadId) ∧ ∀ threadId, op ≠ .leaveThread threadId := by
  refine ⟨?_, ?_, ?_⟩
  · intro command same
    subst same
    exact aside
  · intro threadId same
    subst same
    exact aside
  · intro threadId same
    subst same
    exact aside

theorem Holds.perform {post : (system deployment).Job → (system deployment).Result → Span → Prop}
    {rest : Program serviceInterface (Result Returned)}
    (holds : Holds pool controls) (tracks : Tracks Span.protocol post pool controls)
    (admitted : Guarded pool (.perform caller choice))
    (found : pool.calls caller = some (job, .request op next))
    (held : controls caller = some before) (advance : Span.Advance before op answer after)
    (performed : World.perform deployment.content deployment.codec op choice pool.state =
      some (answer, state)) :
    Holds (pool.record caller job op answer rest state)
      (assign controls caller (some after)) := by
  have awaited : pool.awaits caller = some op := by
    simp only [Pool.awaits, found]
    rfl
  have fresh := holds.fresh caller
  rw [held] at fresh
  have alone {threadId : ThreadId} {turnId turnId' : TurnId} {phase phase' : Phase} {other : Nat}
      (same : before = .run threadId turnId phase) (inside : Phase.inside phase = true)
      (different : other ≠ caller) (old : controls other = some (.run threadId turnId' phase'))
      (within : Phase.inside phase' = true) : False :=
    different (holds.exclusive other caller threadId turnId' turnId phase' phase old within
      (same ▸ held) inside)
  cases advance with
  | aside aside =>
      obtain ⟨untagged, unentered, unleft⟩ := untagged_of_aside aside
      refine holds.silent found held untagged unentered unleft performed ?_ ?_
      · exact ⟨fun same => fresh.1 (congrArg some same), fun same => fresh.2 (congrArg some same)⟩
      · exact fun _ _ phase same => ⟨phase, same, id, fun _ => id⟩
  | lease | look =>
      refine holds.silent found held (fun _ same => by cases same) (fun _ same => by cases same)
        (fun _ same => by cases same) performed ⟨by simp, by simp⟩ ?_
      exact fun _ _ phase same => ⟨phase, same, id, fun _ => id⟩
  | begin | beginFailed =>
      refine holds.silent found held (fun _ same => by cases same) (fun _ same => by cases same)
        (fun _ same => by cases same) performed ⟨by simp, by simp⟩ ?_
      intro _ _ _ same
      cases same
      refine ⟨_, rfl, fun _ => rfl, fun db unlogged => ?_⟩
      first
        | exact unlogged
        | exact .inl (not_mem_of_unlogged unlogged)
  | close | closeFinished =>
      refine holds.silent found held (fun _ same => by cases same) (fun _ same => by cases same)
        (fun _ same => by cases same) performed ⟨by simp, by simp⟩ ?_
      intro _ _ _ same
      cases same
      exact ⟨_, rfl, fun _ => rfl, fun _ => id⟩
  | sweep =>
      refine holds.silent found held (fun _ same => by cases same) (fun _ same => by cases same)
        (fun _ same => by cases same) performed ⟨by simp, by simp⟩ ?_
      intro _ _ _ same
      cases same
  | write thread turn | complete thread turn | completeFailed thread turn =>
      exact holds.tagged found held thread turn (fun _ => rfl) (holds.logs _ _ _ _ held)
        (fun _ _ _ different old within _ _ => alone rfl rfl different old within)
        (fun _ known => known) performed
  | @announce threadId turnId phase ended command _ at' thread turn announces =>
      have ordered := admitted.orderly command turnId awaited turn (fails_of_announces announces)
      rw [thread] at ordered
      refine holds.tagged found held thread turn (fun within => by cases within) ?_ ?_
        (fun _ _ => trivial) performed
      · obtain last | ⟨absent, -⟩ := ordered
        · exact .inr last
        · exact .inl absent
      · intro other turnId' phase' different old within member last
        obtain ⟨input, program, called⟩ := holds.jobs other threadId turnId' phase' old
        obtain own | ⟨-, idle⟩ := ordered
        · rw [own] at last
          cases last
          exact different (holds.distinct other caller threadId threadId turnId phase' phase old
            held)
        · obtain ⟨early, running⟩ := tracks.running_of_call old called
          exact idle other early different threadId turnId' input running last
  | @enter threadId turnId =>
      obtain ⟨same, ⟨-, absent, entered⟩ | ⟨barred, -⟩⟩ := perform_enter performed
      · refine holds.step found held ?_ ⟨by simp, by simp⟩ ?_ ?_ ?_ ?_ ?_
        · intro _ _ _ equal
          cases equal
          exact ⟨_, rfl⟩
        · intro other
          rw [same]
          exact holds.contiguous other
        · intro other _ _ _ _ old within
          rw [entered]
          exact List.mem_cons_of_mem _ (holds.active other _ _ _ old within)
        · intro _ _ _ equal _
          cases equal
          refine ⟨by rw [entered]; exact List.mem_cons_self, fun other _ _ _ old => ?_⟩
          by_contra both
          exact absent (holds.active other _ _ _ old (by simpa using both))
        · intro other _ _ _ _ old
          rw [same]
          exact holds.logs other _ _ _ old
        · intro _ _ _ equal
          cases equal
          have unlogged : Unlogged pool.state.db turnId :=
            holds.logs caller threadId turnId .outside held
          rw [same]
          exact unlogged
      · cases barred
  | @barred threadId turnId =>
      obtain ⟨same, ⟨entered, -⟩ | ⟨-, guards⟩⟩ := perform_enter performed
      · cases entered
      · refine holds.step found held ?_ ⟨by simp, by simp⟩ ?_ ?_ ?_ ?_ ?_
        · intro _ _ _ equal
          cases equal
          exact ⟨_, rfl⟩
        · intro other
          rw [same]
          exact holds.contiguous other
        · intro other _ _ _ _ old within
          rw [guards]
          exact holds.active other _ _ _ old within
        · intro _ _ _ equal within
          cases equal
          cases within
        · intro other _ _ _ _ old
          rw [same]
          exact holds.logs other _ _ _ old
        · intro _ _ _ equal
          cases equal
          trivial
  | @leaveUnstarted threadId turnId | @leave threadId turnId status =>
      obtain ⟨same, guards⟩ := perform_leave performed
      refine holds.step found held ?_ ⟨by simp, by simp⟩ ?_ ?_ ?_ ?_ ?_
      · intro _ _ _ equal
        cases equal
        exact ⟨_, rfl⟩
      · intro other
        rw [same]
        exact holds.contiguous other
      · intro other threadId' _ _ different old within
        rw [guards, List.mem_filter]
        refine ⟨holds.active other _ _ _ old within, ?_⟩
        refine decide_eq_true fun own => ?_
        subst own
        exact alone rfl rfl different old within
      · intro _ _ _ equal within
        cases equal
        cases within
      · intro other _ _ _ _ old
        rw [same]
        exact holds.logs other _ _ _ old
      · intro _ _ _ equal
        cases equal
        trivial
  | pass => exact absurd rfl fresh.1
  | passOut => exact absurd rfl fresh.1
  | passLease => exact absurd rfl fresh.1
  | remember => exact absurd rfl fresh.1
  | seize => exact absurd rfl fresh.1
  | wild => exact absurd rfl fresh.2

theorem Holds.spawn {post : (system deployment).Job → (system deployment).Result → Span → Prop}
    (job : Job) (tracks : Tracks Span.protocol post pool controls)
    (admitted : Guarded pool (.spawn job)) (holds : Holds pool controls) :
    Holds (Pool.spawn pool job) (assign controls pool.spawned (some (Span.begins job))) := by
  have unspawned {other : Nat} {span : Span} (found : controls other = some span) :
      other ≠ pool.spawned := by
    intro same
    subst same
    rw [tracks.control_none (Nat.le_refl _)] at found
    cases found
  have outside {threadId : ThreadId} {turnId : TurnId} {phase : Phase}
      (begun : Span.begins job = .run threadId turnId phase) :
      phase = .outside ∧ ∃ input, job = .runTurn threadId turnId input := by
    cases job <;> cases begun
    exact ⟨rfl, _, rfl⟩
  have another {other : Nat} {threadId threadId' : ThreadId} {turnId : TurnId}
      {phase : Phase} {input : TurnInput} (spawned : job = .runTurn threadId' turnId input)
      (old : controls other = some (.run threadId turnId phase)) : False := by
    subst spawned
    obtain ⟨-, distinct⟩ := admitted.concurrent
    obtain ⟨input', program, called⟩ := holds.jobs other threadId turnId phase old
    obtain ⟨early, running⟩ := tracks.running_of_call old called
    exact distinct other early threadId input' running
  constructor
  · exact holds.contiguous
  · intro other
    by_cases same : other = pool.spawned
    · subst same
      rw [assign_same]
      cases job with
      | resumeTurn => exact admitted.concurrent.elim
      | _ => exact ⟨by simp [Span.begins], by simp [Span.begins]⟩
    · rw [assign_other _ _ same]
      exact holds.fresh other
  · intro other threadId turnId phase found
    obtain ⟨rfl, equal⟩ | ⟨different, old⟩ := assign_eq_some found
    · obtain ⟨-, input, rfl⟩ := outside (Option.some.inj equal)
      exact ⟨input, (system deployment).program (.runTurn threadId turnId input), by
        simp [Pool.spawn]⟩
    · obtain ⟨input, program, called⟩ := holds.jobs other threadId turnId phase old
      exact ⟨input, program, by simpa [Pool.spawn, assign_other _ _ different] using called⟩
  · intro left right threadId threadId' turnId phase phase' foundLeft foundRight
    obtain ⟨rfl, equalLeft⟩ | ⟨_, oldLeft⟩ := assign_eq_some foundLeft <;>
      obtain ⟨rfl, equalRight⟩ | ⟨_, oldRight⟩ := assign_eq_some foundRight
    · rfl
    · obtain ⟨-, input, spawned⟩ := outside (Option.some.inj equalLeft)
      exact (another spawned oldRight).elim
    · obtain ⟨-, input, spawned⟩ := outside (Option.some.inj equalRight)
      exact (another spawned oldLeft).elim
    · exact holds.distinct left right threadId threadId' turnId phase phase' oldLeft oldRight
  · intro other threadId turnId phase found inside
    obtain ⟨-, equal⟩ | ⟨-, old⟩ := assign_eq_some found
    · obtain ⟨rfl, -⟩ := outside (Option.some.inj equal)
      cases inside
    · exact holds.active other threadId turnId phase old inside
  · intro left right threadId turnId turnId' phase phase' foundLeft insideLeft foundRight
      insideRight
    obtain ⟨-, equalLeft⟩ | ⟨_, oldLeft⟩ := assign_eq_some foundLeft
    · obtain ⟨rfl, -⟩ := outside (Option.some.inj equalLeft)
      cases insideLeft
    obtain ⟨-, equalRight⟩ | ⟨_, oldRight⟩ := assign_eq_some foundRight
    · obtain ⟨rfl, -⟩ := outside (Option.some.inj equalRight)
      cases insideRight
    exact holds.exclusive left right threadId turnId turnId' phase phase' oldLeft insideLeft
      oldRight insideRight
  · intro other threadId turnId phase found
    obtain ⟨-, equal⟩ | ⟨-, old⟩ := assign_eq_some found
    · obtain ⟨rfl, input, rfl⟩ := outside (Option.some.inj equal)
      exact admitted.concurrent.1
    · exact holds.logs other threadId turnId phase old

theorem Holds.finish (holds : Holds pool controls) :
    Holds pool (assign controls caller none) := by
  have earlier {other : Nat} {span : Span}
      (found : assign controls caller none other = some span) : controls other = some span := by
    obtain ⟨-, equal⟩ | ⟨-, old⟩ := assign_eq_some found
    · cases equal
    · exact old
  constructor
  · exact holds.contiguous
  · intro other
    exact ⟨fun found => (holds.fresh other).1 (earlier found),
      fun found => (holds.fresh other).2 (earlier found)⟩
  · exact fun other _ _ _ found => holds.jobs other _ _ _ (earlier found)
  · exact fun left right _ _ _ _ _ foundLeft foundRight =>
      holds.distinct left right _ _ _ _ _ (earlier foundLeft) (earlier foundRight)
  · exact fun other _ _ _ found => holds.active other _ _ _ (earlier found)
  · exact fun left right _ _ _ _ _ foundLeft insideLeft foundRight =>
      holds.exclusive left right _ _ _ _ _ (earlier foundLeft) insideLeft (earlier foundRight)
  · exact fun other _ _ _ found => holds.logs other _ _ _ (earlier found)

/-- The invariant of the guarded pool. -/
theorem invariant : Invariant (system deployment) Span.protocol Span.begins Span.ends
    Guarded Holds where
  spawn job tracks admitted holds := holds.spawn job tracks admitted
  perform := by
    intro pool controls caller job op next before after choice answer state tracks admitted found
      held advance performed holds
    exact Holds.perform holds tracks admitted found held advance performed
  finish _ _ _ holds := holds.finish
  crash startup _ admitted _ := admitted.concurrent.elim

theorem holds_of_boots {pool : Pool deployment} (boots : Boots pool) :
    (∀ caller, pool.calls caller = none) ∧ Holds pool fun _ => none := by
  obtain ⟨world, idle, contiguous, rfl⟩ := boots
  refine ⟨fun _ => rfl, contiguous, fun _ => ⟨by simp, by simp⟩, ?_, ?_, ?_, ?_, ?_⟩
  · intro caller threadId turnId phase found
    cases found
  · intro left right threadId threadId' turnId phase phase' found
    cases found
  · intro caller threadId turnId phase found
    cases found
  · intro left right threadId turnId turnId' phase phase' found
    cases found
  · intro caller threadId turnId phase found
    cases found

end

end Contiguity

open Contiguity in
/-- The events of each turn form one contiguous block in the log of its thread. -/
theorem contiguous_of_orderly (deployment : Deployment) (pool : Pool deployment)
    (reached : Pool.Reachable Guarded Boots pool) (threadId : ThreadId) :
    Contiguous (turnTags pool.state.db threadId) := by
  obtain ⟨controls, tracks, holds⟩ :=
    Invariant.reachable invariant (fun _ => holds_of_boots) (Span.conforms deployment) reached
  exact holds.contiguous threadId

namespace Contiguity

open Demo

/-- A second run on the thread of a first one that has made a number of steps, and
is refused; the first one goes on. -/
def refusal (count rest : Nat) : List Demo.Step :=
  run ++ settle 0 count ++
    spawn (.runTurn Demo.thread ⟨1⟩ { content := "", incidentContext := none }) ++
    settle 1 4 ++ settle 0 rest

theorem boots_demo : Boots Demo.pool := by
  refine ⟨Demo.world, rfl, fun threadId => ?_, rfl⟩
  have untagged : turnTags Demo.world.db threadId = [] := by
    by_cases own : Demo.thread = threadId <;>
      simp [turnTags, Database.threadEvents, Demo.world, own]
  rw [untagged]
  exact contiguous_nil

end Contiguity

open Contiguity

theorem contiguous_of_orderly_refusal :
    ∃ pool : Pool Demo.deployment, Pool.Reachable Guarded Boots pool ∧
      turnTags pool.state.db Demo.thread = [⟨1⟩, Demo.turn, Demo.turn] ∧
      Contiguous (turnTags pool.state.db Demo.thread) := by
  have ran : (Pool.runChecked guarded (Demo.labels 0 (refusal 2 8)) Demo.pool).map
      (fun pool => turnTags pool.state.db Demo.thread) =
        some [⟨1⟩, Demo.turn, Demo.turn] := by
    decide +kernel
  obtain ⟨pool, final, logged⟩ := Option.map_eq_some_iff.mp ran
  have reached : Pool.Reachable Guarded Boots pool :=
    .of_runChecked guarded_sound (.start boots_demo) final
  exact ⟨pool, reached, logged, contiguous_of_orderly Demo.deployment pool reached Demo.thread⟩

/-- A refused run announces its failure between two events of the running turn. -/
theorem not_contiguous_of_refusal :
    ¬ ∀ (deployment : Deployment) (pool : Pool deployment),
      Pool.Reachable Concurrent Boots pool →
      ∀ threadId, Contiguous (turnTags pool.state.db threadId) := by
  intro claimed
  have ran : (Pool.runChecked concurrent (Demo.labels 0 (refusal 9 1)) Demo.pool).map
      (fun pool => turnTags pool.state.db Demo.thread) =
        some ([] ++ Demo.turn :: [⟨1⟩] ++ Demo.turn :: []) := by
    decide +kernel
  obtain ⟨pool, final, logged⟩ := Option.map_eq_some_iff.mp ran
  have contiguous := claimed Demo.deployment pool
    (.of_runChecked concurrent_sound (.start boots_demo) final) Demo.thread
  rw [logged] at contiguous
  have member : (⟨1⟩ : TurnId) ∈ [(⟨1⟩ : TurnId)] := List.mem_singleton.mpr rfl
  exact not_contiguous member (by decide) contiguous

end OpsCodex.Turn
