import OpsCodex.Server.ActiveTurns

/-! The server's routes on turns beside the tasks they start: every task holds the
registration of its turn from its start to its removal. -/

set_option autoImplicit false

namespace OpsCodex.Server

open Effect OpsCodex.Store OpsCodex.Runtime OpsCodex.Turn

/-- A task that runs a turn: the call on the runtime it waits for, and what it removes. -/
structure TurnTask where
  caller : Nat
  threadId : ThreadId
  turnId : TurnId
  cancellation : CancellationToken
  deriving DecidableEq

/-- The state of a server. `resuming` holds the reports of resume requests that have not
registered their turn yet, and `home` the thread of each turn id that was ever made. -/
structure ServerState (deployment : Deployment) where
  pool : Pool deployment
  activeTurns : ActiveTurns
  tasks : List TurnTask
  resuming : List (TurnId × RecoveryReport)
  cancelled : List CancellationToken
  tokens : CancellationToken
  home : TurnId → Option ThreadId

namespace ServerState

variable {deployment : Deployment}

inductive Step (deployment : Deployment) where
  | createTurn (threadId : ThreadId) (turnId : TurnId) (input : TurnInput)
  | recoveryReport (turnId : TurnId) (events : List EventEnvelope)
  | resumeTurn (request : Nat) (idempotencyKey : String)
  | interruptTurn (turnId : TurnId)
  | finish (task : TurnTask)
  | runtime (caller : Nat) (choice : Choice)
  | call (job : Job)
  | crash (startup : Catalog)

/-- Register a turn and start its task; a thread with an active turn is left alone. -/
def start (server : ServerState deployment) (threadId : ThreadId) (turnId : TurnId) (job : Job) :
    ServerState deployment :=
  match server.activeTurns.insert threadId turnId server.tokens with
  | (_, false) => { server with tokens := server.tokens + 1 }
  | (activeTurns, true) => { server with
      pool := server.pool.spawn job
      activeTurns := activeTurns
      tasks := server.tasks ++ [⟨server.pool.spawned, threadId, turnId, server.tokens⟩]
      tokens := server.tokens + 1 }

/-- A turn id that was never made before is made for a thread. -/
def createTurn (server : ServerState deployment) (threadId : ThreadId) (turnId : TurnId)
    (input : TurnInput) : Option (ServerState deployment) :=
  if (server.home turnId).isSome then none
  else some ({ server with home := Function.update server.home turnId (some threadId) }.start
    threadId turnId (.runTurn threadId turnId input))

def recoveryReport (server : ServerState deployment) (turnId : TurnId)
    (events : List EventEnvelope) : Option (ServerState deployment) :=
  match server.pool.state.db.lastCheckpoint turnId with
  | some checkpoint =>
      if (classifyCheckpoint checkpoint events).resumePolicy = .reconcile then none
      else some { server with
        resuming := server.resuming ++ [(turnId, classifyCheckpoint checkpoint events)] }
  | none => none

def resumeTurn (server : ServerState deployment) (request : Nat) (idempotencyKey : String) :
    Option (ServerState deployment) :=
  match server.resuming[request]? with
  | some (turnId, report) =>
      some ({ server with resuming := server.resuming.eraseIdx request }.start report.threadId
        turnId (.resumeTurn turnId (some idempotencyKey)))
  | none => none

def interruptTurn (server : ServerState deployment) (turnId : TurnId) :
    Option (ServerState deployment) :=
  match server.activeTurns.cancellation turnId with
  | some cancellation => some { server with cancelled := server.cancelled ++ [cancellation] }
  | none => none

/-- A task whose call has returned removes its turn. -/
def finish (server : ServerState deployment) (task : TurnTask) : Option (ServerState deployment) :=
  if task ∈ server.tasks ∧ server.pool.running task.caller = none then
    some { server with
      activeTurns := server.activeTurns.remove task.threadId task.turnId
      tasks := server.tasks.filter fun other => decide (other ≠ task) }
  else none

/-- Another call on the runtime, which does not run a turn that was just made. -/
def call (server : ServerState deployment) (job : Job) : Option (ServerState deployment) :=
  match job with
  | .runTurn .. => none
  | job => some { server with pool := server.pool.spawn job }

/-- A new process begins with nothing registered. -/
def crash (server : ServerState deployment) (startup : Catalog) : ServerState deployment :=
  { server with
    pool := server.pool.crash startup
    activeTurns := .empty
    tasks := []
    resuming := []
    cancelled := [] }

def apply (server : ServerState deployment) : Step deployment → Option (ServerState deployment)
  | .createTurn threadId turnId input => server.createTurn threadId turnId input
  | .recoveryReport turnId events => server.recoveryReport turnId events
  | .resumeTurn request idempotencyKey => server.resumeTurn request idempotencyKey
  | .interruptTurn turnId => server.interruptTurn turnId
  | .finish task => server.finish task
  | .runtime caller choice =>
      (server.pool.apply (.perform caller choice)).map fun pool => { server with pool := pool }
  | .call job => server.call job
  | .crash startup => some (server.crash startup)

/-- The states that a server comes to from a state it begins in. -/
inductive Reachable (begins : ServerState deployment) : ServerState deployment → Prop where
  | start : Reachable begins begins
  | step {server next} (step : Step deployment) (reached : Reachable begins server)
      (applied : server.apply step = some next) : Reachable begins next

/-- Take steps one after the other. -/
def run : List (Step deployment) → ServerState deployment → Option (ServerState deployment)
  | [], server => some server
  | step :: steps, server =>
      match server.apply step with
      | some next => run steps next
      | none => none

/-- A server that has just started, over a store whose turns were each made for the thread
that their checkpoints are in. -/
structure Boots (server : ServerState deployment) : Prop where
  calls : ∀ caller, server.pool.calls caller = none
  active : server.activeTurns = .empty
  tasks : server.tasks = []
  resuming : server.resuming = []
  homes : CheckpointsAtHome server.home server.pool.state.db

/-- The registry holds the turns of the tasks, one for each thread. -/
structure Registered (server : ServerState deployment) : Prop where
  registers : ∀ task ∈ server.tasks,
    server.activeTurns.Registers task.threadId task.turnId task.cancellation
  threads : ∀ threadId turnId, server.activeTurns.byThread threadId = some turnId →
    ∃ task ∈ server.tasks, task.threadId = threadId ∧ task.turnId = turnId
  turns : ∀ turnId cancellation, server.activeTurns.byTurn turnId = some cancellation →
    ∃ task ∈ server.tasks, task.turnId = turnId
  apart : ∀ task ∈ server.tasks, ∀ other ∈ server.tasks,
    task.threadId = other.threadId → task = other
  homes : ∀ task ∈ server.tasks, server.home task.turnId = some task.threadId
  resuming : ∀ request ∈ server.resuming,
    server.home request.1 = some request.2.threadId

/-- The threads of turn ids that were made are kept. -/
def Extends (home later : TurnId → Option ThreadId) : Prop :=
  ∀ turnId threadId, home turnId = some threadId → later turnId = some threadId

section

variable {server next begins : ServerState deployment} {threadId : ThreadId} {turnId : TurnId}

theorem Reachable.of_run {steps : List (Step deployment)} (reached : Reachable begins server)
    (ran : run steps server = some next) : Reachable begins next := by
  induction steps generalizing server with
  | nil =>
      cases ran
      exact reached
  | cons step steps ih =>
      simp only [run] at ran
      split at ran
      · rename_i applied
        exact ih (reached.step step applied) ran
      · cases ran

theorem extends_createTurn (fresh : server.home turnId = none) (threadId : ThreadId) :
    Extends server.home (Function.update server.home turnId (some threadId)) := by
  intro other thread made
  rw [Function.update_of_ne (fun same => by rw [same, fresh] at made; cases made), made]

theorem start_home (job : Job) : (server.start threadId turnId job).home = server.home := by
  unfold start
  split <;> rfl

theorem start_pool (server : ServerState deployment) (threadId : ThreadId) (turnId : TurnId)
    (job : Job) :
    (server.start threadId turnId job).pool = server.pool ∨
      (server.start threadId turnId job).pool = server.pool.spawn job := by
  unfold start
  split
  · exact .inl rfl
  · exact .inr rfl

theorem Registered.empty (tasks : server.tasks = []) (active : server.activeTurns = .empty)
    (resuming : server.resuming = []) : Registered server := by
  constructor
  · simp [tasks]
  · intro threadId turnId found
    rw [active] at found
    cases found
  · intro turnId cancellation found
    rw [active] at found
    cases found
  · simp [tasks]
  · simp [tasks]
  · simp [resuming]

/-- A change of other parts, in which ids are only added. -/
theorem Registered.congr (registered : Registered server)
    (active : next.activeTurns = server.activeTurns) (tasks : next.tasks = server.tasks)
    (grown : Extends server.home next.home)
    (resuming : ∀ request ∈ next.resuming, next.home request.1 = some request.2.threadId) :
    Registered next := by
  constructor
  · rw [active, tasks]
    exact registered.registers
  · rw [active, tasks]
    exact registered.threads
  · rw [active, tasks]
    exact registered.turns
  · rw [tasks]
    exact registered.apart
  · rw [tasks]
    exact fun task member => grown _ _ (registered.homes task member)
  · exact resuming

/-- Different tasks are of different threads and of different turns. -/
theorem Registered.distinct (registered : Registered server) {task other : TurnTask}
    (member : task ∈ server.tasks) (inside : other ∈ server.tasks) (different : other ≠ task) :
    other.threadId ≠ task.threadId ∧ other.turnId ≠ task.turnId := by
  have threads : other.threadId ≠ task.threadId := fun same =>
    different (registered.apart other inside task member same)
  refine ⟨threads, fun same => threads ?_⟩
  have first := registered.homes task member
  rw [← same, registered.homes other inside] at first
  exact Option.some.inj first

/-- A turn is registered at home. -/
theorem Registered.start (registered : Registered server)
    (made : server.home turnId = some threadId) (job : Job) :
    Registered (server.start threadId turnId job) := by
  unfold ServerState.start
  split
  · exact registered.congr rfl rfl (fun _ _ => id) registered.resuming
  · rename_i activeTurns inserted
    obtain ⟨vacant, byThread, byTurn⟩ := ActiveTurns.insert_eq_true inserted
    have old (task : TurnTask) (member : task ∈ server.tasks) :
        task.threadId ≠ threadId ∧ task.turnId ≠ turnId := by
      have threads : task.threadId ≠ threadId := by
        intro same
        have held := (registered.registers task member).thread
        rw [same, vacant] at held
        cases held
      refine ⟨threads, fun same => threads ?_⟩
      have home := registered.homes task member
      rw [same, made] at home
      exact (Option.some.inj home).symm
    constructor
    · intro task member
      obtain earlier | added := List.mem_append.mp member
      · exact (registered.registers task earlier).insert_other (old task earlier).1
          (old task earlier).2 inserted
      · rw [List.mem_singleton.mp added]
        exact .insert inserted
    · intro thread turn found
      rw [byThread] at found
      by_cases same : thread = threadId
      · rw [same, Function.update_self] at found
        exact ⟨_, List.mem_append_right _ (List.mem_singleton_self _), same.symm,
          Option.some.inj found⟩
      · rw [Function.update_of_ne same] at found
        obtain ⟨task, member, ofTask⟩ := registered.threads thread turn found
        exact ⟨task, List.mem_append_left _ member, ofTask⟩
    · intro turn cancellation found
      rw [byTurn] at found
      by_cases same : turn = turnId
      · exact ⟨_, List.mem_append_right _ (List.mem_singleton_self _), same.symm⟩
      · rw [Function.update_of_ne same] at found
        obtain ⟨task, member, ofTask⟩ := registered.turns turn cancellation found
        exact ⟨task, List.mem_append_left _ member, ofTask⟩
    · intro task member other inside same
      obtain earlier | added := List.mem_append.mp member <;>
        obtain earlier' | added' := List.mem_append.mp inside
      · exact registered.apart task earlier other earlier' same
      · rw [List.mem_singleton.mp added'] at same
        exact absurd same (old task earlier).1
      · rw [List.mem_singleton.mp added] at same
        exact absurd same.symm (old other earlier').1
      · rw [List.mem_singleton.mp added, List.mem_singleton.mp added']
    · intro task member
      obtain earlier | added := List.mem_append.mp member
      · exact registered.homes task earlier
      · rw [List.mem_singleton.mp added]
        exact made
    · exact registered.resuming

theorem Registered.finish {task : TurnTask} (registered : Registered server)
    (finished : server.finish task = some next) : Registered next := by
  unfold ServerState.finish at finished
  split at finished
  · rename_i returned
    cases finished
    obtain ⟨member, -⟩ := returned
    have rest {other : TurnTask}
        (inside : other ∈ server.tasks.filter fun other => decide (other ≠ task)) :
        other ∈ server.tasks ∧ other ≠ task := by
      simpa using inside
    constructor
    · intro other inside
      obtain ⟨earlier, different⟩ := rest inside
      obtain ⟨threads, turns⟩ := registered.distinct member earlier different
      exact (registered.registers other earlier).remove threads turns
    · intro thread turn found
      obtain ⟨held, unlike⟩ := ActiveTurns.byThread_remove found
      obtain ⟨other, inside, ofThread, ofTurn⟩ := registered.threads thread turn held
      refine ⟨other, List.mem_filter.mpr ⟨inside, decide_eq_true fun same => ?_⟩, ofThread,
        ofTurn⟩
      subst same
      exact unlike ofThread.symm ofTurn.symm
    · intro turn cancellation found
      obtain ⟨held, unlike⟩ := ActiveTurns.byTurn_remove found
      obtain ⟨other, inside, ofTurn⟩ := registered.turns turn cancellation held
      refine ⟨other, List.mem_filter.mpr ⟨inside, decide_eq_true fun same => ?_⟩, ofTurn⟩
      subst same
      exact unlike ofTurn.symm
    · exact fun one first other second =>
        registered.apart one (rest first).1 other (rest second).1
    · exact fun other inside => registered.homes other (rest inside).1
    · exact registered.resuming
  · cases finished

/-- What one step keeps, when the checkpoints are at home. -/
theorem Registered.step {step : Step deployment} (registered : Registered server)
    (homes : CheckpointsAtHome server.home server.pool.state.db)
    (applied : server.apply step = some next) :
    Registered next ∧ Extends server.home next.home := by
  have kept : Extends server.home server.home := fun _ _ => id
  cases step with
  | createTurn threadId turnId input =>
      simp only [apply, ServerState.createTurn] at applied
      split at applied
      · cases applied
      · rename_i fresh
        cases applied
        have grown := extends_createTurn (by simpa using fresh) threadId
        rw [start_home]
        have earlier : Registered { server with
            home := Function.update server.home turnId (some threadId) } :=
          registered.congr rfl rfl grown fun request member =>
            grown _ _ (registered.resuming request member)
        exact ⟨earlier.start (Function.update_self ..) _, grown⟩
  | recoveryReport turnId events =>
      simp only [apply, ServerState.recoveryReport] at applied
      split at applied
      · rename_i checkpoint last
        split at applied
        · cases applied
        · cases applied
          refine ⟨registered.congr rfl rfl kept fun request member => ?_, kept⟩
          obtain earlier | added := List.mem_append.mp member
          · exact registered.resuming request earlier
          · rw [List.mem_singleton.mp added]
            exact homes.last last
      · cases applied
  | resumeTurn request idempotencyKey =>
      simp only [apply, ServerState.resumeTurn] at applied
      split at applied
      · rename_i turnId report found
        cases applied
        have made := registered.resuming _ (List.mem_of_getElem? found)
        have earlier : Registered { server with resuming := server.resuming.eraseIdx request } :=
          registered.congr rfl rfl kept fun other member =>
            registered.resuming other ((List.eraseIdx_sublist _ _).subset member)
        rw [start_home]
        exact ⟨earlier.start made _, kept⟩
      · cases applied
  | interruptTurn turnId =>
      simp only [apply, ServerState.interruptTurn] at applied
      split at applied
      · cases applied
        exact ⟨registered.congr rfl rfl kept registered.resuming, kept⟩
      · cases applied
  | finish task =>
      have same : next.home = server.home := by
        simp only [apply, ServerState.finish] at applied
        split at applied
        · cases applied
          rfl
        · cases applied
      rw [same]
      exact ⟨registered.finish applied, kept⟩
  | runtime caller choice =>
      obtain ⟨pool, -, rfl⟩ := Option.map_eq_some_iff.mp applied
      exact ⟨registered.congr rfl rfl kept registered.resuming, kept⟩
  | call job =>
      simp only [apply, ServerState.call] at applied
      split at applied
      · cases applied
      · cases applied
        exact ⟨registered.congr rfl rfl kept registered.resuming, kept⟩
  | crash startup =>
      cases applied
      exact ⟨.empty rfl rfl rfl, kept⟩

/-- The runtime of a server runs turns at home, also at the homes of later states. -/
theorem reachable_pool {step : Step deployment} {later : TurnId → Option ThreadId}
    {starts : Pool deployment → Prop}
    (reached : Pool.Reachable (AtHome later) starts server.pool)
    (applied : server.apply step = some next) (grown : Extends next.home later) :
    Pool.Reachable (AtHome later) starts next.pool := by
  have spawned {job : Job} (admitted : AtHome later server.pool (.spawn job)) :
      Pool.Reachable (AtHome later) starts (server.pool.spawn job) :=
    reached.step admitted rfl
  cases step with
  | createTurn threadId turnId input =>
      simp only [apply, ServerState.createTurn] at applied
      split at applied
      · cases applied
      · cases applied
        rw [start_home] at grown
        obtain same | same := ServerState.start_pool
          { server with home := Function.update server.home turnId (some threadId) } threadId turnId
          (.runTurn threadId turnId input)
        · rw [same]
          exact reached
        · rw [same]
          exact spawned (grown _ _ (Function.update_self ..))
  | recoveryReport turnId events =>
      simp only [apply, ServerState.recoveryReport] at applied
      split at applied
      · split at applied
        · cases applied
        · cases applied
          exact reached
      · cases applied
  | resumeTurn request idempotencyKey =>
      simp only [apply, ServerState.resumeTurn] at applied
      split at applied
      · rename_i turnId report found
        cases applied
        obtain same | same := ServerState.start_pool
          { server with resuming := server.resuming.eraseIdx request } report.threadId turnId
          (.resumeTurn turnId (some idempotencyKey))
        · rw [same]
          exact reached
        · rw [same]
          exact spawned trivial
      · cases applied
  | interruptTurn turnId =>
      simp only [apply, ServerState.interruptTurn] at applied
      split at applied
      · cases applied
        exact reached
      · cases applied
  | finish task =>
      simp only [apply, ServerState.finish] at applied
      split at applied
      · cases applied
        exact reached
      · cases applied
  | runtime caller choice =>
      obtain ⟨pool, performed, rfl⟩ := Option.map_eq_some_iff.mp applied
      exact reached.step (show AtHome later server.pool (.perform caller choice) from trivial)
        performed
  | call job =>
      cases job with
      | runTurn threadId turnId input => cases applied
      | resumeTurn turnId key =>
          cases applied
          exact spawned trivial
      | recover =>
          cases applied
          exact spawned trivial
      | resolveApproval id approved =>
          cases applied
          exact spawned trivial
  | crash startup =>
      cases applied
      exact reached.step (show AtHome later server.pool (.crash startup) from trivial) rfl

/-- What holds of the registry of a server in every run. -/
structure Coherent (server : ServerState deployment) : Prop where
  oneTurn : ∀ task ∈ server.tasks, ∀ other ∈ server.tasks,
    task.threadId = other.threadId → task = other
  running : ∀ threadId turnId, server.activeTurns.byThread threadId = some turnId ↔
    ∃ task ∈ server.tasks, task.threadId = threadId ∧ task.turnId = turnId
  sameTurns : ∀ turnId, (server.activeTurns.cancellation turnId).isSome ↔
    ∃ threadId, server.activeTurns.byThread threadId = some turnId
  oneThread : ∀ turnId threadId other, server.activeTurns.byThread threadId = some turnId →
    server.activeTurns.byThread other = some turnId → threadId = other
  removal : ∀ task ∈ server.tasks, ∀ other ∈ server.tasks, other ≠ task →
    (server.activeTurns.remove task.threadId task.turnId).Registers other.threadId other.turnId
      other.cancellation

theorem Registered.coherent (registered : Registered server) : Coherent server where
  oneTurn := registered.apart
  running threadId turnId := by
    constructor
    · exact registered.threads threadId turnId
    · rintro ⟨task, member, rfl, rfl⟩
      exact (registered.registers task member).thread
  sameTurns turnId := by
    constructor
    · intro active
      obtain ⟨cancellation, found⟩ := Option.isSome_iff_exists.mp active
      obtain ⟨task, member, rfl⟩ := registered.turns turnId cancellation found
      exact ⟨task.threadId, (registered.registers task member).thread⟩
    · rintro ⟨threadId, found⟩
      obtain ⟨task, member, -, rfl⟩ := registered.threads threadId turnId found
      have held := (registered.registers task member).turn
      rw [ActiveTurns.cancellation, held]
      rfl
  oneThread turnId threadId other found found' := by
    obtain ⟨task, member, rfl, rfl⟩ := registered.threads threadId turnId found
    obtain ⟨task', member', rfl, same⟩ := registered.threads other task.turnId found'
    have home := registered.homes task member
    rw [← same, registered.homes task' member'] at home
    exact (Option.some.inj home).symm
  removal task member other inside different := by
    obtain ⟨threads, turns⟩ := registered.distinct member inside different
    exact (registered.registers other inside).remove threads turns

theorem registered_of_reachable (boots : Boots begins) (reached : Reachable begins server) :
    Registered server ∧ ∀ later, Extends server.home later →
      Pool.Reachable (AtHome later) (fun pool => (∀ caller, pool.calls caller = none) ∧
        CheckpointsAtHome later pool.state.db) server.pool := by
  induction reached with
  | start =>
      refine ⟨.empty boots.tasks boots.active boots.resuming, fun later grown => .start ?_⟩
      exact ⟨boots.calls, fun checkpoint member => grown _ _ (boots.homes checkpoint member)⟩
  | step step reached applied ih =>
      obtain ⟨registered, pools⟩ := ih
      have homes := checkpointsAtHome (fun _ => id) (pools _ fun _ _ => id)
      obtain ⟨after, grown⟩ := registered.step homes applied
      refine ⟨after, fun later extended => ?_⟩
      exact reachable_pool
        (pools later fun turnId threadId made => extended _ _ (grown _ _ made)) applied extended

/-- In every run the registry holds one turn for each thread, in both maps, and what a
finished task removes is its own registration. -/
theorem coherent_of_reachable (boots : Boots begins) (reached : Reachable begins server) :
    Coherent server :=
  (registered_of_reachable boots reached).1.coherent

end

/-- A server of one thread, which nothing was asked of yet. -/
def demo : ServerState Turn.Demo.deployment where
  pool := Turn.Demo.pool
  activeTurns := .empty
  tasks := []
  resuming := []
  cancelled := []
  tokens := 0
  home := fun _ => none

def settle (start count : Nat) : List (Step Turn.Demo.deployment) :=
  (List.range count).map fun index => .runtime 0 (.settle (start + index : Nat))

/-- One turn runs to its end while a second is refused; then a third begins. -/
def steps : List (Step Turn.Demo.deployment) :=
  [.createTurn Turn.Demo.thread ⟨7⟩ { content := "", incidentContext := none },
      .interruptTurn ⟨7⟩] ++
    settle 0 24 ++ [.runtime 0 (.model { deltas := [], ending := .finished (.ok []) }),
      .createTurn Turn.Demo.thread ⟨8⟩ { content := "", incidentContext := none }] ++
    settle 24 12 ++ [.finish ⟨0, Turn.Demo.thread, ⟨7⟩, 0⟩,
      .createTurn Turn.Demo.thread ⟨9⟩ { content := "", incidentContext := none }]

theorem boots_demo : Boots demo where
  calls _ := rfl
  active := rfl
  tasks := rfl
  resuming := rfl
  homes checkpoint member := by cases member

theorem coherent_of_reachable_demo :
    ∃ server, Reachable demo server ∧ server.tasks = [⟨1, Turn.Demo.thread, ⟨9⟩, 2⟩] ∧
      Coherent server := by
  have ran : (run steps demo).map (fun server => decide (server.tasks =
      [⟨1, Turn.Demo.thread, ⟨9⟩, 2⟩])) = some true := by
    decide +kernel
  obtain ⟨server, final, tasks⟩ := Option.map_eq_some_iff.mp ran
  have reached : Reachable demo server := .of_run .start final
  exact ⟨server, reached, of_decide_eq_true tasks, coherent_of_reachable boots_demo reached⟩

end ServerState

end OpsCodex.Server
