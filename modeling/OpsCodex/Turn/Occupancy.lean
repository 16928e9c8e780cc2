import OpsCodex.Effect.Monitor
import OpsCodex.Turn.Requests

/-! What the callers of the runtime hold of the process. A caller first takes one of
the permits for concurrent turns and then the guard of its thread, and gives both
back, in whatever way its turn ends. -/

set_option autoImplicit false

namespace OpsCodex.Turn

open Effect OpsCodex.Action OpsCodex.Extensions OpsCodex.Store OpsCodex.Runtime

/-- What a caller holds. -/
inductive Occupancy where
  | outside
  | admitted
  | inside (threadId : ThreadId)
  deriving DecidableEq

namespace Occupancy

/-- One of the permits. -/
def permit : Occupancy → Bool
  | .outside => false
  | _ => true

/-- The thread whose guard is held. -/
def thread : Occupancy → Option ThreadId
  | .inside threadId => some threadId
  | _ => none

def guard (held : Occupancy) : Bool := held.thread.isSome

/-- The thread whose guard a request of a driven turn needs, if it needs one: requests
to the model, tools, checkpoints and leases are made inside a thread only. -/
def Needs : Op → Occupancy → Prop
  | .acquirePermit _, held => held = .outside
  | .releasePermit, held | .enterThread _, held => held = .admitted
  | .leaveThread threadId, held => held = .inside threadId
  | .completeModel _, held => held.guard = true
  | .executeTool _ _ threadId _ _, held => held = .inside threadId
  | .command (.putCheckpoint checkpoint), held => held = .inside checkpoint.threadId
  | .command (.acquireLease _ threadId _ _), held => held = .inside threadId
  | .command (.refreshLease ..), held => held.guard = true
  | _, _ => True

def move (held : Occupancy) : (op : Op) → op.Answer → Occupancy
  | .acquirePermit _, .ok () => .admitted
  | .releasePermit, _ => .outside
  | .enterThread threadId, true => .inside threadId
  | .leaveThread _, _ => .admitted
  | _, _ => held

def monitor : Monitor serviceInterface where
  Standing := Occupancy
  start := .outside
  Admits := fun held op => Needs op held
  move := move

theorem move_of_drives {threadId : ThreadId} {turnId : TurnId} {op : Op}
    (drives : Drives threadId turnId op) (held : Occupancy) (answer : op.Answer) :
    move held op answer = held := by
  obtain ⟨_, requests⟩ | rfl | rfl | ⟨request, rfl⟩ := drives
  · cases op <;> first | rfl | exact requests.elim
  · rfl
  · rfl
  · rfl

theorem needs_of_drives {threadId : ThreadId} {turnId : TurnId} {op : Op}
    (drives : Drives threadId turnId op) : Needs op (.inside threadId) := by
  obtain ⟨_, requests⟩ | rfl | rfl | ⟨request, rfl⟩ := drives
  · cases op with
    | command command =>
        cases command with
        | putCheckpoint checkpoint => exact congrArg _ requests.1.symm
        | acquireLease turn thread => exact congrArg _ requests.2.symm
        | refreshLease => rfl
        | _ => trivial
    | executeTool => exact congrArg _ requests.2.2.symm
    | _ => trivial
  · trivial
  · trivial
  · rfl

/-- The drive of a turn stays inside its thread. -/
theorem stays_of_drives {Value : Type} {program : Async Value} {threadId : ThreadId}
    {turnId : TurnId} (uses : Fallible.Uses (Drives threadId turnId) program) :
    Meets monitor.protocol program (.inside threadId) (fun _ after => after = .inside threadId)
      fun _ after => after = .inside threadId :=
  uses.stays fun _ answer drives =>
    ⟨needs_of_drives drives, (move_of_drives drives _ answer).symm⟩

theorem advance_beside {op : Op} (answer : op.Answer) (beside : Beside op) (held : Occupancy) :
    monitor.protocol.Advance held op answer held := by
  cases op with
  | command command => cases command <;> first | exact ⟨trivial, rfl⟩ | exact beside.elim
  | _ => first | exact ⟨trivial, rfl⟩ | exact beside.elim

theorem stays_of_beside {Value : Type} {program : Async Value}
    (uses : Fallible.Uses Beside program) (held : Occupancy) :
    Meets monitor.protocol program held (fun _ after => after = held)
      fun _ after => after = held :=
  uses.stays fun _ answer beside => advance_beside answer beside held

abbrev leaves {Value : Type} : Value → Occupancy → Prop := fun _ after => after = .outside

theorem withThread_meets {threadId : ThreadId} {turnId : TurnId} (cancellable : Bool)
    {Value : Type} {body : Async Value} (uses : Fallible.Uses (Drives threadId turnId) body) :
    Meets monitor.protocol (withThread threadId cancellable body) .outside leaves leaves := by
  have released {Value : Type} (value : Value) : Conforms monitor.protocol
      (Program.perform (I := serviceInterface) .releasePermit) .admitted
      fun _ after => leaves value after := fun answer => ⟨.outside, ⟨rfl, rfl⟩, rfl⟩
  unfold withThread
  refine Meets.bind fun permit => ?_
  cases permit with
  | error error => exact ⟨.outside, ⟨rfl, rfl⟩, rfl⟩
  | ok =>
      refine ⟨.admitted, ⟨rfl, rfl⟩, Meets.andFinally (Meets.bind (Async.meets_ask ?_))⟩
      intro entered
      cases entered with
      | false => exact ⟨.admitted, ⟨rfl, rfl⟩, Meets.throw (released _)⟩
      | true =>
          refine ⟨.inside threadId, ⟨rfl, rfl⟩, Meets.andFinally ?_⟩
          refine (stays_of_drives uses).mono ?_ ?_
          · rintro value after rfl answer
            exact ⟨.admitted, ⟨rfl, rfl⟩, released value⟩
          · rintro error after rfl answer
            exact ⟨.admitted, ⟨rfl, rfl⟩, released error⟩

variable (deployment : Deployment)

theorem runTurn_meets (threadId : ThreadId) (turnId : TurnId) (input : TurnInput) :
    Meets monitor.protocol (runTurn deployment threadId turnId input) .outside leaves leaves := by
  unfold runTurn
  refine Meets.after_quiet (stays_of_beside (Span.uses_ofResult _) _) (fun _ => ?_) fun _ => rfl
  refine Meets.bind (Meets.attempt ((withThread_meets true
    (@Drives.driveTurn deployment threadId turnId input)).mono ?_ ?_))
  · rintro _ _ rfl
    exact Meets.pure rfl
  · rintro error _ rfl
    have announce (event : RuntimeEvent) (undiagnosed : event.diagnosis = none) :
        Meets monitor.protocol (do
          let _ ← (emit threadId (some turnId) none event).attempt
          throw error : Async Unit) .outside leaves leaves :=
      Meets.after_quiet (stays_of_beside (Fallible.Uses.attempt
        (Span.uses_write (by exact undiagnosed))) _)
        (fun _ => Meets.throw rfl) fun _ => rfl
    cases error <;> exact announce _ rfl

theorem resumeTurn_meets (turnId : TurnId) (key : Option String) :
    Meets monitor.protocol (resumeTurn deployment turnId key) .outside leaves leaves := by
  unfold resumeTurn
  refine Meets.after_quiet (stays_of_beside (Beside.recoveryReport turnId) _) (fun report => ?_)
    fun _ => rfl
  split
  · exact Meets.throw rfl
  · refine Meets.after_quiet (stays_of_beside ?remembers _) (fun remembered => ?_) fun _ => rfl
    case remembers =>
      cases key with
      | none => exact Fallible.Uses.pure
      | some key => exact Span.uses_write (by exact trivial)
    cases remembered with
    | some existing => exact Meets.pure rfl
    | none => exact withThread_meets false (@Drives.driveResumed deployment turnId report)

/-- Every call holds nothing when it begins and when it returns. -/
theorem conforms (job : Job) :
    Conforms monitor.protocol ((system deployment).program job) .outside
      fun _ after => after = .outside := by
  have returned {Value : Type} {program : Async Value} (result : Value → Returned)
      (meets : Meets monitor.protocol program .outside leaves leaves) :
      Conforms monitor.protocol (result <$> program : Async Returned).run .outside
        fun _ after => after = .outside := by
    have mapped : Meets monitor.protocol (result <$> program : Async Returned) .outside leaves
        leaves := meets.map fun _ _ reached => reached
    refine Conforms.mono mapped fun outcome after reached => ?_
    cases outcome <;> exact reached
  cases job with
  | runTurn threadId turnId input => exact returned _ (runTurn_meets deployment _ _ _)
  | resumeTurn turnId key => exact returned _ (resumeTurn_meets deployment _ _)
  | recover => exact returned _ (stays_of_beside (Beside.recover deployment) _)
  | resolveApproval id approved =>
      exact returned _ (stays_of_beside (Beside.resolveApproval id approved) _)

/-- The requests that take or give back something of the process. -/
def moves : Op → Bool
  | .acquirePermit _ | .releasePermit | .enterThread _ | .leaveThread _ => true
  | _ => false

theorem move_of_not_moves {op : Op} (quiet : moves op = false) (held : Occupancy)
    (answer : op.Answer) : move held op answer = held := by
  cases op <;> first | rfl | cases quiet

section

variable {content : Content} {codec : Codec} {op : Op} {choice : Choice} {world after : World}
  {answer : op.Answer} {held : Occupancy}

theorem brokerResolve_occupancy (process : Process) (id : ApprovalId) (approved : Bool) :
    (process.brokerResolve id approved).2.permits = process.permits ∧
    (process.brokerResolve id approved).2.activeThreads = process.activeThreads := by
  unfold Process.brokerResolve
  split
  · exact ⟨rfl, rfl⟩
  · dsimp only
    split
    · split <;> exact ⟨rfl, rfl⟩
    · exact ⟨rfl, rfl⟩

/-- Only the requests that move an occupancy touch what is held of the process. -/
theorem perform_quiet (performed : World.perform content codec op choice world =
    some (answer, after)) (quiet : moves op = false) :
    after.process.permits = world.process.permits ∧
    after.process.activeThreads = world.process.activeThreads := by
  unfold World.perform at performed
  split at performed
  all_goals first
    | (cases quiet; done)
    | (rw [World.awaitDecision_frame performed]; exact ⟨rfl, rfl⟩)
    | (cases performed; exact ⟨rfl, rfl⟩)
    | (cases performed; exact brokerResolve_occupancy ..)
    | (simp only [Option.map_eq_some_iff] at performed
       obtain ⟨_, _, equal⟩ := performed
       cases equal
       exact ⟨rfl, rfl⟩)
    | cases performed

/-- No request moves the catalog of the process. -/
theorem perform_catalog (performed : World.perform content codec op choice world =
    some (answer, after)) : after.process.catalog = world.process.catalog := by
  unfold World.perform at performed
  split at performed
  all_goals first
    | (rw [World.awaitDecision_frame performed]; rfl)
    | (cases performed; rfl)
    | (cases performed; exact World.brokerResolve_catalog ..)
    | (simp only [Option.map_eq_some_iff] at performed
       obtain ⟨_, _, equal⟩ := performed
       cases equal
       rfl)
    | (split at performed <;> cases performed <;> rfl)
    | cases performed

/-- A permit that a caller has is one that the process has not. -/
theorem perform_permits (performed : World.perform content codec op choice world =
    some (answer, after)) (needs : Needs op held) :
    after.process.permits + (move held op answer).permit.toNat =
      world.process.permits + held.permit.toNat := by
  cases op with
  | acquirePermit cancellable =>
      obtain rfl := needs
      cases choice with
      | settle clock =>
          simp only [World.perform] at performed
          split at performed
          · rename_i free
            cases performed
            exact Nat.sub_add_cancel free
          · cases performed
      | cancel =>
          cases cancellable with
          | true =>
              cases performed
              rfl
          | false => cases performed
      | _ => cases performed
  | releasePermit =>
      obtain rfl := needs
      cases choice <;> cases performed
      rfl
  | enterThread threadId =>
      obtain rfl := needs
      cases choice <;> try cases performed
      simp only [World.perform] at performed
      split at performed <;> cases performed <;> rfl
  | leaveThread threadId =>
      obtain rfl := needs
      cases choice <;> cases performed
      rfl
  | _ => rw [(perform_quiet performed rfl).1, move_of_not_moves rfl]

/-- What one request does to the guards. -/
inductive Guards (active : List ThreadId) (held : Occupancy) :
    List ThreadId → Occupancy → Prop where
  | same {next : Occupancy} (thread : next.thread = held.thread) : Guards active held active next
  | enter {threadId : ThreadId} (free : threadId ∉ active) (unheld : held.thread = none) :
      Guards active held (threadId :: active) (.inside threadId)
  | leave {threadId : ThreadId} {next : Occupancy} (inside : held = .inside threadId)
      (left : next.thread = none) :
      Guards active held (active.filter fun other => other ≠ threadId) next

theorem perform_guards (performed : World.perform content codec op choice world =
    some (answer, after)) (needs : Needs op held) :
    Guards world.process.activeThreads held after.process.activeThreads
      (move held op answer) := by
  cases op with
  | acquirePermit cancellable =>
      obtain rfl := needs
      have kept : after.process.activeThreads = world.process.activeThreads := by
        cases choice with
        | settle clock =>
            simp only [World.perform] at performed
            split at performed <;> cases performed
            rfl
        | cancel =>
            cases cancellable <;> cases performed
            rfl
        | _ => cases performed
      rw [kept]
      exact .same (by cases answer <;> rfl)
  | releasePermit =>
      obtain rfl := needs
      cases choice <;> cases performed
      exact .same rfl
  | enterThread threadId =>
      obtain rfl := needs
      cases choice <;> try cases performed
      simp only [World.perform] at performed
      split at performed
      · cases performed
        exact .same rfl
      · rename_i free
        cases performed
        exact .enter free rfl
  | leaveThread threadId =>
      obtain rfl := needs
      cases choice <;> cases performed
      exact .leave rfl rfl
  | _ =>
      rw [(perform_quiet performed rfl).2, move_of_not_moves rfl]
      exact .same rfl

end

variable {deployment}

/-- A caller of the current process life that holds the guard of a thread. -/
def Occupies (pool : Pool deployment) (caller : Nat) (threadId : ThreadId) : Prop :=
  pool.calls caller ≠ none ∧ (monitor.standing pool.trace caller).thread = some threadId

abbrev Watched (pool : Pool deployment) : Prop :=
  monitor.Watched (fun _ _ held => held = .outside) pool

/-- The permits of a process that are not free are held by its callers. -/
def Tallied (pool : Pool deployment) : Prop :=
  pool.state.process.permits + monitor.count permit pool =
    pool.state.process.catalog.maxConcurrentTurns

theorem tallied_keeps : @Monitor.Keeps _ (system deployment) monitor
    (fun _ _ held => held = .outside) Tallied where
  spawn := by
    intro pool job watched tallied
    unfold Tallied at tallied ⊢
    rw [Monitor.count_spawn permit watched rfl]
    exact tallied
  perform := by
    intro pool caller job op next choice answer world watched found performed tallied
    have needs := watched.admits found answer
    have counted := Monitor.count_record permit watched found answer world
    have moved := perform_permits performed needs
    have catalog := perform_catalog performed
    unfold Tallied at tallied ⊢
    change world.process.permits + _ = world.process.catalog.maxConcurrentTurns
    rw [catalog]
    change _ = _ + Bool.toNat (permit (move _ op answer)) at counted
    omega
  crash := by
    intro pool startup watched tallied
    have none : monitor.count permit (Pool.crash pool startup) = 0 :=
      @Monitor.count_crash _ (system deployment) monitor pool permit startup
    unfold Tallied
    rw [none]
    rfl

theorem occupies_record {pool : Pool deployment} {caller : Nat} {job : Job} {op : Op}
    {rest : Program serviceInterface (Result Returned)} {answer : op.Answer} {world : World}
    {other : Nat} {threadId : ThreadId} (live : pool.calls caller ≠ none) :
    Occupies (Pool.record pool caller job op answer rest world) other threadId ↔
      (other = caller ∧
        (move (monitor.standing pool.trace caller) op answer).thread = some threadId) ∨
      (other ≠ caller ∧ Occupies pool other threadId) := by
  by_cases same : other = caller
  · subst same
    have stands : monitor.standing (Pool.record pool other job op answer rest world).trace other =
        move (monitor.standing pool.trace other) op answer :=
      @Monitor.standing_record_same _ (system deployment) monitor pool other job op answer rest
        world
    have called : (Pool.record pool other job op answer rest world).calls other ≠ none := by
      simp [Pool.record]
    rw [Occupies, stands]
    constructor
    · exact fun occupies => .inl ⟨rfl, occupies.2⟩
    · rintro (⟨_, inside⟩ | ⟨different, _⟩)
      · exact ⟨called, inside⟩
      · exact absurd rfl different
  · have stands : monitor.standing (Pool.record pool caller job op answer rest world).trace other =
        monitor.standing pool.trace other :=
      @Monitor.standing_record_other _ (system deployment) monitor pool caller job op other same
        answer rest world
    have called : (Pool.record pool caller job op answer rest world).calls other =
        pool.calls other := assign_other pool.calls _ same
    rw [Occupies, stands, called]
    constructor
    · exact fun occupies => .inr ⟨same, occupies⟩
    · rintro (⟨equal, _⟩ | ⟨_, occupies⟩)
      · exact absurd equal same
      · exact occupies

/-- The guards of a process are exactly those of its callers, each held by one. -/
structure Exclusive (active : List ThreadId) (occupies : Nat → ThreadId → Prop)
    (count : Nat) : Prop where
  distinct : active.Nodup
  held : ∀ threadId, threadId ∈ active ↔ ∃ caller, occupies caller threadId
  alone : ∀ {left right threadId}, occupies left threadId → occupies right threadId →
    left = right
  counted : active.length = count

/-- Leaving a thread takes one guard away. -/
theorem length_leave {active : List ThreadId} {threadId : ThreadId} (distinct : active.Nodup)
    (member : threadId ∈ active) :
    (active.filter fun other => other ≠ threadId).length + 1 = active.length := by
  have erased : active.erase threadId = active.filter fun other => other ≠ threadId := by
    rw [distinct.erase_eq_filter]
    refine List.filter_congr fun other _ => ?_
    by_cases same : other = threadId <;> simp [same]
  have positive := List.length_pos_of_mem member
  rw [← erased, List.length_erase_of_mem member]
  omega

/-- One request of one caller keeps the guards exclusive. -/
theorem Exclusive.step {active active' : List ThreadId}
    {occupies occupies' : Nat → ThreadId → Prop} {count count' caller : Nat}
    {held next : Occupancy} (exclusive : Exclusive active occupies count)
    (guards : Guards active held active' next)
    (own : ∀ threadId, occupies caller threadId ↔ held.thread = some threadId)
    (changed : ∀ other threadId, occupies' other threadId ↔
      (other = caller ∧ next.thread = some threadId) ∨
        (other ≠ caller ∧ occupies other threadId))
    (counted : count' + held.guard.toNat = count + next.guard.toNat) :
    Exclusive active' occupies' count' := by
  obtain ⟨distinct, held_iff, alone, length⟩ := exclusive
  cases guards with
  | same thread =>
      have kept (other : Nat) (threadId : ThreadId) :
          occupies' other threadId ↔ occupies other threadId := by
        rw [changed, thread, ← own threadId]
        by_cases equal : other = caller <;> simp [equal]
      refine ⟨distinct, fun threadId => ?_, ?_, ?_⟩
      · simp only [kept]
        exact held_iff threadId
      · intro left right threadId
        rw [kept, kept]
        exact alone
      · rw [guard, guard, thread] at counted
        omega
  | @enter threadId free unheld =>
      have unoccupied (other : Nat) : ¬occupies other threadId :=
        fun occupied => free ((held_iff threadId).mpr ⟨other, occupied⟩)
      have elsewhere (other : ThreadId) : ¬occupies caller other := by
        rw [own, unheld]
        exact nofun
      refine ⟨List.nodup_cons.mpr ⟨free, distinct⟩, fun other => ?_, ?_, ?_⟩
      · rw [List.mem_cons, held_iff]
        constructor
        · rintro (rfl | ⟨holder, occupied⟩)
          · exact ⟨caller, (changed _ _).mpr (.inl ⟨rfl, rfl⟩)⟩
          · refine ⟨holder, (changed _ _).mpr (.inr ⟨?_, occupied⟩)⟩
            rintro rfl
            exact elsewhere _ occupied
        · rintro ⟨holder, occupied⟩
          obtain ⟨_, same⟩ | ⟨_, kept⟩ := (changed _ _).mp occupied
          · exact .inl (Option.some.inj same).symm
          · exact .inr ⟨holder, kept⟩
      · intro left right other first second
        obtain ⟨rfl, inside⟩ | ⟨_, first⟩ := (changed _ _).mp first
        · obtain ⟨rfl, _⟩ | ⟨_, second⟩ := (changed _ _).mp second
          · rfl
          · obtain rfl := Option.some.inj inside
            exact absurd second (unoccupied _)
        · obtain ⟨rfl, inside⟩ | ⟨_, second⟩ := (changed _ _).mp second
          · obtain rfl := Option.some.inj inside
            exact absurd first (unoccupied _)
          · exact alone first second
      · have unguarded : held.guard = false := by rw [guard, unheld]; rfl
        have guarded : (Occupancy.inside threadId).guard = true := rfl
        rw [unguarded, guarded] at counted
        simp only [List.length_cons, Bool.toNat_true, Bool.toNat_false] at counted ⊢
        omega
  | @leave threadId next inside left =>
      have occupied : occupies caller threadId := (own threadId).mpr (by rw [inside]; rfl)
      have member := (held_iff threadId).mpr ⟨caller, occupied⟩
      have left_none (other : ThreadId) : next.thread ≠ some other := by
        rw [left]
        exact nofun
      refine ⟨distinct.filter _, fun other => ?_, ?_, ?_⟩
      · simp only [List.mem_filter, decide_eq_true_eq, held_iff]
        constructor
        · rintro ⟨⟨holder, occupied'⟩, different⟩
          refine ⟨holder, (changed _ _).mpr (.inr ⟨?_, occupied'⟩)⟩
          rintro rfl
          have same := (own other).mp occupied'
          rw [inside] at same
          exact different (Option.some.inj same).symm
        · rintro ⟨holder, occupied'⟩
          obtain ⟨_, still⟩ | ⟨different, kept⟩ := (changed _ _).mp occupied'
          · exact absurd still (left_none _)
          · refine ⟨⟨holder, kept⟩, ?_⟩
            rintro rfl
            exact different (alone kept occupied)
      · intro first second other one two
        obtain ⟨_, still⟩ | ⟨_, one⟩ := (changed _ _).mp one
        · exact absurd still (left_none _)
        · obtain ⟨_, still⟩ | ⟨_, two⟩ := (changed _ _).mp two
          · exact absurd still (left_none _)
          · exact alone one two
      · have shorter := length_leave distinct member
        have guarded : held.guard = true := by rw [inside]; rfl
        have unguarded : next.guard = false := by rw [guard, left]; rfl
        rw [guarded, unguarded] at counted
        simp only [Bool.toNat_true, Bool.toNat_false] at counted
        omega

/-- The guards of the process of a pool are those of its callers. -/
def Sole (pool : Pool deployment) : Prop :=
  Exclusive pool.state.process.activeThreads (Occupies pool) (monitor.count guard pool)

theorem sole_keeps : @Monitor.Keeps _ (system deployment) monitor
    (fun _ _ held => held = .outside) Sole where
  spawn := by
    intro pool job watched sole
    have fresh := (watched.unspawned pool.spawned (Nat.le_refl _))
    have occupies (other : Nat) (threadId : ThreadId) :
        Occupies (Pool.spawn pool job) other threadId ↔ Occupies pool other threadId := by
      by_cases same : other = pool.spawned
      · subst same
        have outside : (monitor.standing pool.trace pool.spawned).thread ≠ some threadId := by
          rw [fresh.2]
          exact nofun
        constructor
        · exact fun occupied => absurd occupied.2 outside
        · exact fun occupied => absurd occupied.2 outside
      · have called : (Pool.spawn pool job).calls other = pool.calls other :=
          assign_other pool.calls _ same
        unfold Occupies
        rw [called]
        rfl
    have counted : monitor.count guard (Pool.spawn pool job) = monitor.count guard pool :=
      Monitor.count_spawn guard watched rfl
    unfold Sole
    rw [counted]
    refine ⟨sole.distinct, fun threadId => ?_, ?_, sole.counted⟩
    · simp only [occupies]
      exact sole.held threadId
    · intro left right threadId
      rw [occupies, occupies]
      exact sole.alone
  perform := by
    intro pool caller job op next choice answer world watched found performed sole
    have live : pool.calls caller ≠ none := by rw [found]; exact nofun
    have guards := perform_guards performed (watched.admits found answer)
    have counted := Monitor.count_record guard watched found answer world
    have own (threadId : ThreadId) : Occupies pool caller threadId ↔
        (monitor.standing pool.trace caller).thread = some threadId :=
      ⟨fun occupied => occupied.2, fun inside => ⟨live, inside⟩⟩
    exact sole.step guards own (fun other threadId => occupies_record live) counted
  crash := by
    intro pool startup watched sole
    have none : monitor.count guard (Pool.crash pool startup) = 0 :=
      @Monitor.count_crash _ (system deployment) monitor pool guard startup
    unfold Sole
    rw [none]
    refine ⟨List.nodup_nil, fun threadId => ?_, ?_, rfl⟩
    · exact ⟨nofun, fun ⟨_, occupied⟩ => absurd rfl occupied.1⟩
    · intro left right threadId first
      exact absurd rfl first.1

/-- What a request of a driven turn finds in the process that answers it. -/
def Sheltered (active : List ThreadId) : Op → Prop
  | .executeTool _ _ threadId _ _ => threadId ∈ active
  | .command (.putCheckpoint checkpoint) => checkpoint.threadId ∈ active
  | .command (.acquireLease _ threadId _ _) => threadId ∈ active
  | .completeModel _ | .command (.refreshLease ..) => active ≠ []
  | _ => True

theorem sheltered_of_needs {active : List ThreadId} {op : Op} {held : Occupancy}
    (needs : Needs op held) (inside : ∀ threadId, held.thread = some threadId →
      threadId ∈ active) : Sheltered active op := by
  have guarded (guard : held.guard = true) : active ≠ [] := by
    obtain ⟨threadId, same⟩ := Option.isSome_iff_exists.mp guard
    exact List.ne_nil_of_mem (inside threadId same)
  cases op with
  | command command =>
      cases command with
      | putCheckpoint checkpoint => exact inside _ (congrArg thread needs)
      | acquireLease => exact inside _ (congrArg thread needs)
      | refreshLease => exact guarded needs
      | _ => trivial
  | executeTool => exact inside _ (congrArg thread needs)
  | completeModel => exact guarded needs
  | _ => trivial

def Worked (pool : Pool deployment) : Prop :=
  Sole pool ∧ ∀ entry ∈ pool.trace, Sheltered entry.before.process.activeThreads entry.op

theorem worked_keeps : @Monitor.Keeps _ (system deployment) monitor
    (fun _ _ held => held = .outside) Worked where
  spawn := fun job watched worked => ⟨sole_keeps.spawn job watched worked.1, worked.2⟩
  perform := by
    intro pool caller job op next choice answer world watched found performed worked
    refine ⟨sole_keeps.perform watched found performed worked.1, fun entry member => ?_⟩
    obtain rfl | old := List.mem_cons.mp member
    · refine sheltered_of_needs (watched.admits found answer) fun threadId inside => ?_
      have live : pool.calls caller ≠ none := by rw [found]; exact nofun
      exact (worked.1.held threadId).mpr ⟨caller, live, inside⟩
    · exact worked.2 entry old
  crash := fun startup watched worked =>
    ⟨sole_keeps.crash startup watched worked.1, worked.2⟩

/-- A process that has just started over some store. -/
def Boots (pool : Pool deployment) : Prop :=
  ∃ world : World, world.process = Process.boot world.process.catalog ∧ pool = Pool.boot world

theorem keeps_reachable {holds : Pool deployment → Prop}
    (keeps : @Monitor.Keeps _ (system deployment) monitor (fun _ _ held => held = .outside) holds)
    (initially : ∀ pool, Boots pool → holds pool) {pool : Pool deployment}
    (reached : Pool.Reachable (fun _ _ => True) Boots pool) : Watched pool ∧ holds pool := by
  refine keeps.reachable (conforms deployment) (fun pool booted => ?_) reached
  obtain ⟨world, _, rfl⟩ := id booted
  exact ⟨⟨world, rfl⟩, initially _ booted⟩

theorem boots_tallied (pool : Pool deployment) (booted : Boots pool) : Tallied pool := by
  obtain ⟨world, fresh, rfl⟩ := booted
  exact congrArg Process.permits fresh

theorem boots_worked (pool : Pool deployment) (booted : Boots pool) : Worked pool := by
  obtain ⟨world, fresh, rfl⟩ := booted
  have unguarded : world.process.activeThreads = [] := congrArg Process.activeThreads fresh
  have idle (caller : Nat) (threadId : ThreadId) :
      ¬Occupies (Pool.boot world : Pool deployment) caller threadId :=
    fun occupied => occupied.1 rfl
  refine ⟨⟨?_, fun threadId => ?_, fun first => absurd first (idle _ _), ?_⟩, fun _ old => ?_⟩
  · exact unguarded ▸ List.nodup_nil
  · constructor
    · intro member
      exact absurd (unguarded ▸ member : threadId ∈ []) List.not_mem_nil
    · exact fun ⟨caller, occupied⟩ => absurd occupied (idle caller threadId)
  · exact congrArg List.length unguarded
  · exact absurd old List.not_mem_nil

/-- A call that has returned holds nothing, so that a holder is running. -/
theorem running_of_standing {pool : Pool deployment} (watched : Watched pool) {caller : Nat}
    (live : pool.calls caller ≠ none) (holds : monitor.standing pool.trace caller ≠ .outside) :
    pool.running caller ≠ none := by
  cases found : pool.calls caller with
  | none => exact absurd found live
  | some call =>
      obtain ⟨job, program⟩ := call
      cases program with
      | pure result => exact absurd (watched.returned found) holds
      | request op next =>
          rw [Pool.running, found]
          exact Option.some_ne_none _

theorem count_of_idle {pool : Pool deployment} (watched : Watched pool)
    (idle : ∀ caller, pool.running caller = none) (holds : Occupancy → Bool)
    (outside : holds .outside = false) : monitor.count holds pool = 0 := by
  refine @Monitor.count_eq_zero _ (system deployment) monitor pool holds fun caller live => ?_
  have standing : monitor.standing pool.trace caller = .outside :=
    Classical.byContradiction fun holder =>
      running_of_standing watched live holder (idle caller)
  rw [standing]
  exact outside

end Occupancy

open Occupancy

/-- In every reachable state of the runtime, whatever the interleaving and the crashes, the
permits that are not free are held by running callers, one each; when no caller runs all
permits are free and no thread is guarded. -/
theorem permits_conserved (deployment : Deployment) (pool : Pool deployment)
    (reached : Pool.Reachable (fun _ _ => True) Boots pool) :
    pool.state.process.permits + monitor.count permit pool =
        pool.state.process.catalog.maxConcurrentTurns ∧
      (∀ caller, pool.calls caller ≠ none → (monitor.standing pool.trace caller).permit = true →
        pool.running caller ≠ none) ∧
      ((∀ caller, pool.running caller = none) →
        pool.state.process.permits = pool.state.process.catalog.maxConcurrentTurns ∧
        pool.state.process.activeThreads = []) := by
  obtain ⟨watched, tallied⟩ := keeps_reachable tallied_keeps boots_tallied reached
  obtain ⟨_, sole, _⟩ := keeps_reachable worked_keeps boots_worked reached
  refine ⟨tallied, fun caller live holder => ?_, fun idle => ⟨?_, ?_⟩⟩
  · refine running_of_standing watched live fun outside => ?_
    rw [outside] at holder
    cases holder
  · have unheld := count_of_idle watched idle permit rfl
    unfold Tallied at tallied
    omega
  · have unguarded := count_of_idle watched idle Occupancy.guard rfl
    exact List.length_eq_zero_iff.mp (sole.counted.trans unguarded)

/-- Two calls on one thread: the first is inside of it, the second has only its permit. -/
def Occupancy.contention : List Demo.Step :=
  Demo.run ++ Demo.settle 0 5 ++ Demo.run ++ Demo.settle 1 1

theorem Occupancy.boots_demo : Boots Demo.pool := ⟨Demo.world, rfl, rfl⟩

theorem permits_conserved_contention :
    ∃ pool : Pool Demo.deployment, Pool.Reachable (fun _ _ => True) Boots pool ∧
      pool.state.process.permits = 0 ∧
      pool.state.process.permits + monitor.count permit pool =
        pool.state.process.catalog.maxConcurrentTurns := by
  have ran : (Pool.runChecked (fun _ _ => true) (Demo.labels 0 contention) Demo.pool).map
      (fun pool => pool.state.process.permits) = some 0 := by rfl
  obtain ⟨pool, final, taken⟩ := Option.map_eq_some_iff.mp ran
  have reached : Pool.Reachable (fun _ _ => True) Boots pool :=
    .of_runChecked (fun _ _ _ => trivial) (.start boots_demo) final
  exact ⟨pool, reached, taken, (permits_conserved Demo.deployment pool reached).1⟩

/-- In every reachable state the guarded threads are exactly the threads that running callers
are inside of, no two callers are inside of one thread, and there are at most as many as there
are permits in all. -/
theorem threads_exclusive (deployment : Deployment) (pool : Pool deployment)
    (reached : Pool.Reachable (fun _ _ => True) Boots pool) :
    pool.state.process.activeThreads.Nodup ∧
      (∀ threadId, threadId ∈ pool.state.process.activeThreads ↔
        ∃ caller, pool.running caller ≠ none ∧ Occupies pool caller threadId) ∧
      (∀ left right threadId, Occupies pool left threadId → Occupies pool right threadId →
        left = right) ∧
      pool.state.process.activeThreads.length ≤
        pool.state.process.catalog.maxConcurrentTurns := by
  obtain ⟨watched, tallied⟩ := keeps_reachable tallied_keeps boots_tallied reached
  obtain ⟨_, sole, _⟩ := keeps_reachable worked_keeps boots_worked reached
  have running (caller : Nat) (threadId : ThreadId) (occupied : Occupies pool caller threadId) :
      pool.running caller ≠ none := by
    refine running_of_standing watched occupied.1 fun outside => ?_
    have inside := occupied.2
    rw [outside] at inside
    cases inside
  refine ⟨sole.distinct, fun threadId => ?_, fun _ _ _ => sole.alone, ?_⟩
  · rw [sole.held]
    constructor
    · exact fun ⟨caller, occupied⟩ => ⟨caller, running caller threadId occupied, occupied⟩
    · exact fun ⟨caller, _, occupied⟩ => ⟨caller, occupied⟩
  · have fewer : monitor.count Occupancy.guard pool ≤ monitor.count permit pool := by
      refine @Monitor.count_le _ (system deployment) monitor pool Occupancy.guard permit ?_
      intro held guarded
      cases held <;> first | rfl | cases guarded
    have counted := sole.counted
    unfold Tallied at tallied
    omega

theorem threads_exclusive_contention :
    ∃ pool : Pool Demo.deployment, Pool.Reachable (fun _ _ => True) Boots pool ∧
      pool.state.process.activeThreads = [Demo.thread] ∧
      ∃ caller, pool.running caller ≠ none ∧ Occupies pool caller Demo.thread := by
  have ran : (Pool.runChecked (fun _ _ => true) (Demo.labels 0 contention) Demo.pool).map
      (fun pool => pool.state.process.activeThreads) = some [Demo.thread] := by rfl
  obtain ⟨pool, final, guarded⟩ := Option.map_eq_some_iff.mp ran
  have reached : Pool.Reachable (fun _ _ => True) Boots pool :=
    .of_runChecked (fun _ _ _ => trivial) (.start boots_demo) final
  refine ⟨pool, reached, guarded, ?_⟩
  refine ((threads_exclusive Demo.deployment pool reached).2.1 Demo.thread).mp ?_
  rw [guarded]
  exact List.mem_singleton_self _

/-- In every run, a tool, a checkpoint and a lease of a turn are asked for while the thread
they are for is guarded, and the model while some thread is. -/
theorem work_sheltered (deployment : Deployment) (pool : Pool deployment)
    (reached : Pool.Reachable (fun _ _ => True) Boots pool) :
    (∀ entry ∈ pool.trace, Sheltered entry.before.process.activeThreads entry.op) ∧
      ∀ newer entry older, pool.trace = newer ++ entry :: older →
        Needs entry.op (monitor.standing older entry.caller) := by
  obtain ⟨watched, _, sheltered⟩ := keeps_reachable worked_keeps boots_worked reached
  exact ⟨sheltered, watched.admitted⟩

theorem work_sheltered_contention :
    ∃ pool : Pool Demo.deployment, Pool.Reachable (fun _ _ => True) Boots pool ∧
      (pool.trace.any fun entry => !entry.before.process.activeThreads.isEmpty) = true ∧
      ∀ entry ∈ pool.trace, Sheltered entry.before.process.activeThreads entry.op := by
  have ran : (Pool.runChecked (fun _ _ => true) (Demo.labels 0 contention) Demo.pool).map
      (fun pool => pool.trace.any fun entry =>
        !entry.before.process.activeThreads.isEmpty) = some true := by rfl
  obtain ⟨pool, final, worked⟩ := Option.map_eq_some_iff.mp ran
  have reached : Pool.Reachable (fun _ _ => True) Boots pool :=
    .of_runChecked (fun _ _ _ => trivial) (.start boots_demo) final
  exact ⟨pool, reached, worked, (work_sheltered Demo.deployment pool reached).1⟩

end OpsCodex.Turn
