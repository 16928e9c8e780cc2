import OpsCodex.Effect.Pool

/-! Monitors of concurrent callers. A monitor reads the answered requests of one
caller and says where the caller stands; it is a protocol in which a request and
its answer decide the next point, so where every caller stands can be read off the
trace of a pool. -/

set_option autoImplicit false

namespace Effect

structure Monitor (I : Interface) where
  Standing : Type
  start : Standing
  /-- The requests that a caller may make where it stands. -/
  Admits : Standing → I.Op → Prop
  move : Standing → (op : I.Op) → I.Answer op → Standing

theorem Uses.and {I : Interface} {Value : Type} {allowed other : I.Op → Prop}
    {program : Program I Value} (first : Uses allowed program) (second : Uses other program) :
    Uses (fun op => allowed op ∧ other op) program := by
  induction program with
  | pure value => trivial
  | request op next ih =>
      exact ⟨⟨first.1, second.1⟩, fun answer => ih answer (first.2 answer) (second.2 answer)⟩

namespace Monitor

variable {I : Interface}

def protocol (monitor : Monitor I) : Protocol I where
  Control := monitor.Standing
  Advance := fun before op answer after =>
    monitor.Admits before op ∧ after = monitor.move before op answer

variable {system : System I}

/-- Where a caller stands after the requests of a trace. -/
def standing (monitor : Monitor I) : List (Entry system) → Nat → monitor.Standing
  | [], _ => monitor.start
  | entry :: older, caller =>
      if entry.caller = caller then
        monitor.move (monitor.standing older caller) entry.op entry.answer
      else monitor.standing older caller

/-- How many callers of the current process life stand at a point with a property. -/
def count (monitor : Monitor I) (holds : monitor.Standing → Bool) (pool : Pool system) : Nat :=
  (List.range pool.spawned).countP fun caller =>
    (pool.calls caller).isSome && holds (monitor.standing pool.trace caller)

/-- The pools in which every caller goes on as its monitor expects. -/
structure Watched (monitor : Monitor I)
    (post : system.Job → system.Result → monitor.Standing → Prop) (pool : Pool system) :
    Prop where
  conforms : ∀ {caller job program}, pool.calls caller = some (job, program) →
    Conforms monitor.protocol program (monitor.standing pool.trace caller) (post job)
  admitted : ∀ newer entry older, pool.trace = newer ++ entry :: older →
    monitor.Admits (monitor.standing older entry.caller) entry.op
  unspawned : ∀ caller, pool.spawned ≤ caller →
    pool.calls caller = none ∧ monitor.standing pool.trace caller = monitor.start

section

variable {monitor : Monitor I} {post : system.Job → system.Result → monitor.Standing → Prop}
  {pool : Pool system} {caller : Nat} {job : system.Job} {op : I.Op}
  {next : I.Answer op → Program I system.Result}

theorem standing_record_same (answer : I.Answer op) (rest : Program I system.Result)
    (state : system.State) :
    monitor.standing (pool.record caller job op answer rest state).trace caller =
      monitor.move (monitor.standing pool.trace caller) op answer := by
  simp [Pool.record, standing]

theorem standing_record_other {other : Nat} (different : other ≠ caller) (answer : I.Answer op)
    (rest : Program I system.Result) (state : system.State) :
    monitor.standing (pool.record caller job op answer rest state).trace other =
      monitor.standing pool.trace other := by
  simp [Pool.record, standing, Ne.symm different]

namespace Watched

theorem live_early (watched : Watched monitor post pool) (live : pool.calls caller ≠ none) :
    caller < pool.spawned := by
  refine Nat.lt_of_not_le fun late => ?_
  exact live (watched.unspawned caller late).1

/-- A waiting caller may make the request it waits on. -/
theorem admits (watched : Watched monitor post pool)
    (found : pool.calls caller = some (job, .request op next)) (answer : I.Answer op) :
    monitor.Admits (monitor.standing pool.trace caller) op := by
  obtain ⟨after, advance, _⟩ := watched.conforms found answer
  exact advance.1

/-- A caller that has returned stands where its job may end. -/
theorem returned (watched : Watched monitor post pool) {result : system.Result}
    (found : pool.calls caller = some (job, .pure result)) :
    post job result (monitor.standing pool.trace caller) :=
  watched.conforms found

theorem spawn (watched : Watched monitor post pool)
    (conforms : Conforms monitor.protocol (system.program job) monitor.start (post job)) :
    Watched monitor post (pool.spawn job) where
  conforms := by
    intro other job' program found
    obtain ⟨rfl, same⟩ | ⟨different, kept⟩ := assign_eq_some found
    · cases same
      have fresh := (watched.unspawned pool.spawned (Nat.le_refl _)).2
      change Conforms monitor.protocol _ (monitor.standing pool.trace pool.spawned) _
      rw [fresh]
      exact conforms
    · exact watched.conforms kept
  admitted := watched.admitted
  unspawned := by
    intro other late
    have later : pool.spawned + 1 ≤ other := late
    obtain ⟨uncalled, fresh⟩ := watched.unspawned other (by omega)
    refine ⟨?_, fresh⟩
    exact (assign_other pool.calls _ (by omega)).trans uncalled

theorem record (watched : Watched monitor post pool)
    (found : pool.calls caller = some (job, .request op next)) (answer : I.Answer op)
    (state : system.State) :
    Watched monitor post (pool.record caller job op answer (next answer) state) where
  conforms := by
    intro other job' program called
    obtain ⟨rfl, same⟩ | ⟨different, kept⟩ := assign_eq_some called
    · cases same
      obtain ⟨after, ⟨_, moved⟩, rest⟩ := watched.conforms found answer
      rw [standing_record_same, ← moved]
      exact rest
    · rw [standing_record_other different]
      exact watched.conforms kept
  admitted := by
    intro newer entry older same
    cases newer with
    | nil =>
        obtain ⟨rfl, rfl⟩ := List.cons.inj same
        exact watched.admits found answer
    | cons first newer => exact watched.admitted newer entry older (List.cons.inj same).2
  unspawned := by
    intro other late
    obtain ⟨uncalled, fresh⟩ := watched.unspawned other late
    have different : other ≠ caller := by
      rintro rfl
      rw [uncalled] at found
      cases found
    refine ⟨(assign_other pool.calls _ different).trans uncalled, ?_⟩
    exact (standing_record_other different answer _ state).trans fresh

theorem crash (watched : Watched monitor post pool) (startup : system.Startup) :
    Watched monitor post (pool.crash startup) where
  conforms := fun found => by cases found
  admitted := watched.admitted
  unspawned := fun other late => ⟨rfl, (watched.unspawned other late).2⟩

end Watched

/-- A program whose requests keep a property of the standing keeps it. -/
theorem keeps_of_uses {Error Value : Type} {allowed : I.Op → Prop}
    {program : Fallible I Error Value} {kept : monitor.Standing → Prop}
    {before : monitor.Standing} (uses : Fallible.Uses allowed program)
    (step : ∀ op standing, allowed op → kept standing →
      monitor.Admits standing op ∧ ∀ answer, kept (monitor.move standing op answer))
    (start : kept before) :
    Meets monitor.protocol program before (fun _ after => kept after)
      fun _ after => kept after := by
  have follows {Outcome : Type} (program : Program I Outcome) (uses : Effect.Uses allowed program)
      (before : monitor.Standing) (start : kept before) :
      Conforms monitor.protocol program before fun _ after => kept after := by
    induction program generalizing before with
    | pure value => exact start
    | request op next ih =>
        intro answer
        obtain ⟨admits, moved⟩ := step op before uses.1 start
        exact ⟨_, ⟨admits, rfl⟩, ih answer (uses.2 answer) _ (moved answer)⟩
  refine Conforms.mono (follows program.run uses before start) fun outcome after reached => ?_
  cases outcome <;> exact reached

/-- A property of pools that every step of watched callers keeps. -/
structure Keeps (monitor : Monitor I)
    (post : system.Job → system.Result → monitor.Standing → Prop)
    (holds : Pool system → Prop) : Prop where
  spawn : ∀ {pool} (job : system.Job), Watched monitor post pool → holds pool →
    holds (pool.spawn job)
  perform : ∀ {pool} {caller : Nat} {job : system.Job} {op : I.Op}
    {next : I.Answer op → Program I system.Result} {choice : system.Choice}
    {answer : I.Answer op} {state : system.State}, Watched monitor post pool →
    pool.calls caller = some (job, .request op next) →
    system.perform op choice pool.state = some (answer, state) → holds pool →
    holds (pool.record caller job op answer (next answer) state)
  crash : ∀ {pool} (startup : system.Startup), Watched monitor post pool → holds pool →
    holds (pool.crash startup)

/-- When every job follows the monitor, every reachable pool is watched and has the
properties that its steps keep. -/
theorem Keeps.reachable {holds : Pool system → Prop} (keeps : Keeps monitor post holds)
    {admits : Pool system → Label system → Prop} {starts : Pool system → Prop}
    (conforms : ∀ job, Conforms monitor.protocol (system.program job) monitor.start (post job))
    (boots : ∀ pool, starts pool → (∃ state, pool = Pool.boot state) ∧ holds pool)
    (reached : Pool.Reachable admits starts pool) : Watched monitor post pool ∧ holds pool := by
  induction reached with
  | start initial =>
      obtain ⟨⟨state, rfl⟩, held⟩ := boots _ initial
      have untouched (newer : List (Entry system)) (entry older)
          (same : (Pool.boot state).trace = newer ++ entry :: older) :
          monitor.Admits (monitor.standing older entry.caller) entry.op := by
        cases newer <;> cases same
      exact ⟨⟨(nomatch ·), untouched, fun _ _ => ⟨rfl, rfl⟩⟩, held⟩
  | @step pool label after _ _ applied ih =>
      obtain ⟨watched, held⟩ := ih
      cases label with
      | spawn job =>
          cases applied
          exact ⟨watched.spawn (conforms job), keeps.spawn job watched held⟩
      | crash startup =>
          cases applied
          exact ⟨watched.crash startup, keeps.crash startup watched held⟩
      | perform caller choice =>
          obtain ⟨job, op, next, answer, state, found, performed, rfl⟩ :=
            Pool.apply_perform applied
          exact ⟨watched.record found answer state, keeps.perform watched found performed held⟩

end

section Count

variable {monitor : Monitor I} {post : system.Job → system.Result → monitor.Standing → Prop}
  {pool : Pool system} {caller : Nat} {job : system.Job} {op : I.Op}
  {next : I.Answer op → Program I system.Result} (holds : monitor.Standing → Bool)

/-- Changing one of the first numbers changes a count by that number only. -/
private theorem countP_range_update (before after : Nat → Bool) {changed bound : Nat}
    (early : changed < bound) (others : ∀ other, other ≠ changed → after other = before other) :
    (List.range bound).countP after + (before changed).toNat =
      (List.range bound).countP before + (after changed).toNat := by
  induction bound with
  | zero => cases early
  | succ bound ih =>
      simp only [List.range_succ, List.countP_append, List.countP_singleton]
      by_cases last : changed = bound
      · subst last
        have same : (List.range changed).countP after = (List.range changed).countP before := by
          refine List.countP_congr fun other member => ?_
          rw [others other (Nat.ne_of_lt (List.mem_range.mp member))]
        rw [same]
        cases before changed <;> cases after changed <;> simp
      · have kept := ih (by omega)
        rw [others bound (Ne.symm last)]
        omega

theorem count_record (watched : Watched monitor post pool)
    (found : pool.calls caller = some (job, .request op next)) (answer : I.Answer op)
    (state : system.State) :
    monitor.count holds (pool.record caller job op answer (next answer) state) +
        (holds (monitor.standing pool.trace caller)).toNat =
      monitor.count holds pool +
        (holds (monitor.move (monitor.standing pool.trace caller) op answer)).toNat := by
  have early := watched.live_early (by rw [found]; exact nofun)
  have changed := countP_range_update
    (fun other => (pool.calls other).isSome && holds (monitor.standing pool.trace other))
    (fun other =>
      ((pool.record caller job op answer (next answer) state).calls other).isSome &&
        holds (monitor.standing
          (pool.record caller job op answer (next answer) state).trace other))
    early (by
      intro other different
      rw [standing_record_other different]
      simp only [Pool.record]
      rw [assign_other pool.calls _ different])
  rw [standing_record_same] at changed
  simpa [count, Pool.record, found] using changed

theorem count_spawn (watched : Watched monitor post pool) (quiet : holds monitor.start = false) :
    monitor.count holds (pool.spawn job) = monitor.count holds pool := by
  have fresh := (watched.unspawned pool.spawned (Nat.le_refl _)).2
  simp only [count, Pool.spawn, List.range_succ, List.countP_append, List.countP_singleton,
    fresh, quiet, Bool.and_false]
  refine List.countP_congr fun other member => ?_
  rw [assign_other pool.calls _ (Nat.ne_of_lt (List.mem_range.mp member))]

theorem count_crash (startup : system.Startup) :
    monitor.count holds (pool.crash startup) = 0 := by
  simp [count, Pool.crash]

theorem count_le {wider : monitor.Standing → Bool}
    (implies : ∀ standing, holds standing = true → wider standing = true) :
    monitor.count holds pool ≤ monitor.count wider pool := by
  refine List.countP_mono_left fun caller _ held => ?_
  simp only [Bool.and_eq_true] at held ⊢
  exact ⟨held.1, implies _ held.2⟩

/-- Nobody stands at a point when no caller of the current life does. -/
theorem count_eq_zero (none : ∀ caller, pool.calls caller ≠ none →
    holds (monitor.standing pool.trace caller) = false) : monitor.count holds pool = 0 := by
  refine List.countP_eq_zero.mpr fun caller _ => ?_
  cases found : pool.calls caller with
  | none => simp
  | some call => simp [none caller (by rw [found]; exact nofun)]

end Count

end Monitor

end Effect
