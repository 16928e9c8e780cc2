import OpsCodex.Effect.Program

/-! Concurrent callers of one service. Requests are atomic and callers interleave
between them; a crash loses every caller and keeps what the service persists. -/

set_option autoImplicit false

namespace Effect

/-- A service with the programs its callers run. `Choice` resolves what the
environment decides about one request; an impossible choice has no result. -/
structure System (I : Interface) where
  State : Type
  Choice : Type
  perform : (op : I.Op) → Choice → State → Option (I.Answer op × State)
  Startup : Type
  restart : Startup → State → State
  Job : Type
  Result : Type
  program : Job → Program I Result

section

variable {I : Interface}

/-- One answered request of one caller and its job, with the state it was answered in. -/
structure Entry (system : System I) where
  caller : Nat
  job : system.Job
  before : system.State
  op : I.Op
  answer : I.Answer op

/-- The service state, the callers of the current process life and the answered
requests so far, newest first. Callers are numbered and never reuse a number. -/
structure Pool (system : System I) where
  state : system.State
  calls : Nat → Option (system.Job × Program I system.Result)
  spawned : Nat
  trace : List (Entry system)

inductive Label (system : System I) where
  | spawn (job : system.Job)
  | perform (caller : Nat) (choice : system.Choice)
  | crash (startup : system.Startup)

/-- Replace the value of a caller-indexed family at one caller. -/
def assign {Value : Type} (family : Nat → Option Value) (caller : Nat)
    (value : Option Value) : Nat → Option Value :=
  fun other => if other = caller then value else family other

@[simp] theorem assign_same {Value : Type} (family : Nat → Option Value) (caller : Nat)
    (value : Option Value) : assign family caller value caller = value := by
  simp [assign]

theorem assign_other {Value : Type} (family : Nat → Option Value) {caller other : Nat}
    (value : Option Value) (different : other ≠ caller) :
    assign family caller value other = family other := by
  simp [assign, different]

theorem assign_eq_some {Value : Type} {family : Nat → Option Value} {caller other : Nat}
    {assigned : Option Value} {value : Value}
    (found : assign family caller assigned other = some value) :
    (other = caller ∧ assigned = some value) ∨ (other ≠ caller ∧ family other = some value) := by
  by_cases same : other = caller
  · subst same
    exact .inl ⟨rfl, by simpa using found⟩
  · exact .inr ⟨same, by simpa [assign, same] using found⟩

namespace Pool

variable {system : System I}

def boot (state : system.State) : Pool system where
  state := state
  calls := fun _ => none
  spawned := 0
  trace := []

def spawn (pool : Pool system) (job : system.Job) : Pool system :=
  { pool with
    calls := assign pool.calls pool.spawned (some (job, system.program job))
    spawned := pool.spawned + 1 }

/-- The pool after a caller's request was answered. -/
def record (pool : Pool system) (caller : Nat) (job : system.Job) (op : I.Op)
    (answer : I.Answer op) (rest : Program I system.Result) (state : system.State) :
    Pool system :=
  { pool with
    state := state
    calls := assign pool.calls caller (some (job, rest))
    trace := ⟨caller, job, pool.state, op, answer⟩ :: pool.trace }

def crash (pool : Pool system) (startup : system.Startup) : Pool system :=
  { pool with
    state := system.restart startup pool.state
    calls := fun _ => none }

/-- One labelled step, when the label is possible. -/
def apply (pool : Pool system) : Label system → Option (Pool system)
  | .spawn job => some (pool.spawn job)
  | .crash startup => some (pool.crash startup)
  | .perform caller choice =>
      match pool.calls caller with
      | some (job, .request op next) =>
          match system.perform op choice pool.state with
          | some (answer, state) => some (pool.record caller job op answer (next answer) state)
          | none => none
      | _ => none

/-- The request a caller waits on. -/
def awaits (pool : Pool system) (caller : Nat) : Option I.Op :=
  match pool.calls caller with
  | some (_, program) => program.awaits
  | none => none

/-- The job of a caller that has not returned yet. -/
def running (pool : Pool system) (caller : Nat) : Option system.Job :=
  match pool.calls caller with
  | some (job, .request _ _) => some job
  | _ => none

/-- The pools reached from a starting pool by steps that are admitted. -/
inductive Reachable (admits : Pool system → Label system → Prop)
    (starts : Pool system → Prop) : Pool system → Prop where
  | start {pool} (initial : starts pool) : Reachable admits starts pool
  | step {pool label next} (reached : Reachable admits starts pool)
      (admitted : admits pool label) (applied : pool.apply label = some next) :
      Reachable admits starts next

/-- Run a list of labels, each checked against the pool it is applied to. -/
def runChecked (check : Pool system → Label system → Bool) :
    List (Label system) → Pool system → Option (Pool system)
  | [], pool => some pool
  | label :: labels, pool =>
      if check pool label then
        match pool.apply label with
        | some next => runChecked check labels next
        | none => none
      else none

theorem Reachable.of_runChecked {admits : Pool system → Label system → Prop}
    {starts : Pool system → Prop} {check : Pool system → Label system → Bool}
    {labels : List (Label system)} {pool final : Pool system}
    (sound : ∀ pool label, check pool label = true → admits pool label)
    (reached : Reachable admits starts pool)
    (ran : runChecked check labels pool = some final) :
    Reachable admits starts final := by
  induction labels generalizing pool with
  | nil =>
      cases ran
      exact reached
  | cons label labels ih =>
      simp only [runChecked] at ran
      split at ran
      · rename_i checked
        split at ran
        · rename_i next applied
          exact ih (.step reached (sound pool label checked) applied) ran
        · cases ran
      · cases ran

/-- Inversion of an answered request. -/
theorem apply_perform {pool next : Pool system} {caller : Nat} {choice : system.Choice}
    (applied : pool.apply (.perform caller choice) = some next) :
    ∃ job op rest answer state,
      pool.calls caller = some (job, .request op rest) ∧
      system.perform op choice pool.state = some (answer, state) ∧
      next = pool.record caller job op answer (rest answer) state := by
  simp only [apply] at applied
  split at applied
  · rename_i job op rest found
    split at applied
    · rename_i answer state performed
      exact ⟨job, op, rest, answer, state, found, performed, by simpa using applied.symm⟩
    · cases applied
  · cases applied

end Pool

/-- What a control point knows about one caller: nothing before it starts and
after it has returned, a conforming remainder while it runs. -/
inductive Follows (system : System I) (protocol : Protocol I)
    (post : system.Job → system.Result → protocol.Control → Prop) :
    Option (system.Job × Program I system.Result) → Option protocol.Control → Prop where
  | absent : Follows system protocol post none none
  | returned {job result} : Follows system protocol post (some (job, .pure result)) none
  | running {job op next control}
      (conforms : Conforms protocol (.request op next) control (post job)) :
      Follows system protocol post (some (job, .request op next)) (some control)

/-- The control points of all callers of a pool. -/
structure Tracks {system : System I} (protocol : Protocol I)
    (post : system.Job → system.Result → protocol.Control → Prop) (pool : Pool system)
    (controls : Nat → Option protocol.Control) : Prop where
  follows : ∀ caller, Follows system protocol post (pool.calls caller) (controls caller)
  fresh : ∀ caller, pool.spawned ≤ caller → pool.calls caller = none

section

variable {system : System I} {protocol : Protocol I}
  {post : system.Job → system.Result → protocol.Control → Prop}

theorem Follows.of_control {call : Option (system.Job × Program I system.Result)}
    {control : protocol.Control} (follows : Follows system protocol post call (some control)) :
    ∃ job op next, call = some (job, .request op next) ∧
      Conforms protocol (.request op next) control (post job) := by
  cases follows with
  | running conforms => exact ⟨_, _, _, rfl, conforms⟩

theorem Follows.of_request {job : system.Job} {op : I.Op}
    {next : I.Answer op → Program I system.Result} {control : Option protocol.Control}
    (follows : Follows system protocol post (some (job, .request op next)) control) :
    ∃ known, control = some known ∧ Conforms protocol (.request op next) known (post job) := by
  cases follows with
  | running conforms => exact ⟨_, rfl, conforms⟩

theorem Follows.of_absent {control : Option protocol.Control}
    (follows : Follows system protocol post none control) : control = none := by
  cases follows with
  | absent => rfl

theorem Tracks.control_none {pool : Pool system} {controls : Nat → Option protocol.Control}
    (tracks : Tracks protocol post pool controls) {caller : Nat}
    (unspawned : pool.spawned ≤ caller) : controls caller = none := by
  have follows := tracks.follows caller
  rw [tracks.fresh caller unspawned] at follows
  exact follows.of_absent

theorem Tracks.running_of_control {pool : Pool system}
    {controls : Nat → Option protocol.Control}
    (tracks : Tracks protocol post pool controls) {caller : Nat}
    {control : protocol.Control} (held : controls caller = some control) :
    ∃ job, pool.running caller = some job := by
  have follows := tracks.follows caller
  rw [held] at follows
  obtain ⟨job, op, next, found, _⟩ := follows.of_control
  exact ⟨job, by simp [Pool.running, found]⟩

/-- A caller with a control point runs the job it was spawned with. -/
theorem Tracks.running_of_call {pool : Pool system} {controls : Nat → Option protocol.Control}
    (tracks : Tracks protocol post pool controls) {caller : Nat} {control : protocol.Control}
    {job : system.Job} {program : Program I system.Result}
    (held : controls caller = some control) (found : pool.calls caller = some (job, program)) :
    caller < pool.spawned ∧ pool.running caller = some job := by
  have follows := tracks.follows caller
  rw [held] at follows
  obtain ⟨job', op, next, called, _⟩ := follows.of_control
  rw [called] at found
  cases found
  constructor
  · refine Nat.lt_of_not_le fun late => ?_
    rw [tracks.fresh caller late] at called
    cases called
  · simp [Pool.running, called]

end

/-- An invariant of a pool and of the control points of its callers, proved one
kind of step at a time. -/
structure Invariant (system : System I) (protocol : Protocol I)
    (start : system.Job → protocol.Control)
    (post : system.Job → system.Result → protocol.Control → Prop)
    (admits : Pool system → Label system → Prop)
    (holds : Pool system → (Nat → Option protocol.Control) → Prop) : Prop where
  spawn : ∀ {pool controls} (job : system.Job), Tracks protocol post pool controls →
    admits pool (.spawn job) → holds pool controls →
    holds (pool.spawn job) (assign controls pool.spawned (some (start job)))
  perform : ∀ {pool controls} {caller : Nat} {job : system.Job} {op : I.Op}
    {next : I.Answer op → Program I system.Result} {before after : protocol.Control}
    {choice : system.Choice} {answer : I.Answer op} {state : system.State},
    Tracks protocol post pool controls → admits pool (.perform caller choice) →
    pool.calls caller = some (job, .request op next) → controls caller = some before →
    protocol.Advance before op answer after →
    system.perform op choice pool.state = some (answer, state) → holds pool controls →
    holds (pool.record caller job op answer (next answer) state)
      (assign controls caller (some after))
  finish : ∀ {pool controls} {caller : Nat} {job : system.Job} {result : system.Result}
    {control : protocol.Control},
    pool.calls caller = some (job, .pure result) → controls caller = some control →
    post job result control → holds pool controls →
    holds pool (assign controls caller none)
  crash : ∀ {pool controls} (startup : system.Startup), Tracks protocol post pool controls →
    admits pool (.crash startup) → holds pool controls →
    holds (pool.crash startup) fun _ => none

namespace Invariant

variable {system : System I} {protocol : Protocol I} {start : system.Job → protocol.Control}
  {post : system.Job → system.Result → protocol.Control → Prop}
  {admits : Pool system → Label system → Prop}
  {holds : Pool system → (Nat → Option protocol.Control) → Prop}

/-- Settle one caller's program at its control point: a returned program gives
its control point up, a waiting one keeps it. -/
private theorem settle (invariant : Invariant system protocol start post admits holds)
    {pool : Pool system} {controls : Nat → Option protocol.Control} (caller : Nat)
    (job : system.Job) {program : Program I system.Result} {control : protocol.Control}
    (found : pool.calls caller = some (job, program))
    (conforms : Conforms protocol program control (post job))
    (others : ∀ other, other ≠ caller →
      Follows system protocol post (pool.calls other) (controls other))
    (fresh : ∀ other, pool.spawned ≤ other → pool.calls other = none)
    (held : controls caller = some control) (kept : holds pool controls) :
    ∃ settled, Tracks protocol post pool settled ∧ holds pool settled := by
  cases program with
  | pure result =>
      refine ⟨assign controls caller none, ⟨?_, fresh⟩,
        invariant.finish found held conforms kept⟩
      intro other
      by_cases same : other = caller
      · subst same
        rw [found, assign_same]
        exact .returned
      · rw [assign_other controls none same]
        exact others other same
  | request op next =>
      refine ⟨controls, ⟨?_, fresh⟩, kept⟩
      intro other
      by_cases same : other = caller
      · subst same
        rw [found, held]
        exact .running conforms
      · exact others other same

/-- An invariant holds of every reachable pool, at the control points its
callers' programs are at. -/
theorem reachable (invariant : Invariant system protocol start post admits holds)
    {starts : Pool system → Prop}
    (boots : ∀ pool, starts pool →
      (∀ caller, pool.calls caller = none) ∧ holds pool fun _ => none)
    (conforms : ∀ job, Conforms protocol (system.program job) (start job) (post job))
    {pool : Pool system} (reached : Pool.Reachable admits starts pool) :
    ∃ controls, Tracks protocol post pool controls ∧ holds pool controls := by
  induction reached with
  | start initial =>
      obtain ⟨empty, kept⟩ := boots _ initial
      refine ⟨fun _ => none, ⟨fun caller => ?_, fun caller _ => empty caller⟩, kept⟩
      rw [empty caller]
      exact .absent
  | @step pool label next _ admitted applied ih =>
      obtain ⟨controls, tracks, kept⟩ := ih
      cases label with
      | spawn job =>
          cases applied
          refine settle invariant pool.spawned job
            (by simp [Pool.spawn]) (conforms job) ?_ ?_ (assign_same _ _ _)
            (invariant.spawn job tracks admitted kept)
          · intro other different
            rw [assign_other controls _ different]
            simpa [Pool.spawn, assign_other _ _ different] using tracks.follows other
          · intro other unspawned
            have different : other ≠ pool.spawned := by
              simp only [Pool.spawn] at unspawned
              omega
            have earlier : pool.spawned ≤ other := by
              simp only [Pool.spawn] at unspawned
              omega
            simpa [Pool.spawn, assign_other _ _ different] using tracks.fresh other earlier
      | crash startup =>
          cases applied
          exact ⟨fun _ => none, ⟨fun _ => .absent, fun _ _ => rfl⟩,
            invariant.crash startup tracks admitted kept⟩
      | perform caller choice =>
          obtain ⟨job, op, rest, answer, state, found, performed, rfl⟩ :=
            Pool.apply_perform applied
          have follows := tracks.follows caller
          rw [found] at follows
          obtain ⟨before, held, remaining⟩ := follows.of_request
          obtain ⟨after, advance, later⟩ := remaining answer
          refine settle invariant caller job
            (by simp [Pool.record]) later ?_ ?_ (assign_same _ _ _)
            (invariant.perform tracks admitted found held advance performed kept)
          · intro other different
            rw [assign_other controls _ different]
            simpa [Pool.record, assign_other _ _ different] using tracks.follows other
          · intro other unspawned
            have different : other ≠ caller := by
              intro same
              subst same
              have absent := tracks.fresh other unspawned
              rw [found] at absent
              cases absent
            simpa [Pool.record, assign_other _ _ different] using tracks.fresh other unspawned

end Invariant

end

end Effect
