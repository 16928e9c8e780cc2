import OpsCodex.Turn.Steps

/-! Runs in which one call at a time drives or classifies turns, beside which the
user decides, and in which the checkpoints of a turn are written in order of time. -/

set_option autoImplicit false

namespace OpsCodex.Turn

open Effect OpsCodex.Store OpsCodex.Runtime

variable {deployment : Deployment}

/-- A call that drives turns begins when no other such call is running. -/
def Sequential (pool : Pool deployment) : Label (system deployment) → Prop
  | .spawn job => job.drives = true →
      ∀ caller < pool.spawned, ∀ other, pool.running caller = some other → other.drives = false
  | _ => True

/-- The order of calls, as a check. -/
def sequential (pool : Pool deployment) : Label (system deployment) → Bool
  | .spawn job => !job.drives || (List.range pool.spawned).all fun caller =>
      match pool.running caller with
      | some other => !Job.drives other
      | none => true
  | _ => true

theorem sequential_sound (pool : Pool deployment) (label : Label (system deployment))
    (checked : sequential pool label = true) : Sequential pool label := by
  cases label with
  | spawn job =>
      intro drives caller earlier other running
      simp only [sequential, drives, Bool.not_true, Bool.false_or, List.all_eq_true,
        List.mem_range] at checked
      simpa [running] using checked caller earlier
  | perform caller choice => trivial
  | crash startup => trivial

/-- A checkpoint that is about to be written is later than the others of its turn. -/
def Increasing (pool : Pool deployment) : Label (system deployment) → Prop
  | .perform caller _ => ∀ checkpoint,
      pool.awaits caller = some (.command (.putCheckpoint checkpoint)) →
      ∀ row ∈ pool.state.db.turnCheckpoints checkpoint.turnId,
        row.createdAt < checkpoint.createdAt
  | _ => True

/-- The order of checkpoints, as a check. -/
def increasing (pool : Pool deployment) : Label (system deployment) → Bool
  | .perform caller _ =>
      match pool.awaits caller with
      | some (.command (.putCheckpoint checkpoint)) =>
          (pool.state.db.turnCheckpoints checkpoint.turnId).all fun row =>
            decide (row.createdAt < checkpoint.createdAt)
      | _ => true
  | _ => true

theorem increasing_sound (pool : Pool deployment) (label : Label (system deployment))
    (checked : increasing pool label = true) : Increasing pool label := by
  cases label with
  | perform caller choice =>
      intro checkpoint awaited
      simpa [increasing, awaited] using checked
  | spawn job => trivial
  | crash startup => trivial

namespace Control

/-- The control points of calls that drive or classify turns. -/
def drives : Control → Bool
  | .idle | .resolving _ | .recalled _ => false
  | _ => true

theorem drives_of_guards {control : Control} {drive : Drive}
    (guards : control.guards = some drive) : control.drives = true := by
  cases control <;> first | rfl | cases guards

end Control

namespace Control

/-- The control points at which only a resume can be. -/
def retraces : Control → Bool
  | .resuming _ | .tracing _ _ => true
  | _ => false

end Control

theorem Advance.retraces {codec : Action.Codec} {before after : Control} {op : Op}
    {answer : op.Answer} (advance : Advance codec before op answer after)
    (retracing : after.retraces = true) : before.retraces = true := by
  cases advance with
  | quiet => exact retracing
  | trace => rfl
  | _ => cases retracing

theorem begins_drives (job : Job) : (begins job).drives = job.drives := by
  cases job <;> rfl

theorem Advance.drives {codec : Action.Codec} {before after : Control} {op : Op}
    {answer : op.Answer} (advance : Advance codec before op answer after)
    (driving : after.drives = true) : before.drives = true := by
  cases advance with
  | close closable =>
      have leavable := Control.leavable_of_closable closable
      exact Control.drives_of_guards (Control.guards_of_leavable leavable)
  | _ => first | exact driving | rfl | cases driving

/-- At most one call is at a control point of a drive, and it is a driving call. -/
structure Alone (pool : Pool deployment) (controls : Nat → Option Control) : Prop where
  job : ∀ caller control, controls caller = some control → control.drives = true →
    ∃ job program, pool.calls caller = some (job, program) ∧ Job.drives job = true
  single : ∀ left right control control', controls left = some control →
    controls right = some control' → control.drives = true → control'.drives = true →
    left = right
  resumes : ∀ caller control, controls caller = some control → control.retraces = true →
    ∃ turnId key program, pool.calls caller = some (.resumeTurn turnId key, program)

namespace Alone

variable {pool : Pool deployment} {controls : Nat → Option Control} {caller : Nat}

/-- Beside a driving call there are only decisions of the user. -/
theorem others (alone : Alone pool controls) {control : Control}
    (held : controls caller = some control) (drives : control.drives = true) {other : Nat}
    {control' : Control} (different : other ≠ caller) (found : controls other = some control') :
    control'.drives = false := by
  by_contra driving
  exact different (alone.single other caller control' control found held
    (by simpa using driving) drives)

theorem spawn {post : (system deployment).Job → (system deployment).Result → Control → Prop}
    (tracks : Tracks (protocol deployment.codec) post pool controls)
    (job : Job) (admitted : Sequential pool (.spawn job)) (alone : Alone pool controls) :
    Alone (Pool.spawn pool job) (assign controls pool.spawned (some (begins job))) := by
  have unspawned {other : Nat} {control : Control} (found : controls other = some control) :
      other ≠ pool.spawned := by
    rintro rfl
    rw [tracks.control_none (Nat.le_refl _)] at found
    cases found
  have idle {other : Nat} {control : Control} (drives : job.drives = true)
      (found : controls other = some control) : control.drives = false := by
    by_contra driving
    obtain ⟨job', program, called, drives'⟩ :=
      alone.job other control found (by simpa using driving)
    have early : other < pool.spawned := by
      by_contra late
      rw [tracks.fresh other (Nat.le_of_not_lt late)] at called
      cases called
    obtain ⟨known, running⟩ := tracks.running_of_control found
    have same : known = job' := by
      simp only [Pool.running, called] at running
      split at running
      · rename_i equal
        cases equal
        cases running
        rfl
      · cases running
    subst same
    rw [admitted drives other early known running] at drives'
    cases drives'
  constructor
  · intro other control found driving
    rcases assign_eq_some found with ⟨rfl, equal⟩ | ⟨different, old⟩
    · cases equal
      rw [begins_drives] at driving
      exact ⟨job, (system deployment).program job, by simp [Pool.spawn], driving⟩
    · obtain ⟨job', program, called, drives⟩ := alone.job other control old driving
      exact ⟨job', program, by simpa [Pool.spawn, assign_other _ _ different] using called, drives⟩
  · intro left right control control' foundLeft foundRight drivesLeft drivesRight
    rcases assign_eq_some foundLeft with ⟨rfl, equalLeft⟩ | ⟨_, oldLeft⟩ <;>
      rcases assign_eq_some foundRight with ⟨rfl, equalRight⟩ | ⟨_, oldRight⟩
    · rfl
    · cases equalLeft
      rw [begins_drives] at drivesLeft
      rw [idle drivesLeft oldRight] at drivesRight
      cases drivesRight
    · cases equalRight
      rw [begins_drives] at drivesRight
      rw [idle drivesRight oldLeft] at drivesLeft
      cases drivesLeft
    · exact alone.single left right control control' oldLeft oldRight drivesLeft drivesRight
  · intro other control found retracing
    obtain ⟨rfl, equal⟩ | ⟨different, old⟩ := assign_eq_some found
    · cases equal
      cases job with
      | resumeTurn turnId key =>
          exact ⟨turnId, key, (system deployment).program (.resumeTurn turnId key), by
            simp [Pool.spawn]⟩
      | _ => cases retracing
    · obtain ⟨turnId, key, program, called⟩ := alone.resumes other control old retracing
      exact ⟨turnId, key, program, by simpa [Pool.spawn, assign_other _ _ different] using called⟩

theorem perform {job : Job} {op : Op}
    {next : op.Answer → Program serviceInterface (Result Returned)} {before after : Control}
    {answer : op.Answer} {state : World} (alone : Alone pool controls)
    (found : pool.calls caller = some (job, .request op next))
    (held : controls caller = some before)
    (advance : Advance deployment.codec before op answer after) :
    Alone (pool.record caller job op answer (next answer) state)
      (assign controls caller (some after)) := by
  constructor
  · intro other control held' driving
    rcases assign_eq_some held' with ⟨rfl, equal⟩ | ⟨different, old⟩
    · cases equal
      obtain ⟨job', program, called, drives⟩ :=
        alone.job other before held (advance.drives driving)
      rw [found] at called
      cases called
      exact ⟨job, next answer, by simp [Pool.record], drives⟩
    · obtain ⟨job', program, called, drives⟩ := alone.job other control old driving
      exact ⟨job', program, by simpa [Pool.record, assign_other _ _ different] using called, drives⟩
  · intro left right control control' foundLeft foundRight drivesLeft drivesRight
    rcases assign_eq_some foundLeft with ⟨rfl, equalLeft⟩ | ⟨_, oldLeft⟩ <;>
      rcases assign_eq_some foundRight with ⟨rfl, equalRight⟩ | ⟨_, oldRight⟩
    · rfl
    · cases equalLeft
      exact alone.single left right before control' held oldRight (advance.drives drivesLeft)
        drivesRight
    · cases equalRight
      exact alone.single left right control before oldLeft held drivesLeft
        (advance.drives drivesRight)
    · exact alone.single left right control control' oldLeft oldRight drivesLeft drivesRight
  · intro other control held' retracing
    obtain ⟨rfl, equal⟩ | ⟨different, old⟩ := assign_eq_some held'
    · cases equal
      obtain ⟨turnId, key, program, called⟩ :=
        alone.resumes other before held (advance.retraces retracing)
      rw [found] at called
      cases called
      exact ⟨turnId, key, next answer, by simp [Pool.record]⟩
    · obtain ⟨turnId, key, program, called⟩ := alone.resumes other control old retracing
      exact ⟨turnId, key, program, by simpa [Pool.record, assign_other _ _ different] using called⟩

theorem finish (alone : Alone pool controls) : Alone pool (assign controls caller none) := by
  have earlier {other : Nat} {control : Control}
      (found : assign controls caller none other = some control) :
      controls other = some control := by
    rcases assign_eq_some found with ⟨_, equal⟩ | ⟨_, old⟩
    · cases equal
    · exact old
  constructor
  · exact fun other control found => alone.job other control (earlier found)
  · exact fun left right control control' foundLeft foundRight =>
      alone.single left right control control' (earlier foundLeft) (earlier foundRight)
  · exact fun other control found => alone.resumes other control (earlier found)

theorem none (pool : Pool deployment) : Alone pool fun _ => none := by
  constructor
  · intro caller control found
    cases found
  · intro left right control control' found
    cases found
  · intro caller control found
    cases found

end Alone

end OpsCodex.Turn
