import OpsCodex.Remediation.Steps

/-! No runner starts while the kill switch is on, as long as the switch is not
turned on between an execution's check of it and the start of its runner. -/

set_option autoImplicit false

namespace OpsCodex.Remediation

open Effect OpsCodex.Action OpsCodex.Store OpsCodex.Runtime

namespace KillSwitch

variable {deployment : Deployment}

/-- Did a request find the kill switch off? -/
def readsOff : (op : Op) → op.Answer → Bool
  | .killSwitchEnabled, enabled => !enabled
  | _, _ => false

/-- A call that has found the kill switch off and has not started a runner. -/
def admitted (caller : Nat) (trace : List (Entry (system deployment))) : Bool :=
  trace.any (fun entry => decide (entry.caller = caller) && readsOff entry.op entry.answer) &&
    trace.all fun entry => decide (entry.caller ≠ caller) || (startedRunner entry.op).isNone

def executes : Job → Bool
  | .execute _ => true
  | _ => false

/-- The kill switch is turned on when no execution is between its check of the
switch and the start of its runner. -/
def Guarded (pool : Pool deployment) : Label (system deployment) → Prop
  | .perform caller _ => pool.awaits caller = some (.setKillSwitch true) →
      ∀ other < pool.spawned, (pool.running other).any executes = true →
        admitted other pool.trace = false
  | _ => True

/-- The guard, as a check. -/
def guarded (pool : Pool deployment) : Label (system deployment) → Bool
  | .perform caller _ =>
      match pool.awaits caller with
      | some (.setKillSwitch true) => (List.range pool.spawned).all fun other =>
          !((pool.running other).any executes && admitted other pool.trace)
      | _ => true
  | _ => true

theorem guarded_sound (pool : Pool deployment) (label : Label (system deployment))
    (checked : guarded pool label = true) : Guarded pool label := by
  cases label with
  | perform caller choice =>
      intro awaited other bound runs
      simp only [guarded, awaited, List.all_eq_true, List.mem_range] at checked
      simpa [runs] using checked other bound
  | spawn job => exact trivial
  | crash startup => exact trivial

/-- Control points of an execution that has not started its runner. -/
def waits : Control → Bool
  | .entering _ | .admitted _ | .claimed _ | .executing _ => true
  | _ => false

/-- Control points between the check of the switch and the start of the runner. -/
def inside : Control → Bool
  | .admitted _ | .claimed _ | .executing _ => true
  | _ => false

section

variable {before after : Control} {op : Op} {answer : op.Answer}

theorem waits_before (advance : Advance before op answer after) (later : waits after = true) :
    waits before = true ∧ startedRunner op = none := by
  cases advance with
  | quiet quiet => exact ⟨later, startedRunner_quiet quiet⟩
  | _ => first | exact ⟨rfl, rfl⟩ | cases later

theorem inside_before (advance : Advance before op answer after) (later : inside after = true) :
    inside before = true ∨ readsOff op answer = true := by
  cases advance with
  | quiet => exact .inl later
  | _ => first | exact .inl rfl | exact .inr rfl | cases later

theorem inside_start (advance : Advance before op answer after) {actionId : ActionId}
    (starts : startedRunner op = some actionId) : inside before = true := by
  cases advance with
  | quiet quiet =>
      rw [startedRunner_quiet quiet] at starts
      cases starts
  | _ => first | rfl | cases starts

theorem waits_of_inside {control : Control} (within : inside control = true) :
    waits control = true := by
  cases control <;> first | rfl | cases within

end

structure Holds (pool : Pool deployment) (controls : Nat → Option Control) : Prop where
  callers : ∀ entry ∈ pool.trace, entry.caller < pool.spawned
  executing : ∀ caller control, controls caller = some control → waits control = true →
    caller < pool.spawned ∧ (∃ actionId program, pool.calls caller =
      some (.execute actionId, program)) ∧
    ∀ entry ∈ pool.trace, entry.caller = caller → startedRunner entry.op = none
  checked : ∀ caller control, controls caller = some control → inside control = true →
    pool.state.process.killSwitch = false ∧
    ∃ entry ∈ pool.trace, entry.caller = caller ∧ readsOff entry.op entry.answer = true
  blocked : ∀ entry ∈ pool.trace, ∀ actionId, startedRunner entry.op = some actionId →
    entry.before.process.killSwitch = false

/-- A call that is past the check and before the start counts as admitted. -/
theorem Holds.admitted_of_inside {pool : Pool deployment} {controls : Nat → Option Control}
    (holds : Holds pool controls) {caller : Nat} {control : Control}
    (held : controls caller = some control) (within : inside control = true) :
    admitted caller pool.trace = true := by
  obtain ⟨-, -, unstarted⟩ := holds.executing caller control held (waits_of_inside within)
  obtain ⟨-, entry, member, own, reads⟩ := holds.checked caller control held within
  simp only [admitted, Bool.and_eq_true, List.any_eq_true, List.all_eq_true]
  refine ⟨⟨entry, member, by simp [own, reads]⟩, fun other member' => ?_⟩
  by_cases same : other.caller = caller
  · simp [same, unstarted other member' same]
  · simp [same]

/-- While a call is past the check, an admitted step leaves the switch off. -/
theorem Holds.switch_off {pool : Pool deployment} {controls : Nat → Option Control}
    {caller other : Nat} {job : Job} {op : Op}
    {next : op.Answer → Program serviceInterface (Result Returned)} {choice : Choice}
    {answer : op.Answer} {state : World} {control : Control} (holds : Holds pool controls)
    (tracks : Tracks protocol ends pool controls)
    (guarded : Guarded pool (.perform caller choice))
    (found : pool.calls caller = some (job, .request op next))
    (performed : World.perform deployment.content deployment.codec op choice pool.state =
      some (answer, state))
    (held : controls other = some control) (within : inside control = true) :
    state.process.killSwitch = false := by
  by_cases switches : ∃ enabled, op = .setKillSwitch enabled
  · obtain ⟨enabled, rfl⟩ := switches
    cases enabled with
    | false =>
        cases choice <;> cases performed
        rfl
    | true =>
        have awaited : pool.awaits caller = some (.setKillSwitch true) := by
          simp [Pool.awaits, found, Program.awaits]
        obtain ⟨bound, ⟨actionId, program, calls⟩, -⟩ :=
          holds.executing other control held (waits_of_inside within)
        obtain ⟨runs, running⟩ := tracks.running_of_control held
        have executes : (pool.running other).any executes = true := by
          simp only [Pool.running, calls] at running ⊢
          split at running
          · rename_i equal
            cases equal
            rfl
          · cases running
        have refused := guarded awaited other bound executes
        rw [holds.admitted_of_inside held within] at refused
        cases refused
  · rw [World.perform_killSwitch performed fun enabled equal => switches ⟨enabled, equal⟩]
    exact (holds.checked other control held within).1

theorem Holds.perform {pool : Pool deployment} {controls : Nat → Option Control} {caller : Nat}
    {job : Job} {op : Op} {next : op.Answer → Program serviceInterface (Result Returned)}
    {before after : Control} {choice : Choice} {answer : op.Answer} {state : World}
    (holds : Holds pool controls) (tracks : Tracks protocol ends pool controls)
    (guarded : Guarded pool (.perform caller choice))
    (found : pool.calls caller = some (job, .request op next))
    (held : controls caller = some before) (advance : Advance before op answer after)
    (performed : World.perform deployment.content deployment.codec op choice pool.state =
      some (answer, state)) :
    Holds (pool.record caller job op answer (next answer) state)
      (assign controls caller (some after)) := by
  have spawned : caller < pool.spawned := by
    by_contra late
    rw [tracks.control_none (Nat.le_of_not_lt late)] at held
    cases held
  constructor
  · intro entry member
    rcases List.mem_cons.mp member with rfl | old
    · exact spawned
    · exact holds.callers entry old
  · intro other control assigned later
    rcases assign_eq_some assigned with ⟨rfl, equal⟩ | ⟨different, heldOther⟩
    · cases equal
      obtain ⟨earlier, startless⟩ := waits_before advance later
      obtain ⟨-, ⟨actionId, program, calls⟩, unstarted⟩ :=
        holds.executing other before held earlier
      rw [found] at calls
      cases calls
      refine ⟨spawned, ⟨actionId, next answer, by simp [Pool.record]⟩, ?_⟩
      intro entry member own
      rcases List.mem_cons.mp member with rfl | old
      · exact startless
      · exact unstarted entry old own
    · obtain ⟨bound, calls, unstarted⟩ := holds.executing other control heldOther later
      refine ⟨bound, by simpa [Pool.record, assign_other _ _ different] using calls, ?_⟩
      intro entry member own
      rcases List.mem_cons.mp member with rfl | old
      · exact absurd own.symm different
      · exact unstarted entry old own
  · intro other control assigned within
    rcases assign_eq_some assigned with ⟨rfl, equal⟩ | ⟨_, heldOther⟩
    · cases equal
      rcases inside_before advance within with earlier | reads
      · obtain ⟨-, entry, member, own, reads⟩ := holds.checked other before held earlier
        exact ⟨holds.switch_off tracks guarded found performed held earlier, entry,
          List.mem_cons_of_mem _ member, own, reads⟩
      · refine ⟨?_, _, List.mem_cons_self, rfl, reads⟩
        unfold readsOff at reads
        split at reads
        · cases choice <;> cases performed
          simpa [Pool.record] using reads
        · cases reads
    · obtain ⟨-, entry, member, own, reads⟩ := holds.checked other control heldOther within
      exact ⟨holds.switch_off tracks guarded found performed heldOther within, entry,
        List.mem_cons_of_mem _ member, own, reads⟩
  · intro entry member actionId starts
    rcases List.mem_cons.mp member with rfl | old
    · exact (holds.checked caller before held (inside_start advance starts)).1
    · exact holds.blocked entry old actionId starts

theorem Holds.spawn {pool : Pool deployment} {controls : Nat → Option Control} (job : Job)
    (holds : Holds pool controls) :
    Holds (Pool.spawn pool job) (assign controls pool.spawned (some (begins job))) := by
  constructor
  · intro entry member
    exact Nat.lt_succ_of_lt (holds.callers entry member)
  · intro caller control assigned later
    rcases assign_eq_some assigned with ⟨rfl, equal⟩ | ⟨different, held⟩
    · cases equal
      refine ⟨Nat.lt_succ_self _, ?_, ?_⟩
      · cases job with
        | execute actionId =>
            exact ⟨actionId, (system deployment).program (.execute actionId), by
              simp [Pool.spawn]⟩
        | _ => cases later
      · intro entry member own
        exact absurd own (Nat.ne_of_lt (holds.callers entry member))
    · obtain ⟨bound, calls, unstarted⟩ := holds.executing caller control held later
      exact ⟨Nat.lt_succ_of_lt bound,
        by simpa [Pool.spawn, assign_other _ _ different] using calls, unstarted⟩
  · intro caller control assigned within
    rcases assign_eq_some assigned with ⟨_, equal⟩ | ⟨_, held⟩
    · cases equal
      cases job <;> cases within
    · exact holds.checked caller control held within
  · exact holds.blocked

theorem Holds.finish {pool : Pool deployment} {controls : Nat → Option Control} (caller : Nat)
    (holds : Holds pool controls) : Holds pool (assign controls caller none) := by
  have earlier {other : Nat} {control : Control}
      (assigned : assign controls caller none other = some control) :
      controls other = some control := by
    rcases assign_eq_some assigned with ⟨_, equal⟩ | ⟨_, held⟩
    · cases equal
    · exact held
  exact ⟨holds.callers,
    fun other control assigned => holds.executing other control (earlier assigned),
    fun other control assigned => holds.checked other control (earlier assigned),
    holds.blocked⟩

theorem Holds.crash {pool : Pool deployment} {controls : Nat → Option Control}
    (startup : Catalog) (holds : Holds pool controls) :
    Holds (Pool.crash pool startup) fun _ => none :=
  ⟨holds.callers, by simp, by simp, holds.blocked⟩

/-- The invariant of the guarded pool. -/
theorem invariant : Invariant (system deployment) protocol begins ends Guarded Holds where
  spawn job _ _ holds := holds.spawn job
  perform := by
    intro pool controls caller job op next before after choice answer state tracks guarded
      found held advance performed holds
    exact @Holds.perform deployment pool controls caller job op next before after choice answer
      state holds tracks guarded found held advance performed
  finish _ _ _ holds := holds.finish _
  crash startup _ _ holds := holds.crash startup

theorem holds_of_boots {pool : Pool deployment} (boots : Boots deployment pool) :
    (∀ caller, pool.calls caller = none) ∧ Holds pool fun _ => none := by
  obtain ⟨world, empty, rfl⟩ := boots
  exact ⟨fun _ => rfl, by simp [Pool.boot], by simp, by simp, by simp [Pool.boot]⟩

end KillSwitch

open KillSwitch

/-- When the kill switch is only turned on outside the window between an
execution's check and its start, no runner starts while the switch is on. -/
theorem killSwitch_off_of_start (deployment : Deployment) (pool : Pool deployment)
    (reached : Pool.Reachable Guarded (Boots deployment) pool)
    (entry : Entry (system deployment)) (member : entry ∈ pool.trace) (actionId : ActionId)
    (starts : startedRunner entry.op = some actionId) :
    entry.before.process.killSwitch = false := by
  obtain ⟨controls, tracks, holds⟩ :=
    Invariant.reachable invariant (fun _ => holds_of_boots) (conforms deployment) reached
  exact holds.blocked entry member actionId starts

namespace KillSwitch

/-- A switch that is turned on once the only runner has started. -/
def lateSwitch : List Demo.Step :=
  Demo.propose 0 ++ [Demo.approval] ++ Demo.weigh 1 ++ Demo.decide 1 ++ Demo.execute 2 ++
    [Demo.spawn (.setKillSwitch true), Demo.settle 3]

/-- A switch that is turned on while an execution is past its check. -/
def earlySwitch : List Demo.Step :=
  Demo.propose 0 ++ [Demo.approval] ++ Demo.weigh 1 ++ Demo.decide 1 ++
    (Demo.execute 2).take 4 ++ [Demo.spawn (.setKillSwitch true), Demo.settle 3] ++
    (Demo.execute 2).drop 4

/-- The kill switch at the newest start of the demo action. -/
def switchAtStart (pool : Pool Demo.deployment) : Option Bool :=
  (pool.trace.find? fun entry => decide (startedRunner entry.op = some Demo.action)).map
    fun entry => entry.before.process.killSwitch

theorem start_of_switchAtStart {pool : Pool Demo.deployment} {enabled : Bool}
    (found : switchAtStart pool = some enabled) :
    ∃ entry ∈ pool.trace, startedRunner entry.op = some Demo.action ∧
      entry.before.process.killSwitch = enabled := by
  obtain ⟨entry, selected, switch⟩ := Option.map_eq_some_iff.mp found
  exact ⟨entry, List.mem_of_find?_eq_some selected, by simpa using List.find?_some selected,
    switch⟩

end KillSwitch

theorem killSwitch_off_of_start_lateSwitch :
    ∃ (pool : Pool Demo.deployment) (entry : Entry (system Demo.deployment)),
      Pool.Reachable Guarded (Boots Demo.deployment) pool ∧ entry ∈ pool.trace ∧
      startedRunner entry.op = some Demo.action ∧ entry.before.process.killSwitch = false := by
  have ran : (Pool.runChecked guarded lateSwitch Demo.pool).bind switchAtStart =
      some false := by rfl
  obtain ⟨pool, final, switch⟩ := Option.bind_eq_some_iff.mp ran
  obtain ⟨entry, member, starts, -⟩ := start_of_switchAtStart switch
  have reached : Pool.Reachable Guarded (Boots Demo.deployment) pool :=
    .of_runChecked guarded_sound (.start Demo.boots) final
  exact ⟨pool, entry, reached, member, starts,
    killSwitch_off_of_start Demo.deployment pool reached entry member Demo.action starts⟩

/-- A runner can start under a kill switch that was turned on after the check. -/
theorem not_killSwitch_off_of_start :
    ¬ ∀ (deployment : Deployment) (pool : Pool deployment),
      Pool.Reachable (fun _ label => undisturbed label = true) (Boots deployment) pool →
      ∀ entry ∈ pool.trace, ∀ actionId, startedRunner entry.op = some actionId →
        entry.before.process.killSwitch = false := by
  intro claim
  have ran : (Pool.runChecked (fun _ label => undisturbed label) earlySwitch Demo.pool).bind
      switchAtStart = some true := by rfl
  obtain ⟨pool, final, switch⟩ := Option.bind_eq_some_iff.mp ran
  obtain ⟨entry, member, starts, enabled⟩ := start_of_switchAtStart switch
  have off := claim Demo.deployment pool
    (.of_runChecked (fun _ _ checked => checked) (.start Demo.boots) final) entry member
    Demo.action starts
  rw [enabled] at off
  cases off

end OpsCodex.Remediation
