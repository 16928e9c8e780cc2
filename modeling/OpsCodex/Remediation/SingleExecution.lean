import OpsCodex.Remediation.Steps

/-! A remediation action is executed at most once, as long as no approval is
written over an action that was claimed in the meantime. -/

set_option autoImplicit false

namespace OpsCodex.Remediation

open Effect OpsCodex.Action OpsCodex.Store OpsCodex.Runtime

namespace SingleExecution

variable {deployment : Deployment}

/-- An approval that is about to be written finds its action unclaimed. -/
def Guarded (pool : Pool deployment) : Label (system deployment) → Prop
  | .perform caller _ => ∀ action, pool.awaits caller = some (.command (.putAction action)) →
      action.status = .authorized → claims action.actionId pool.trace = 0
  | _ => True

/-- The guard, as a check. -/
def guarded (pool : Pool deployment) : Label (system deployment) → Bool
  | .perform caller _ =>
      match pool.awaits caller with
      | some (.command (.putAction action)) =>
          decide (action.status = .authorized → claims action.actionId pool.trace = 0)
      | _ => true
  | _ => true

theorem guarded_sound (pool : Pool deployment) (label : Label (system deployment))
    (checked : guarded pool label = true) : Guarded pool label := by
  cases label with
  | perform caller choice =>
      intro action awaited
      simp only [guarded, awaited, decide_eq_true_eq] at checked
      exact checked
  | spawn job => exact trivial
  | crash startup => exact trivial

/-- The action that a call has claimed and not started yet. -/
def pending : Control → Option ActionId
  | .claimed record => some record.actionId
  | .executing record => some record.actionId
  | _ => none

structure Holds (pool : Pool deployment) (controls : Nat → Option Control) : Prop where
  claimedOnce : ∀ actionId, claims actionId pool.trace ≤ 1
  authorized : ∀ actionId stored, pool.state.db.getAction actionId = some stored →
    stored.status = .authorized → claims actionId pool.trace = 0
  unstarted : ∀ caller control actionId, controls caller = some control →
    pending control = some actionId →
    claims actionId pool.trace = 1 ∧ starts actionId pool.trace = 0
  alone : ∀ caller other control control' actionId, controls caller = some control →
    controls other = some control' → pending control = some actionId →
    pending control' = some actionId → caller = other
  startsClaimed : ∀ actionId, starts actionId pool.trace ≤ claims actionId pool.trace

section

variable {pool : Pool deployment} {controls : Nat → Option Control} {caller : Nat}
  {job : Job} {op : Op} {answer : op.Answer} {rest : Program serviceInterface (Result Returned)}
  {before after : Control} {state : World}

/-- A request that neither claims nor starts anything. -/
theorem Holds.still (holds : Holds pool controls) (held : controls caller = some before)
    (claimless : claimedBy op answer = none) (startless : startedRunner op = none)
    (point : pending after = none ∨ pending after = pending before)
    (rows : ∀ actionId stored, state.db.getAction actionId = some stored →
      stored.status = .authorized →
      pool.state.db.getAction actionId = some stored ∨ claims actionId pool.trace = 0) :
    Holds (pool.record caller job op answer rest state)
      (assign controls caller (some after)) := by
  have sameClaims (actionId : ActionId) :
      claims actionId (pool.record caller job op answer rest state).trace =
        claims actionId pool.trace := by
    simp [Pool.record, claims_cons, claimless]
  have sameStarts (actionId : ActionId) :
      starts actionId (pool.record caller job op answer rest state).trace =
        starts actionId pool.trace := by
    simp [Pool.record, starts_cons, startless]
  -- Whoever is pending now was pending before at the same action.
  have earlier {other : Nat} {control : Control} {actionId : ActionId}
      (found : assign controls caller (some after) other = some control)
      (waits : pending control = some actionId) :
      ∃ old, controls other = some old ∧ pending old = some actionId := by
    rcases assign_eq_some found with ⟨rfl, equal⟩ | ⟨_, old⟩
    · cases equal
      rcases point with none | same
      · rw [none] at waits
        cases waits
      · exact ⟨before, held, same ▸ waits⟩
    · exact ⟨control, old, waits⟩
  constructor
  · intro actionId
    rw [sameClaims]
    exact holds.claimedOnce actionId
  · intro actionId stored found status
    rw [sameClaims]
    rcases rows actionId stored found status with old | unclaimed
    · exact holds.authorized actionId stored old status
    · exact unclaimed
  · intro other control actionId found waits
    rw [sameClaims, sameStarts]
    obtain ⟨old, heldOld, waitsOld⟩ := earlier found waits
    exact holds.unstarted other old actionId heldOld waitsOld
  · intro left right control control' actionId foundLeft foundRight waitsLeft waitsRight
    obtain ⟨oldLeft, heldLeft, waitedLeft⟩ := earlier foundLeft waitsLeft
    obtain ⟨oldRight, heldRight, waitedRight⟩ := earlier foundRight waitsRight
    exact holds.alone left right oldLeft oldRight actionId heldLeft heldRight waitedLeft
      waitedRight
  · intro actionId
    rw [sameClaims, sameStarts]
    exact holds.startsClaimed actionId

/-- A successful claim of an action that nobody has claimed. -/
theorem Holds.claim {record : ActionRecord} {now : DateTime} (holds : Holds pool controls)
    (unclaimed : claims record.actionId pool.trace = 0)
    (rows : ∀ actionId stored, state.db.getAction actionId = some stored →
      stored.status = .authorized →
      actionId ≠ record.actionId ∧ pool.state.db.getAction actionId = some stored) :
    Holds (pool.record caller job (.command (.claimActionForExecution record.actionId now))
        (.ok (some record)) rest state)
      (assign controls caller (some (.claimed record))) := by
  have grownClaims (actionId : ActionId) :
      claims actionId (pool.record caller job
        (.command (.claimActionForExecution record.actionId now)) (.ok (some record)) rest
        state).trace =
        claims actionId pool.trace + if record.actionId = actionId then 1 else 0 := by
    simp [Pool.record, claims_cons, claimedBy]
  have sameStarts (actionId : ActionId) :
      starts actionId (pool.record caller job
        (.command (.claimActionForExecution record.actionId now)) (.ok (some record)) rest
        state).trace = starts actionId pool.trace := by
    simp [Pool.record, starts_cons, startedRunner]
  -- Nobody else is pending at the claimed action.
  have distinct {other : Nat} {control : Control} {actionId : ActionId}
      (old : controls other = some control) (waits : pending control = some actionId) :
      record.actionId ≠ actionId := by
    rintro rfl
    have claimed := (holds.unstarted other control record.actionId old waits).1
    omega
  constructor
  · intro actionId
    rw [grownClaims]
    split
    · rename_i same
      rw [← same, unclaimed]
    · exact holds.claimedOnce actionId
  · intro actionId stored found status
    obtain ⟨different, old⟩ := rows actionId stored found status
    rw [grownClaims, if_neg fun same => different same.symm]
    exact holds.authorized actionId stored old status
  · intro other control actionId found waits
    rw [grownClaims, sameStarts]
    rcases assign_eq_some found with ⟨rfl, equal⟩ | ⟨_, old⟩
    · cases equal
      cases waits
      have bound := holds.startsClaimed record.actionId
      simp only [if_true]
      omega
    · rw [if_neg (distinct old waits)]
      exact holds.unstarted other control actionId old waits
  · intro left right control control' actionId foundLeft foundRight waitsLeft waitsRight
    rcases assign_eq_some foundLeft with ⟨rfl, equalLeft⟩ | ⟨_, oldLeft⟩ <;>
      rcases assign_eq_some foundRight with ⟨rfl, equalRight⟩ | ⟨_, oldRight⟩
    · rfl
    · cases equalLeft
      cases waitsLeft
      exact absurd rfl (distinct oldRight waitsRight)
    · cases equalRight
      cases waitsRight
      exact absurd rfl (distinct oldLeft waitsLeft)
    · exact holds.alone left right control control' actionId oldLeft oldRight waitsLeft
        waitsRight
  · intro actionId
    rw [grownClaims, sameStarts]
    exact Nat.le_trans (holds.startsClaimed actionId) (Nat.le_add_right _ _)

/-- The start of the runner by the call that claimed the action. -/
theorem Holds.start {record : ActionRecord} (holds : Holds pool controls)
    (held : controls caller = some (.executing record)) :
    Holds (pool.record caller job (.startRunner record false) () rest pool.state)
      (assign controls caller (some (.started record))) := by
  have sameClaims (actionId : ActionId) :
      claims actionId (pool.record caller job (.startRunner record false) () rest
        pool.state).trace = claims actionId pool.trace := by
    simp [Pool.record, claims_cons, claimedBy]
  have grownStarts (actionId : ActionId) :
      starts actionId (pool.record caller job (.startRunner record false) () rest
        pool.state).trace =
        starts actionId pool.trace + if record.actionId = actionId then 1 else 0 := by
    simp [Pool.record, starts_cons, startedRunner]
  obtain ⟨claimed, unstarted⟩ :=
    holds.unstarted caller _ record.actionId held rfl
  have earlier {other : Nat} {control : Control} {actionId : ActionId}
      (found : assign controls caller (some (.started record)) other = some control)
      (waits : pending control = some actionId) :
      other ≠ caller ∧ controls other = some control := by
    rcases assign_eq_some found with ⟨rfl, equal⟩ | ⟨different, old⟩
    · cases equal
      cases waits
    · exact ⟨different, old⟩
  constructor
  · intro actionId
    rw [sameClaims]
    exact holds.claimedOnce actionId
  · intro actionId stored found status
    rw [sameClaims]
    exact holds.authorized actionId stored found status
  · intro other control actionId found waits
    obtain ⟨different, old⟩ := earlier found waits
    have distinct : record.actionId ≠ actionId := by
      rintro rfl
      exact different (holds.alone other caller control _ record.actionId old held waits rfl)
    rw [sameClaims, grownStarts, if_neg distinct]
    exact holds.unstarted other control actionId old waits
  · intro left right control control' actionId foundLeft foundRight waitsLeft waitsRight
    exact holds.alone left right control control' actionId (earlier foundLeft waitsLeft).2
      (earlier foundRight waitsRight).2 waitsLeft waitsRight
  · intro actionId
    rw [sameClaims, grownStarts]
    split
    · rename_i same
      rw [← same, unstarted, claimed]
    · exact holds.startsClaimed actionId

/-- A quiet request. -/
theorem Holds.quiet {choice : Choice} (holds : Holds pool controls)
    (held : controls caller = some before)
    (point : pending after = none ∨ pending after = pending before) (quiet : Quiet op)
    (performed : World.perform deployment.content deployment.codec op choice pool.state =
      some (answer, state)) :
    Holds (pool.record caller job op answer rest state)
      (assign controls caller (some after)) := by
  refine holds.still held (claimedBy_quiet quiet answer) (startedRunner_quiet quiet) point ?_
  intro actionId stored row _
  rw [Database.getAction, perform_quiet quiet performed] at row
  exact .inl row

/-- A record that is not authorized is written, or one whose action is unclaimed. -/
theorem Holds.put {record : ActionRecord} {answer : Result Unit} {choice : Choice}
    (holds : Holds pool controls) (held : controls caller = some before)
    (point : pending after = none ∨ pending after = pending before)
    (guarded : record.status = .authorized → claims record.actionId pool.trace = 0)
    (performed : World.perform deployment.content deployment.codec
      (.command (.putAction record)) choice pool.state = some (answer, state)) :
    Holds (pool.record caller job (.command (.putAction record)) answer rest state)
      (assign controls caller (some after)) := by
  refine holds.still held rfl rfl point ?_
  intro actionId stored found status
  rcases perform_putAction performed with ⟨_, rows⟩ | ⟨_, rfl⟩
  · rw [rows] at found
    split at found
    · rename_i same
      cases found
      exact .inr (same ▸ guarded status)
    · exact .inl found
  · exact .inl found

end

theorem Holds.perform {pool : Pool deployment} {controls : Nat → Option Control} {caller : Nat}
    {job : Job} {op : Op} {next : op.Answer → Program serviceInterface (Result Returned)}
    {before after : Control} {choice : Choice} {answer : op.Answer} {state : World}
    (holds : Holds pool controls) (admitted : Guarded pool (.perform caller choice))
    (found : pool.calls caller = some (job, .request op next))
    (held : controls caller = some before) (advance : Advance before op answer after)
    (performed : World.perform deployment.content deployment.codec op choice pool.state =
      some (answer, state)) :
    Holds (pool.record caller job op answer (next answer) state)
      (assign controls caller (some after)) := by
  have guarded (record : ActionRecord) (same : op = .command (.putAction record)) :
      record.status = .authorized → claims record.actionId pool.trace = 0 := by
    subst same
    exact admitted record (by simp [Pool.awaits, found, Program.awaits])
  cases advance with
  | quiet quiet => exact holds.quiet held (.inr rfl) quiet performed
  | weigh => exact holds.quiet held (.inl rfl) trivial performed
  | accept => exact holds.quiet held (.inl rfl) trivial performed
  | identify => exact holds.quiet held (.inl rfl) trivial performed
  | clock => exact holds.quiet held (.inl rfl) trivial performed
  | list => exact holds.quiet held (.inl rfl) trivial performed
  | recovered => exact holds.quiet held (.inl rfl) trivial performed
  | unlisted => exact holds.quiet held (.inl rfl) trivial performed
  | unexpired => exact holds.quiet held (.inl rfl) trivial performed
  | decide => exact holds.put held (.inl rfl) (guarded _ rfl) performed
  | refuse => exact holds.put held (.inl rfl) (guarded _ rfl) performed
  | beginFailed => exact holds.put held (.inl rfl) (guarded _ rfl) performed
  | conclude => exact holds.put held (.inl rfl) (guarded _ rfl) performed
  | propose => exact holds.put held (.inl rfl) (guarded _ rfl) performed
  | recoverAction => exact holds.put held (.inl rfl) (guarded _ rfl) performed
  | recoverFailed => exact holds.put held (.inl rfl) (guarded _ rfl) performed
  | begin status settles =>
      refine holds.put held (.inr ?_) (guarded _ rfl) performed
      simp [pending, settles.actionId]
  | start =>
      obtain rfl : pool.state = state := by
        cases choice <;> cases performed
        rfl
      exact holds.start held
  | claim =>
      have spec := perform_claim performed
      generalize written : state.db = db at spec
      cases spec with
      | @claimed stored _ found status early consumed bound rows =>
          have key := Database.getAction_actionId found
          subst key
          have unclaimed : claims stored.actionId pool.trace = 0 :=
            holds.authorized stored.actionId stored found status
          refine @Holds.claim deployment pool controls caller job _ state
            (stored.moveTo .preconditionCheck _) _ holds unclaimed ?_
          intro actionId other row authorized
          rw [written, rows] at row
          split at row
          · cases row
            cases authorized
          · rename_i different
            exact ⟨different, row⟩
  | unclaimed none =>
      have spec := perform_claim performed
      generalize written : state.db = db at spec
      refine holds.still held none rfl (.inl rfl) ?_
      intro actionId stored row authorized
      rw [written] at row
      cases spec with
      | missing => exact .inl row
      | refused => exact .inl row
      | expired found status late rows =>
          rw [rows] at row
          split at row
          · cases row
            cases authorized
          · exact .inl row
      | claimed => cases none

/-- Calls come and go without touching the store or the trace. -/
theorem Holds.calls {pool next : Pool deployment} {controls kept : Nat → Option Control}
    (holds : Holds pool controls)
    (waits : ∀ {caller control actionId}, kept caller = some control →
      pending control = some actionId → controls caller = some control)
    (state : next.state.db.actions = pool.state.db.actions) (trace : next.trace = pool.trace) :
    Holds next kept := by
  constructor
  · rw [trace]
    exact holds.claimedOnce
  · intro actionId stored found status
    rw [Database.getAction, state] at found
    rw [trace]
    exact holds.authorized actionId stored found status
  · intro caller control actionId found pends
    rw [trace]
    exact holds.unstarted caller control actionId (waits found pends) pends
  · intro left right control control' actionId foundLeft foundRight atLeft atRight
    exact holds.alone left right control control' actionId (waits foundLeft atLeft)
      (waits foundRight atRight) atLeft atRight
  · rw [trace]
    exact holds.startsClaimed

theorem Holds.spawn {pool : Pool deployment} {controls : Nat → Option Control} (job : Job)
    (holds : Holds pool controls) :
    Holds (Pool.spawn pool job) (assign controls pool.spawned (some (begins job))) := by
  refine holds.calls ?_ rfl rfl
  intro caller control actionId found pends
  rcases assign_eq_some found with ⟨_, equal⟩ | ⟨_, old⟩
  · cases equal
    cases job <;> cases pends
  · exact old

theorem Holds.finish {pool : Pool deployment} {controls : Nat → Option Control} (caller : Nat)
    (holds : Holds pool controls) : Holds pool (assign controls caller none) := by
  refine holds.calls ?_ rfl rfl
  intro caller control actionId found _
  rcases assign_eq_some found with ⟨_, equal⟩ | ⟨_, old⟩
  · cases equal
  · exact old

theorem Holds.crash {pool : Pool deployment} {controls : Nat → Option Control}
    (startup : Catalog) (holds : Holds pool controls) :
    Holds (Pool.crash pool startup) fun _ => none :=
  holds.calls nofun rfl rfl

/-- The invariant of the guarded pool. -/
theorem invariant : Invariant (system deployment) protocol begins ends Guarded Holds where
  spawn job _ _ holds := holds.spawn job
  perform := by
    intro pool controls caller job op next before after choice answer state _ admitted found
      held advance performed holds
    exact @Holds.perform deployment pool controls caller job op next before after choice answer
      state holds admitted found held advance performed
  finish _ _ _ holds := holds.finish _
  crash startup _ _ holds := holds.crash startup

theorem holds_of_boots {pool : Pool deployment} (boots : Boots deployment pool) :
    (∀ caller, pool.calls caller = none) ∧ Holds pool fun _ => none := by
  obtain ⟨world, empty, rfl⟩ := boots
  refine ⟨fun _ => rfl, by simp [claims, Pool.boot], ?_, by simp, by simp,
    by simp [starts, Pool.boot]⟩
  intro actionId stored found
  simp [Pool.boot, Database.getAction, Table.lookup, empty] at found

end SingleExecution

open SingleExecution in
/-- In a run whose authorisations all find their action unclaimed, the mutation
of an action is started at most once, over all calls and process lives. -/
theorem starts_le_one (deployment : Deployment) (pool : Pool deployment)
    (reached : Pool.Reachable Guarded (Boots deployment) pool) (actionId : ActionId) :
    starts actionId pool.trace ≤ 1 := by
  obtain ⟨controls, tracks, holds⟩ :=
    Invariant.reachable invariant (fun _ => holds_of_boots) (conforms deployment) reached
  exact Nat.le_trans (holds.startsClaimed actionId) (holds.claimedOnce actionId)

namespace SingleExecution

/-- One proposal, one approval and the execution that follows it. -/
def oneApproval : List Demo.Step :=
  Demo.propose 0 ++ [Demo.approval] ++ Demo.weigh 1 ++ Demo.decide 1 ++ Demo.execute 2

/-- Two approvals weigh the same waiting action; the second one is written after
an execution has started. -/
def secondApproval : List Demo.Step :=
  Demo.propose 0 ++ [Demo.approval, Demo.approval] ++ Demo.weigh 1 ++ Demo.weigh 2 ++
    Demo.decide 1 ++ Demo.execute 3 ++ Demo.decide 2 ++ Demo.execute 4

end SingleExecution

open SingleExecution

theorem starts_le_one_oneApproval :
    ∃ pool : Pool Demo.deployment,
      Pool.Reachable Guarded (Boots Demo.deployment) pool ∧
      starts Demo.action pool.trace = 1 ∧ starts Demo.action pool.trace ≤ 1 := by
  have ran : (Pool.runChecked guarded oneApproval Demo.pool).map
      (fun pool => starts Demo.action pool.trace) = some 1 := by rfl
  obtain ⟨pool, final, started⟩ := Option.map_eq_some_iff.mp ran
  have reached : Pool.Reachable Guarded (Boots Demo.deployment) pool :=
    .of_runChecked guarded_sound (.start Demo.boots) final
  exact ⟨pool, reached, started, starts_le_one Demo.deployment pool reached Demo.action⟩

/-- Without the guard an action can be executed twice, with no crash and no fault. -/
theorem not_starts_le_one :
    ¬ ∀ (deployment : Deployment) (pool : Pool deployment),
      Pool.Reachable (fun _ label => undisturbed label = true) (Boots deployment) pool →
      ∀ actionId, starts actionId pool.trace ≤ 1 := by
  intro claim
  have ran : (Pool.runChecked (fun _ label => undisturbed label) secondApproval Demo.pool).map
      (fun pool => starts Demo.action pool.trace) = some 2 := by rfl
  obtain ⟨pool, final, started⟩ := Option.map_eq_some_iff.mp ran
  have bound := claim Demo.deployment pool
    (.of_runChecked (fun _ _ checked => checked) (.start Demo.boots) final) Demo.action
  rw [started] at bound
  exact absurd bound (by decide)

end OpsCodex.Remediation
