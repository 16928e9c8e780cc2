import OpsCodex.Store.ActionTable
import OpsCodex.Remediation.Protocol

/-! What one answered request of a remediation call does to the table of actions
and to the counts of claims and runner starts. -/

set_option autoImplicit false

namespace OpsCodex.Remediation

open Effect OpsCodex.Action OpsCodex.Store OpsCodex.Runtime

section

variable {content : Content} {codec : Codec} {choice : Choice} {world after : World}

theorem perform_putAction {action : ActionRecord} {answer : Result Unit}
    (performed : World.perform content codec (.command (.putAction action)) choice world =
      some (answer, after)) :
    (answer = .ok () ∧ ∀ other, after.db.getAction other =
      if other = action.actionId then some action else world.db.getAction other) ∨
    ((∃ error, answer = .error error) ∧ after = world) := by
  rcases World.perform_single (fun _ => rfl) performed with ⟨clock, rfl, rfl⟩ | ⟨_, rfl, rfl⟩
  · refine .inl ⟨rfl, fun other => ?_⟩
    by_cases same : other = action.actionId
    · subst same
      simp [Command.run]
    · rw [if_neg same]
      exact Database.getAction_putAction_other fun equal => same equal.symm
  · exact .inr ⟨⟨_, rfl⟩, rfl⟩

theorem perform_claim {actionId : ActionId} {now : DateTime}
    {answer : Result (Option ActionRecord)}
    (performed : World.perform content codec (.command (.claimActionForExecution actionId now))
      choice world = some (answer, after)) :
    Database.Claimed codec world.db actionId now (answer, after.db) := by
  rcases World.perform_single (fun _ => rfl) performed with ⟨clock, rfl, rfl⟩ | ⟨_, rfl, rfl⟩
  · exact Database.claimActionForExecution_spec actionId now
  · exact .missing

theorem perform_unique {op : Op} {answer : op.Answer}
    (performed : World.perform content codec op choice world = some (answer, after))
    (unique : world.db.ActionsUnique) : after.db.ActionsUnique := by
  by_cases puts : ∃ action, op = .command (.putAction action)
  · obtain ⟨action, rfl⟩ := puts
    rcases World.perform_single (fun _ => rfl) performed with ⟨_, -, rfl⟩ | ⟨_, -, rfl⟩
    · exact Database.putAction_unique action unique
    · exact unique
  by_cases claims : ∃ actionId now, op = .command (.claimActionForExecution actionId now)
  · obtain ⟨actionId, now, rfl⟩ := claims
    rcases World.perform_single (fun _ => rfl) performed with ⟨_, -, rfl⟩ | ⟨_, -, rfl⟩
    · exact Database.claimActionForExecution_unique actionId now unique
    · exact unique
  rw [Database.ActionsUnique, (World.perform_keeps performed).actions ?_]
  · exact unique
  · unfold World.writes
    split
    all_goals first
      | exact absurd ⟨_, rfl⟩ puts
      | exact absurd ⟨_, _, rfl⟩ claims
      | decide

/-- Quiet requests leave the table of actions alone. -/
theorem perform_quiet {op : Op} {answer : op.Answer} (quiet : Quiet op)
    (performed : World.perform content codec op choice world = some (answer, after)) :
    after.db.actions = world.db.actions := by
  refine (World.perform_keeps performed).actions ?_
  unfold World.writes
  split
  all_goals first
    | exact quiet.elim
    | decide

end

section

variable {deployment : Deployment}

theorem claims_cons (actionId : ActionId) (entry : Entry (system deployment))
    (trace : List (Entry (system deployment))) :
    claims actionId (entry :: trace) = claims actionId trace +
      if (claimedBy entry.op entry.answer).map ActionRecord.actionId = some actionId then 1
      else 0 := by
  simp [claims, List.countP_cons]

theorem starts_cons (actionId : ActionId) (entry : Entry (system deployment))
    (trace : List (Entry (system deployment))) :
    starts actionId (entry :: trace) = starts actionId trace +
      if startedRunner entry.op = some actionId then 1 else 0 := by
  simp [starts, List.countP_cons]

theorem claimedBy_quiet {op : Op} (quiet : Quiet op) (answer : op.Answer) :
    claimedBy op answer = none := by
  unfold claimedBy
  split
  · exact quiet.elim
  · rfl

theorem startedRunner_quiet {op : Op} (quiet : Quiet op) : startedRunner op = none := by
  unfold startedRunner
  split
  · exact quiet.elim
  · rfl

end

end OpsCodex.Remediation
