import OpsCodex.Runtime.Frame

/-! What the statements of the store do to the table of actions. -/

set_option autoImplicit false

namespace OpsCodex.Store.Database

open OpsCodex.Action OpsCodex.Runtime

variable {codec : Codec} {db : Database}

@[simp] theorem getAction_putAction_same (action : ActionRecord) :
    (db.putAction action).getAction action.actionId = some action := by
  rw [getAction, putAction, Table.lookup_upsert_same fun _ _ _ => rfl]
  split <;> rfl

theorem getAction_putAction_other {action : ActionRecord} {actionId : ActionId}
    (different : action.actionId ≠ actionId) :
    (db.putAction action).getAction actionId = db.getAction actionId :=
  Table.lookup_upsert_other (fun _ _ _ => rfl) different db.actions

theorem getAction_actionId {actionId : ActionId} {action : ActionRecord}
    (stored : db.getAction actionId = some action) : action.actionId = actionId :=
  Table.lookup_key stored

theorem getAction_of_actions {after : Database} (same : after.actions = db.actions)
    (actionId : ActionId) : after.getAction actionId = db.getAction actionId := by
  rw [getAction, same, getAction]

/-- A compare-and-set replaces the row it finds in the expected status. -/
theorem getAction_updateActionStatusCas {action stored : ActionRecord}
    {expected : ActionStatus} (found : db.getAction action.actionId = some stored)
    (status : stored.status = expected) (actionId : ActionId) :
    (db.updateActionStatusCas action expected).2.getAction actionId =
      if actionId = action.actionId then some action else db.getAction actionId := by
  simp only [updateActionStatusCas, getAction]
  rw [Table.lookup_update (by
    intro row selected
    simp only [decide_eq_true_eq] at selected
    exact selected.1.symm)]
  by_cases same : actionId = action.actionId
  · subst same
    have key := getAction_actionId found
    rw [getAction] at found
    simp [found, key, status]
  · rw [if_neg same]
    cases other : Table.lookup ActionRecord.actionId actionId db.actions with
    | none => rfl
    | some row =>
        have key : row.actionId = actionId := Table.lookup_key other
        have unselected : ¬(row.actionId = action.actionId ∧ row.status = expected) := by
          rintro ⟨equal, _⟩
          exact same (key ▸ equal)
        simp [unselected]

theorem updateActionStatusCas_fst {action stored : ActionRecord} {expected : ActionStatus}
    (found : db.getAction action.actionId = some stored) (status : stored.status = expected) :
    (db.updateActionStatusCas action expected).1 = true := by
  have member := Table.lookup_mem found
  have key := getAction_actionId found
  simp only [updateActionStatusCas, List.any_eq_true, decide_eq_true_eq]
  exact ⟨stored, member, key, status⟩

/-- No two rows of the table are about one action. -/
def ActionsUnique (db : Database) : Prop := (db.actions.map ActionRecord.actionId).Nodup

theorem putAction_unique (action : ActionRecord) (unique : db.ActionsUnique) :
    (db.putAction action).ActionsUnique :=
  Table.nodup_upsert (fun _ _ _ => rfl) action unique

theorem updateActionStatusCas_unique (action : ActionRecord) (expected : ActionStatus)
    (unique : db.ActionsUnique) : (db.updateActionStatusCas action expected).2.ActionsUnique := by
  simp only [ActionsUnique, updateActionStatusCas]
  rw [Table.keys_update]
  · exact unique
  · intro row selected
    simp only [decide_eq_true_eq] at selected
    exact selected.1.symm

theorem claimActionForExecution_unique (actionId : ActionId) (now : DateTime)
    (unique : db.ActionsUnique) :
    (db.claimActionForExecution codec actionId now).2.ActionsUnique := by
  unfold claimActionForExecution
  cases db.getAction actionId with
  | none => exact unique
  | some action =>
      rw [show transition .authorized .expired = .ok .expired from rfl,
        show transition .authorized .preconditionCheck = .ok .preconditionCheck from rfl]
      dsimp only
      have swaps := updateActionStatusCas_unique (action.moveTo .preconditionCheck now)
        .authorized unique
      repeat' split
      all_goals first
        | exact unique
        | exact updateActionStatusCas_unique _ _ unique
        | (rename_i swapped
           rw [swapped] at swaps
           exact swaps)

theorem getAction_of_mem (unique : db.ActionsUnique) {action : ActionRecord}
    (member : action ∈ db.actions) : db.getAction action.actionId = some action :=
  Table.lookup_of_mem unique member

theorem mem_of_getAction {actionId : ActionId} {action : ActionRecord}
    (stored : db.getAction actionId = some action) : action ∈ db.actions :=
  Table.lookup_mem stored

/-- What a claim found, and what it left in the table. -/
inductive Claimed (codec : Codec) (db : Database) (actionId : ActionId) (now : DateTime) :
    Result (Option ActionRecord) × Database → Prop where
  | missing {error} : Claimed codec db actionId now (.error error, db)
  | refused : Claimed codec db actionId now (.ok none, db)
  | expired {stored after} (found : db.getAction actionId = some stored)
      (status : stored.status = .authorized) (late : stored.expiresAt ≤ now)
      (rows : ∀ other, after.getAction other =
        if other = actionId then some (stored.moveTo .expired now)
        else db.getAction other) :
      Claimed codec db actionId now (.ok none, after)
  | claimed {stored after} (found : db.getAction actionId = some stored)
      (status : stored.status = .authorized) (early : ¬ stored.expiresAt ≤ now)
      (consumed : stored.consumedApproval = true)
      (bound : actionRequestHash codec stored = stored.requestHash)
      (rows : ∀ other, after.getAction other =
        if other = actionId then some (stored.moveTo .preconditionCheck now)
        else db.getAction other) :
      Claimed codec db actionId now
        (.ok (some (stored.moveTo .preconditionCheck now)), after)

theorem claimActionForExecution_spec (actionId : ActionId) (now : DateTime) :
    Claimed codec db actionId now (db.claimActionForExecution codec actionId now) := by
  have expires : transition .authorized .expired = .ok .expired := rfl
  have moves : transition .authorized .preconditionCheck = .ok .preconditionCheck := rfl
  unfold claimActionForExecution
  cases found : db.getAction actionId with
  | none => exact .missing
  | some stored =>
      have key := getAction_actionId found
      have kept (target : ActionStatus) :
          db.getAction (stored.moveTo target now).actionId = some stored := by
        simpa [key] using found
      simp only [expires, moves]
      by_cases status : stored.status = .authorized
      · have rows (target : ActionStatus) (other : ActionId) :
            (db.updateActionStatusCas (stored.moveTo target now) .authorized).2.getAction other =
              if other = actionId then some (stored.moveTo target now)
              else db.getAction other := by
          simpa [key] using getAction_updateActionStatusCas (kept target) status other
        have swaps (target : ActionStatus) :
            (db.updateActionStatusCas (stored.moveTo target now) .authorized).1 = true :=
          updateActionStatusCas_fst (kept target) status
        rw [if_neg (by simp [status])]
        by_cases late : stored.expiresAt ≤ now
        · rw [if_pos late]
          exact .expired found status late (rows .expired)
        · rw [if_neg late]
          cases consumed : stored.consumedApproval with
          | false => exact .refused
          | true =>
              by_cases bound : actionRequestHash codec stored = stored.requestHash
              · rw [if_neg (by simp), if_neg (by simp [bound])]
                have swapped := swaps .preconditionCheck
                have written := rows .preconditionCheck
                cases swap : db.updateActionStatusCas (stored.moveTo .preconditionCheck now)
                    .authorized with
                | mk found' after =>
                    rw [swap] at swapped written
                    subst swapped
                    exact .claimed found status late consumed bound written
              · rw [if_neg (by simp), if_pos bound]
                exact .missing
      · rw [if_pos status]
        exact .refused

end OpsCodex.Store.Database
