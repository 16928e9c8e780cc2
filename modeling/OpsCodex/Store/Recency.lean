import Mathlib.Data.Prod.Lex
import OpsCodex.Store.TurnTable

/-! Which checkpoint the store gives back as the last one of a turn: recency is read off the
clock and the step, not off the order of the writes. -/

set_option autoImplicit false

namespace OpsCodex.Store

open OpsCodex.Json OpsCodex.Runtime

/-- The row comes after the other one in the order of the query. -/
def Older (row last : CheckpointRecord) : Prop :=
  row.createdAt < last.createdAt ∨ row.createdAt = last.createdAt ∧ row.step < last.step

instance (row last : CheckpointRecord) : Decidable (Older row last) :=
  inferInstanceAs (Decidable (_ ∨ _))

/-- What the query sorts by. -/
def recency (row : CheckpointRecord) : Int ×ₗ Nat := toLex (row.createdAt, row.step.toNat)

theorem older_iff {row last : CheckpointRecord} : Older row last ↔ recency row < recency last := by
  rw [recency, recency, Prod.Lex.toLex_lt_toLex]
  exact or_congr_right (and_congr_right fun _ => UInt32.lt_iff_toNat_lt)

namespace Database

def putCheckpoints (db : Database) (calls : List CheckpointRecord) : Database :=
  calls.foldl putCheckpoint db

variable {db : Database} {rows calls later : List CheckpointRecord}
  {row current last : CheckpointRecord} {turnId : TurnId}

theorem checkpointNewer_iff : checkpointNewer row last = true ↔ Older row last := by
  simp only [checkpointNewer, Older, Bool.or_eq_true, Bool.and_eq_true, decide_eq_true_eq]

/-- The row that is kept is at least as recent as all that were looked at. -/
theorem newest_spec (rows : List CheckpointRecord) (current : CheckpointRecord) :
    ∃ best, rows.foldl newestCheckpoint (some current) = some best ∧
      recency current ≤ recency best ∧ ∀ row ∈ rows, recency row ≤ recency best := by
  induction rows generalizing current with
  | nil => exact ⟨current, rfl, le_rfl, fun _ member => absurd member List.not_mem_nil⟩
  | cons first rows ih =>
      rw [List.foldl_cons, newestCheckpoint]
      split
      · rename_i newer
        obtain ⟨best, result, own, all⟩ := ih first
        have passed := le_of_lt (older_iff.mp (checkpointNewer_iff.mp newer))
        refine ⟨best, result, passed.trans own, fun row member => ?_⟩
        obtain rfl | member := List.mem_cons.mp member
        · exact own
        · exact all row member
      · rename_i older
        obtain ⟨best, result, own, all⟩ := ih current
        refine ⟨best, result, own, fun row member => ?_⟩
        obtain rfl | member := List.mem_cons.mp member
        · have notNewer := not_lt.mp fun newer =>
            older (checkpointNewer_iff.mpr (older_iff.mpr newer))
          exact notNewer.trans own
        · exact all row member

/-- The row read last is kept exactly if it is more recent than all before it. -/
theorem newest_snoc_iff (unlike : last ∉ rows) :
    (rows ++ [last]).foldl newestCheckpoint none = some last ↔ ∀ row ∈ rows, Older row last := by
  rw [List.foldl_append, List.foldl_cons, List.foldl_nil]
  cases rows with
  | nil => exact iff_of_true rfl fun _ member => absurd member List.not_mem_nil
  | cons first rows =>
      obtain ⟨best, result, own, all⟩ := newest_spec rows first
      have found : (first :: rows).foldl newestCheckpoint none = some best := result
      have recent : ∀ row ∈ first :: rows, recency row ≤ recency best := by
        intro row member
        obtain rfl | member := List.mem_cons.mp member
        · exact own
        · exact all row member
      obtain impossible | member := foldl_newestCheckpoint_mem found
      · cases impossible
      rw [found, newestCheckpoint]
      constructor
      · intro kept row inside
        split at kept
        · rename_i newer
          exact older_iff.mpr
            ((recent row inside).trans_lt (older_iff.mp (checkpointNewer_iff.mp newer)))
        · cases kept
          exact absurd member unlike
      · intro older
        exact if_pos (checkpointNewer_iff.mpr (older best member))

theorem checkpoints_putCheckpoints :
    (db.putCheckpoints calls).checkpoints = db.checkpoints ++ calls := by
  induction calls generalizing db with
  | nil => simp [putCheckpoints]
  | cons call calls ih =>
      have rest := @ih (db.putCheckpoint call)
      rw [putCheckpoints] at rest ⊢
      rw [List.foldl_cons, rest]
      exact List.append_assoc db.checkpoints [call] calls

/-- The rows of a turn after its last write; what is written for other turns later is not
among them. -/
theorem turnCheckpoints_putCheckpoints (others : ∀ row ∈ later, row.turnId ≠ last.turnId) :
    (db.putCheckpoints (calls ++ last :: later)).turnCheckpoints last.turnId =
      (db.putCheckpoints calls).turnCheckpoints last.turnId ++ [last] := by
  have foreign : (later.filter fun row => decide (row.turnId = last.turnId)) = [] :=
    List.filter_eq_nil_iff.mpr fun row member => by simpa using others row member
  rw [turnCheckpoints, turnCheckpoints, checkpoints_putCheckpoints, checkpoints_putCheckpoints,
    ← List.append_assoc, List.filter_append, List.filter_cons_of_pos (by exact decide_eq_true rfl),
    foreign]

/-- The checkpoint that was written last for a turn is given back if and only if it is newer
by the clock, or by the step at an equal reading, than every earlier one of the turn. -/
theorem lastCheckpoint_putCheckpoints_iff (db : Database) (calls later : List CheckpointRecord)
    (last : CheckpointRecord)
    (fresh : ∀ row ∈ db.checkpoints ++ calls, row.checkpointId ≠ last.checkpointId)
    (others : ∀ row ∈ later, row.turnId ≠ last.turnId) :
    (db.putCheckpoints (calls ++ last :: later)).lastCheckpoint last.turnId = some last ↔
      ∀ row ∈ db.checkpoints ++ calls, row.turnId = last.turnId → Older row last := by
  have unlike : last ∉ (db.putCheckpoints calls).turnCheckpoints last.turnId := by
    intro member
    rw [turnCheckpoints, checkpoints_putCheckpoints] at member
    exact fresh last (List.mem_filter.mp member).1 rfl
  rw [lastCheckpoint, turnCheckpoints_putCheckpoints others, newest_snoc_iff unlike]
  constructor
  · intro older row member own
    refine older row (List.mem_filter.mpr ⟨?_, decide_eq_true own⟩)
    rw [checkpoints_putCheckpoints]
    exact member
  · intro older row member
    obtain ⟨inside, own⟩ := List.mem_filter.mp member
    rw [checkpoints_putCheckpoints] at inside
    exact older row inside (of_decide_eq_true own)

end Database

namespace Recency

open Database

def checkpoint (checkpointId : Uuid) (step : UInt32) (phase : CheckpointPhase)
    (createdAt : DateTime) : CheckpointRecord where
  checkpointId := checkpointId
  turnId := ⟨0⟩
  threadId := ⟨0⟩
  step := step
  phase := phase
  contextInputHash := none
  pendingOperation := none
  lastCommittedSeq := 0
  resumePolicy := .replayModel
  createdAt := createdAt

def waiting : CheckpointRecord := checkpoint 1 2 .waitingApproval 10

/-- The call that was waited for runs in the resumed turn, whose tool writes step 0. -/
def running (createdAt : DateTime) : CheckpointRecord := checkpoint 2 0 .toolRunning createdAt

def empty : Database where
  threads := []
  events := []
  turns := []
  checkpoints := []
  approvals := []
  leases := []
  resumeOps := []
  actionPlans := []
  actions := []
  auditLog := []

theorem lastCheckpoint_putCheckpoints_iff_later :
    (empty.putCheckpoints ([waiting] ++ running 11 :: [])).lastCheckpoint ⟨0⟩ =
      some (running 11) :=
  (lastCheckpoint_putCheckpoints_iff empty [waiting] [] (running 11) (by decide) (by decide)).mpr
    (by decide)

/-- At the same reading of the clock, or at an earlier one, the checkpoint before the resume
is given back. -/
theorem not_lastCheckpoint_putCheckpoints :
    (empty.putCheckpoints [waiting, running 10]).lastCheckpoint ⟨0⟩ = some waiting ∧
      (empty.putCheckpoints [waiting, running 9]).lastCheckpoint ⟨0⟩ = some waiting ∧
        running 10 ≠ waiting ∧ running 9 ≠ waiting :=
  ⟨rfl, rfl, fun same => absurd (congrArg CheckpointRecord.checkpointId same) (by decide),
    fun same => absurd (congrArg CheckpointRecord.checkpointId same) (by decide)⟩

end Recency

end OpsCodex.Store
