import Mathlib.Logic.Function.Basic
import OpsCodex.Turn.Conformance
import OpsCodex.Turn.Steps

/-! The turns that the server is running, and the thread that each turn belongs to. -/

set_option autoImplicit false

namespace OpsCodex.Server

open Effect OpsCodex.Store OpsCodex.Runtime OpsCodex.Turn

/-- A cancellation token, by the number it was made with. -/
abbrev CancellationToken := Nat

structure ActiveTurns where
  byThread : ThreadId → Option TurnId
  byTurn : TurnId → Option CancellationToken

namespace ActiveTurns

def empty : ActiveTurns where
  byThread := fun _ => none
  byTurn := fun _ => none

/-- The registry after an insertion, and whether the turn was inserted. -/
def insert (active : ActiveTurns) (threadId : ThreadId) (turnId : TurnId)
    (cancellation : CancellationToken) : ActiveTurns × Bool :=
  if (active.byThread threadId).isSome then (active, false)
  else ({
    byThread := Function.update active.byThread threadId (some turnId)
    byTurn := Function.update active.byTurn turnId (some cancellation) }, true)

def remove (active : ActiveTurns) (threadId : ThreadId) (turnId : TurnId) : ActiveTurns where
  byThread :=
    if active.byThread threadId = some turnId then Function.update active.byThread threadId none
    else active.byThread
  byTurn := Function.update active.byTurn turnId none

def cancellation (active : ActiveTurns) (turnId : TurnId) : Option CancellationToken :=
  active.byTurn turnId

/-- A turn is registered for a thread under a token. -/
structure Registers (active : ActiveTurns) (threadId : ThreadId) (turnId : TurnId)
    (cancellation : CancellationToken) : Prop where
  thread : active.byThread threadId = some turnId
  turn : active.byTurn turnId = some cancellation

variable {active after : ActiveTurns} {threadId other : ThreadId} {turnId turnId' : TurnId}
  {cancellation cancellation' : CancellationToken}

theorem insert_eq_true (inserted : active.insert threadId turnId cancellation = (after, true)) :
    active.byThread threadId = none ∧
      after.byThread = Function.update active.byThread threadId (some turnId) ∧
      after.byTurn = Function.update active.byTurn turnId (some cancellation) := by
  unfold insert at inserted
  split at inserted
  · cases inserted
  · rename_i vacant
    cases inserted
    exact ⟨by simpa using vacant, rfl, rfl⟩

theorem Registers.insert (inserted : active.insert threadId turnId cancellation = (after, true)) :
    after.Registers threadId turnId cancellation := by
  obtain ⟨-, threads, turns⟩ := insert_eq_true inserted
  constructor
  · rw [threads, Function.update_self]
  · rw [turns, Function.update_self]

/-- An insertion keeps what is registered for other threads and turns. -/
theorem Registers.insert_other (registers : active.Registers other turnId' cancellation')
    (differs : other ≠ threadId) (distinct : turnId' ≠ turnId)
    (inserted : active.insert threadId turnId cancellation = (after, true)) :
    after.Registers other turnId' cancellation' := by
  obtain ⟨-, threads, turns⟩ := insert_eq_true inserted
  constructor
  · rw [threads, Function.update_of_ne differs, registers.thread]
  · rw [turns, Function.update_of_ne distinct, registers.turn]

/-- A removal keeps what is registered for other threads and turns. -/
theorem Registers.remove (registers : active.Registers other turnId' cancellation')
    (differs : other ≠ threadId) (distinct : turnId' ≠ turnId) :
    (active.remove threadId turnId).Registers other turnId' cancellation' := by
  constructor
  · simp only [ActiveTurns.remove]
    split
    · rw [Function.update_of_ne differs, registers.thread]
    · exact registers.thread
  · exact (Function.update_of_ne distinct _ _).trans registers.turn

theorem byThread_remove (found : (active.remove threadId turnId).byThread other = some turnId') :
    active.byThread other = some turnId' ∧ (other = threadId → turnId' ≠ turnId) := by
  simp only [remove] at found
  split at found
  · rename_i held
    by_cases same : other = threadId
    · rw [same, Function.update_self] at found
      cases found
    · rw [Function.update_of_ne same] at found
      exact ⟨found, fun equal => absurd equal same⟩
  · rename_i held
    refine ⟨found, fun same equal => held ?_⟩
    rw [← same, ← equal, found]

theorem byTurn_remove (found : (active.remove threadId turnId).byTurn turnId' = some cancellation) :
    active.byTurn turnId' = some cancellation ∧ turnId' ≠ turnId := by
  simp only [remove] at found
  by_cases same : turnId' = turnId
  · rw [same, Function.update_self] at found
    cases found
  · rw [Function.update_of_ne same] at found
    exact ⟨found, same⟩

end ActiveTurns

/-! The checkpoints of a turn are of the thread that the turn was made for. -/

section Home

variable {deployment : Deployment} {home : TurnId → Option ThreadId}

/-- A turn is only run in the thread that it was made for. -/
def AtHome (home : TurnId → Option ThreadId) (_ : Pool deployment) :
    Label (system deployment) → Prop
  | .spawn (.runTurn threadId turnId _) => home turnId = some threadId
  | _ => True

/-- The control points of a drive are in the thread of its turn. -/
def Control.Placed (home : TurnId → Option ThreadId) : Control → Prop
  | .reporting turnId _ checkpoint => home turnId = some checkpoint.threadId
  | .waiting drive | .guarded drive | .leased drive | .entered drive | .situated drive _
  | .failing drive => home drive.turnId = some drive.threadId
  | .within session _ => home session.turnId = some session.threadId
  | _ => True

def CheckpointsAtHome (home : TurnId → Option ThreadId) (db : Database) : Prop :=
  ∀ checkpoint ∈ db.checkpoints, home checkpoint.turnId = some checkpoint.threadId

structure Homes (home : TurnId → Option ThreadId) (pool : Pool deployment)
    (controls : Nat → Option Control) : Prop where
  checkpoints : CheckpointsAtHome home pool.state.db
  placed : ∀ caller control, controls caller = some control → Control.Placed home control

theorem Control.Placed.of_guards {control : Control} {drive : Drive}
    (placed : Control.Placed home control) (guards : control.guards = some drive) :
    home drive.turnId = some drive.threadId := by
  cases control <;> cases guards <;> exact placed

theorem CheckpointsAtHome.last {db : Database} (homes : CheckpointsAtHome home db)
    {turnId : TurnId} {checkpoint : CheckpointRecord}
    (last : db.lastCheckpoint turnId = some checkpoint) :
    home turnId = some checkpoint.threadId := by
  have own := Database.lastCheckpoint_turnId last
  have member := List.mem_of_mem_filter (Database.lastCheckpoint_mem last)
  rw [← own]
  exact homes checkpoint member

theorem Control.Placed.advance {before after : Control} {op : Op} {answer : op.Answer}
    {choice : Choice} {world state : World}
    (performed : World.perform deployment.content deployment.codec op choice world =
      some (answer, state))
    (advance : Advance deployment.codec before op answer after)
    (homes : CheckpointsAtHome home world.db) (placed : Control.Placed home before) :
    Control.Placed home after := by
  cases advance with
  | report =>
      obtain ⟨rfl, read | ⟨_, fault⟩⟩ := World.perform_query performed
      · exact homes.last (Except.ok.inj read).symm
      · cases fault
  | close closable =>
      exact placed.of_guards (Control.guards_of_leavable (Control.leavable_of_closable closable))
  | _ => first | exact placed | trivial

/-- A checkpoint is written in the thread of its turn. -/
theorem Control.Placed.puts {before after : Control} {checkpoint : CheckpointRecord}
    {answer : Result Unit}
    (advance : Advance deployment.codec before (.command (.putCheckpoint checkpoint)) answer after)
    (placed : Control.Placed home before) :
    home checkpoint.turnId = some checkpoint.threadId := by
  have own {session : Session} {stage stage' : Stage} (puts : Puts session stage checkpoint stage')
      (placed : home session.turnId = some session.threadId) :
      home checkpoint.turnId = some checkpoint.threadId := by
    cases puts with
    | plain between plain => rw [plain.turn, plain.thread, placed]
    | park marks => rw [marks.turn, marks.thread, placed]
    | ready startable marks => rw [marks.turn, marks.thread, placed]
  cases advance with
  | quiet quiet => cases quiet
  | checkpoint puts => exact own puts placed
  | checkpointFailed puts => exact own puts placed

theorem CheckpointsAtHome.perform {before after : Control} {op : Op} {answer : op.Answer}
    {choice : Choice} {world state : World}
    (performed : World.perform deployment.content deployment.codec op choice world =
      some (answer, state))
    (advance : Advance deployment.codec before op answer after)
    (homes : CheckpointsAtHome home world.db) (placed : Control.Placed home before) :
    CheckpointsAtHome home state.db := by
  by_cases puts : ∃ checkpoint, op = .command (.putCheckpoint checkpoint)
  · obtain ⟨checkpoint, rfl⟩ := puts
    rcases perform_putCheckpoint performed with inserted | ⟨same, -⟩
    · intro row member
      rw [inserted] at member
      rcases List.mem_append.mp member with earlier | added
      · exact homes row earlier
      · rw [List.mem_singleton.mp added]
        exact placed.puts advance
    · intro row member
      exact homes row (same ▸ member)
  · have same := perform_checkpoints (fun checkpoint equal => puts ⟨checkpoint, equal⟩) performed
    intro row member
    exact homes row (same ▸ member)

theorem placed_begins {job : Job} {pool : Pool deployment}
    (admitted : AtHome home pool (.spawn job)) : Control.Placed home (begins job) := by
  cases job with
  | runTurn threadId turnId input => exact admitted
  | _ => trivial

theorem homes_invariant (deployment : Deployment) (home : TurnId → Option ThreadId) :
    Invariant (system deployment) (protocol deployment.codec) begins ends (AtHome home)
      (Homes home) where
  spawn := by
    intro pool controls job tracks admitted homes
    refine ⟨homes.checkpoints, fun caller control held => ?_⟩
    rcases assign_eq_some held with ⟨-, equal⟩ | ⟨-, old⟩
    · cases equal
      exact placed_begins admitted
    · exact homes.placed caller control old
  perform := by
    intro pool controls caller job op next before after choice answer state tracks admitted found
      held advance performed homes
    have placed := homes.placed caller before held
    refine ⟨CheckpointsAtHome.perform performed advance homes.checkpoints placed,
      fun other control held' => ?_⟩
    rcases assign_eq_some held' with ⟨-, equal⟩ | ⟨-, old⟩
    · cases equal
      exact placed.advance performed advance homes.checkpoints
    · exact homes.placed other control old
  finish := by
    intro pool controls caller job result control found held returned homes
    refine ⟨homes.checkpoints, fun other control held' => ?_⟩
    rcases assign_eq_some held' with ⟨-, equal⟩ | ⟨-, old⟩
    · cases equal
    · exact homes.placed other control old
  crash := by
    intro pool controls startup tracks admitted homes
    exact ⟨homes.checkpoints, fun _ _ held => by cases held⟩

/-- In every run in which turns are run at home their checkpoints are at home. -/
theorem checkpointsAtHome {starts : Pool deployment → Prop}
    (boots : ∀ pool, starts pool →
      (∀ caller, pool.calls caller = none) ∧ CheckpointsAtHome home pool.state.db)
    {pool : Pool deployment} (reached : Pool.Reachable (AtHome home) starts pool) :
    CheckpointsAtHome home pool.state.db := by
  obtain ⟨controls, -, homes⟩ := Invariant.reachable (homes_invariant deployment home)
    (fun pool start =>
      ⟨(boots pool start).1, (boots pool start).2, fun _ _ held => by cases held⟩)
    (conforms deployment) reached
  exact homes.checkpoints

end Home

end OpsCodex.Server
