import OpsCodex.Store.History
import OpsCodex.Store.Ledger

/-! Workspaces over one store. Every event carries the workspace of its thread, so a
reader that names a workspace is shown only what was recorded in it. -/

set_option autoImplicit false

namespace OpsCodex.Store

open OpsCodex.Action OpsCodex.Evidence OpsCodex.Runtime

def denyCrossWorkspace (expected actual : WorkspaceId) (resource : String) : Result Unit :=
  if expected = actual then .ok ()
  else .error (.policy (s!"cross-workspace access denied: {resource} belongs to " ++
    s!"{actual.asStr} not {expected.asStr}"))

theorem denyCrossWorkspace_ok {expected actual : WorkspaceId} {resource : String}
    (allowed : denyCrossWorkspace expected actual resource = .ok ()) : expected = actual := by
  unfold denyCrossWorkspace at allowed
  split at allowed
  · assumption
  · cases allowed

namespace Database

def getThreadIn (db : Database) (workspaceId : WorkspaceId) (threadId : ThreadId) :
    Result Thread := do
  let thread ← db.getThread threadId
  denyCrossWorkspace workspaceId thread.workspaceId "thread"
  return thread

def getEvidence (projections : Projections) (db : Database) (threadId : ThreadId)
    (evidenceId : EvidenceId) : Result EvidenceMeta := do
  projections.findEvidence threadId evidenceId (← db.loadEvents threadId 0)

def getEvidenceIn (projections : Projections) (db : Database) (workspaceId : WorkspaceId)
    (threadId : ThreadId) (evidenceId : EvidenceId) : Result EvidenceMeta := do
  let _ ← db.getThreadIn workspaceId threadId
  db.getEvidence projections threadId evidenceId

/-- The rows of the threads with their workspaces. -/
def owners (db : Database) : List (ThreadId × WorkspaceId) :=
  db.threads.map fun row => (row.id, row.workspaceId)

/-- Every event carries the workspace of its thread. -/
structure Housed (db : Database) : Prop where
  threads : (db.threads.map ThreadRow.id).Nodup
  owned : ∀ envelope ∈ db.events, (envelope.threadId, envelope.workspaceId) ∈ db.owners

section

variable {db after : Database} {threadId : ThreadId} {thread : Thread}

theorem WellFormed.housed (well : db.WellFormed) : db.Housed where
  threads := well.threads
  owned := by
    intro envelope member
    obtain ⟨row, found, same⟩ := List.mem_map.mp (well.owned envelope member)
    have inside : envelope ∈ db.threadEvents row.id :=
      List.mem_filter.mpr ⟨member, decide_eq_true same.symm⟩
    refine List.mem_map.mpr ⟨row, found, ?_⟩
    rw [same, (well.logs row found).workspace envelope inside]

/-- New events belong to the owners of their threads. -/
theorem Housed.of_owners (housed : db.Housed) (owners : after.owners = db.owners)
    (owned : ∀ envelope ∈ after.events, envelope ∈ db.events ∨
      (envelope.threadId, envelope.workspaceId) ∈ db.owners) : after.Housed where
  threads := by
    have ids := congrArg (List.map Prod.fst) owners
    have same : after.threads.map ThreadRow.id = db.threads.map ThreadRow.id := by
      simpa [Database.owners, Function.comp_def] using ids
    rw [same]
    exact housed.threads
  owned := by
    intro envelope member
    rw [owners]
    obtain old | new := owned envelope member
    · exact housed.owned envelope old
    · exact new

theorem Housed.appendEvent (housed : db.Housed) (command : AppendEvent) (clock : DateTime)
    (fresh : Uuid) : (db.appendEvent command clock fresh).2.Housed := by
  unfold Database.appendEvent
  cases found : db.thread command.threadId with
  | none => exact housed
  | some row =>
      refine housed.of_owners (owners_update fun _ => ⟨rfl, rfl⟩) fun envelope member => ?_
      obtain old | new := List.mem_append.mp member
      · exact .inl old
      · obtain rfl := List.mem_singleton.mp new
        refine .inr (List.mem_map.mpr ⟨row, Table.lookup_mem found, ?_⟩)
        exact congrArg (·, row.workspaceId) (Table.lookup_key found)

theorem Housed.writeTurn (housed : db.Housed) {record : TurnRecord} {outcome : Result Unit}
    (wrote : db.writeTurn record = (outcome, after)) : after.Housed := by
  unfold Database.writeTurn at wrote
  split at wrote <;> cases wrote
  · exact housed
  · exact housed.of_owners rfl fun _ member => .inl member

theorem Housed.upsertTurn (housed : db.Housed) (record : TurnRecord) :
    (db.upsertTurn record).2.Housed := by
  unfold Database.upsertTurn
  cases wrote : db.writeTurn record with
  | mk outcome written =>
      have kept := housed.writeTurn wrote
      cases outcome with
      | error error => exact kept
      | ok =>
          dsimp only
          unfold syncThreadStatus
          split
          · exact kept
          · exact kept.of_owners (owners_update fun _ => ⟨rfl, rfl⟩) fun _ member => .inl member

theorem owner_unique (housed : db.Housed) {left right : WorkspaceId}
    (first : (threadId, left) ∈ db.owners) (second : (threadId, right) ∈ db.owners) :
    left = right := by
  obtain ⟨row, found, same⟩ := List.mem_map.mp first
  obtain ⟨other, found', same'⟩ := List.mem_map.mp second
  obtain ⟨owner, rfl⟩ := Prod.mk.inj same
  obtain ⟨owner', rfl⟩ := Prod.mk.inj same'
  rw [List.inj_on_of_nodup_map housed.threads found found' (owner.trans owner'.symm)]

/-- A thread is read back with the workspace of all its events. -/
theorem Housed.getThread (housed : db.Housed) (found : db.getThread threadId = .ok thread) :
    ∀ envelope ∈ db.events, envelope.threadId = threadId →
      envelope.workspaceId = thread.workspaceId := by
  intro envelope member inside
  obtain ⟨_, first, head, _, rfl⟩ := getThread_ok_iff.mp found
  have listed := List.mem_of_head? head
  have shown : first ∈ db.visible threadId := (List.mem_insertionSort _).mp listed
  have logged : first ∈ db.threadEvents threadId := (List.mem_filter.mp shown).1
  obtain ⟨stored, same⟩ := List.mem_filter.mp logged
  have owner := housed.owned first stored
  rw [of_decide_eq_true same] at owner
  have owner' := housed.owned envelope member
  rw [inside] at owner'
  exact owner_unique housed owner' owner

theorem loadEvents_mem {afterSeq : Nat} {events : List EventEnvelope}
    (loaded : db.loadEvents threadId afterSeq = .ok events) :
    ∀ envelope ∈ events, envelope ∈ db.events ∧ envelope.threadId = threadId := by
  intro envelope member
  unfold loadEvents at loaded
  split at loaded
  · cases loaded
  · cases loaded
    have shown := (List.mem_insertionSort _).mp member
    have logged := (List.mem_filter.mp shown).1
    exact ⟨(List.mem_filter.mp logged).1, of_decide_eq_true (List.mem_filter.mp logged).2⟩

theorem findEvidence_ok {projections : Projections} {evidenceId : EvidenceId}
    {evidence : EvidenceMeta} {events : List EventEnvelope}
    (found : projections.findEvidence threadId evidenceId events = .ok evidence) :
    ∃ envelope ∈ events, ∃ callId tool output recorded,
      envelope.event = .toolCompleted callId tool output recorded true ∧
        evidence = { recorded with evidenceId := some evidenceId } := by
  induction events with
  | nil => cases found
  | cons envelope envelopes ih =>
      have later (found : projections.findEvidence threadId evidenceId envelopes = .ok evidence) :
          ∃ other ∈ envelope :: envelopes, ∃ callId tool output recorded,
            other.event = .toolCompleted callId tool output recorded true ∧
              evidence = { recorded with evidenceId := some evidenceId } := by
        obtain ⟨other, member, held⟩ := ih found
        exact ⟨other, List.mem_cons_of_mem envelope member, held⟩
      rw [Projections.findEvidence] at found
      split at found
      · rename_i callId tool output recorded completed
        dsimp only at found
        split at found
        · rename_i same
          cases found
          refine ⟨envelope, List.mem_cons_self, callId, tool, output, recorded, completed, ?_⟩
          rw [same]
        · exact later found
      · exact later found

theorem getThreadIn_ok {workspaceId : WorkspaceId}
    (read : db.getThreadIn workspaceId threadId = .ok thread) :
    db.getThread threadId = .ok thread ∧ thread.workspaceId = workspaceId := by
  unfold getThreadIn at read
  cases found : db.getThread threadId with
  | error error =>
      rw [found] at read
      cases read
  | ok stored =>
      rw [found] at read
      cases allowed : denyCrossWorkspace workspaceId stored.workspaceId "thread" with
      | error error =>
          simp only [bind, Except.bind, allowed] at read
          cases read
      | ok =>
          simp only [bind, Except.bind, allowed] at read
          cases read
          exact ⟨rfl, (denyCrossWorkspace_ok allowed).symm⟩

/-- Evidence that is read for a workspace was recorded in it. -/
theorem Housed.getEvidenceIn (housed : db.Housed) {projections : Projections}
    {workspaceId : WorkspaceId} {evidenceId : EvidenceId} {evidence : EvidenceMeta}
    (read : db.getEvidenceIn projections workspaceId threadId evidenceId = .ok evidence) :
    ∃ envelope ∈ db.events, envelope.threadId = threadId ∧
      envelope.workspaceId = workspaceId ∧ ∃ callId tool output recorded,
        envelope.event = .toolCompleted callId tool output recorded true ∧
          evidence = { recorded with evidenceId := some evidenceId } := by
  unfold Database.getEvidenceIn at read
  cases seen : db.getThreadIn workspaceId threadId with
  | error error =>
      rw [seen] at read
      cases read
  | ok thread =>
      rw [seen] at read
      obtain ⟨found, rfl⟩ := getThreadIn_ok seen
      change db.getEvidence projections threadId evidenceId = .ok evidence at read
      unfold getEvidence at read
      cases loaded : db.loadEvents threadId 0 with
      | error error =>
          rw [loaded] at read
          cases read
      | ok events =>
          rw [loaded] at read
          obtain ⟨envelope, member, recorded⟩ := findEvidence_ok read
          obtain ⟨stored, inside⟩ := loadEvents_mem loaded envelope member
          exact ⟨envelope, stored, inside, housed.getThread found envelope stored inside, recorded⟩

end

end Database

end OpsCodex.Store
