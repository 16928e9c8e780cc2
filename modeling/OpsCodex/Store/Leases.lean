import OpsCodex.Store.Sqlite

/-! The leases of turns: what any sequence of calls on the lease table keeps, at any
clock readings. -/

set_option autoImplicit false

namespace OpsCodex.Store

open OpsCodex.Runtime

/-- The calls on the lease table. -/
inductive LeaseCall where
  | acquireLease (turnId : TurnId) (threadId : ThreadId) (ownerId : Uuid) (ttl : Duration)
  | refreshLease (leaseId : Uuid) (fencingToken : Nat) (ttl : Duration)
  | releaseLease (leaseId : Uuid) (fencingToken : Nat)
  | forceReleaseTurnLease (turnId : TurnId)

/-- The store, the supply of lease ids and the leases handed out so far, newest first. -/
structure Leasing where
  db : Database
  nextId : Uuid
  granted : List Lease

namespace Leasing

/-- A store without leases. -/
def start (db : Database) (nextId : Uuid) : Leasing where
  db := { db with leases := [] }
  nextId := nextId
  granted := []

/-- One call at a clock reading. -/
def call (leasing : Leasing) (clock : DateTime) : LeaseCall → Leasing
  | .acquireLease turnId threadId ownerId ttl =>
      match leasing.db.acquireLease turnId threadId ownerId ttl clock leasing.nextId with
      | (.ok lease, db) => {
          db := db, nextId := leasing.nextId + 1, granted := lease :: leasing.granted }
      | (.error _, db) => { leasing with db := db }
  | .refreshLease leaseId fencingToken ttl =>
      { leasing with db := (leasing.db.refreshLease leaseId fencingToken ttl clock).2 }
  | .releaseLease leaseId fencingToken =>
      { leasing with db := leasing.db.releaseLease leaseId fencingToken }
  | .forceReleaseTurnLease turnId =>
      { leasing with db := leasing.db.forceReleaseTurnLease turnId }

/-- The calls one after the other, each with its clock reading. -/
def run (leasing : Leasing) : List (DateTime × LeaseCall) → Leasing
  | [] => leasing
  | (clock, next) :: calls => run (leasing.call clock next) calls

/-- The fencing of leases: one row a turn, growing tokens, no access for a holder that
has a successor and no second holder before the expiry. -/
structure Fenced (leasing : Leasing) : Prop where
  unique : (leasing.db.leases.map Lease.turnId).Nodup
  increasing : leasing.granted.Pairwise fun newer older =>
    newer.leaseId = older.leaseId → older.fencingToken < newer.fencingToken
  superseded : ∀ newer lease older, leasing.granted = newer ++ lease :: older →
    (∃ successor ∈ newer, successor.turnId = lease.turnId) →
    (∀ ttl clock, leasing.db.refreshLease lease.leaseId lease.fencingToken ttl clock =
      (.error (.storage "lease fencing token mismatch"), leasing.db)) ∧
    leasing.db.releaseLease lease.leaseId lease.fencingToken = leasing.db
  blocked : ∀ row ∈ leasing.db.leases, ∀ threadId ownerId ttl clock fresh,
    clock < row.expiresAt →
    leasing.db.acquireLease row.turnId threadId ownerId ttl clock fresh =
      (.error .turnAlreadyRunning, leasing.db)
  /-- The signed column is wide enough for every run that can be carried out. -/
  bounded : ∀ lease ∈ leasing.granted, lease.fencingToken ≤ leasing.granted.length

/-- What the rows and the leases handed out have to do with each other. -/
structure Sound (leasing : Leasing) : Prop where
  unique : (leasing.db.leases.map Lease.turnId).Nodup
  ids : ∀ row ∈ leasing.db.leases, ∀ other ∈ leasing.db.leases,
    row.leaseId = other.leaseId → row.turnId = other.turnId
  early : ∀ lease ∈ leasing.granted, lease.leaseId < leasing.nextId
  rows : ∀ row ∈ leasing.db.leases, row.leaseId < leasing.nextId ∧
    row.fencingToken ≤ leasing.granted.length
  owned : ∀ row ∈ leasing.db.leases, ∀ lease ∈ leasing.granted,
    lease.leaseId = row.leaseId → lease.turnId = row.turnId ∧
      lease.fencingToken ≤ row.fencingToken
  increasing : leasing.granted.Pairwise fun newer older =>
    newer.leaseId = older.leaseId → older.fencingToken < newer.fencingToken
  stale : leasing.granted.Pairwise fun newer older => newer.turnId = older.turnId →
    ∀ row ∈ leasing.db.leases, Database.holdsLease older.leaseId older.fencingToken row = false
  bounded : ∀ lease ∈ leasing.granted, lease.fencingToken ≤ leasing.granted.length

section

variable {leasing : Leasing}

theorem holdsLease_iff {leaseId : Uuid} {fencingToken : Nat} {row : Lease} :
    Database.holdsLease leaseId fencingToken row = true ↔
      row.leaseId = leaseId ∧ row.fencingToken = fencingToken := by
  simp [Database.holdsLease]

/-- Rows that keep their id, turn and token keep the table sound. -/
theorem Sound.keep {db : Database} (sound : Sound leasing)
    (unique : (db.leases.map Lease.turnId).Nodup)
    (kept : ∀ row ∈ db.leases, ∃ earlier ∈ leasing.db.leases,
      earlier.leaseId = row.leaseId ∧ earlier.turnId = row.turnId ∧
      earlier.fencingToken = row.fencingToken) : Sound { leasing with db := db } := by
  constructor
  · exact unique
  · intro row member other member' same
    obtain ⟨earlier, found, id, turn, _⟩ := kept row member
    obtain ⟨earlier', found', id', turn', _⟩ := kept other member'
    rw [← turn, ← turn']
    exact sound.ids earlier found earlier' found' (id.trans (same.trans id'.symm))
  · exact sound.early
  · intro row member
    obtain ⟨earlier, found, id, _, token⟩ := kept row member
    rw [← id, ← token]
    exact sound.rows earlier found
  · intro row member lease handed same
    obtain ⟨earlier, found, id, turn, token⟩ := kept row member
    rw [← turn, ← token]
    exact sound.owned earlier found lease handed (same.trans id.symm)
  · exact sound.increasing
  · refine sound.stale.imp fun {newer older} stale same row member => ?_
    obtain ⟨earlier, found, id, _, token⟩ := kept row member
    rw [Database.holdsLease, ← id, ← token]
    exact stale same earlier found
  · exact sound.bounded

theorem Sound.refreshLease (sound : Sound leasing) (leaseId : Uuid) (fencingToken : Nat)
    (ttl : Duration) (clock : DateTime) :
    Sound { leasing with db := (leasing.db.refreshLease leaseId fencingToken ttl clock).2 } := by
  unfold Database.refreshLease
  split
  · apply sound.keep
    · dsimp only
      rw [Table.keys_update]
      · exact sound.unique
      · exact fun _ _ => rfl
    · intro row member
      obtain ⟨earlier, found, changed⟩ := List.mem_map.mp member
      refine ⟨earlier, found, ?_⟩
      rw [← changed]
      split <;> exact ⟨rfl, rfl, rfl⟩
  · exact sound

theorem Sound.filter (sound : Sound leasing) (keeps : Lease → Bool) :
    Sound { leasing with
      db := { leasing.db with leases := leasing.db.leases.filter keeps } } := by
  apply sound.keep
  · exact sound.unique.sublist (List.filter_sublist.map _)
  · intro row member
    exact ⟨row, (List.mem_filter.mp member).1, rfl, rfl, rfl⟩

/-- A lease for a turn that has none. -/
theorem Sound.create (sound : Sound leasing) (lease : Lease) (id : lease.leaseId = leasing.nextId)
    (token : lease.fencingToken = 1)
    (absent : ∀ row ∈ leasing.db.leases, row.turnId ≠ lease.turnId) :
    Sound {
      db := { leasing.db with leases := leasing.db.leases ++ [lease] }
      nextId := leasing.nextId + 1, granted := lease :: leasing.granted } := by
  have fresh (other : Lease) (handed : other ∈ leasing.granted) :
      other.leaseId ≠ lease.leaseId := by
    rw [id]
    exact Nat.ne_of_lt (sound.early other handed)
  constructor
  · rw [List.map_append, List.nodup_append]
    refine ⟨sound.unique, by simp, ?_⟩
    intro turn old turn' new same
    obtain ⟨row, found, rfl⟩ := List.mem_map.mp old
    rw [List.map_singleton, List.mem_singleton] at new
    exact absent row found (same.trans new)
  · intro row member other member' same
    have before (old : Lease) (found : old ∈ leasing.db.leases) : old.leaseId ≠ lease.leaseId := by
      rw [id]
      exact Nat.ne_of_lt (sound.rows old found).1
    obtain old | new := List.mem_append.mp member <;>
      obtain old' | new' := List.mem_append.mp member'
    · exact sound.ids row old other old' same
    · rw [List.mem_singleton.mp new'] at same
      exact absurd same (before row old)
    · rw [List.mem_singleton.mp new] at same
      exact absurd same.symm (before other old')
    · rw [List.mem_singleton.mp new, List.mem_singleton.mp new']
  · intro other handed
    obtain rfl | handed := List.mem_cons.mp handed
    · rw [id]
      exact Nat.lt_succ_self _
    · exact Nat.lt_succ_of_lt (sound.early other handed)
  · intro row member
    obtain old | new := List.mem_append.mp member
    · have known := sound.rows row old
      exact ⟨Nat.lt_succ_of_lt known.1, Nat.le_succ_of_le known.2⟩
    · rw [List.mem_singleton.mp new, id, token]
      exact ⟨Nat.lt_succ_self _, by simp⟩
  · intro row member other handed same
    obtain old | new := List.mem_append.mp member
    · obtain rfl | handed := List.mem_cons.mp handed
      · have early := (sound.rows row old).1
        rw [← same, id] at early
        exact absurd early (Nat.lt_irrefl _)
      · exact sound.owned row old other handed same
    · rw [List.mem_singleton.mp new] at same ⊢
      obtain rfl | handed := List.mem_cons.mp handed
      · exact ⟨rfl, Nat.le_refl _⟩
      · exact absurd same (fresh other handed)
  · refine List.pairwise_cons.mpr ⟨fun other handed same => ?_, sound.increasing⟩
    exact absurd same.symm (fresh other handed)
  · have apart (other : Lease) (handed : other ∈ leasing.granted) :
        Database.holdsLease other.leaseId other.fencingToken lease = false := by
      rw [← Bool.not_eq_true, holdsLease_iff]
      exact fun held => fresh other handed held.1.symm
    refine List.pairwise_cons.mpr ⟨fun other handed same row member => ?_, ?_⟩
    · obtain old | new := List.mem_append.mp member
      · rw [← Bool.not_eq_true, holdsLease_iff]
        intro held
        have turn := (sound.owned row old other handed held.1.symm).1
        exact absent row old (turn.symm.trans same.symm)
      · rw [List.mem_singleton.mp new]
        exact apart other handed
    · refine sound.stale.imp_of_mem fun {newer older} _ handed stale same row member => ?_
      obtain old | new := List.mem_append.mp member
      · exact stale same row old
      · rw [List.mem_singleton.mp new]
        exact apart older handed
  · intro other handed
    obtain rfl | handed := List.mem_cons.mp handed
    · simp [token]
    · exact Nat.le_succ_of_le (sound.bounded other handed)

/-- A takeover of an expired lease: the row keeps its id and gets the next token. -/
theorem Sound.takeOver (sound : Sound leasing) {existing : Lease}
    (found : existing ∈ leasing.db.leases) (change : Lease → Lease) (lease : Lease)
    (changes : ∀ row, (change row).leaseId = row.leaseId ∧ (change row).turnId = row.turnId ∧
      (change row).fencingToken = lease.fencingToken)
    (id : lease.leaseId = existing.leaseId) (turn : lease.turnId = existing.turnId)
    (token : lease.fencingToken = existing.fencingToken + 1) :
    Sound {
      db := { leasing.db with
        leases := Table.update (fun row => decide (row.leaseId = existing.leaseId)) change
          leasing.db.leases }
      nextId := leasing.nextId + 1, granted := lease :: leasing.granted } := by
  have known := sound.rows existing found
  have outdated (other : Lease) (handed : other ∈ leasing.granted)
      (same : other.leaseId = existing.leaseId) : other.fencingToken < lease.fencingToken := by
    rw [token]
    exact Nat.lt_succ_of_le (sound.owned existing found other handed same).2
  have rows (row : Lease) (member : row ∈ Table.update
      (fun row => decide (row.leaseId = existing.leaseId)) change leasing.db.leases) :
      (row ∈ leasing.db.leases ∧ row.leaseId ≠ existing.leaseId) ∨
        ∃ earlier ∈ leasing.db.leases, earlier.leaseId = existing.leaseId ∧
          row.leaseId = existing.leaseId ∧ row.turnId = earlier.turnId ∧
          row.fencingToken = lease.fencingToken := by
    obtain ⟨earlier, old, changed⟩ := List.mem_map.mp member
    split at changed
    · rename_i selected
      have same := of_decide_eq_true selected
      obtain ⟨id', turn', token'⟩ := changes earlier
      rw [changed] at id' turn' token'
      exact .inr ⟨earlier, old, same, id'.trans same, turn', token'⟩
    · rename_i selected
      subst changed
      exact .inl ⟨old, fun same => selected (decide_eq_true same)⟩
  constructor
  · show ((Table.update _ change leasing.db.leases).map Lease.turnId).Nodup
    rw [Table.keys_update fun row _ => (changes row).2.1]
    exact sound.unique
  · intro row member other member' same
    obtain ⟨old, different⟩ | ⟨earlier, old, id', row', turn', _⟩ := rows row member <;>
      obtain ⟨old', different'⟩ | ⟨earlier', old', id'', other', turn'', _⟩ :=
        rows other member'
    · exact sound.ids row old other old' same
    · exact absurd (same.trans other') different
    · exact absurd (same.symm.trans row') different'
    · rw [turn', turn'']
      exact sound.ids earlier old earlier' old' (id'.trans id''.symm)
  · intro other handed
    obtain rfl | handed := List.mem_cons.mp handed
    · rw [id]
      exact Nat.lt_succ_of_lt known.1
    · exact Nat.lt_succ_of_lt (sound.early other handed)
  · intro row member
    obtain ⟨old, _⟩ | ⟨_, _, _, same, _, token'⟩ := rows row member
    · have earlier := sound.rows row old
      exact ⟨Nat.lt_succ_of_lt earlier.1, Nat.le_succ_of_le earlier.2⟩
    · rw [same, token', token]
      exact ⟨Nat.lt_succ_of_lt known.1, Nat.succ_le_succ known.2⟩
  · intro row member other handed same
    obtain ⟨old, different⟩ | ⟨earlier, old, same', id', turn', token'⟩ := rows row member
    · obtain rfl | handed := List.mem_cons.mp handed
      · exact absurd (same.symm.trans id) different
      · exact sound.owned row old other handed same
    · rw [turn', token']
      obtain rfl | handed := List.mem_cons.mp handed
      · exact ⟨turn.trans (sound.ids existing found earlier old same'.symm), Nat.le_refl _⟩
      · have owned := sound.owned earlier old other handed ((same.trans id').trans same'.symm)
        exact ⟨owned.1, Nat.le_of_lt (outdated other handed (same.trans id'))⟩
  · refine List.pairwise_cons.mpr ⟨fun other handed same => ?_, sound.increasing⟩
    exact outdated other handed (same.symm.trans id)
  · have apart (other : Lease) (handed : other ∈ leasing.granted) (row : Lease)
        (same : row.leaseId = existing.leaseId)
        (token' : row.fencingToken = lease.fencingToken) :
        Database.holdsLease other.leaseId other.fencingToken row = false := by
      rw [← Bool.not_eq_true, holdsLease_iff]
      intro held
      have older := outdated other handed (held.1.symm.trans same)
      rw [← held.2, token'] at older
      exact Nat.lt_irrefl _ older
    refine List.pairwise_cons.mpr ⟨fun other handed same row member => ?_, ?_⟩
    · obtain ⟨old, different⟩ | ⟨_, _, _, same', _, token'⟩ := rows row member
      · rw [← Bool.not_eq_true, holdsLease_iff]
        intro held
        have turn' := (sound.owned row old other handed held.1.symm).1
        have lookup := Table.lookup_of_mem sound.unique old
        rw [← turn', ← same, turn, Table.lookup_of_mem sound.unique found] at lookup
        exact different (congrArg Lease.leaseId (Option.some.inj lookup)).symm
      · exact apart other handed row same' token'
    · refine sound.stale.imp_of_mem fun {newer older} _ handed stale same row member => ?_
      obtain ⟨old, _⟩ | ⟨_, _, _, same', _, token'⟩ := rows row member
      · exact stale same row old
      · exact apart older handed row same' token'
  · intro other handed
    obtain rfl | handed := List.mem_cons.mp handed
    · rw [token]
      exact Nat.succ_le_succ known.2
    · exact Nat.le_succ_of_le (sound.bounded other handed)

theorem Sound.acquireLease (sound : Sound leasing) (turnId : TurnId) (threadId : ThreadId)
    (ownerId : Uuid) (ttl : Duration) (clock : DateTime) :
    Sound (leasing.call clock (.acquireLease turnId threadId ownerId ttl)) := by
  simp only [call, Database.acquireLease]
  cases found : leasing.db.leases.find? fun lease => decide (lease.turnId = turnId) with
  | none =>
      refine sound.create _ rfl rfl fun row member same => ?_
      have absent := List.find?_eq_none.mp found row member
      exact absent (decide_eq_true same)
  | some existing =>
      by_cases live : existing.expiresAt > clock
      · simp only [live, if_true]
        exact sound
      · simp only [live, if_false]
        have turn : existing.turnId = turnId := by simpa using List.find?_some found
        exact sound.takeOver (List.mem_of_find?_eq_some found) _ _
          (fun _ => ⟨rfl, rfl, rfl⟩) rfl turn.symm rfl

theorem Sound.call (sound : Sound leasing) (clock : DateTime) (next : LeaseCall) :
    Sound (leasing.call clock next) := by
  cases next with
  | acquireLease turnId threadId ownerId ttl =>
      exact sound.acquireLease turnId threadId ownerId ttl clock
  | refreshLease leaseId fencingToken ttl =>
      exact sound.refreshLease leaseId fencingToken ttl clock
  | releaseLease leaseId fencingToken => exact sound.filter _
  | forceReleaseTurnLease turnId => exact sound.filter _

theorem Sound.run (sound : Sound leasing) (calls : List (DateTime × LeaseCall)) :
    Sound (leasing.run calls) := by
  induction calls generalizing leasing with
  | nil => exact sound
  | cons timed calls ih => exact ih (sound.call timed.1 timed.2)

theorem sound_start (db : Database) (nextId : Uuid) : Sound (start db nextId) := by
  constructor
  · exact List.nodup_nil
  · intro row member
    cases member
  · intro lease handed
    cases handed
  · intro row member
    cases member
  · intro row member
    cases member
  · exact .nil
  · exact .nil
  · intro lease handed
    cases handed

theorem Sound.fenced (sound : Sound leasing) : Fenced leasing := by
  constructor
  · exact sound.unique
  · exact sound.increasing
  · intro newer lease older history successor
    obtain ⟨next, handed, turn⟩ := successor
    have stale := sound.stale
    rw [history, List.pairwise_append] at stale
    have free : ∀ row ∈ leasing.db.leases,
        Database.holdsLease lease.leaseId lease.fencingToken row = false :=
      stale.2.2 next handed lease List.mem_cons_self turn
    constructor
    · intro ttl clock
      rw [Database.refreshLease, if_neg]
      intro held
      obtain ⟨row, member, holds⟩ := List.any_eq_true.mp held
      rw [free row member] at holds
      cases holds
    · have all : leasing.db.leases.filter (fun row =>
          !Database.holdsLease lease.leaseId lease.fencingToken row) = leasing.db.leases := by
        refine List.filter_eq_self.mpr fun row member => ?_
        rw [free row member]
        rfl
      rw [Database.releaseLease, all]
  · intro row member threadId ownerId ttl clock fresh live
    have found : leasing.db.leases.find? (fun lease => decide (lease.turnId = row.turnId)) =
        some row := Table.lookup_of_mem sound.unique member
    simp [Database.acquireLease, found, live]
  · exact sound.bounded

end

end Leasing

/-- Leases are fenced after every sequence of calls, by any owners, on any turns and at
any clock readings. -/
theorem leases_fenced (db : Database) (nextId : Uuid) (calls : List (DateTime × LeaseCall)) :
    Leasing.Fenced ((Leasing.start db nextId).run calls) :=
  ((Leasing.sound_start db nextId).run calls).fenced

end OpsCodex.Store
