import Mathlib.Data.List.Induction
import Mathlib.Data.List.Forall2

/-! Records that each hold a hash of themselves and the hash of the record before. -/

set_option autoImplicit false

namespace Encoding

/-- What a chain reads of its records: the digest of a record's fields, the hash it
names as the one before, and the hash it is stored under. -/
structure HashChain (Record Hash : Type) where
  digest : Record → Hash
  previous : Record → Hash
  hash : Record → Hash

namespace HashChain

variable {Record Hash : Type} (chain : HashChain Record Hash)

/-- Each record names the hash before it and is stored under its digest. -/
def Linked : Hash → List Record → Prop
  | _, [] => True
  | before, record :: records =>
      chain.previous record = before ∧ chain.digest record = chain.hash record ∧
        Linked (chain.hash record) records

/-- The hash of the last record. -/
def head (genesis : Hash) (records : List Record) : Hash :=
  (records.getLast?.map chain.hash).getD genesis

variable {chain} {genesis : Hash} {records : List Record} {record : Record}

@[simp] theorem head_nil : chain.head genesis [] = genesis := rfl

@[simp] theorem head_snoc : chain.head genesis (records ++ [record]) = chain.hash record := by
  simp [head]

theorem head_cons : chain.head genesis (record :: records) =
    chain.head (chain.hash record) records := by
  cases records using List.reverseRecOn with
  | nil => rfl
  | append_singleton earlier last =>
      rw [← List.cons_append, head_snoc, head_snoc]

theorem linked_snoc : chain.Linked genesis (records ++ [record]) ↔
    chain.Linked genesis records ∧ chain.previous record = chain.head genesis records ∧
      chain.digest record = chain.hash record := by
  induction records generalizing genesis with
  | nil => simp [Linked]
  | cons first records ih =>
      simp only [List.cons_append, Linked, ih, head_cons, and_assoc]

theorem Linked.stored (linked : chain.Linked genesis records) (member : record ∈ records) :
    chain.digest record = chain.hash record := by
  induction records generalizing genesis with
  | nil => cases member
  | cons first records ih =>
      obtain ⟨-, stored, linked⟩ := linked
      cases member with
      | head => exact stored
      | tail _ member => exact ih linked member

/-- Two linked chains with one head hold the same records, last to first: equal digests
are of records alike, and no digest is the start of a chain. -/
theorem Linked.forall₂ {Alike : Record → Record → Prop} {first second : List Record}
    (alike : ∀ record ∈ first, ∀ other ∈ second,
      chain.digest record = chain.digest other → Alike record other)
    (follows : ∀ {record other}, Alike record other →
      chain.previous record = chain.previous other)
    (started : ∀ record ∈ first ++ second, chain.digest record ≠ genesis)
    (linked : chain.Linked genesis first) (other : chain.Linked genesis second)
    (heads : chain.head genesis first = chain.head genesis second) :
    List.Forall₂ Alike first second := by
  induction first using List.reverseRecOn generalizing second with
  | nil =>
      cases second using List.reverseRecOn with
      | nil => exact .nil
      | append_singleton earlier last =>
          rw [head_nil, head_snoc, ← (linked_snoc.mp other).2.2] at heads
          exact absurd heads.symm (started last (by simp))
  | append_singleton records record ih =>
      obtain ⟨linked, before, stored⟩ := linked_snoc.mp linked
      cases second using List.reverseRecOn with
      | nil =>
          rw [head_nil, head_snoc, ← stored] at heads
          exact absurd heads (started record (by simp))
      | append_singleton earlier last =>
          obtain ⟨other, before', stored'⟩ := linked_snoc.mp other
          rw [head_snoc, head_snoc, ← stored, ← stored'] at heads
          have same : Alike record last := alike record (by simp) last (by simp) heads
          have shorter : List.Forall₂ Alike records earlier := by
            refine ih (fun record member other member' => ?_) (fun record member => ?_) linked
              other ?_
            · exact alike record (List.mem_append_left _ member) other
                (List.mem_append_left _ member')
            · apply started record
              rcases List.mem_append.mp member with own | theirs
              · exact List.mem_append_left _ (List.mem_append_left _ own)
              · exact List.mem_append_right _ (List.mem_append_left _ theirs)
            · rw [← before, ← before', follows same]
          exact List.rel_append shorter (.cons same .nil)

end HashChain

end Encoding
