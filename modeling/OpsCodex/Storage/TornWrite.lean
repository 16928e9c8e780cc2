/-! Operations on the content of one file, and what a crash among them leaves. -/

set_option autoImplicit false

namespace Storage

variable {Symbol : Type}

inductive Operation (Symbol : Type) where
  | truncate (length : Nat)
  | append (data : List Symbol)

def Operation.apply (content : List Symbol) : Operation Symbol → List Symbol
  | .truncate length => content.take length
  | .append data => content ++ data

def perform (operations : List (Operation Symbol)) (content : List Symbol) : List Symbol :=
  operations.foldl Operation.apply content

/-- Where a crash stops: after some operations, and inside the next one if that
one appends. -/
structure Tear where
  finished : Nat
  written : Nat

def Tear.leaves (tear : Tear) (operations : List (Operation Symbol)) (content : List Symbol) :
    List Symbol :=
  match operations.drop tear.finished with
  | .append data :: _ =>
      perform (operations.take tear.finished) content ++ data.take tear.written
  | _ => perform (operations.take tear.finished) content

/-- A crash leaves the content as it was before the last operation began, or with a
part of what that operation appends. -/
theorem Tear.leaves_snoc (tear : Tear) (operations : List (Operation Symbol))
    (data content : List Symbol) :
    (tear.finished < operations.length ∧
      tear.leaves (operations ++ [.append data]) content = tear.leaves operations content) ∨
    ∃ count, tear.leaves (operations ++ [.append data]) content =
      perform operations content ++ data.take count := by
  rcases Nat.lt_trichotomy tear.finished operations.length with before | at_last | after
  · refine .inl ⟨before, ?_⟩
    have nonempty : operations.drop tear.finished ≠ [] := by simpa using before
    obtain ⟨next, rest, dropped⟩ := List.exists_cons_of_ne_nil nonempty
    have less : tear.finished ≤ operations.length := by omega
    simp only [leaves, List.drop_append_of_le_length less, dropped, List.cons_append,
      List.take_append_of_le_length less]
    cases next <;> rfl
  · exact .inr ⟨tear.written, by simp [leaves, at_last]⟩
  · have past : operations.length + 1 ≤ tear.finished := by omega
    refine .inr ⟨data.length, ?_⟩
    have dropped : (operations ++ [Operation.append data]).drop tear.finished = [] := by
      simpa using past
    have taken : (operations ++ [Operation.append data]).take tear.finished =
        operations ++ [.append data] := by
      apply List.take_of_length_le
      simpa using past
    simp [leaves, dropped, taken, perform, Operation.apply]

end Storage
