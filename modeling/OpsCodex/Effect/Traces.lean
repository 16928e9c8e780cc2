import OpsCodex.Effect.Program

/-! Complete runs of a program: the requests that it makes with their answers, and the value
that it returns. -/

set_option autoImplicit false

namespace Effect

variable {I : Interface} {Value Result : Type}

/-- A request with its answer. -/
structure Event (I : Interface) where
  op : I.Op
  answer : I.Answer op

/-- A run of a program from its first request to its value. -/
inductive Traces : Program I Value → List (Event I) → Value → Prop where
  | pure {value} : Traces (.pure value) [] value
  | request {op next answer trace value} (rest : Traces (next answer) trace value) :
      Traces (.request op next) (⟨op, answer⟩ :: trace) value

variable {program : Program I Value} {trace : List (Event I)}

theorem traces_pure {value result : Value}
    (runs : Traces (Program.pure value : Program I Value) trace result) :
    trace = [] ∧ result = value := by
  cases runs
  exact ⟨rfl, rfl⟩

theorem traces_request {op : I.Op} {next : I.Answer op → Program I Value} {result : Value}
    (runs : Traces (.request op next) trace result) :
    ∃ answer later, trace = ⟨op, answer⟩ :: later ∧ Traces (next answer) later result := by
  cases runs with
  | request rest => exact ⟨_, _, rfl, rest⟩

/-- A run of a sequence is a run of its first part and one of the rest. -/
theorem traces_bind {rest : Value → Program I Result} {result : Result}
    (runs : Traces (program >>= rest) trace result) :
    ∃ value before after, trace = before ++ after ∧ Traces program before value ∧
      Traces (rest value) after result := by
  induction program generalizing trace with
  | pure value => exact ⟨value, [], trace, rfl, .pure, runs⟩
  | request op next ih =>
      obtain ⟨answer, later, rfl, continues⟩ := traces_request runs
      obtain ⟨value, before, after, rfl, first, second⟩ := ih answer continues
      exact ⟨value, ⟨op, answer⟩ :: before, after, rfl, .request first, second⟩

theorem traces_perform {op : I.Op} {result : I.Answer op}
    (runs : Traces (Program.perform op) trace result) : trace = [⟨op, result⟩] := by
  obtain ⟨answer, later, rfl, returns⟩ := traces_request runs
  obtain ⟨rfl, rfl⟩ := traces_pure returns
  rfl

end Effect
