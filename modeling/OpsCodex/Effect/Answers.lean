import OpsCodex.Effect.Program

/-! What a program asks and returns when its requests are answered as a service answers. -/

set_option autoImplicit false

namespace Effect

section

variable {I : Interface} {Value Result : Type}

/-- The program returns a value after answers that are admitted. -/
inductive Returns (admits : (op : I.Op) → I.Answer op → Prop) : Program I Value → Value → Prop where
  | pure {value} : Returns admits (.pure value) value
  | request {op next answer value} (admitted : admits op answer)
      (rest : Returns admits (next answer) value) : Returns admits (.request op next) value

/-- The program comes to a request after answers that are admitted. -/
inductive Asks (admits : (op : I.Op) → I.Answer op → Prop) : Program I Value → I.Op → Prop where
  | now {op next} : Asks admits (.request op next) op
  | later {op next answer asked} (admitted : admits op answer)
      (rest : Asks admits (next answer) asked) : Asks admits (.request op next) asked

variable {admits : (op : I.Op) → I.Answer op → Prop} {program : Program I Value}

theorem returns_pure {value result : Value} :
    Returns admits (Program.pure value : Program I Value) result ↔ result = value := by
  constructor
  · intro returns
    cases returns
    rfl
  · rintro rfl
    exact .pure

theorem returns_request {op : I.Op} {next : I.Answer op → Program I Value} {result : Value} :
    Returns admits (.request op next) result ↔
      ∃ answer, admits op answer ∧ Returns admits (next answer) result := by
  constructor
  · intro returns
    cases returns with
    | request admitted rest => exact ⟨_, admitted, rest⟩
  · rintro ⟨answer, admitted, rest⟩
    exact .request admitted rest

theorem returns_bind {rest : Value → Program I Result} {result : Result} :
    Returns admits (program >>= rest) result ↔
      ∃ value, Returns admits program value ∧ Returns admits (rest value) result := by
  induction program with
  | pure value => exact ⟨fun returns => ⟨value, .pure, returns⟩, fun ⟨other, first, second⟩ => by
      cases first
      exact second⟩
  | request op next ih =>
      rw [Program.request_bind, returns_request]
      constructor
      · rintro ⟨answer, admitted, later⟩
        obtain ⟨value, first, second⟩ := (ih answer).mp later
        exact ⟨value, .request admitted first, second⟩
      · rintro ⟨value, first, second⟩
        obtain ⟨answer, admitted, later⟩ := returns_request.mp first
        exact ⟨answer, admitted, (ih answer).mpr ⟨value, later, second⟩⟩

theorem asks_request {op asked : I.Op} {next : I.Answer op → Program I Value} :
    Asks admits (.request op next) asked ↔
      asked = op ∨ ∃ answer, admits op answer ∧ Asks admits (next answer) asked := by
  constructor
  · intro asks
    cases asks with
    | now => exact .inl rfl
    | later admitted rest => exact .inr ⟨_, admitted, rest⟩
  · rintro (rfl | ⟨answer, admitted, rest⟩)
    · exact .now
    · exact .later admitted rest

theorem asks_bind {rest : Value → Program I Result} {asked : I.Op} :
    Asks admits (program >>= rest) asked ↔ Asks admits program asked ∨
      ∃ value, Returns admits program value ∧ Asks admits (rest value) asked := by
  induction program with
  | pure value =>
      constructor
      · exact fun asks => .inr ⟨value, .pure, asks⟩
      · rintro (asks | ⟨other, first, second⟩)
        · cases asks
        · cases first
          exact second
  | request op next ih =>
      rw [Program.request_bind, asks_request, asks_request]
      constructor
      · rintro (same | ⟨answer, admitted, later⟩)
        · exact .inl (.inl same)
        · obtain asks | ⟨value, first, second⟩ := (ih answer).mp later
          · exact .inl (.inr ⟨answer, admitted, asks⟩)
          · exact .inr ⟨value, .request admitted first, second⟩
      · rintro ((same | ⟨answer, admitted, asks⟩) | ⟨value, first, second⟩)
        · exact .inl same
        · exact .inr ⟨answer, admitted, (ih answer).mpr (.inl asks)⟩
        · obtain ⟨answer, admitted, later⟩ := returns_request.mp first
          exact .inr ⟨answer, admitted, (ih answer).mpr (.inr ⟨value, later, second⟩)⟩

theorem Asks.allowed {allowed : I.Op → Prop} {asked : I.Op} (asks : Asks admits program asked)
    (uses : Uses allowed program) : allowed asked := by
  induction asks with
  | now => exact uses.1
  | later admitted rest ih => exact ih (uses.2 _)

end

namespace Fallible

variable {I : Interface} {Error Value Result : Type}
  {admits : (op : I.Op) → I.Answer op → Prop} {program : Fallible I Error Value}

theorem returns_pure {value : Value} {result : Except Error Value} :
    Returns admits (Pure.pure value : Fallible I Error Value).run result ↔
      result = .ok value := Effect.returns_pure

theorem returns_bind_ok {rest : Value → Fallible I Error Result} {result : Result} :
    Returns admits (program >>= rest).run (.ok result) ↔
      ∃ value, Returns admits program.run (.ok value) ∧
        Returns admits (rest value).run (.ok result) := by
  refine returns_bind.trans ⟨?_, ?_⟩
  · rintro ⟨outcome, first, second⟩
    cases outcome with
    | ok value => exact ⟨value, first, second⟩
    | error error => cases second
  · rintro ⟨value, first, second⟩
    exact ⟨.ok value, first, second⟩

theorem asks_bind {rest : Value → Fallible I Error Result} {asked : I.Op} :
    Asks admits (program >>= rest).run asked ↔ Asks admits program.run asked ∨
      ∃ value, Returns admits program.run (.ok value) ∧ Asks admits (rest value).run asked := by
  refine Effect.asks_bind.trans (or_congr Iff.rfl ⟨?_, ?_⟩)
  · rintro ⟨outcome, first, second⟩
    cases outcome with
    | ok value => exact ⟨value, first, second⟩
    | error error => cases second
  · rintro ⟨value, first, second⟩
    exact ⟨.ok value, first, second⟩

end Fallible

end Effect
