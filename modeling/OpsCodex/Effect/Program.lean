/-! Programs as trees of service requests, and the protocols they follow.
A protocol is an automaton over requests and answers; a program conforms when
every answer it can receive lets the automaton follow it. -/

set_option autoImplicit false

namespace Effect

/-- The requests a service accepts and the type of the answer to each. -/
structure Interface where
  Op : Type
  Answer : Op → Type

/-- A program either has its value or waits for the answer to one request.
Whatever runs between two requests of a program is invisible to it. -/
inductive Program (I : Interface) (Value : Type) : Type where
  | pure (value : Value)
  | request (op : I.Op) (next : I.Answer op → Program I Value)

namespace Program

variable {I : Interface} {Value Result : Type}

def bind : Program I Value → (Value → Program I Result) → Program I Result
  | .pure value, rest => rest value
  | .request op next, rest => .request op fun answer => (next answer).bind rest

instance : Monad (Program I) where
  pure := .pure
  bind := .bind

/-- The program that makes one request and returns its answer. -/
def perform (op : I.Op) : Program I (I.Answer op) := .request op .pure

/-- The request the program is waiting on, if it has not returned. -/
def awaits : Program I Value → Option I.Op
  | .pure _ => none
  | .request op _ => some op

@[simp] theorem pure_bind (value : Value) (rest : Value → Program I Result) :
    ((pure value : Program I Value) >>= rest) = rest value := rfl

@[simp] theorem request_bind (op : I.Op) (next : I.Answer op → Program I Value)
    (rest : Value → Program I Result) :
    (Program.request op next >>= rest) = .request op fun answer => next answer >>= rest :=
  rfl

end Program

/-- Programs that may stop early with an error. -/
abbrev Fallible (I : Interface) (Error Value : Type) : Type :=
  ExceptT Error (Program I) Value

namespace Fallible

variable {I : Interface} {Error Value Result : Type}

/-- Run a program to its outcome without leaving early on an error. -/
def attempt (program : Fallible I Error Value) : Fallible I Error (Except Error Value) :=
  ExceptT.mk (program.run >>= fun outcome => pure (.ok outcome))

/-- Run a clean-up after a program, whatever its outcome was. -/
def andFinally (program : Fallible I Error Value) (cleanup : Program I Unit) :
    Fallible I Error Value :=
  ExceptT.mk (program.run >>= fun outcome => cleanup >>= fun _ => pure outcome)

/-- Run a clean-up only when the program stops with an error. -/
def orElseDo (program : Fallible I Error Value) (cleanup : Program I Unit) :
    Fallible I Error Value :=
  ExceptT.mk (program.run >>= fun
    | .ok value => pure (.ok value)
    | .error error => cleanup >>= fun _ => pure (.error error))

/-- One program for each element, stopping at the first error. -/
def forEach {Item : Type} (body : Item → Fallible I Error Unit) :
    List Item → Fallible I Error Unit
  | [] => pure ()
  | item :: items => do
      body item
      forEach body items

end Fallible

/-- An automaton over the requests of one caller. `Advance` says which answered
requests a caller may make at a control point, and where each leads. -/
structure Protocol (I : Interface) where
  Control : Type
  Advance : Control → (op : I.Op) → I.Answer op → Control → Prop

section

variable {I : Interface} {Value Result : Type} (protocol : Protocol I)

/-- The program follows the protocol from a control point, whatever it is
answered, and returns at a control point that satisfies `post`. -/
def Conforms : Program I Value → protocol.Control →
    (Value → protocol.Control → Prop) → Prop
  | .pure value, control, post => post value control
  | .request op next, control, post =>
      ∀ answer, ∃ after, protocol.Advance control op answer after ∧
        Conforms (next answer) after post

variable {protocol}

theorem Conforms.mono {program : Program I Value} {control : protocol.Control}
    {post weaker : Value → protocol.Control → Prop}
    (conforms : Conforms protocol program control post)
    (implies : ∀ value after, post value after → weaker value after) :
    Conforms protocol program control weaker := by
  induction program generalizing control with
  | pure value => exact implies value control conforms
  | request op next ih =>
      intro answer
      obtain ⟨after, advance, rest⟩ := conforms answer
      exact ⟨after, advance, ih answer rest⟩

theorem Conforms.bind {program : Program I Value} {rest : Value → Program I Result}
    {control : protocol.Control} {post : Result → protocol.Control → Prop}
    (conforms : Conforms protocol program control
      fun value after => Conforms protocol (rest value) after post) :
    Conforms protocol (program >>= rest) control post := by
  induction program generalizing control with
  | pure value => exact conforms
  | request op next ih =>
      intro answer
      obtain ⟨after, advance, remaining⟩ := conforms answer
      exact ⟨after, advance, ih answer remaining⟩

/-- Every request of the program, whatever it is answered, is an allowed one. -/
def Uses (allowed : I.Op → Prop) : Program I Value → Prop
  | .pure _ => True
  | .request op next => allowed op ∧ ∀ answer, Uses allowed (next answer)

theorem Uses.bind {allowed : I.Op → Prop} {program : Program I Value}
    {rest : Value → Program I Result} (first : Uses allowed program)
    (second : ∀ value, Uses allowed (rest value)) : Uses allowed (program >>= rest) := by
  induction program with
  | pure value => exact second value
  | request op next ih => exact ⟨first.1, fun answer => ih answer (first.2 answer)⟩

theorem Uses.mono {allowed wider : I.Op → Prop} {program : Program I Value}
    (uses : Uses allowed program) (implies : ∀ op, allowed op → wider op) :
    Uses wider program := by
  induction program with
  | pure value => trivial
  | request op next ih => exact ⟨implies op uses.1, fun answer => ih answer (uses.2 answer)⟩

/-- A program all of whose requests leave a control point alone ends there. -/
theorem Conforms.of_uses {allowed : I.Op → Prop} {program : Program I Value}
    {control : protocol.Control} (uses : Uses allowed program)
    (stays : ∀ op answer, allowed op → protocol.Advance control op answer control) :
    Conforms protocol program control fun _ after => after = control := by
  induction program with
  | pure value => rfl
  | request op next ih =>
      intro answer
      exact ⟨control, stays op answer uses.1, ih answer (uses.2 answer)⟩

end

section

variable {I : Interface} {Error Value Result : Type} {protocol : Protocol I}

/-- Split a postcondition over the two outcomes of a fallible program. -/
def Outcome (ok : Value → protocol.Control → Prop) (failed : Error → protocol.Control → Prop) :
    Except Error Value → protocol.Control → Prop
  | .ok value, control => ok value control
  | .error error, control => failed error control

/-- Conformance of a fallible program, with one postcondition for each outcome. -/
def Meets (protocol : Protocol I) (program : Fallible I Error Value)
    (control : protocol.Control) (ok : Value → protocol.Control → Prop)
    (failed : Error → protocol.Control → Prop) : Prop :=
  Conforms protocol program.run control (Outcome ok failed)

namespace Meets

variable {control : protocol.Control} {ok : Value → protocol.Control → Prop}
  {failed : Error → protocol.Control → Prop} {program : Fallible I Error Value}

theorem mono {weakOk : Value → protocol.Control → Prop}
    {weakFailed : Error → protocol.Control → Prop}
    (meets : Meets protocol program control ok failed)
    (onOk : ∀ value after, ok value after → weakOk value after)
    (onFailed : ∀ error after, failed error after → weakFailed error after) :
    Meets protocol program control weakOk weakFailed := by
  refine Conforms.mono meets ?_
  intro outcome after reached
  cases outcome with
  | ok value => exact onOk value after reached
  | error error => exact onFailed error after reached

theorem pure {value : Value} (done : ok value control) :
    Meets protocol (Pure.pure value : Fallible I Error Value) control ok failed := done

theorem throw {error : Error} (done : failed error control) :
    Meets protocol (MonadExcept.throw error : Fallible I Error Value) control ok failed :=
  done

theorem bind {rest : Value → Fallible I Error Result}
    {okAfter : Result → protocol.Control → Prop}
    (meets : Meets protocol program control
      (fun value after => Meets protocol (rest value) after okAfter failed) failed) :
    Meets protocol (program >>= rest) control okAfter failed := by
  refine Conforms.bind (Conforms.mono meets ?_)
  intro outcome after reached
  cases outcome with
  | ok value => exact reached
  | error error => exact reached

theorem map {transform : Value → Result} {okAfter : Result → protocol.Control → Prop}
    (meets : Meets protocol program control ok failed)
    (transformed : ∀ value after, ok value after → okAfter (transform value) after) :
    Meets protocol (transform <$> program) control okAfter failed := by
  refine Conforms.bind (Conforms.mono meets ?_)
  intro outcome after reached
  cases outcome with
  | ok value => exact transformed value after reached
  | error error => exact reached

theorem attempt {okAfter : Except Error Value → protocol.Control → Prop}
    (meets : Meets protocol program control (fun value after => okAfter (.ok value) after)
      fun error after => okAfter (.error error) after) :
    Meets protocol program.attempt control okAfter failed := by
  refine Conforms.bind (Conforms.mono meets ?_)
  intro outcome after reached
  cases outcome with
  | ok value => exact reached
  | error error => exact reached

theorem andFinally {cleanup : Program I Unit}
    (meets : Meets protocol program control
      (fun value after => Conforms protocol cleanup after fun _ final => ok value final)
      fun error after => Conforms protocol cleanup after fun _ final => failed error final) :
    Meets protocol (program.andFinally cleanup) control ok failed := by
  refine Conforms.bind (Conforms.mono meets ?_)
  intro outcome after reached
  refine Conforms.bind ?_
  cases outcome with
  | ok value => exact reached
  | error error => exact reached

theorem orElseDo {cleanup : Program I Unit}
    (meets : Meets protocol program control ok
      fun error after => Conforms protocol cleanup after fun _ final => failed error final) :
    Meets protocol (program.orElseDo cleanup) control ok failed := by
  refine Conforms.bind (Conforms.mono meets ?_)
  intro outcome after reached
  cases outcome with
  | ok value => exact reached
  | error error => exact Conforms.bind reached

/-- A loop whose body keeps a property of the control point keeps it. -/
theorem forEach {Item : Type} {body : Item → Fallible I Error Unit}
    {kept : protocol.Control → Prop} {items : List Item}
    (step : ∀ item ∈ items, ∀ before, kept before →
      Meets protocol (body item) before (fun _ after => kept after) failed)
    (start : kept control) :
    Meets protocol (Fallible.forEach body items) control (fun _ after => kept after) failed := by
  induction items generalizing control with
  | nil => exact Meets.pure start
  | cons item items ih =>
      refine Meets.bind ((step item (List.mem_cons_self) control start).mono ?_ ?_)
      · intro _ after reached
        exact ih (fun next member => step next (List.mem_cons_of_mem item member)) reached
      · exact fun _ _ reached => reached

/-- A program without a control change of its own, in front of the rest. -/
theorem after_quiet {rest : Value → Fallible I Error Result}
    {okAfter : Result → protocol.Control → Prop}
    (stays : Meets protocol program control (fun _ after => after = control)
      fun _ after => after = control)
    (next : ∀ value, Meets protocol (rest value) control okAfter failed)
    (stopped : ∀ error, failed error control) :
    Meets protocol (program >>= rest) control okAfter failed := by
  refine Meets.bind (stays.mono ?_ ?_)
  · rintro value after rfl
    exact next value
  · rintro error after rfl
    exact stopped error

end Meets

end

namespace Fallible

variable {I : Interface} {Error Value Result : Type} {allowed : I.Op → Prop}
  {program : Fallible I Error Value}

/-- Every request of a fallible program is an allowed one. -/
def Uses (allowed : I.Op → Prop) (program : Fallible I Error Value) : Prop :=
  Effect.Uses allowed program.run

namespace Uses

theorem pure {value : Value} : Uses allowed (Pure.pure value : Fallible I Error Value) :=
  trivial

theorem throw {error : Error} :
    Uses allowed (MonadExcept.throw error : Fallible I Error Value) := trivial

theorem bind {rest : Value → Fallible I Error Result} (first : Uses allowed program)
    (second : ∀ value, Uses allowed (rest value)) : Uses allowed (program >>= rest) := by
  refine Effect.Uses.bind first ?_
  intro outcome
  cases outcome with
  | ok value => exact second value
  | error error => trivial

theorem map {transform : Value → Result} (first : Uses allowed program) :
    Uses allowed (transform <$> program) := by
  refine Effect.Uses.bind first ?_
  intro outcome
  cases outcome <;> trivial

theorem attempt (first : Uses allowed program) : Uses allowed program.attempt :=
  Effect.Uses.bind first fun _ => trivial

theorem andFinally {cleanup : Program I Unit} (first : Uses allowed program)
    (second : Effect.Uses allowed cleanup) : Uses allowed (program.andFinally cleanup) :=
  Effect.Uses.bind first fun _ => Effect.Uses.bind second fun _ => trivial

theorem orElseDo {cleanup : Program I Unit} (first : Uses allowed program)
    (second : Effect.Uses allowed cleanup) : Uses allowed (program.orElseDo cleanup) := by
  refine Effect.Uses.bind first ?_
  intro outcome
  cases outcome with
  | ok value => trivial
  | error error => exact Effect.Uses.bind second fun _ => trivial

theorem forEach {Item : Type} {body : Item → Fallible I Error Unit} {items : List Item}
    (step : ∀ item, Uses allowed (body item)) : Uses allowed (Fallible.forEach body items) := by
  induction items with
  | nil => exact Uses.pure
  | cons item items ih => exact Uses.bind (step item) fun _ => ih

theorem mono {wider : I.Op → Prop} (uses : Uses allowed program)
    (implies : ∀ op, allowed op → wider op) : Uses wider program :=
  Effect.Uses.mono uses implies

/-- A program of requests that leave a control point alone stays there. -/
theorem stays {protocol : Protocol I} {control : protocol.Control}
    (uses : Uses allowed program)
    (quiet : ∀ op answer, allowed op → protocol.Advance control op answer control) :
    Meets protocol program control (fun _ after => after = control)
      fun _ after => after = control := by
  refine Conforms.mono (Conforms.of_uses uses quiet) ?_
  rintro outcome after rfl
  cases outcome <;> rfl

end Uses

end Fallible

end Effect
