import Mathlib.Data.List.Nodup

/-! Machines that answer a list of inputs one by one, and when two of them give the same
answers. -/

set_option autoImplicit false

namespace Transcript

variable {State Other Input Output Answer Tag : Type}

section

variable (step : State → Input → Output × State)

def outputs : State → List Input → List Output
  | _, [] => []
  | state, input :: inputs => (step state input).1 :: outputs (step state input).2 inputs

def final : State → List Input → State
  | state, [] => state
  | state, input :: inputs => final (step state input).2 inputs

/-- Every input finds a state that a relation allows. -/
def Throughout (allowed : State → Input → Prop) : State → List Input → Prop
  | _, [] => True
  | state, input :: inputs =>
      allowed state input ∧ Throughout allowed (step state input).2 inputs

end

variable {step : State → Input → Output × State} {allowed : State → Input → Prop}

theorem throughout_iff {state : State} {inputs : List Input} :
    Throughout step allowed state inputs ↔ ∀ before input after,
      inputs = before ++ input :: after → allowed (final step state before) input := by
  induction inputs generalizing state with
  | nil => simp [Throughout]
  | cons first rest ih =>
      rw [Throughout, ih]
      constructor
      · intro ⟨here, later⟩ before input after split
        cases before with
        | nil =>
            obtain ⟨rfl, rfl⟩ := List.cons.inj split
            exact here
        | cons other before =>
            obtain ⟨rfl, rest⟩ := List.cons.inj split
            exact later before input after rest
      · intro all
        constructor
        · exact all [] first rest rfl
        · intro before input after split
          exact all (first :: before) input after (congrArg (first :: ·) split)

theorem Throughout.and {also : State → Input → Prop} {state : State} {inputs : List Input}
    (left : Throughout step allowed state inputs) (right : Throughout step also state inputs) :
    Throughout step (fun state input => allowed state input ∧ also state input) state inputs := by
  induction inputs generalizing state with
  | nil => trivial
  | cons input inputs ih => exact ⟨⟨left.1, right.1⟩, ih left.2 right.2⟩

theorem throughout_of_inputs {good : Input → Prop} {state : State} {inputs : List Input}
    (all : ∀ input ∈ inputs, good input) :
    Throughout step (fun _ input => good input) state inputs := by
  induction inputs generalizing state with
  | nil => trivial
  | cons input inputs ih =>
      exact ⟨all input List.mem_cons_self, ih fun other member =>
        all other (List.mem_cons_of_mem input member)⟩

theorem mem_outputs {state : State} {inputs : List Input} {output : Output}
    (member : output ∈ outputs step state inputs) :
    ∃ reached, ∃ input ∈ inputs, output = (step reached input).1 := by
  induction inputs generalizing state with
  | nil => cases member
  | cons input inputs ih =>
      obtain here | later := List.mem_cons.mp member
      · exact ⟨state, input, List.mem_cons_self, here⟩
      · obtain ⟨reached, other, inside, answer⟩ := ih later
        exact ⟨reached, other, List.mem_cons_of_mem input inside, answer⟩

theorem throughout_of_outputs {good : Output → Prop} {state : State} {inputs : List Input}
    (all : ∀ output ∈ outputs step state inputs, good output) :
    Throughout step (fun state input => good (step state input).1) state inputs := by
  induction inputs generalizing state with
  | nil => trivial
  | cons input inputs ih =>
      exact ⟨all _ List.mem_cons_self, ih fun other member =>
        all other (List.mem_cons_of_mem _ member)⟩

/-- A state that grows by one at most stays within the number of inputs. -/
theorem throughout_of_grows {size : State → Nat}
    (grows : ∀ state input, size (step state input).2 ≤ size state + 1) {limit : Nat}
    {state : State} {inputs : List Input} (room : size state + inputs.length < limit) :
    Throughout step (fun state _ => size state + 1 < limit) state inputs := by
  induction inputs generalizing state with
  | nil => trivial
  | cons input inputs ih =>
      rw [List.length_cons] at room
      have next := grows state input
      exact ⟨by omega, ih (by omega)⟩

/-- Inputs that bring different tags of their own never find their tag used. -/
theorem throughout_of_nodup {tag : Input → Tag} {used : State → List Tag}
    (adds : ∀ state input, used (step state input).2 ⊆ tag input :: used state)
    {state : State} {inputs : List Input} (distinct : (inputs.map tag).Nodup)
    (unused : ∀ input ∈ inputs, tag input ∉ used state) :
    Throughout step (fun state input => tag input ∉ used state) state inputs := by
  induction inputs generalizing state with
  | nil => trivial
  | cons input inputs ih =>
      obtain ⟨new, distinct⟩ := List.nodup_cons.mp distinct
      refine ⟨unused input List.mem_cons_self, ih distinct fun other member taken => ?_⟩
      obtain same | old := List.mem_cons.mp (adds state input taken)
      · exact new (same ▸ List.mem_map_of_mem member)
      · exact unused other (List.mem_cons_of_mem input member) old

/-- Two machines that simulate each other give the same answers exactly if each input is
one to which they answer the same. -/
theorem outputs_map_eq_iff {model : Other → Input → Answer × Other} {view : Output → Answer}
    {related : State → Other → Prop} {permitted agreeing : Other → Input → Prop}
    (simulates : ∀ state other input, related state other → allowed state input →
      permitted other input →
      (view (step state input).1 = (model other input).1 ↔ agreeing other input) ∧
      related (step state input).2 (model other input).2)
    {state : State} {other : Other} {inputs : List Input} (start : related state other)
    (fits : Throughout step allowed state inputs)
    (bounded : Throughout model permitted other inputs) :
    (outputs step state inputs).map view = outputs model other inputs ↔
      Throughout model agreeing other inputs := by
  induction inputs generalizing state other with
  | nil => simp [outputs, Throughout]
  | cons input inputs ih =>
      obtain ⟨agrees, next⟩ := simulates state other input start fits.1 bounded.1
      rw [outputs, outputs, List.map_cons, List.cons.injEq, agrees, ih next fits.2 bounded.2,
        Throughout]

end Transcript
