/-! Readers that take a value off the front of a text, and the symbols that end what they read. -/

set_option autoImplicit false

namespace Reading

/-- A value and what is left of the text. A reader that fails takes nothing. -/
abbrev Reader (Symbol Value : Type) := StateT (List Symbol) Option Value

section

variable {Symbol Value Other : Type}

/-- Reads a value if there is one. -/
def attempt (reader : Reader Symbol Value) : Reader Symbol (Option Value) := fun text =>
  match reader text with
  | some (value, left) => some (some value, left)
  | none => some (none, text)

/-- A value that is the whole text. -/
def whole (reader : Reader Symbol Value) (text : List Symbol) : Option Value :=
  match reader text with
  | some (value, []) => some value
  | _ => none

/-- Behind a text, a symbol that stops the reader and what follows it are left alone, both where
the reader succeeds and where it fails. -/
def StopsAt (stops : Symbol → Prop) (reader : Reader Symbol Value) : Prop :=
  ∀ text symbol rest, stops symbol →
    reader (text ++ symbol :: rest) =
      (reader text).map fun read => (read.1, read.2 ++ symbol :: rest)

variable {stops : Symbol → Prop} {reader : Reader Symbol Value}

theorem whole_eq_some {text : List Symbol} {value : Value} (read : whole reader text = some value) :
    reader text = some (value, []) := by
  unfold whole at read
  split at read
  · rename_i found
    cases read
    exact found
  · cases read

theorem whole_of_eq_some {text : List Symbol} {value : Value}
    (read : reader text = some (value, [])) : whole reader text = some value := by
  rw [whole, read]

theorem whole_of_eq_none {text : List Symbol} (failed : reader text = none) :
    whole reader text = none := by
  rw [whole, failed]

theorem StopsAt.eq_some (stopsAt : StopsAt stops reader) {text left : List Symbol} {value : Value}
    (read : reader text = some (value, left)) {symbol : Symbol} (stop : stops symbol)
    (rest : List Symbol) :
    reader (text ++ symbol :: rest) = some (value, left ++ symbol :: rest) := by
  rw [stopsAt text symbol rest stop, read]
  rfl

theorem StopsAt.eq_none (stopsAt : StopsAt stops reader) {text : List Symbol}
    (failed : reader text = none) {symbol : Symbol} (stop : stops symbol) (rest : List Symbol) :
    reader (text ++ symbol :: rest) = none := by
  rw [stopsAt text symbol rest stop, failed]
  rfl

theorem StopsAt.pure (value : Value) :
    StopsAt stops (Pure.pure value : Reader Symbol Value) :=
  fun _ _ _ _ => rfl

theorem StopsAt.lift_none :
    StopsAt stops (StateT.lift none : Reader Symbol Value) :=
  fun _ _ _ _ => rfl

theorem StopsAt.ite {condition : Prop} [Decidable condition] {other : Reader Symbol Value}
    (first : StopsAt stops reader) (second : StopsAt stops other) :
    StopsAt stops (if condition then reader else other) := by
  split
  · exact first
  · exact second

theorem StopsAt.bind {next : Value → Reader Symbol Other} (first : StopsAt stops reader)
    (second : ∀ value, StopsAt stops (next value)) : StopsAt stops (reader >>= next) := by
  intro text symbol rest stop
  have unfolded (text : List Symbol) :
      (reader >>= next) text = (reader text).bind fun read => next read.1 read.2 := rfl
  rw [unfolded, unfolded, first text symbol rest stop]
  cases reader text with
  | none => rfl
  | some read => exact second read.1 read.2 symbol rest stop

theorem StopsAt.attempt (stopsAt : StopsAt stops reader) : StopsAt stops (attempt reader) := by
  intro text symbol rest stop
  unfold Reading.attempt
  rw [stopsAt text symbol rest stop]
  cases reader text with
  | none => rfl
  | some read => rfl

theorem bind_eq_some {next : Value → Reader Symbol Other} {text left : List Symbol} {value : Value}
    (read : reader text = some (value, left)) : (reader >>= next) text = next value left := by
  have unfolded : (reader >>= next) text = (reader text).bind fun read => next read.1 read.2 := rfl
  rw [unfolded, read]
  rfl

theorem bind_eq_none {next : Value → Reader Symbol Other} {text : List Symbol}
    (failed : reader text = none) : (reader >>= next) text = none := by
  have unfolded : (reader >>= next) text = (reader text).bind fun read => next read.1 read.2 := rfl
  rw [unfolded, failed]
  rfl

theorem attempt_of_some {text left : List Symbol} {value : Value}
    (read : reader text = some (value, left)) : attempt reader text = some (some value, left) := by
  rw [attempt, read]

theorem attempt_of_none {text : List Symbol} (failed : reader text = none) :
    attempt reader text = some (none, text) := by
  rw [attempt, failed]

end

end Reading
