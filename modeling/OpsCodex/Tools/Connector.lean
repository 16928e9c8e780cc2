import OpsCodex.Effect.Traces
import OpsCodex.Sequence.Boundaries
import OpsCodex.Tools.BoundedReaders

/-! Requests of the connectors: one attempt, what its failure is classified as, and the
attempts after it. -/

set_option autoImplicit false

namespace OpsCodex

def OpsCodexError.retryable (error : OpsCodexError) : Bool := error.connectorClass.retryable

end OpsCodex

namespace OpsCodex.Tools.Connector

open Effect Offsets

structure HttpGet where
  path : String
  query : List (String × String)
  header : Option (String × String)

structure Response where
  status : Nat
  /-- How the status is printed. -/
  statusText : String
  /-- The body as a text, and nothing where it cannot be read. -/
  text : String
  /-- The body as its stream delivers it. -/
  deliveries : List Delivery

/-- What comes of waiting for a response or for the cancellation of the turn. -/
inductive Sent where
  | cancelled
  | failed (error : String)
  | answered (response : Response)

/-- What a connector waits for. -/
inductive Op where
  | isCancelled
  | send (request : HttpGet)
  /-- Whether the turn is cancelled before the time is over. -/
  | sleep (millis : Nat)

abbrev Op.Answer : Op → Type
  | .isCancelled | .sleep _ => Bool
  | .send _ => Sent

def interface : Interface where
  Op := Op
  Answer := Op.Answer

abbrev Call (Value : Type) : Type := Fallible interface OpsCodexError Value

/-- The text, or its beginning and an ellipsis. -/
def truncate (value : List Char) (maxChars : Nat) : List Char :=
  if width Char.utf8Size value ≤ maxChars then value
  -- the cut goes back to the end of a character
  else fitting Char.utf8Size value maxChars ++ ['…']

def statusClass (status : Nat) : ConnectorClass :=
  if status = 401 ∨ status = 403 then .auth
  else if status = 408 then .timeout
  else if status = 429 then .rateLimit
  else if status = 400 ∨ status = 404 ∨ status = 422 then .invalidQuery
  else .unavailable

def httpStatusError (service : String) (response : Response) : OpsCodexError :=
  .connector (statusClass response.status) (s!"{service} returned HTTP {response.statusText}: " ++
    String.ofList (truncate response.text.toList 240))

def isSuccess (status : Nat) : Bool := 200 ≤ status && status < 300

/-- The result of one attempt. -/
def outcome (service : String) (maxOutputBytes : Nat) : Sent → Result (List UInt8 × Bool)
  | .cancelled => .error .cancelled
  | .failed error => .error (.connector .unavailable error)
  | .answered response =>
      if isSuccess response.status then readBoundedBody response.deliveries maxOutputBytes
      else .error (httpStatusError service response)

section Retry

variable {Value : Type}

/-- One attempt: a request and what its answer comes to. -/
def exchange (request : HttpGet) (settle : Sent → Result Value) : Call Value :=
  ExceptT.mk (Program.perform (I := interface) (.send request) >>= fun sent =>
    pure (settle sent))

def delay (attempt : Nat) : Nat := 40 * Nat.pow 2 attempt + attempt * 13

/-- The loop after some attempts, with the number of those that are left after the next. -/
def retryFrom (op : Call Value) : Nat → Nat → Call Value
  | _, 0 => op
  | attempt, remaining + 1 => ExceptT.mk (op.run >>= fun
      | .ok value => pure (.ok value)
      | .error error =>
          if error.retryable then
            Program.perform (I := interface) (.sleep (delay (attempt + 1))) >>=
              fun (cancelled : Bool) =>
                if cancelled then pure (.error .cancelled)
                else (retryFrom op (attempt + 1) remaining).run
          else pure (.error error))

def retryReadonly (maxAttempts : Nat) (op : Call Value) : Call Value :=
  retryFrom op 0 (maxAttempts - 1)

end Retry

/-! ## Runs -/

abbrev Entry : Type := Event interface

/-- The requests of a run with what came of each. -/
def lookups (trace : List Entry) : List (HttpGet × Sent) :=
  trace.filterMap fun
    | ⟨.send request, sent⟩ => some (request, sent)
    | _ => none

/-- What the attempts of a request do, with the pauses that are left: an answer decides
unless it came to a failure that may pass while a pause is left, and the turn may be
cancelled in the pause before the next attempt. -/
inductive Retried {Value : Type} (request : HttpGet) (settle : Sent → Result Value) :
    List Nat → List Entry → Result Value → Prop where
  | decided {pauses sent}
      (final : pauses = [] ∨ ∀ error, settle sent = .error error → error.retryable = false) :
      Retried request settle pauses [⟨.send request, sent⟩] (settle sent)
  | cancelled {millis pauses sent error} (fails : settle sent = .error error)
      (passes : error.retryable = true) :
      Retried request settle (millis :: pauses)
        [⟨.send request, sent⟩, ⟨.sleep millis, true⟩] (.error .cancelled)
  | again {millis pauses sent error trace result} (fails : settle sent = .error error)
      (passes : error.retryable = true)
      (rest : Retried request settle pauses trace result) :
      Retried request settle (millis :: pauses)
        (⟨.send request, sent⟩ :: ⟨.sleep millis, false⟩ :: trace) result

section Runs

variable {Value : Type} {request : HttpGet} {settle : Sent → Result Value}
  {pauses : List Nat} {attempt remaining : Nat} {trace : List Entry} {result : Result Value}

theorem Retried.few (retried : Retried request settle pauses trace result) :
    (lookups trace).length ≤ pauses.length + 1 := by
  induction retried with
  | decided => exact Nat.le_add_left 1 _
  | cancelled => exact Nat.le_add_left 1 _
  | again _ _ _ ih => exact Nat.succ_le_succ ih

theorem Retried.same (retried : Retried request settle pauses trace result) :
    ∀ lookup ∈ lookups trace, lookup.1 = request := by
  induction retried with
  | decided => exact List.forall_mem_cons.mpr ⟨rfl, nofun⟩
  | cancelled => exact List.forall_mem_cons.mpr ⟨rfl, nofun⟩
  | again _ _ _ ih => exact List.forall_mem_cons.mpr ⟨rfl, ih⟩

theorem Retried.lookups_ne_nil (retried : Retried request settle pauses trace result) :
    lookups trace ≠ [] := by
  cases retried <;> exact List.cons_ne_nil _ _

/-- Each request but the last came to a failure that may pass. -/
theorem Retried.passing (retried : Retried request settle pauses trace result) :
    ∀ lookup ∈ (lookups trace).dropLast,
      ∃ error, settle lookup.2 = .error error ∧ error.retryable = true := by
  induction retried with
  | decided => exact nofun
  | cancelled => exact nofun
  | @again millis pauses sent error trace result fails passes rest ih =>
      have split : (lookups (⟨.send request, sent⟩ :: ⟨.sleep millis, false⟩ :: trace)).dropLast =
          (request, sent) :: (lookups trace).dropLast :=
        List.dropLast_cons_of_ne_nil rest.lookups_ne_nil
      rw [split]
      exact List.forall_mem_cons.mpr ⟨⟨error, fails, passes⟩, ih⟩

theorem traces_exchange (runs : Traces (exchange request settle).run trace result) :
    ∃ sent, trace = [⟨.send request, sent⟩] ∧ result = settle sent := by
  obtain ⟨sent, before, after, rfl, first, second⟩ := traces_bind runs
  obtain ⟨rfl, rfl⟩ := traces_pure second
  obtain rfl := traces_perform first
  exact ⟨sent, rfl, rfl⟩

theorem traces_retryFrom
    (runs : Traces (retryFrom (exchange request settle) attempt remaining).run trace result) :
    Retried request settle ((List.range' (attempt + 1) remaining).map delay) trace result := by
  induction remaining generalizing attempt trace with
  | zero =>
      obtain ⟨sent, rfl, rfl⟩ := traces_exchange runs
      exact .decided (.inl rfl)
  | succ remaining ih =>
      obtain ⟨first, before, after, rfl, tried, follows⟩ := traces_bind runs
      obtain ⟨sent, rfl, rfl⟩ := traces_exchange tried
      cases settled : settle sent with
      | ok value =>
          rw [settled] at follows
          obtain ⟨rfl, rfl⟩ := traces_pure follows
          rw [← settled]
          refine .decided (.inr fun error failed => ?_)
          rw [settled] at failed
          cases failed
      | error error =>
          rw [settled] at follows
          dsimp only at follows
          split at follows
          · rename_i passes
            obtain ⟨cancelled, slept, rest, rfl, sleeps, goes⟩ := traces_bind follows
            obtain rfl := traces_perform sleeps
            cases cancelled with
            | true =>
                rw [if_pos rfl] at goes
                obtain ⟨rfl, rfl⟩ := traces_pure goes
                exact .cancelled settled passes
            | false =>
                rw [if_neg Bool.false_ne_true] at goes
                exact .again settled passes (ih goes)
          · rename_i stays
            obtain ⟨rfl, rfl⟩ := traces_pure follows
            rw [← settled]
            refine .decided (.inr fun other failed => ?_)
            rw [settled, Except.error.injEq] at failed
            rw [← failed]
            exact (Bool.not_eq_true _).mp stays

end Runs

end OpsCodex.Tools.Connector
