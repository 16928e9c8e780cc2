import OpsCodex.Sequence.Transcript
import OpsCodex.Web.Reducer

/-! When the view of the web client agrees with the log although answers to actions are
applied to it before their events arrive. -/

set_option autoImplicit false

namespace OpsCodex.Web

open OpsCodex.Json Transcript

/-- The view, and the number that each pending callback has captured. -/
structure View where
  state : OpsState
  captured : Nat → Option Nat

inductive Input where
  | deliver (event : NormalizedEvent)
  | capture (request : Nat)
  | respond (request : Nat) (record : Fields)

def reviewOf (record : Fields) : Value :=
  match record.lookup "review" with
  | some (.object review) => .object review
  | _ => .object record

/-- The event that `applyActionRecord` dispatches for the answer to an action. -/
def actionRecordEvent (string : Value → String) (record : Fields) (seq : Nat) :
    NormalizedEvent where
  seq := seq
  threadId :=
    ((coalesce [record.lookup "thread_id", record.lookup "threadId", some (.string "")]).map
      string).getD ""
  turnId := none
  timestamp := none
  type := .actionUpdated
  data :=
    [("action_id", coalesce [record.lookup "action_id", record.lookup "actionId"]),
      ("plan_id", coalesce [record.lookup "plan_id", record.lookup "planId"]),
      ("status", record.lookup "status"),
      ("tool", coalesce [record.lookup "tool_id", record.lookup "tool"]),
      ("request_hash", coalesce [record.lookup "request_hash", record.lookup "requestHash"]),
      ("review", some (reviewOf record))].filterMap fun field =>
        field.2.map fun value => (field.1, value)

section

variable (string : Value → String)

/-- One input, and whether it is an event that is dropped. -/
def step (view : View) : Input → Bool × View
  | .deliver event =>
      (isDropped view.state event, { view with state := applyRuntimeEvent view.state event })
  | .capture request =>
      (false, { view with captured := fun other =>
        if other = request then some view.state.lastSeq else view.captured other })
  | .respond request record =>
      match view.captured request with
      | none => (false, view)
      | some captured =>
          (false, { view with
            state := applyRuntimeEvent view.state
              (actionRecordEvent string record (captured + 1)) })

def deliveries : List Input → List NormalizedEvent
  | [] => []
  | .deliver event :: inputs => event :: deliveries inputs
  | _ :: inputs => deliveries inputs

/-- The events carry the numbers that follow in turn. -/
def NumberedFrom : Nat → List NormalizedEvent → Prop
  | _, [] => True
  | last, event :: events => event.seq = last + 1 ∧ NumberedFrom (last + 1) events

/-- A delivered event is not dropped. -/
def Accepted (view : View) : Input → Prop
  | .deliver event => isDropped view.state event = false
  | _ => True

/-- An answer comes after an event that its callback had not seen. -/
def Late (view : View) : Input → Prop
  | .respond request _ => ∀ captured, view.captured request = some captured →
      captured < view.state.lastSeq
  | _ => True

end

section

variable {string : Value → String} {view : View} {inputs : List Input}

theorem step_respond_none {request : Nat} {record : Fields}
    (unknown : view.captured request = none) :
    step string view (.respond request record) = (false, view) := by
  simp only [step, unknown]

theorem step_respond_some {request captured : Nat} {record : Fields}
    (known : view.captured request = some captured) :
    step string view (.respond request record) = (false, { view with
      state := applyRuntimeEvent view.state
        (actionRecordEvent string record (captured + 1)) }) := by
  simp only [step, known]

/-- The number that the view has passed never goes back. -/
theorem lastSeq_step (string : Value → String) (view : View) (input : Input) :
    view.state.lastSeq ≤ (step string view input).2.state.lastSeq := by
  have grows : ∀ event, view.state.lastSeq ≤ (applyRuntimeEvent view.state event).lastSeq := by
    intro event
    rw [lastSeq_applyRuntimeEvent]
    exact Nat.le_max_left _ _
  cases input with
  | deliver event => exact grows event
  | capture request => exact Nat.le_refl _
  | respond request record =>
      cases known : view.captured request with
      | none =>
          simp only [step_respond_none known, Nat.le_refl]
      | some captured =>
          rw [step_respond_some known]
          exact grows _

/-- No callback has captured a number that the view has not reached. -/
def Seen (view : View) : Prop :=
  ∀ request captured, view.captured request = some captured → captured ≤ view.state.lastSeq

theorem Seen.step (seen : Seen view) (input : Input) : Seen (step string view input).2 := by
  intro other captured held
  have grows := lastSeq_step string view input
  cases input with
  | deliver event => exact Nat.le_trans (seen other captured held) grows
  | capture request =>
      simp only [Web.step] at held
      split at held
      · cases held
        exact grows
      · exact Nat.le_trans (seen other captured held) grows
  | respond request record =>
      cases known : view.captured request with
      | none =>
          rw [step_respond_none known] at held ⊢
          exact seen other captured held
      | some number =>
          rw [step_respond_some known] at held
          exact Nat.le_trans (seen other captured held) grows

/-- A late answer changes nothing. -/
theorem step_late (string : Value → String) {request : Nat} {record : Fields}
    (late : Late view (.respond request record)) :
    (step string view (.respond request record)).2 = view := by
  cases known : view.captured request with
  | none => rw [step_respond_none known]
  | some captured =>
      have passed :
          isDropped view.state (actionRecordEvent string record (captured + 1)) = true := by
        simp only [isDropped, actionRecordEvent, Nat.succ_pos, decide_true, Bool.true_and]
        exact decide_eq_true (late captured known)
      rw [step_respond_some known, applyRuntimeEvent_dropped passed]

/-- An answer that is not late takes the number of the next event. -/
theorem lastSeq_step_early (string : Value → String) {request : Nat} {record : Fields}
    (seen : Seen view) (early : ¬ Late view (.respond request record)) :
    view.state.lastSeq < (step string view (.respond request record)).2.state.lastSeq := by
  simp only [Late, not_forall, Nat.not_lt] at early
  obtain ⟨captured, known, current⟩ := early
  have now : captured = view.state.lastSeq := Nat.le_antisymm (seen request captured known) current
  rw [step_respond_some known, lastSeq_applyRuntimeEvent, now]
  exact Nat.lt_of_lt_of_le (Nat.lt_succ_self _) (Nat.le_max_right _ _)

theorem lastSeq_foldl {state : OpsState} {events : List NormalizedEvent}
    (numbered : NumberedFrom state.lastSeq events) :
    (events.foldl applyRuntimeEvent state).lastSeq = state.lastSeq + events.length := by
  induction events generalizing state with
  | nil => rfl
  | cons event events ih =>
      have next : (applyRuntimeEvent state event).lastSeq = state.lastSeq + 1 := by
        rw [lastSeq_applyRuntimeEvent, numbered.1]
        exact Nat.max_eq_right (Nat.le_succ _)
      have rest : NumberedFrom (applyRuntimeEvent state event).lastSeq events := by
        rw [next]
        exact numbered.2
      rw [List.foldl_cons, ih rest, next, List.length_cons]
      omega

/-- When all answers come late, the view is what the log alone makes of it. -/
theorem final_of_late (numbered : NumberedFrom view.state.lastSeq (deliveries inputs))
    (late : Throughout (step string) Late view inputs) :
    (final (step string) view inputs).state =
        (deliveries inputs).foldl applyRuntimeEvent view.state ∧
      Throughout (step string) Accepted view inputs := by
  induction inputs generalizing view with
  | nil => exact ⟨rfl, trivial⟩
  | cons input inputs ih =>
      cases input with
      | deliver event =>
          have next : (applyRuntimeEvent view.state event).lastSeq = view.state.lastSeq + 1 := by
            rw [lastSeq_applyRuntimeEvent, numbered.1]
            exact Nat.max_eq_right (Nat.le_succ _)
          have rest : NumberedFrom (step string view (.deliver event)).2.state.lastSeq
              (deliveries inputs) := by
            simp only [step, next]
            exact numbered.2
          have fresh : isDropped view.state event = false := by
            simp only [isDropped, numbered.1, Bool.and_eq_false_iff, decide_eq_false_iff_not,
              Nat.not_le]
            exact .inr (Nat.lt_succ_self _)
          obtain ⟨same, accepted⟩ := ih rest late.2
          exact ⟨same, fresh, accepted⟩
      | capture request =>
          obtain ⟨same, accepted⟩ := @ih (step string view (.capture request)).2 numbered late.2
          exact ⟨same, trivial, accepted⟩
      | respond request record =>
          have still := step_late string late.1
          have later := late.2
          rw [still] at later
          obtain ⟨same, accepted⟩ := ih numbered later
          refine ⟨?_, trivial, ?_⟩
          · rw [final, still]
            exact same
          · rw [still]
            exact accepted

/-- A view that is ahead of the log drops its next event, or stays ahead of it. -/
theorem ahead {last : Nat} (beyond : last < view.state.lastSeq)
    (numbered : NumberedFrom last (deliveries inputs))
    (accepted : Throughout (step string) Accepted view inputs) :
    deliveries inputs = [] ∧ last < (final (step string) view inputs).state.lastSeq := by
  induction inputs generalizing view with
  | nil => exact ⟨rfl, beyond⟩
  | cons input inputs ih =>
      have further := Nat.lt_of_lt_of_le beyond (lastSeq_step string view input)
      cases input with
      | deliver event =>
          have fresh : isDropped view.state event = false := accepted.1
          simp only [isDropped, numbered.1, Nat.succ_pos, decide_true, Bool.true_and,
            decide_eq_false_iff_not] at fresh
          exact absurd beyond fresh
      | capture request => exact ih further numbered accepted.2
      | respond request record => exact ih further numbered accepted.2

/-- A view that follows the log has only taken late answers. -/
theorem late_of_final (seen : Seen view)
    (numbered : NumberedFrom view.state.lastSeq (deliveries inputs))
    (accepted : Throughout (step string) Accepted view inputs)
    (same : (final (step string) view inputs).state.lastSeq =
      view.state.lastSeq + (deliveries inputs).length) :
    Throughout (step string) Late view inputs := by
  induction inputs generalizing view with
  | nil => trivial
  | cons input inputs ih =>
      cases input with
      | deliver event =>
          have next : (step string view (.deliver event)).2.state.lastSeq =
              view.state.lastSeq + 1 := by
            simp only [step, lastSeq_applyRuntimeEvent, numbered.1]
            exact Nat.max_eq_right (Nat.le_succ _)
          refine ⟨trivial, ih (seen.step _) ?_ accepted.2 ?_⟩
          · rw [next]
            exact numbered.2
          · rw [next]
            refine same.trans ?_
            simp only [deliveries, List.length_cons]
            omega
      | capture request => exact ⟨trivial, ih (seen.step _) numbered accepted.2 same⟩
      | respond request record =>
          by_cases late : Late view (.respond request record)
          · have still := step_late string late
            have later := accepted.2
            rw [still] at later
            rw [final, still] at same
            refine ⟨late, ?_⟩
            rw [still]
            exact ih seen numbered later same
          · have beyond := lastSeq_step_early string seen late
            have rest : NumberedFrom view.state.lastSeq (deliveries inputs) := numbered
            obtain ⟨none, further⟩ := ahead beyond rest accepted.2
            simp only [final, deliveries, none, List.length_nil, Nat.add_zero] at same
            exact absurd same (Nat.ne_of_gt further)

end

/-- The view converges to the log exactly when every answer to an action is applied after
an event that its callback had not seen. -/
theorem converges_iff (string : Value → String) (start : OpsState) (inputs : List Input)
    (numbered : NumberedFrom start.lastSeq (deliveries inputs)) :
    ((final (step string) ⟨start, fun _ => none⟩ inputs).state.items =
          ((deliveries inputs).foldl applyRuntimeEvent start).items ∧
        (final (step string) ⟨start, fun _ => none⟩ inputs).state.lastSeq =
          ((deliveries inputs).foldl applyRuntimeEvent start).lastSeq ∧
        Throughout (step string) Accepted ⟨start, fun _ => none⟩ inputs) ↔
      Throughout (step string) Late ⟨start, fun _ => none⟩ inputs := by
  constructor
  · rintro ⟨-, same, accepted⟩
    have seen : Seen ⟨start, fun _ => none⟩ := by
      intro request captured held
      cases held
    exact late_of_final seen numbered accepted (same.trans (lastSeq_foldl numbered))
  · intro late
    obtain ⟨same, accepted⟩ := final_of_late numbered late
    exact ⟨congrArg OpsState.items same, congrArg OpsState.lastSeq same, accepted⟩

namespace Demo

def start : OpsState where
  threads := []
  activeThreadId := none
  activeTurnId := none
  items := []
  turnStatus := .idle
  lastSeq := 0
  error := none
  clientUpgradeHint := none

def created : NormalizedEvent where
  seq := 1
  threadId := "t"
  turnId := none
  timestamp := none
  type := .threadCreated
  data := []

def asked : NormalizedEvent where
  seq := 2
  threadId := "t"
  turnId := some "u"
  timestamp := none
  type := .userMessage
  data := [("content", .string "why is it slow"), ("message_id", .string "m")]

def record : Fields := [("action_id", .string "a"), ("status", .string "awaiting_approval")]

end Demo

theorem converges_iff_late :
    (final (step fun _ => "t") ⟨Demo.start, fun _ => none⟩ [.deliver Demo.created, .capture 0,
      .deliver Demo.asked, .respond 0 Demo.record]).state.items =
        ([Demo.created, Demo.asked].foldl applyRuntimeEvent Demo.start).items :=
  ((converges_iff (fun _ => "t") Demo.start [.deliver Demo.created, .capture 0, .deliver Demo.asked,
    .respond 0 Demo.record] ⟨rfl, rfl, trivial⟩).mpr ⟨trivial, trivial, trivial,
      fun captured held => by cases held; exact Nat.lt_succ_self 1, trivial⟩).1

/-- The answer to an action takes the number of the message that the log has next, and the
message is dropped. -/
theorem not_converges :
    (final (step fun _ => "t") ⟨Demo.start, fun _ => none⟩ [.deliver Demo.created, .capture 0,
        .respond 0 Demo.record, .deliver Demo.asked]).state.items.map TimelineItem.id =
          ["action:a"] ∧
      ([Demo.created, Demo.asked].foldl applyRuntimeEvent Demo.start).items.map
        TimelineItem.id = ["m"] := by
  constructor
  · decide +kernel
  · decide +kernel

end OpsCodex.Web
