import OpsCodex.Runtime.Service
import OpsCodex.Sequence.FirstSeen

/-! What the stream of the model provider accumulates to: one message and the tool calls. -/

set_option autoImplicit false

namespace OpsCodex.Model

open OpsCodex.Json OpsCodex.Runtime Sequence

structure Usage where
  inputTokens : UInt64
  outputTokens : UInt64
  totalTokens : UInt64
  deriving DecidableEq, Repr

structure ModelResponse where
  outputs : List ModelOutput
  responseId : Option String
  usage : Usage

structure ResponseState where
  message : String
  outputs : List ModelOutput
  responseId : Option String
  usage : Usage

/-- `value[key]`, which is null where there is no such field. -/
def index (value : Value) (key : String) : Value := (value.get? key).getD .null

def Usage.none : Usage where
  inputTokens := 0
  outputTokens := 0
  totalTokens := 0

/-- The numbers of a usage, by their names or as a sequence. -/
def usageFields : Value → Value × Value × Value
  | .array [inputTokens, outputTokens, totalTokens] => (inputTokens, outputTokens, totalTokens)
  | value => (index value "input_tokens", index value "output_tokens", index value "total_tokens")

def usageOf (value : Value) : Usage :=
  let (inputTokens, outputTokens, totalTokens) := usageFields value
  match inputTokens.asU64?, outputTokens.asU64?, totalTokens.asU64? with
  | some inputTokens, some outputTokens, some totalTokens =>
      { inputTokens := inputTokens, outputTokens := outputTokens, totalTokens := totalTokens }
  | _, _, _ => Usage.none

namespace ResponseState

def initial : ResponseState where
  message := ""
  outputs := []
  responseId := none
  usage := Usage.none

def isCall (callId : String) : ModelOutput → Bool
  | .toolCall other _ _ => decide (other = callId)
  | .message _ => false

def typeOf (value : Value) : String := (index value "type").asStr?.getD ""

section

variable (fromStr : String → Option Value)

def argumentsOf (item : Value) : Value :=
  ((index item "arguments").asStr?.bind fromStr).getD .null

def pushToolCall (state : ResponseState) (item : Value) : ResponseState :=
  match (index item "call_id").asStr? with
  | none => state
  | some callId =>
      if state.outputs.any (isCall callId) then state
      else { state with outputs := state.outputs ++ [.toolCall callId
          ((index item "name").asStr?.getD "") (argumentsOf fromStr item)] }

def pushText (state : ResponseState) (part : Value) : ResponseState :=
  match (index part "text").asStr? with
  | some text => { state with message := state.message ++ text }
  | none => state

def consumeOutput (state : ResponseState) (item : Value) : ResponseState :=
  if typeOf item = "function_call" then pushToolCall fromStr state item else state

def consumeCompletedItem (state : ResponseState) (item : Value) : ResponseState :=
  if typeOf item = "function_call" then pushToolCall fromStr state item
  else if state.message = "" ∧ typeOf item = "message" then
    match index item "content" with
    | .array parts => parts.foldl pushText state
    | _ => state
  else state

def completedItems (response : Value) : List Value :=
  match index response "output" with
  | .array items => items
  | _ => []

def consumeCompleted (state : ResponseState) (response : Value) : ResponseState :=
  (completedItems response).foldl (consumeCompletedItem fromStr)
    { state with
      responseId := (index response "id").asStr?
      usage := usageOf (index response "usage") }

def failureMessage (event : Value) : String :=
  ((event.pointer? ["error", "message"] <|> event.pointer? ["response", "error", "message"] <|>
    event.pointer? ["response", "incomplete_details", "reason"] <|>
    event.get? "message").bind Value.asStr?).getD "OpenAI Responses API failed"

/-- The text that an event forwards to the sink. -/
def textDelta (event : Value) : Option String :=
  if typeOf event = "response.output_text.delta" then (index event "delta").asStr? else none

def consume (state : ResponseState) (event : Value) : Result (ResponseState × Option String) :=
  match typeOf event with
  | "response.output_text.delta" =>
      match (index event "delta").asStr? with
      | some delta => .ok ({ state with message := state.message ++ delta }, some delta)
      | none => .ok (state, none)
  | "response.output_item.done" => .ok (consumeOutput fromStr state (index event "item"), none)
  | "response.completed" => .ok (consumeCompleted fromStr state (index event "response"), none)
  | "error" | "response.failed" | "response.incomplete" => .error (.model (failureMessage event))
  | _ => .ok (state, none)

/-- Consume the events of a stream, and collect what is forwarded to the sink. -/
def consumeAll : ResponseState → List Value → Result (ResponseState × List String)
  | state, [] => .ok (state, [])
  | state, event :: events => do
      let (state, sent) ← consume fromStr state event
      let (state, later) ← consumeAll state events
      return (state, sent.toList ++ later)

end

def finish (state : ResponseState) : ModelResponse where
  outputs :=
    if state.message = "" then state.outputs else .message state.message :: state.outputs
  responseId := state.responseId
  usage := state.usage

/-- A tool call as an item of the stream gives it. -/
structure ToolCall where
  callId : String
  name : String
  arguments : Value

def ToolCall.output (call : ToolCall) : ModelOutput :=
  .toolCall call.callId call.name call.arguments

/-- The items that an event carries. -/
def itemsOf (event : Value) : List Value :=
  if typeOf event = "response.output_item.done" then [index event "item"]
  else if typeOf event = "response.completed" then completedItems (index event "response")
  else []

section

variable (fromStr : String → Option Value)

def callOf (item : Value) : Option ToolCall :=
  if typeOf item = "function_call" then
    (index item "call_id").asStr?.map fun callId =>
      { callId := callId
        name := (index item "name").asStr?.getD ""
        arguments := argumentsOf fromStr item }
  else none

/-- The tool calls of a stream, as often as they appear in it. -/
def appearances (events : List Value) : List ToolCall :=
  (events.flatMap itemsOf).filterMap (callOf fromStr)

end

section

variable {fromStr : String → Option Value} {state after : ResponseState} {calls : List ToolCall}
  {item event : Value} {events : List Value} {sent : Option String}

/-- The outputs of a state are the calls that have been seen, each as it appeared first. -/
def Holds (state : ResponseState) (calls : List ToolCall) : Prop :=
  state.outputs = (firstSeen ToolCall.callId calls).map ToolCall.output

theorem any_isCall (kept : List ToolCall) (callId : String) :
    (kept.map ToolCall.output).any (isCall callId) =
      decide (callId ∈ kept.map ToolCall.callId) := by
  induction kept with
  | nil => rfl
  | cons call kept ih =>
      rw [List.map_cons, List.any_cons, ih, List.map_cons]
      simp only [ToolCall.output, isCall, List.mem_cons, Bool.decide_or, eq_comm]

theorem Holds.push (holds : Holds state calls) (call : typeOf item = "function_call") :
    Holds (pushToolCall fromStr state item) (calls ++ (callOf fromStr item).toList) := by
  rw [callOf, if_pos call, pushToolCall]
  cases found : (index item "call_id").asStr? with
  | none => simpa using holds
  | some callId =>
      simp only [Option.map_some, Option.toList_some]
      have own : state.outputs = (firstSeen ToolCall.callId calls).map ToolCall.output := holds
      rw [Holds, firstSeen_snoc, own, any_isCall]
      by_cases seen : callId ∈ calls.map ToolCall.callId
      · simpa only [seen, mem_keys_firstSeen, decide_true, if_true] using own
      · simp only [seen, mem_keys_firstSeen, decide_false, Bool.false_eq_true, if_false,
          List.map_append]
        rfl

variable (fromStr) in
theorem Holds.consumeOutput (holds : Holds state calls) (item : Value) :
    Holds (consumeOutput fromStr state item) (calls ++ (callOf fromStr item).toList) := by
  unfold ResponseState.consumeOutput
  split
  · rename_i call
    exact holds.push call
  · rename_i other
    simpa [callOf, other] using holds

theorem outputs_pushText (parts : List Value) :
    (parts.foldl pushText state).outputs = state.outputs := by
  induction parts generalizing state with
  | nil => rfl
  | cons part parts ih =>
      rw [List.foldl_cons, ih, pushText]
      split
      · rfl
      · rfl

variable (fromStr) in
theorem Holds.consumeCompletedItem (holds : Holds state calls) (item : Value) :
    Holds (consumeCompletedItem fromStr state item) (calls ++ (callOf fromStr item).toList) := by
  unfold ResponseState.consumeCompletedItem
  split
  · rename_i call
    exact holds.push call
  · rename_i other
    have none' : callOf fromStr item = none := if_neg other
    rw [none', Option.toList_none, List.append_nil]
    split
    · split
      · exact (outputs_pushText _).trans holds
      · exact holds
    · exact holds

variable (fromStr) in
theorem Holds.foldl_consumeCompletedItem (holds : Holds state calls) (items : List Value) :
    Holds (items.foldl (ResponseState.consumeCompletedItem fromStr) state)
      (calls ++ items.filterMap (callOf fromStr)) := by
  induction items generalizing state calls with
  | nil => simpa using holds
  | cons item items ih =>
      have next := ih (holds.consumeCompletedItem fromStr item)
      cases found : callOf fromStr item with
      | none => simpa [found] using next
      | some call => simpa [found] using next

theorem message_pushToolCall : (pushToolCall fromStr state item).message = state.message := by
  unfold pushToolCall
  split
  · rfl
  · split
    · rfl
    · rfl

/-- A message that is there is not touched by the end of the response. -/
theorem message_foldl_consumeCompletedItem (items : List Value) (some' : state.message ≠ "") :
    (items.foldl (consumeCompletedItem fromStr) state).message = state.message := by
  induction items generalizing state with
  | nil => rfl
  | cons item items ih =>
      have same : (consumeCompletedItem fromStr state item).message = state.message := by
        unfold consumeCompletedItem
        split
        · exact message_pushToolCall
        · rw [if_neg (fun both => some' both.1)]
      rw [List.foldl_cons, ih (same ▸ some'), same]

/-- What one event does to a state. -/
structure Consumed (fromStr : String → Option Value) (state : ResponseState) (event : Value)
    (after : ResponseState) (sent : Option String) : Prop where
  forwards : sent = textDelta event
  holds : ∀ calls, Holds state calls → Holds after (calls ++ appearances fromStr [event])
  message : typeOf event ≠ "response.completed" →
    after.message = state.message ++ sent.getD ""
  completed : typeOf event = "response.completed" → state.message ≠ "" →
    after.message = state.message

theorem consume_consumed (consumed : consume fromStr state event = .ok (after, sent)) :
    Consumed fromStr state event after sent := by
  unfold consume at consumed
  split at consumed
  case h_1 delta =>
    have other : ¬ typeOf event = "response.completed" := by rw [delta]; decide
    have nothing : appearances fromStr [event] = [] := by simp [appearances, itemsOf, delta]
    split at consumed
    · rename_i text found
      cases consumed
      refine ⟨?_, ?_, ?_, ?_⟩
      · simp [textDelta, delta, found]
      · intro calls holds
        rw [nothing, List.append_nil]
        exact holds
      · exact fun _ => rfl
      · exact fun same => absurd same other
    · rename_i found
      cases consumed
      refine ⟨?_, ?_, ?_, ?_⟩
      · simp [textDelta, delta, found]
      · intro calls holds
        simpa [nothing] using holds
      · simp
      · exact fun same => absurd same other
  case h_2 done =>
    cases consumed
    have other : ¬ typeOf event = "response.completed" := by rw [done]; decide
    refine ⟨by simp [textDelta, done], ?_, fun _ => ?_, fun same => absurd same other⟩
    · intro calls holds
      have next := holds.consumeOutput fromStr (index event "item")
      cases found : callOf fromStr (index event "item") with
      | none => simpa [appearances, itemsOf, done, found] using next
      | some call => simpa [appearances, itemsOf, done, found] using next
    · rw [consumeOutput]
      split
      · simp [message_pushToolCall]
      · simp
  case h_3 completed =>
    cases consumed
    refine ⟨by simp [textDelta, completed], ?_, fun other => absurd completed other, ?_⟩
    · intro calls holds
      have start : Holds { state with
          responseId := (index (index event "response") "id").asStr?
          usage := usageOf (index (index event "response") "usage") } calls := holds
      have next := start.foldl_consumeCompletedItem fromStr
        (completedItems (index event "response"))
      simpa [appearances, itemsOf, completed, consumeCompleted] using next
    · exact fun _ some' => message_foldl_consumeCompletedItem _ some'
  case h_4 => cases consumed
  case h_5 => cases consumed
  case h_6 => cases consumed
  case h_7 delta done completed _ _ _ =>
    cases consumed
    refine ⟨(if_neg delta).symm, ?_, ?_, ?_⟩
    · intro calls holds
      have nothing : itemsOf event = [] := by rw [itemsOf, if_neg done, if_neg completed]
      simpa [appearances, nothing] using holds
    · simp
    · exact fun same => absurd same completed

theorem appearances_cons (fromStr : String → Option Value) (event : Value) (events : List Value) :
    appearances fromStr (event :: events) =
      appearances fromStr [event] ++ appearances fromStr events := by
  simp [appearances]

theorem consumeAll_cons {deltas : List String}
    (consumed : consumeAll fromStr state (event :: events) = .ok (after, deltas)) :
    ∃ next sent later, Consumed fromStr state event next sent ∧
      consumeAll fromStr next events = .ok (after, later) ∧ deltas = sent.toList ++ later := by
  rw [consumeAll] at consumed
  cases first : consume fromStr state event with
  | error error =>
      rw [first] at consumed
      cases consumed
  | ok result =>
      obtain ⟨next, sent⟩ := result
      rw [first] at consumed
      cases rest : consumeAll fromStr next events with
      | error error =>
          simp [rest, bind, Except.bind] at consumed
      | ok result =>
          obtain ⟨last, later⟩ := result
          simp only [rest, bind, Except.bind, pure, Except.pure, Except.ok.injEq,
            Prod.mk.injEq] at consumed
          obtain ⟨rfl, rfl⟩ := consumed
          exact ⟨next, sent, later, consume_consumed first, rest, rfl⟩

theorem Holds.consumeAll {deltas : List String} (holds : Holds state calls)
    (consumed : consumeAll fromStr state events = .ok (after, deltas)) :
    Holds after (calls ++ appearances fromStr events) := by
  induction events generalizing state calls deltas with
  | nil =>
      cases consumed
      simpa [appearances] using holds
  | cons event events ih =>
      obtain ⟨next, sent, later, first, rest, rfl⟩ := consumeAll_cons consumed
      rw [appearances_cons, ← List.append_assoc]
      exact ih (first.holds calls holds) rest

theorem deltas_consumeAll {deltas : List String}
    (consumed : consumeAll fromStr state events = .ok (after, deltas)) :
    deltas = events.filterMap textDelta := by
  induction events generalizing state deltas with
  | nil =>
      cases consumed
      rfl
  | cons event events ih =>
      obtain ⟨next, sent, later, first, rest, rfl⟩ := consumeAll_cons consumed
      rw [first.forwards, ih rest, List.filterMap_cons]
      cases textDelta event with
      | none => rfl
      | some text => rfl

/-- No text comes behind the end of the response. -/
def TextFirst : List Value → Prop
  | [] => True
  | event :: later =>
      (typeOf event = "response.completed" → ∀ other ∈ later, textDelta other = none) ∧
        TextFirst later

theorem message_consumeAll {deltas : List String}
    (consumed : consumeAll fromStr state events = .ok (after, deltas))
    (first : TextFirst events) (some' : state.message ++ String.join deltas ≠ "") :
    after.message = state.message ++ String.join deltas := by
  induction events generalizing state deltas with
  | nil =>
      cases consumed
      simp
  | cons event events ih =>
      obtain ⟨next, sent, later, own, rest, rfl⟩ := consumeAll_cons consumed
      have joined : String.join (sent.toList ++ later) = sent.getD "" ++ String.join later := by
        cases sent with
        | none => simp
        | some text => simp
      rw [joined] at some' ⊢
      by_cases completed : typeOf event = "response.completed"
      · have silent : sent = none := by
          rw [own.forwards, textDelta, completed]
          rfl
        have quiet : later = [] := by
          rw [deltas_consumeAll rest]
          exact List.filterMap_eq_nil_iff.mpr (first.1 completed)
        rw [silent, quiet] at some' ⊢
        have kept : state.message ≠ "" := by simpa using some'
        have same := own.completed completed kept
        rw [quiet] at rest
        rw [ih rest first.2 (by simpa [same] using kept), same]
        simp
      · have same := own.message completed
        rw [← String.append_assoc, ← same] at some' ⊢
        exact ih rest first.2 some'

end

theorem eq_empty_of_join {deltas : List String} (empty : String.join deltas = "") :
    ∀ delta ∈ deltas, delta = "" := by
  induction deltas with
  | nil => exact fun _ member => absurd member List.not_mem_nil
  | cons delta deltas ih =>
      rw [String.join_cons] at empty
      have lists := congrArg String.toList empty
      rw [String.toList_append, String.toList_empty, List.append_eq_nil_iff] at lists
      intro other member
      rcases List.mem_cons.mp member with rfl | later
      · exact String.toList_injective lists.1
      · exact ih (String.toList_injective lists.2) other later

def messageOutput (message : String) : List ModelOutput :=
  if message = "" then [] else [.message message]

namespace Demo

def call : Value := .object [("type", .string "function_call"), ("call_id", .string "c"),
  ("name", .string "k8s_get"), ("arguments", .string "null")]

def text (delta : String) : Value :=
  .object [("type", .string "response.output_text.delta"), ("delta", .string delta)]

/-- The call comes twice, as an item and with the end of the response. -/
def events : List Value := [text "look", text "ing",
  .object [("type", .string "response.output_item.done"), ("item", call)],
  .object [("type", .string "response.completed"),
    ("response", .object [("id", .string "r"), ("output", .array [call])])]]

def final : ResponseState where
  message := "looking"
  outputs := [.toolCall "c" "k8s_get" .null]
  responseId := some "r"
  usage := Usage.none

end Demo

end ResponseState

end OpsCodex.Model
