import OpsCodex.Extensions.McpFraming

/-! Tool calls on one session with an MCP server over stdio, some of which are dropped while
they write their request or read the answer. -/

set_option autoImplicit false

namespace OpsCodex.Extensions.Mcp

open OpsCodex.Json OpsCodex.Action
open OpsCodex.Strings (trim)

def asI64? : Value → Option Int64
  | .number (.posInt value) => if value.toNat < 2 ^ 63 then some value.toInt64 else none
  | .number (.negInt value) => some value
  | _ => none

/-- A response whose identifier is the request's. -/
def answers (id : UInt64) (response : Value) : Bool :=
  decide ((response.get? "id").bind Value.asU64? = some id) ||
    decide ((response.get? "id").bind asI64? = some id.toInt64)

/-- How far a call gets that is cancelled or runs out of time. -/
inductive Drop where
  | waiting
  | writing (count : Nat)
  | reading (count : Nat)

structure McpCall where
  name : String
  arguments : Value
  drop : Option Drop

/-- The client: the next identifier, what it has written and how much it has read. -/
structure Session where
  nextId : Nat
  written : Bytes
  consumed : Nat

inductive Outcome where
  | dropped
  | waits
  | returned (result : Result Value)

def idOf (id : Nat) : Value := .number (.posInt (UInt64.ofNat id))

def request (id : Nat) (call : McpCall) : Value := .object
  [("jsonrpc", .string "2.0"), ("id", idOf id), ("method", .string "tools/call"),
    ("params", .object [("name", .string call.name), ("arguments", call.arguments)])]

/-- A message as the client writes it. -/
def frame (encoded : Bytes) : Bytes :=
  utf8 ("Content-Length: " ++ toString encoded.length ++ "\r\n\r\n") ++ encoded

section

variable (toVec : Value → Bytes) (fromSlice : Bytes → Except String Value)
  (valueText : Value → String) (serve : Bytes → Bytes)

def resultOf (response : Value) : Result Value :=
  match response.get? "error" with
  | some error => .error (.tool ("MCP error: " ++ valueText error))
  | none => .ok ((response.get? "result").getD .null)

/-- The loop over the messages of the server; there is no result while none answers. -/
def awaitResponse (id : UInt64) : Nat → Bytes → Option (Result Value × Bytes)
  | 0, _ => none
  | fuel + 1, stream =>
      match read fromSlice stream with
      | none => none
      | some (.error error, rest) => some (.error error, rest)
      | some (.ok response, rest) =>
          if answers id response then some (resultOf valueText response, rest)
          else awaitResponse id fuel rest

/-- What the server has written and the client has not read. -/
def unread (session : Session) : Bytes := (serve session.written).drop session.consumed

/-- The session once a call has written its request. -/
def asked (session : Session) (call : McpCall) : Session :=
  { session with
    nextId := session.nextId + 1
    written := session.written ++ frame (toVec (request session.nextId call)) }

/-- One call under the lock of the session. A call that waits for ever keeps the lock. -/
def execute (session : Session) (call : McpCall) : Outcome × Session :=
  match call.drop with
  | some .waiting => (.dropped, session)
  | some (.writing count) =>
      (.dropped, { session with
        nextId := session.nextId + 1
        written := session.written ++ (frame (toVec (request session.nextId call))).take count })
  | some (.reading count) =>
      (.dropped, { asked toVec session call with consumed := session.consumed + count })
  | none =>
      let later := asked toVec session call
      let stream := unread serve later
      match awaitResponse fromSlice valueText (UInt64.ofNat session.nextId) (stream.length + 1)
          stream with
      | some (result, rest) =>
          (.returned result,
            { later with consumed := (serve later.written).length - rest.length })
      | none => (.waits, { later with consumed := (serve later.written).length })

/-- A number of bytes after which the reader stands between two messages. -/
inductive Boundary : Bytes → Nat → Prop
  | here (stream : Bytes) : Boundary stream 0
  | next {stream rest : Bytes} {value : Value} {count : Nat}
      (message : read fromSlice stream = some (.ok value, rest)) (later : Boundary rest count) :
      Boundary stream (stream.length - rest.length + count)

/-- A drop before the first or after the last byte of the request, between two messages. -/
def Clean (session : Session) (call : McpCall) : Prop :=
  match call.drop with
  | some (.writing count) =>
      count = 0 ∨ (frame (toVec (request session.nextId call))).length ≤ count
  | some (.reading count) => Boundary fromSlice (unread serve (asked toVec session call)) count
  | _ => True

def AllClean : Session → List McpCall → Prop
  | _, [] => True
  | session, call :: calls => Clean toVec fromSlice serve session call ∧
      AllClean (execute toVec fromSlice valueText serve session call).2 calls

/-- What the server writes for some requests, given those before them. -/
def outputs (respond : List Value → Value → List Message) : List Value → List Value → List Message
  | _, [] => []
  | history, request :: requests =>
      respond history request ++ outputs respond (history ++ [request]) requests

def frames (requests : List Value) : Bytes := requests.flatMap fun request => frame (toVec request)

/-- Requests that a run may send: of its calls, with increasing identifiers of the run. -/
structure Possible (first : Nat) (calls : List McpCall) (made : List (Nat × McpCall)) : Prop where
  increasing : made.Pairwise fun earlier later => earlier.1 < later.1
  own : ∀ entry ∈ made, first ≤ entry.1 ∧ entry.1 < first + calls.length ∧ entry.2 ∈ calls

def requestsOf (made : List (Nat × McpCall)) : List Value :=
  made.map fun entry => request entry.1 entry.2

/-- A response to the request with an identifier. -/
def RespondsTo (id : Nat) (value : Value) : Prop :=
  value.get? "id" = some (idOf id) ∧ value.get? "method" = none ∧
    (value.get? "result" ≠ none ∨ value.get? "error" ≠ none)

/-- A server that answers every well-framed request of a run: what it writes are whole messages,
and among those for a request is a response to it. -/
structure Answers (respond : List Value → Value → List Message) (first : Nat)
    (calls : List McpCall) : Prop where
  framed : ∀ made, Possible first calls made →
    serve (frames toVec (requestsOf made)) = wire (outputs respond [] (requestsOf made))
  carried : ∀ history request, ∀ message ∈ respond history request,
    message.form.Carries fromSlice message.value
  own : ∀ history id, first ≤ id → id < first + calls.length → ∀ call ∈ calls,
    ∃ message ∈ respond history (request id call), RespondsTo id message.value

/-- A message that the client takes for the response to a call. -/
def Taken (id : Nat) (message : Message) : Prop :=
  message.form.hasColon = false ∧ answers (UInt64.ofNat id) message.value = true

/-- Of all that the server writes in a run, a response to the request is the first message that
the client takes for one. -/
def Unmistaken (respond : List Value → Value → List Message) (first : Nat)
    (calls : List McpCall) : Prop :=
  ∀ made id call, Possible first calls (made ++ [(id, call)]) →
    ∃ before response after,
      respond (requestsOf made) (request id call) = before ++ response :: after ∧
      RespondsTo id response.value ∧ response.form.hasColon = false ∧
      ∀ message ∈ outputs respond [] (requestsOf made) ++ before, ¬ Taken id message

/-- The call returns the result of the server's response with the call's own identifier. -/
def OwnResult (respond : List Value → Value → List Message) (session : Session) (call : McpCall) :
    Prop :=
  ∃ history message, session.written = frames toVec history ∧
    message ∈ respond history (request session.nextId call) ∧
    RespondsTo session.nextId message.value ∧
    (execute toVec fromSlice valueText serve session call).1 =
      .returned (resultOf valueText message.value)

/-- Every call of a run that is not dropped returns its own result. -/
def AllOwn (respond : List Value → Value → List Message) : Session → List McpCall → Prop
  | _, [] => True
  | session, call :: calls =>
      (call.drop = none → OwnResult toVec fromSlice valueText serve respond session call) ∧
        AllOwn respond (execute toVec fromSlice valueText serve session call).2 calls

end

section Reading

variable {fromSlice : Bytes → Except String Value} {valueText : Value → String}

theorem answers_idOf {id : Nat} {response : Value} (own : response.get? "id" = some (idOf id)) :
    answers (UInt64.ofNat id) response = true := by
  simp [answers, own, idOf, Value.asU64?]

/-- Messages that a server writes whole. -/
def Readable (fromSlice : Bytes → Except String Value) (messages : List Message) : Prop :=
  ∀ message ∈ messages, message.form.Carries fromSlice message.value

theorem Readable.tail {message : Message} {messages : List Message}
    (readable : Readable fromSlice (message :: messages)) : Readable fromSlice messages :=
  fun other member => readable other (List.mem_cons_of_mem _ member)

theorem read_wire {message : Message} {messages : List Message}
    (readable : Readable fromSlice (message :: messages)) :
    read fromSlice (wire (message :: messages)) =
      if message.form.hasColon then read fromSlice (wire messages)
      else some (.ok message.value, wire messages) :=
  readFrom_message false (readable message List.mem_cons_self) (wire messages)

theorem read_nil : read fromSlice [] = none := by
  rw [read, readFrom]
  simp [readLine]

theorem wire_append (first second : List Message) :
    wire (first ++ second) = wire first ++ wire second := List.flatMap_append

theorem length_wire_ge (messages : List Message) : messages.length ≤ (wire messages).length := by
  induction messages with
  | nil => exact Nat.le_refl 0
  | cons message messages ih =>
      have some : 1 ≤ message.form.wire.length := by
        cases message.form with
        | line text => simp [Form.wire]
        | block headers blank body =>
            simp only [Form.wire, List.length_append, List.length_singleton]
            omega
      have joined : wire (message :: messages) = message.form.wire ++ wire messages := rfl
      rw [joined, List.length_append, List.length_cons]
      omega

/-- The loop passes over what it does not take for the response. -/
theorem awaitResponse_wire {id : Nat} {before after : List Message} {response : Message}
    (readable : Readable fromSlice (before ++ response :: after))
    (others : ∀ message ∈ before, ¬ Taken id message)
    (own : Taken id response) {fuel : Nat} (enough : before.length < fuel) :
    awaitResponse fromSlice valueText (UInt64.ofNat id) fuel (wire (before ++ response :: after)) =
      some (resultOf valueText response.value, wire after) := by
  induction before generalizing fuel with
  | nil =>
      obtain ⟨fuel, rfl⟩ := Nat.exists_eq_succ_of_ne_zero (Nat.ne_of_gt enough)
      rw [awaitResponse, List.nil_append, read_wire readable, own.1, if_neg (by decide)]
      simp only [own.2, if_true]
  | cons message before ih =>
      obtain ⟨fuel, rfl⟩ := Nat.exists_eq_succ_of_ne_zero (Nat.ne_of_gt
        (Nat.lt_of_le_of_lt (Nat.zero_le _) enough))
      have shown : Readable fromSlice (message :: (before ++ response :: after)) := readable
      have later (fuel : Nat) (enough : before.length < fuel) := ih shown.tail
        (fun other member => others other (List.mem_cons_of_mem _ member)) enough
      rw [List.length_cons] at enough
      rw [awaitResponse, List.cons_append, read_wire shown]
      cases colon : message.form.hasColon with
      | true =>
          have skipped := later (fuel + 1) (by omega)
          rw [awaitResponse] at skipped
          rw [if_pos rfl, skipped]
      | false =>
          have other : answers (UInt64.ofNat id) message.value = false :=
            Bool.eq_false_iff.mpr fun same => others message List.mem_cons_self ⟨colon, same⟩
          rw [if_neg (by decide)]
          simp only [other, Bool.false_eq_true, if_false]
          exact later fuel (by omega)

/-- A message that the reader gives is one of those written, behind some that it skips. -/
theorem split_of_read {pending : List Message} (readable : Readable fromSlice pending)
    {value : Value} {rest : Bytes}
    (message : read fromSlice (wire pending) = some (.ok value, rest)) :
    ∃ past left, pending = past ++ left ∧ rest = wire left := by
  induction pending with
  | nil =>
      have nothing : read fromSlice (wire []) = none := read_nil
      rw [nothing] at message
      cases message
  | cons first pending ih =>
      rw [read_wire readable] at message
      split at message
      · obtain ⟨past, left, rfl, rfl⟩ := ih readable.tail message
        exact ⟨first :: past, left, rfl, rfl⟩
      · cases message
        exact ⟨[first], pending, rfl, rfl⟩

/-- Standing between two messages is having read some of them. -/
theorem split_of_boundary {stream : Bytes} {count : Nat}
    (boundary : Boundary fromSlice stream count) {pending : List Message}
    (readable : Readable fromSlice pending) (same : stream = wire pending) :
    ∃ past rest, pending = past ++ rest ∧ count = (wire past).length := by
  induction boundary generalizing pending with
  | here stream => exact ⟨[], pending, rfl, rfl⟩
  | next message later ih =>
      subst same
      obtain ⟨read, left, rfl, rfl⟩ := split_of_read readable message
      obtain ⟨past, rest, rfl, rfl⟩ := ih
        (fun other member => readable other (List.mem_append_right _ member)) rfl
      refine ⟨read ++ past, rest, (List.append_assoc _ _ _).symm, ?_⟩
      simp only [wire_append, List.length_append]
      omega

end Reading

section Server

variable {toVec : Value → Bytes} {fromSlice : Bytes → Except String Value}
  {valueText : Value → String} {serve : Bytes → Bytes}
  {respond : List Value → Value → List Message} {first : Nat} {calls : List McpCall}

theorem outputs_snoc (history requests : List Value) (request : Value) :
    outputs respond history (requests ++ [request]) =
      outputs respond history requests ++ respond (history ++ requests) request := by
  induction requests generalizing history with
  | nil => simp [outputs]
  | cons other requests ih => simp [outputs, ih]

theorem mem_outputs {history requests : List Value} {message : Message}
    (member : message ∈ outputs respond history requests) :
    ∃ earlier, ∃ request ∈ requests, message ∈ respond earlier request := by
  induction requests generalizing history with
  | nil => exact absurd member List.not_mem_nil
  | cons request requests ih =>
      rcases List.mem_append.mp member with member | member
      · exact ⟨history, request, List.mem_cons_self, member⟩
      · obtain ⟨earlier, other, inside, answer⟩ := ih member
        exact ⟨earlier, other, List.mem_cons_of_mem _ inside, answer⟩

theorem readable_outputs (served : Answers toVec fromSlice serve respond first calls)
    (history requests : List Value) :
    Readable fromSlice (outputs respond history requests) := by
  intro message member
  obtain ⟨earlier, request, -, answer⟩ := mem_outputs member
  exact served.carried earlier request message answer

/-- The client has sent whole requests and read whole messages. -/
structure Synced (toVec : Value → Bytes) (respond : List Value → Value → List Message)
    (first : Nat) (calls : List McpCall) (session : Session) (made : List (Nat × McpCall))
    (past pending : List Message) : Prop where
  written : session.written = frames toVec (requestsOf made)
  possible : Possible first calls made
  started : first ≤ session.nextId
  below : ∀ entry ∈ made, entry.1 < session.nextId
  split : outputs respond [] (requestsOf made) = past ++ pending
  consumed : session.consumed = (wire past).length

variable {session : Session} {made : List (Nat × McpCall)} {past pending : List Message}
  {call : McpCall}

theorem Synced.serve_eq (synced : Synced toVec respond first calls session made past pending)
    (served : Answers toVec fromSlice serve respond first calls) :
    serve session.written = wire past ++ wire pending := by
  rw [synced.written, served.framed made synced.possible, synced.split, wire_append]

theorem Synced.unread_eq (synced : Synced toVec respond first calls session made past pending)
    (served : Answers toVec fromSlice serve respond first calls) :
    unread serve session = wire pending := by
  rw [unread, synced.serve_eq served, synced.consumed, List.drop_left]

theorem Synced.readable (synced : Synced toVec respond first calls session made past pending)
    (served : Answers toVec fromSlice serve respond first calls) :
    Readable fromSlice pending := by
  intro message member
  refine readable_outputs served [] (requestsOf made) message ?_
  rw [synced.split]
  exact List.mem_append_right _ member

/-- An identifier that is taken without a request is skipped. -/
theorem Synced.skip (synced : Synced toVec respond first calls session made past pending) :
    Synced toVec respond first calls { session with nextId := session.nextId + 1 } made past
      pending :=
  ⟨synced.written, synced.possible, Nat.le_succ_of_le synced.started,
    fun entry member => Nat.lt_succ_of_lt (synced.below entry member), synced.split,
    synced.consumed⟩

/-- A whole request adds what the server answers to it. -/
theorem Synced.asked (synced : Synced toVec respond first calls session made past pending)
    (member : call ∈ calls) (room : session.nextId < first + calls.length) :
    Synced toVec respond first calls (asked toVec session call)
      (made ++ [(session.nextId, call)]) past
      (pending ++ respond (requestsOf made) (request session.nextId call)) := by
  have requests : requestsOf (made ++ [(session.nextId, call)]) =
      requestsOf made ++ [request session.nextId call] := List.map_append
  refine ⟨?_, ⟨?_, ?_⟩, Nat.le_succ_of_le synced.started, ?_, ?_, synced.consumed⟩
  · rw [requests, frames, List.flatMap_append, ← frames, ← synced.written]
    simp [Mcp.asked]
  · rw [List.pairwise_append]
    refine ⟨synced.possible.increasing, List.pairwise_singleton _ _, ?_⟩
    intro earlier inside later last
    rw [List.mem_singleton.mp last]
    exact synced.below earlier inside
  · intro entry inside
    rcases List.mem_append.mp inside with inside | inside
    · exact synced.possible.own entry inside
    · rw [List.mem_singleton.mp inside]
      exact ⟨synced.started, room, member⟩
  · intro entry inside
    rcases List.mem_append.mp inside with inside | inside
    · exact Nat.lt_succ_of_lt (synced.below entry inside)
    · rw [List.mem_singleton.mp inside]
      exact Nat.lt_succ_self _
  · rw [requests, outputs_snoc, synced.split, List.append_assoc, List.nil_append]

/-- A call that is not dropped returns its own result and leaves the client in step. -/
theorem Synced.complete (synced : Synced toVec respond first calls session made past pending)
    (served : Answers toVec fromSlice serve respond first calls)
    (unmistaken : Unmistaken respond first calls) (member : call ∈ calls)
    (room : session.nextId < first + calls.length) (whole : call.drop = none) :
    OwnResult toVec fromSlice valueText serve respond session call ∧
      ∃ made past pending, Synced toVec respond first calls
        (execute toVec fromSlice valueText serve session call).2 made past pending := by
  obtain ⟨before, response, after, split, own, plain, others⟩ :=
    unmistaken made session.nextId call (synced.asked member room).possible
  have later := synced.asked member room
  rw [split, ← List.append_assoc] at later
  have stream := later.unread_eq served
  have unread : ∀ message ∈ pending ++ before, ¬ Taken session.nextId message := by
    intro message inside
    refine others message ?_
    rw [synced.split, List.append_assoc]
    exact List.mem_append_right _ inside
  have enough : (pending ++ before).length <
      (wire (pending ++ before ++ response :: after)).length + 1 := by
    have long := length_wire_ge (pending ++ before ++ response :: after)
    rw [List.length_append] at long
    omega
  have found : awaitResponse fromSlice valueText (UInt64.ofNat session.nextId)
      ((wire (pending ++ before ++ response :: after)).length + 1)
      (wire (pending ++ before ++ response :: after)) =
        some (resultOf valueText response.value, wire after) :=
    awaitResponse_wire (later.readable served) unread ⟨plain, answers_idOf own.1⟩ enough
  have ran : execute toVec fromSlice valueText serve session call =
      (.returned (resultOf valueText response.value),
        { Mcp.asked toVec session call with
          consumed := (serve (Mcp.asked toVec session call).written).length -
            (wire after).length }) := by
    unfold execute
    simp only [whole, stream, found]
  refine ⟨⟨requestsOf made, response, synced.written, ?_, own, by rw [ran]⟩, ?_⟩
  · rw [split]
    exact List.mem_append_right _ List.mem_cons_self
  · refine ⟨made ++ [(session.nextId, call)], past ++ (pending ++ before ++ [response]), after, ?_⟩
    rw [ran]
    refine ⟨later.written, later.possible, later.started, later.below, ?_, ?_⟩
    · rw [later.split]
      simp
    · have joined : wire past ++ wire (pending ++ before ++ response :: after) =
          wire (past ++ (pending ++ before ++ [response])) ++ wire after := by
        rw [← wire_append, ← wire_append]
        simp
      dsimp only
      rw [later.serve_eq served, joined, List.length_append, Nat.add_sub_cancel]

variable (valueText) in
/-- A clean call leaves the client in step. -/
theorem Synced.execute (synced : Synced toVec respond first calls session made past pending)
    (served : Answers toVec fromSlice serve respond first calls)
    (unmistaken : Unmistaken respond first calls) (member : call ∈ calls)
    (room : session.nextId < first + calls.length)
    (clean : Clean toVec fromSlice serve session call) :
    ∃ made past pending, Synced toVec respond first calls
      (Mcp.execute toVec fromSlice valueText serve session call).2 made past pending := by
  have later := synced.asked member room
  cases dropped : call.drop with
  | none => exact (synced.complete served unmistaken member room dropped).2
  | some drop =>
      unfold Clean at clean
      unfold Mcp.execute
      rw [dropped] at clean ⊢
      cases drop with
      | waiting => exact ⟨made, past, pending, synced⟩
      | writing count =>
          rcases clean with rfl | all
          · refine ⟨made, past, pending, ?_⟩
            have kept := synced.skip
            simpa using kept
          · refine ⟨made ++ [(session.nextId, call)], past,
              pending ++ respond (requestsOf made) (request session.nextId call), ?_⟩
            dsimp only
            rw [List.take_of_length_le all]
            exact later
      | reading count =>
          rw [later.unread_eq served] at clean
          obtain ⟨read, rest, same, rfl⟩ := split_of_boundary clean (later.readable served) rfl
          refine ⟨made ++ [(session.nextId, call)], past ++ read, rest, later.written,
            later.possible, later.started, later.below, ?_, ?_⟩
          · rw [later.split, same, List.append_assoc]
          · dsimp only
            rw [synced.consumed, wire_append, List.length_append]

variable (toVec fromSlice valueText serve) in
theorem nextId_execute_le (session : Session) (call : McpCall) :
    (execute toVec fromSlice valueText serve session call).2.nextId ≤ session.nextId + 1 := by
  unfold execute
  split
  · exact Nat.le_succ _
  · exact Nat.le_refl _
  · exact Nat.le_refl _
  · dsimp only
    split
    · exact Nat.le_refl _
    · exact Nat.le_refl _

theorem allOwn_of_synced (served : Answers toVec fromSlice serve respond first calls)
    (unmistaken : Unmistaken respond first calls) {rest : List McpCall} (subset : rest ⊆ calls)
    (synced : Synced toVec respond first calls session made past pending)
    (room : session.nextId + rest.length ≤ first + calls.length)
    (clean : AllClean toVec fromSlice valueText serve session rest) :
    AllOwn toVec fromSlice valueText serve respond session rest := by
  induction rest generalizing session made past pending with
  | nil => trivial
  | cons call rest ih =>
      rw [List.length_cons] at room
      have member := subset List.mem_cons_self
      have own : session.nextId < first + calls.length := by omega
      refine ⟨fun whole => (synced.complete served unmistaken member own whole).1, ?_⟩
      obtain ⟨made, past, pending, later⟩ := synced.execute valueText served unmistaken member own
        clean.1
      have taken := nextId_execute_le toVec fromSlice valueText serve session call
      exact ih (fun other inside => subset (List.mem_cons_of_mem _ inside)) later (by omega)
        clean.2

/-- In a run whose dropped calls are all dropped between two messages, with a server whose
responses are not mistaken, every call that is not dropped returns the result of the response
with its own identifier. -/
theorem allOwn_of_clean (served : Answers toVec fromSlice serve respond first calls)
    (unmistaken : Unmistaken respond first calls)
    (clean : AllClean toVec fromSlice valueText serve ⟨first, [], 0⟩ calls) :
    AllOwn toVec fromSlice valueText serve respond ⟨first, [], 0⟩ calls := by
  have start : Synced toVec respond first calls ⟨first, [], 0⟩ [] [] [] :=
    ⟨rfl, ⟨List.Pairwise.nil, fun _ member => absurd member List.not_mem_nil⟩, Nat.le_refl _,
      fun _ member => absurd member List.not_mem_nil, rfl, rfl⟩
  exact allOwn_of_synced served unmistaken (List.Subset.refl _) start (Nat.le_refl _) clean

end Server

namespace Demo.Session

def probe (drop : Option Drop) : McpCall where
  name := "search"
  arguments := .object []
  drop := drop

def requestText (id : String) : String :=
  "\x7b\"jsonrpc\":\"2.0\",\"id\":" ++ id ++ ",\"method\":\"tools/call\",\"params\":" ++
    "\x7b\"name\":\"search\",\"arguments\":\x7b\x7d\x7d\x7d"

def replyText (id : String) : String :=
  "\x7b\"jsonrpc\":\"2.0\",\"id\":" ++ id ++ ",\"result\":null\x7d"

def reply (id : Nat) : Value := .object
  [("jsonrpc", .string "2.0"), ("id", idOf id), ("result", .null)]

def requestId (value : Value) : Option UInt64 := (value.get? "id").bind Value.asU64?

def toVec (value : Value) : Bytes :=
  if requestId value = some 1 then utf8 (requestText "1") else utf8 (requestText "2")

def fromSlice (bytes : Bytes) : Except String Value :=
  if bytes = utf8 (replyText "1") then .ok (reply 1)
  else if bytes = utf8 (replyText "2") then .ok (reply 2)
  else .error "expected value"

def message (id : Nat) (text : String) : Message :=
  ⟨reply id, .block ["Content-Length: 38\r"] "\r" (utf8 text)⟩

def first : Message := message 1 (replyText "1")

def second : Message := message 2 (replyText "2")

/-- A server that answers the two requests of the session. -/
def respond (_ : List Value) (request : Value) : List Message :=
  if requestId request = some 1 then [first] else [second]

def serve (input : Bytes) : Bytes :=
  if input = frame (utf8 (requestText "1")) ++ frame (utf8 (requestText "2")) then
    wire [first, second]
  else if input = frame (utf8 (requestText "1")) then wire [first]
  else if input = frame (utf8 (requestText "2")) then wire [second]
  else []

theorem frame_ne_nil (encoded : Bytes) : frame encoded ≠ [] := by
  intro empty
  have header := (List.append_eq_nil_iff.mp empty).1
  rw [utf8_eq_flatMap] at header
  exact absurd header (by simp)

theorem frames_ne : frame (utf8 (requestText "1")) ≠ frame (utf8 (requestText "2")) := by
  intro same
  have sizes : (utf8 (requestText "1")).length = (utf8 (requestText "2")).length := by
    rw [utf8_eq_flatMap, utf8_eq_flatMap]
    decide
  rw [frame, frame, sizes] at same
  exact absurd (utf8_injective (List.append_cancel_left same)) (by decide)

theorem carries (id : Nat) (text : String) (size : (utf8 text).length = 38)
    (parsed : fromSlice (utf8 text) = .ok (reply id)) :
    (message id text).form.Carries fromSlice (message id text).value := by
  refine ⟨?_, ⟨_, List.mem_cons_self, ?_⟩, ?_, by decide, parsed⟩
  · intro header member
    obtain rfl := List.mem_singleton.mp member
    refine ⟨by rw [utf8_eq_flatMap]; decide, "Content-Length".toList, " 38".toList, by decide, ?_⟩
    rw [size]
    decide
  · exact ⟨"Content-Length".toList, " 38".toList, by decide, by decide⟩
  · rw [utf8_eq_flatMap]
    decide

theorem carries_first : first.form.Carries fromSlice first.value := by
  refine carries 1 (replyText "1") ?_ (if_pos rfl)
  rw [utf8_eq_flatMap]
  decide

theorem carries_second : second.form.Carries fromSlice second.value := by
  refine carries 2 (replyText "2") ?_ ?_
  · rw [utf8_eq_flatMap]
    decide
  · have other : utf8 (replyText "2") ≠ utf8 (replyText "1") := by
      intro same
      exact absurd (utf8_injective same) (by decide)
    rw [fromSlice, if_neg other, if_pos rfl]

theorem toVec_request (id : Nat) (call : McpCall) : toVec (request id call) =
    if UInt64.ofNat id = 1 then utf8 (requestText "1") else utf8 (requestText "2") := by
  simp only [toVec, requestId, request, Value.get?, List.lookup_cons]
  simp [idOf, Value.asU64?]

theorem respond_request (history : List Value) (id : Nat) (call : McpCall) :
    respond history (request id call) =
      if UInt64.ofNat id = 1 then [first] else [second] := by
  simp only [respond, requestId, request, Value.get?, List.lookup_cons]
  simp [idOf, Value.asU64?]

/-- The requests of the session, in order, are the first, the second, or both. -/
theorem framed (calls : List McpCall) (two : calls.length = 2)
    {made : List (Nat × McpCall)} (possible : Possible 1 calls made) :
    serve (frames toVec (requestsOf made)) = wire (outputs respond [] (requestsOf made)) := by
  have ids : ∀ entry ∈ made, entry.1 = 1 ∨ entry.1 = 2 := by
    intro entry member
    obtain ⟨low, high, -⟩ := possible.own entry member
    omega
  have both : frame (utf8 (requestText "1")) ++ frame (utf8 (requestText "2")) ≠
      frame (utf8 (requestText "1")) := by
    intro same
    exact frame_ne_nil _ (List.append_right_eq_self.mp same)
  have both' : frame (utf8 (requestText "1")) ++ frame (utf8 (requestText "2")) ≠
      frame (utf8 (requestText "2")) := by
    intro same
    exact frame_ne_nil _ (List.append_left_eq_self.mp same)
  cases made with
  | nil =>
      have none : serve [] = [] := by
        rw [serve, if_neg, if_neg, if_neg]
        · exact (frame_ne_nil _).symm
        · exact (frame_ne_nil _).symm
        · intro empty
          exact frame_ne_nil _ (List.append_eq_nil_iff.mp empty.symm).1
      exact none
  | cons entry made =>
      obtain ⟨id, call⟩ := entry
      cases made with
      | nil =>
          rcases ids _ List.mem_cons_self with same | same
          · dsimp only at same
            subst same
            simp [frames, requestsOf, outputs, toVec_request, respond_request, serve, both.symm]
          · dsimp only at same
            subst same
            simp [frames, requestsOf, outputs, toVec_request, respond_request, serve, both'.symm,
              frames_ne.symm]
      | cons entry' made =>
          obtain ⟨id', call'⟩ := entry'
          have less := (List.pairwise_cons.mp possible.increasing).1 _ List.mem_cons_self
          have later := (List.pairwise_cons.mp possible.increasing).2
          have one := ids _ List.mem_cons_self
          have other := ids _ (List.mem_cons_of_mem _ List.mem_cons_self)
          dsimp only at less one other
          obtain ⟨rfl, rfl⟩ : id = 1 ∧ id' = 2 := by omega
          cases made with
          | nil =>
              simp [frames, requestsOf, outputs, toVec_request, respond_request, serve, wire]
          | cons entry'' made =>
              have more := (List.pairwise_cons.mp later).1 _ List.mem_cons_self
              have third := ids _ (List.mem_cons_of_mem _
                (List.mem_cons_of_mem _ List.mem_cons_self))
              dsimp only at more
              omega

theorem served (calls : List McpCall) (two : calls.length = 2) :
    Answers toVec fromSlice serve respond 1 calls := by
  refine ⟨fun made possible => framed calls two possible, ?_, ?_⟩
  · intro history request message member
    unfold respond at member
    split at member
    · rw [List.mem_singleton.mp member]
      exact carries_first
    · rw [List.mem_singleton.mp member]
      exact carries_second
  · intro history id low high call member
    rw [respond_request]
    have small : id = 1 ∨ id = 2 := by omega
    rcases small with rfl | rfl
    · exact ⟨first, List.mem_cons_self, rfl, rfl, .inl (by decide)⟩
    · exact ⟨second, List.mem_cons_self, rfl, rfl, .inl (by decide)⟩

theorem unmistaken (calls : List McpCall) (two : calls.length = 2) :
    Unmistaken respond 1 calls := by
  intro made id call possible
  have last : (id, call) ∈ made ++ [(id, call)] := List.mem_append_right _ List.mem_cons_self
  obtain ⟨low, high, -⟩ := possible.own _ last
  have earlier : ∀ entry ∈ made, entry.1 < id := fun entry inside =>
    (List.pairwise_append.mp possible.increasing).2.2 entry inside _ List.mem_cons_self
  rw [respond_request]
  have small : id = 1 ∨ id = 2 := by dsimp only at low high; omega
  rcases small with rfl | rfl
  · refine ⟨[], first, [], rfl, ⟨rfl, rfl, .inl (by decide)⟩, rfl, ?_⟩
    cases made with
    | nil => exact fun message member => absurd member List.not_mem_nil
    | cons entry made =>
        have before := earlier entry List.mem_cons_self
        have start := (possible.own entry List.mem_cons_self).1
        omega
  · refine ⟨[], second, [], rfl, ⟨rfl, rfl, .inl (by decide)⟩, rfl, ?_⟩
    intro message member
    rw [List.append_nil] at member
    obtain ⟨history, asked, inside, answer⟩ := mem_outputs member
    obtain ⟨entry, given, rfl⟩ := List.mem_map.mp inside
    have start := (possible.own entry (List.mem_append_left _ given)).1
    have before := earlier entry given
    have one : entry.1 = 1 := by omega
    rw [one, respond_request, if_pos (show UInt64.ofNat 1 = 1 from rfl),
      List.mem_singleton] at answer
    subst answer
    rintro ⟨-, same⟩
    exact absurd same (by decide)

/-- The header block of a response. -/
def header : Bytes := utf8 "Content-Length: 38\r" ++ [newline] ++ (utf8 "\r" ++ [newline])

/-- The first call is dropped with its response unread. -/
def calls (drop : Drop) : List McpCall := [probe (some drop), probe none]

end Demo.Session

open Demo.Session in
theorem allOwn_of_clean_late : AllOwn toVec fromSlice (fun _ => "") serve respond ⟨1, [], 0⟩
    (calls (.reading 0)) :=
  allOwn_of_clean (served _ rfl) (unmistaken _ rfl) ⟨.here _, trivial, trivial⟩

namespace Demo.Session

/-- Behind its header the body of a response passes for a header line. -/
theorem read_body (rest : Bytes) :
    read fromSlice (utf8 (replyText "1") ++ (utf8 "Content-Length: 38\r" ++ [newline] ++
      (utf8 "\r" ++ [newline] ++ rest))) =
      some (.error (.protocol "MCP response is missing Content-Length"), rest) := by
  have line : utf8 (replyText "1" ++ "Content-Length: 38\r") =
      utf8 (replyText "1") ++ utf8 "Content-Length: 38\r" := by
    rw [utf8_eq_flatMap, utf8_eq_flatMap, utf8_eq_flatMap, String.toList_append,
      List.flatMap_append]
  have joined : utf8 (replyText "1") ++ (utf8 "Content-Length: 38\r" ++ [newline] ++
      (utf8 "\r" ++ [newline] ++ rest)) =
      utf8 (replyText "1" ++ "Content-Length: 38\r") ++ [newline] ++
        (utf8 "\r" ++ [newline] ++ rest) := by
    rw [line]
    simp
  have oneLine : newline ∉ utf8 (replyText "1" ++ "Content-Length: 38\r") := by
    rw [utf8_eq_flatMap]
    decide
  have blank : newline ∉ utf8 "\r" := by
    rw [utf8_eq_flatMap]
    decide
  have ignored : Line.ofTrimmed (trim (replyText "1" ++ "Content-Length: 38\r").toList) =
      .ignored := by
    have opened : ∃ inner, trim (replyText "1" ++ "Content-Length: 38\r").toList = '{' :: inner ∧
        ':' ∈ '{' :: inner := ⟨_, rfl, by decide⟩
    obtain ⟨inner, same, colon⟩ := opened
    rw [same, Line.ofTrimmed_brace_colon colon]
  have empty : Line.ofTrimmed (trim "\r".toList) = .blank := rfl
  rw [read, joined, readFrom_line oneLine, Line.ofBytes_text, ignored]
  dsimp only
  rw [readFrom_line blank, Line.ofBytes_text, empty]
  rfl

theorem serve_both : serve (frame (utf8 (requestText "1")) ++ frame (utf8 (requestText "2"))) =
    wire [first, second] := if_pos rfl

/-- What is unread once the second request is written. -/
theorem unread_dropped : unread serve
    ⟨3, frame (utf8 (requestText "1")) ++ frame (utf8 (requestText "2")), header.length⟩ =
      utf8 (replyText "1") ++ (utf8 "Content-Length: 38\r" ++ [newline] ++
        (utf8 "\r" ++ [newline] ++ utf8 (replyText "2"))) := by
  have written : wire [first, second] = header ++ (utf8 (replyText "1") ++
      (utf8 "Content-Length: 38\r" ++ [newline] ++ (utf8 "\r" ++ [newline] ++
        utf8 (replyText "2")))) := by
    simp [wire, first, second, message, Form.wire, header]
  rw [unread, serve_both, written, List.drop_left]

/-- The second call fails on what the first one left of its response. -/
theorem execute_dropped : (execute toVec fromSlice (fun _ => "") serve
    ⟨2, frame (utf8 (requestText "1")), header.length⟩ (probe none)).1 =
      .returned (.error (.protocol "MCP response is missing Content-Length")) := by
  have later : asked toVec ⟨2, frame (utf8 (requestText "1")), header.length⟩ (probe none) =
      ⟨3, frame (utf8 (requestText "1")) ++ frame (utf8 (requestText "2")), header.length⟩ := by
    simp [asked, toVec_request]
  unfold execute
  simp only [probe]
  rw [← probe, later, unread_dropped, awaitResponse, read_body]

end Demo.Session

open Demo.Session in
/-- A call that is dropped between the header and the body of its response spoils the next. -/
theorem not_allOwn : ¬ ∀ calls : List McpCall,
    Answers toVec fromSlice serve respond 1 calls →
    AllOwn toVec fromSlice (fun _ => "") serve respond ⟨1, [], 0⟩ calls := by
  intro always
  have own := (always (Demo.Session.calls (.reading header.length)) (served _ rfl)).2.1 rfl
  have state : (execute toVec fromSlice (fun _ => "") serve ⟨1, [], 0⟩
      (probe (some (.reading header.length)))).2 =
      ⟨2, frame (utf8 (requestText "1")), header.length⟩ := by
    simp [execute, probe, asked, toVec_request]
  rw [state] at own
  obtain ⟨history, message, -, answer, -, outcome⟩ := own
  rw [execute_dropped] at outcome
  rw [respond_request] at answer
  have ids : UInt64.ofNat 2 ≠ 1 := by decide
  rw [if_neg ids, List.mem_singleton] at answer
  subst answer
  cases outcome

end OpsCodex.Extensions.Mcp
