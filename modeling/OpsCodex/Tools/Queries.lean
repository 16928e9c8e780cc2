import OpsCodex.Kubernetes.Routing
import OpsCodex.Runtime.Identifiers
import OpsCodex.Tools.Connector

/-! The queries for logs and traces: what they check, what they ask for and how often. -/

set_option autoImplicit false

namespace OpsCodex.Tools

open Effect OpsCodex.Runtime Connector
open OpsCodex.Strings (trim)
open OpsCodex.Kubernetes (trimEndSlashes)

def invalidQuery (message : String) : OpsCodexError := .connector .invalidQuery message

/-- Nanoseconds since the epoch as far as they fit, and zero otherwise. -/
def timestampNanos (time : DateTime) : Int :=
  if -2 ^ 63 ≤ time ∧ time < 2 ^ 63 then time else 0

/-- Whole seconds since the epoch. -/
def timestamp (time : DateTime) : Int := time / seconds 1

/-- The whole seconds of a range that does not end before its start. -/
def rangeSeconds (start stop : DateTime) : Nat := ((stop - start) / seconds 1).natAbs

/-- The attempts of a request, unless the arguments do not give one. -/
def prepared (request : Result HttpGet) (settle : Sent → Result (List UInt8 × Bool)) :
    Call (List UInt8 × Bool) :=
  match request with
  | .error error => throw error
  | .ok request => retryReadonly 3 (exchange request settle)

structure LogQueryArguments where
  query : String
  start : DateTime
  stop : DateTime
  limit : Option Nat
  direction : Option String

structure LokiLogQueryTool where
  endpoint : String
  tenantHeader : String
  tenant : Option String
  maxRangeSeconds : Nat
  maxLines : Nat
  maxOutputBytes : Nat

namespace LokiLogQueryTool

def request (tool : LokiLogQueryTool) (arguments : LogQueryArguments) (limit : Nat)
    (direction : String) : HttpGet where
  path := tool.endpoint
  query := [
    ("query", arguments.query),
    ("start", toString (timestampNanos arguments.start)),
    ("end", toString (timestampNanos arguments.stop)),
    ("limit", toString limit),
    ("direction", direction)]
  header := tool.tenant.map fun tenant => (tool.tenantHeader, tenant)

def prepare (tool : LokiLogQueryTool) : Except String LogQueryArguments → Result HttpGet
  | .error error => .error (invalidQuery error)
  | .ok arguments =>
      if (trim arguments.query.toList).isEmpty then
        .error (invalidQuery "log_query query cannot be empty")
      else if arguments.stop < arguments.start then
        .error (invalidQuery "log_query end must be after start")
      else if tool.maxRangeSeconds < rangeSeconds arguments.start arguments.stop then
        .error (invalidQuery (s!"log_query range {rangeSeconds arguments.start arguments.stop}s " ++
          s!"exceeds max {tool.maxRangeSeconds}s"))
      else
        let direction := arguments.direction.getD "backward"
        if direction ≠ "forward" ∧ direction ≠ "backward" then
          .error (invalidQuery "direction must be forward or backward")
        else
          .ok (tool.request arguments
            (min (arguments.limit.getD tool.maxLines) tool.maxLines) direction)

/-- A call up to the body that it has fetched. -/
def fetch (tool : LokiLogQueryTool) (arguments : Except String LogQueryArguments) :
    Call (List UInt8 × Bool) :=
  ExceptT.mk (Program.perform (I := interface) .isCancelled >>= fun (cancelled : Bool) =>
    if cancelled then pure (.error .cancelled)
    else (prepared (tool.prepare arguments) (outcome "Loki" tool.maxOutputBytes)).run)

/-- What the tool may ask for: few enough lines of a range that is short enough. -/
def Permits (tool : LokiLogQueryTool) (arguments : LogQueryArguments) (request : HttpGet) :
    Prop :=
  ∃ limit direction, limit ≤ tool.maxLines ∧
    (direction = "forward" ∨ direction = "backward") ∧ arguments.start ≤ arguments.stop ∧
    arguments.stop - arguments.start < seconds (tool.maxRangeSeconds + 1) ∧
    request = tool.request arguments limit direction

end LokiLogQueryTool

def validateRange (start stop : DateTime) (maxRangeSeconds : Nat) : Result Unit :=
  if stop < start then .error (invalidQuery "end must be after start")
  else if maxRangeSeconds < rangeSeconds start stop then
    .error (invalidQuery
      s!"range {rangeSeconds start stop}s exceeds max {maxRangeSeconds}s")
  else .ok ()

/-- The result of one attempt at Tempo. -/
def tempoOutcome (maxOutputBytes : Nat) (sent : Sent) : Result (List UInt8 × Bool) :=
  match sent with
  | .answered response =>
      if response.status = 404 then .error (invalidQuery "trace not found")
      else outcome "Tempo" maxOutputBytes sent
  | sent => outcome "Tempo" maxOutputBytes sent

structure TraceSearchArguments where
  service : Option String
  start : DateTime
  stop : DateTime
  minDuration : Option String
  limit : Option Nat

structure TempoTraceSearchTool where
  endpoint : String
  maxRangeSeconds : Nat
  maxOutputBytes : Nat

namespace TempoTraceSearchTool

def request (tool : TempoTraceSearchTool) (arguments : TraceSearchArguments) (limit : Nat) :
    HttpGet where
  path := tool.endpoint
  query := [
    ("start", toString (timestamp arguments.start)),
    ("end", toString (timestamp arguments.stop)),
    ("limit", toString limit)] ++
      (arguments.service.map fun service => ("tags", "service.name=" ++ service)).toList ++
      (arguments.minDuration.map fun duration => ("minDuration", duration)).toList
  header := none

def prepare (tool : TempoTraceSearchTool) :
    Except String TraceSearchArguments → Result HttpGet
  | .error error => .error (invalidQuery error)
  | .ok arguments =>
      (validateRange arguments.start arguments.stop tool.maxRangeSeconds).map fun _ =>
        tool.request arguments (min (arguments.limit.getD 20) 50)

def fetch (tool : TempoTraceSearchTool) (arguments : Except String TraceSearchArguments) :
    Call (List UInt8 × Bool) :=
  prepared (tool.prepare arguments) (tempoOutcome tool.maxOutputBytes)

def Permits (tool : TempoTraceSearchTool) (arguments : TraceSearchArguments)
    (request : HttpGet) : Prop :=
  ∃ limit, limit ≤ 50 ∧ arguments.start ≤ arguments.stop ∧
    arguments.stop - arguments.start < seconds (tool.maxRangeSeconds + 1) ∧
    request = tool.request arguments limit

end TempoTraceSearchTool

structure TempoTraceGetTool where
  base : String
  maxOutputBytes : Nat

namespace TempoTraceGetTool

def isHexDigit (char : Char) : Bool :=
  char.isDigit || ('a' ≤ char && char ≤ 'f') || ('A' ≤ char && char ≤ 'F')

def request (tool : TempoTraceGetTool) (traceId : String) : HttpGet where
  path := String.ofList (trimEndSlashes tool.base) ++ "/api/traces/" ++ traceId
  query := []
  header := none

def prepare (tool : TempoTraceGetTool) : Except String String → Result HttpGet
  | .error error => .error (invalidQuery error)
  | .ok traceId =>
      if (trim traceId.toList).isEmpty || traceId.toList.any fun char => !isHexDigit char then
        .error (invalidQuery "trace_id must be hexadecimal")
      else .ok (tool.request traceId)

def fetch (tool : TempoTraceGetTool) (traceId : Except String String) :
    Call (List UInt8 × Bool) :=
  prepared (tool.prepare traceId) (tempoOutcome tool.maxOutputBytes)

/-- A trace that is named by hexadecimal digits. -/
def Permits (tool : TempoTraceGetTool) (traceId : String) (request : HttpGet) : Prop :=
  traceId.toList ≠ [] ∧ (∀ char ∈ traceId.toList, isHexDigit char = true) ∧
    request = tool.request traceId

end TempoTraceGetTool

/-! ## What a query asks for -/

/-- The requests of a query: none if its arguments are refused, and otherwise at most three,
all alike, each but the last after a failure that may pass, with a pause before each but the
first, in which the turn may be cancelled. -/
structure Bounded (permits : HttpGet → Prop) (settle : Sent → Result (List UInt8 × Bool))
    (trace : List Entry) (result : Result (List UInt8 × Bool)) : Prop where
  few : (lookups trace).length ≤ 3
  alike : ∀ lookup ∈ lookups trace, ∀ other ∈ lookups trace, lookup.1 = other.1
  permitted : ∀ lookup ∈ lookups trace, permits lookup.1
  passing : ∀ lookup ∈ (lookups trace).dropLast,
    ∃ error, settle lookup.2 = .error error ∧ error.retryable = true
  paced : (trace = [] ∧ ∃ error, result = .error error) ∨
    ∃ request, Retried request settle [93, 186] trace result

section

variable {permits wider : HttpGet → Prop} {settle : Sent → Result (List UInt8 × Bool)}
  {trace : List Entry} {result : Result (List UInt8 × Bool)} {request : Result HttpGet}

theorem Bounded.mono (bounded : Bounded permits settle trace result)
    (implies : ∀ request, permits request → wider request) :
    Bounded wider settle trace result where
  few := bounded.few
  alike := bounded.alike
  permitted := fun lookup inside => implies _ (bounded.permitted lookup inside)
  passing := bounded.passing
  paced := bounded.paced

theorem Bounded.refused (error : OpsCodexError) : Bounded permits settle [] (.error error) where
  few := Nat.zero_le 3
  alike := nofun
  permitted := nofun
  passing := nofun
  paced := .inl ⟨rfl, error, rfl⟩

theorem bounded_prepared (runs : Traces (prepared request settle).run trace result) :
    Bounded (fun asked => request = .ok asked) settle trace result := by
  cases request with
  | error error =>
      obtain ⟨rfl, rfl⟩ := traces_pure runs
      exact .refused error
  | ok request =>
      have retried : Retried request settle [93, 186] trace result := traces_retryFrom runs
      exact {
        few := retried.few
        alike := fun lookup inside other within =>
          (retried.same lookup inside).trans (retried.same other within).symm
        permitted := fun lookup inside => by rw [retried.same lookup inside]
        passing := retried.passing
        paced := .inr ⟨request, retried⟩ }

end

theorem range_lt {start stop : DateTime} {maxRangeSeconds : Nat} (ordered : start ≤ stop)
    (short : rangeSeconds start stop ≤ maxRangeSeconds) :
    stop - start < seconds (maxRangeSeconds + 1) := by
  have below (length : Int) (forward : 0 ≤ length)
      (whole : (length / 1000000000).natAbs ≤ maxRangeSeconds) :
      length < ((maxRangeSeconds + 1 : Nat) : Int) * 1000000000 := by
    omega
  exact below (stop - start) (Int.sub_nonneg_of_le ordered) short

theorem validateRange_ok {start stop : DateTime} {maxRangeSeconds : Nat}
    (valid : validateRange start stop maxRangeSeconds = .ok ()) :
    start ≤ stop ∧ stop - start < seconds (maxRangeSeconds + 1) := by
  unfold validateRange at valid
  split at valid
  · cases valid
  · rename_i ordered
    split at valid
    · cases valid
    · rename_i short
      have ordered : start ≤ stop := Int.not_lt.mp ordered
      exact ⟨ordered, range_lt ordered (Nat.le_of_not_lt short)⟩

theorem LokiLogQueryTool.prepare_ok {tool : LokiLogQueryTool}
    {arguments : Except String LogQueryArguments} {request : HttpGet}
    (ready : tool.prepare arguments = .ok request) :
    ∃ given, arguments = .ok given ∧ tool.Permits given request := by
  cases arguments with
  | error error => cases ready
  | ok given =>
      rw [prepare] at ready
      split at ready
      · cases ready
      · split at ready
        · cases ready
        · rename_i ordered
          split at ready
          · cases ready
          · rename_i short
            dsimp only at ready
            split at ready
            · cases ready
            · rename_i direction
              cases ready
              have ordered : given.start ≤ given.stop := Int.not_lt.mp ordered
              refine ⟨given, rfl, _, _, Nat.min_le_right _ _, ?_, ordered,
                range_lt ordered (Nat.le_of_not_lt short), rfl⟩
              by_cases forward : given.direction.getD "backward" = "forward"
              · exact .inl forward
              · exact .inr (Classical.not_not.mp fun other => direction ⟨forward, other⟩)

theorem TempoTraceSearchTool.prepare_ok {tool : TempoTraceSearchTool}
    {arguments : Except String TraceSearchArguments} {request : HttpGet}
    (ready : tool.prepare arguments = .ok request) :
    ∃ given, arguments = .ok given ∧ tool.Permits given request := by
  cases arguments with
  | error error => cases ready
  | ok given =>
      rw [prepare] at ready
      cases valid : validateRange given.start given.stop tool.maxRangeSeconds with
      | error error =>
          rw [valid] at ready
          cases ready
      | ok done =>
          rw [valid] at ready
          cases ready
          obtain ⟨ordered, short⟩ := validateRange_ok valid
          exact ⟨given, rfl, _, Nat.min_le_right _ _, ordered, short, rfl⟩

theorem TempoTraceGetTool.prepare_ok {tool : TempoTraceGetTool}
    {arguments : Except String String} {request : HttpGet}
    (ready : tool.prepare arguments = .ok request) :
    ∃ given, arguments = .ok given ∧ tool.Permits given request := by
  cases arguments with
  | error error => cases ready
  | ok given =>
      rw [prepare] at ready
      split at ready
      · cases ready
      · rename_i named
        cases ready
        rw [Bool.or_eq_true, not_or] at named
        obtain ⟨visible, digits⟩ := named
        refine ⟨given, rfl, ?_, ?_, rfl⟩
        · intro empty
          rw [empty] at visible
          exact visible rfl
        · intro char inside
          rw [Bool.not_eq_true, List.any_eq_false] at digits
          have digit := digits char inside
          rwa [Bool.not_eq_true, Bool.not_eq_false'] at digit

namespace Demo

def loki : LokiLogQueryTool where
  endpoint := "/loki/api/v1/query_range"
  tenantHeader := "X-Scope-OrgID"
  tenant := none
  maxRangeSeconds := 3600
  maxLines := 100
  maxOutputBytes := 1024

def lastMinute : LogQueryArguments where
  query := "error"
  start := 0
  stop := seconds 60
  limit := none
  direction := none

def body : Response where
  status := 200
  statusText := "200 OK"
  text := "[]"
  deliveries := [.chunk [91, 93]]

/-- The first attempt fails, and the second has an answer. -/
def retried (request : HttpGet) : List Entry := [
  ⟨.send request, .failed "connection refused"⟩, ⟨.sleep 93, false⟩,
  ⟨.send request, .answered body⟩]

theorem runs_loki (request : HttpGet) :
    Traces (prepared (.ok request) (outcome "Loki" 1024)).run (retried request)
      (.ok ([91, 93], false)) :=
  .request (.request (.request .pure))

theorem runs_tempo (request : HttpGet) :
    Traces (prepared (.ok request) (tempoOutcome 1024)).run (retried request)
      (.ok ([91, 93], false)) :=
  .request (.request (.request .pure))

def tempo : TempoTraceGetTool where
  base := "/"
  maxOutputBytes := 1024

end Demo

end OpsCodex.Tools
