import OpsCodex.Turn.System

/-! The span of a turn's run: what a call of `run_turn` logs and records of its turn,
and when it holds the guard of the thread. Unlike the control points of a drive, this
protocol follows the call to its return and leaves the tool calls out. -/

set_option autoImplicit false

namespace OpsCodex.Turn

open Effect OpsCodex.Action OpsCodex.Evidence OpsCodex.Extensions OpsCodex.Store
open OpsCodex.Runtime

/-- The points of one run of a turn. -/
inductive Phase where
  | outside
  | held
  | driving
  | finished
  | closing (status : TurnStatus)
  /-- The guard is given up; the status is the one recorded, if any was. -/
  | left (ended : Option TurnStatus)
  | done (ended : Option TurnStatus)

inductive Span where
  /-- A call that touches neither turn logs nor turn records. -/
  | aside
  | sweeping
  | foreign
  /-- A resume that drives its turn: nothing is known. -/
  | wild
  | run (threadId : ThreadId) (turnId : TurnId) (phase : Phase)

/-- Requests that concern no turn's log, record, guard or lease, and no key of a
resume. A turn that is driven begins with a look at its thread. -/
def Aside : Op → Prop
  | .query (.getThread _) => False
  | .command (.appendEvent command) => command.turnId = none
  | .command (.upsertTurn _) => False
  | .command (.acquireLease ..) => False
  | .command (.rememberResume ..) => False
  | .enterThread _ => False
  | .leaveThread _ => False
  | _ => True

/-- The event that ends a turn outside the guard of its thread. -/
def Announces : Option TurnStatus → RuntimeEvent → Prop
  | none, event => event.fails = true
  | some .cancelled, event => event = .turnCancelled
  | some .completed, _ => False
  | some _, event => ∃ error, event = .turnFailed error

theorem fails_of_announces {ended : Option TurnStatus} {event : RuntimeEvent}
    (announces : Announces ended event) : event.fails = true := by
  cases ended with
  | none => exact announces
  | some status =>
      cases status with
      | completed => exact announces.elim
      | cancelled =>
          obtain rfl := announces
          rfl
      | _ =>
          obtain ⟨error, rfl⟩ := announces
          rfl

/-- The points at which a run may announce its end. -/
def Phase.announces : Phase → Option (Option TurnStatus)
  | .outside => some none
  | .left ended => some ended
  | _ => none

namespace Span

inductive Advance : Span → (op : Op) → op.Answer → Span → Prop where
  | aside {span op answer} (aside : Aside op) : Advance span op answer span
  | lease {threadId turnId phase turnId' threadId' ownerId ttl answer} :
      Advance (.run threadId turnId phase)
        (.command (.acquireLease turnId' threadId' ownerId ttl)) answer
        (.run threadId turnId phase)
  | enter {threadId turnId} :
      Advance (.run threadId turnId .outside) (.enterThread threadId) true
        (.run threadId turnId .held)
  | barred {threadId turnId} :
      Advance (.run threadId turnId .outside) (.enterThread threadId) false
        (.run threadId turnId (.left none))
  | begin {threadId turnId record} (turn : record.id = turnId) (thread : record.threadId = threadId)
      (status : record.status = .running) :
      Advance (.run threadId turnId .held) (.command (.upsertTurn record)) (.ok ())
        (.run threadId turnId .driving)
  | beginFailed {threadId turnId record error} (turn : record.id = turnId)
      (thread : record.threadId = threadId) (status : record.status = .running) :
      Advance (.run threadId turnId .held) (.command (.upsertTurn record)) (.error error)
        (.run threadId turnId .held)
  | look {threadId turnId threadId' answer} :
      Advance (.run threadId turnId .driving) (.query (.getThread threadId')) answer
        (.run threadId turnId .driving)
  | write {threadId turnId command answer} (thread : command.threadId = threadId)
      (turn : command.turnId = some turnId) (ongoing : command.event.terminal = false) :
      Advance (.run threadId turnId .driving) (.command (.appendEvent command)) answer
        (.run threadId turnId .driving)
  | complete {threadId turnId command envelope} (thread : command.threadId = threadId)
      (turn : command.turnId = some turnId) (event : command.event = .turnCompleted) :
      Advance (.run threadId turnId .driving) (.command (.appendEvent command)) (.ok envelope)
        (.run threadId turnId .finished)
  | completeFailed {threadId turnId command error} (thread : command.threadId = threadId)
      (turn : command.turnId = some turnId) (event : command.event = .turnCompleted) :
      Advance (.run threadId turnId .driving) (.command (.appendEvent command)) (.error error)
        (.run threadId turnId .driving)
  | close {threadId turnId record answer} (turn : record.id = turnId)
      (thread : record.threadId = threadId)
      (status : record.status.fails = true) :
      Advance (.run threadId turnId .driving) (.command (.upsertTurn record)) answer
        (.run threadId turnId (.closing record.status))
  | closeFinished {threadId turnId record answer} (turn : record.id = turnId)
      (thread : record.threadId = threadId) (status : record.status = .completed) :
      Advance (.run threadId turnId .finished) (.command (.upsertTurn record)) answer
        (.run threadId turnId (.closing .completed))
  | leaveUnstarted {threadId turnId} :
      Advance (.run threadId turnId .held) (.leaveThread threadId) ()
        (.run threadId turnId (.left none))
  | leave {threadId turnId status} :
      Advance (.run threadId turnId (.closing status)) (.leaveThread threadId) ()
        (.run threadId turnId (.left (some status)))
  | announce {threadId turnId phase ended command answer} (at' : phase.announces = some ended)
      (thread : command.threadId = threadId) (turn : command.turnId = some turnId)
      (announces : Announces ended command.event) :
      Advance (.run threadId turnId phase) (.command (.appendEvent command)) answer
        (.run threadId turnId (.done ended))
  | sweep {record answer} :
      Advance .sweeping (.command (.upsertTurn record)) answer .sweeping
  | pass {threadId answer} : Advance .foreign (.enterThread threadId) answer .foreign
  | passOut {threadId answer} : Advance .foreign (.leaveThread threadId) answer .foreign
  | passLease {turnId threadId ownerId ttl answer} :
      Advance .foreign (.command (.acquireLease turnId threadId ownerId ttl)) answer .foreign
  | remember {key turnId report answer} :
      Advance .foreign (.command (.rememberResume key turnId report)) answer .foreign
  | seize {threadId answer} :
      Advance .foreign (.query (.getThread threadId)) answer .wild
  | wild {op answer} : Advance .wild op answer .wild

def protocol : Protocol serviceInterface where
  Control := Span
  Advance := Advance

/-- The point at which a call begins. -/
def begins : Job → Span
  | .runTurn threadId turnId _ => .run threadId turnId .outside
  | .resumeTurn .. => .foreign
  | .recover => .sweeping
  | .resolveApproval .. => .aside

/-- A run returns after its turn is recorded as completed or its end is announced;
a run of an invalid input returns at once. -/
def ends : Job → Result Returned → Span → Prop
  | .runTurn threadId turnId _, _, span =>
      span = .run threadId turnId .outside ∨
      span = .run threadId turnId (.left (some .completed)) ∨
      ∃ ended, span = .run threadId turnId (.done ended)
  | _, _, _ => True

section

variable (deployment : Deployment)

/-- The requests of a turn that is neither finished nor failed yet. -/
def Own (threadId : ThreadId) (turnId : TurnId) : Op → Prop
  | .command (.appendEvent command) => command.threadId = threadId ∧
      command.turnId = some turnId ∧ command.event.terminal = false
  | .query (.getThread _) => True
  | op => Aside op

theorem advance_of_own {threadId : ThreadId} {turnId : TurnId} (op : Op) (answer : op.Answer)
    (own : Own threadId turnId op) :
    protocol.Advance (.run threadId turnId .driving) op answer
      (.run threadId turnId .driving) := by
  cases op with
  | command command =>
      cases command with
      | appendEvent command => exact .write own.1 own.2.1 own.2.2
      | _ => exact .aside own
  | query query =>
      cases query with
      | getThread => exact .look
      | _ => exact .aside own
  | _ => exact .aside own

/-- Requests that log no diagnosis. -/
def Undiagnosed : Op → Prop
  | .command (.appendEvent command) => command.event.diagnosis = none
  | _ => True

/-- An allowed request that logs no diagnosis. -/
structure Wordless (allowed : Op → Prop) (op : Op) : Prop where
  allowed : allowed op
  undiagnosed : Undiagnosed op

variable {allowed : Op → Prop}

theorem uses_allowed {Value : Type} {program : Async Value}
    (uses : Fallible.Uses (Wordless allowed) program) : Fallible.Uses allowed program :=
  uses.mono fun _ wordless => wordless.allowed

theorem uses_undiagnosed {Value : Type} {program : Async Value}
    (uses : Fallible.Uses (Wordless allowed) program) : Fallible.Uses Undiagnosed program :=
  uses.mono fun _ wordless => wordless.undiagnosed

theorem uses_read {query : Query} (permitted : allowed (.query query)) :
    Fallible.Uses allowed (Async.read query) := ⟨permitted, fun _ => trivial⟩

theorem uses_write {command : Command} (permitted : allowed (.command command)) :
    Fallible.Uses allowed (Async.write command) := ⟨permitted, fun _ => trivial⟩

theorem uses_ask {op : Op} (permitted : allowed op) : Fallible.Uses allowed (Async.ask op) :=
  ⟨permitted, fun _ => trivial⟩

theorem uses_ofResult {Value : Type} (result : Result Value) :
    Fallible.Uses allowed (Async.ofResult result) := trivial

variable {context : TurnEventContext} {threadId : ThreadId} {turnId : TurnId}

theorem uses_emit {event : RuntimeEvent} (ongoing : event.terminal = false)
    (undiagnosed : event.diagnosis = none) (causation : Option EventId) :
    Fallible.Uses (Wordless (Own threadId turnId))
      (emit threadId (some turnId) causation event) :=
  uses_write ⟨⟨rfl, rfl, ongoing⟩, undiagnosed⟩

theorem uses_emitNext {event : RuntimeEvent} (ongoing : event.terminal = false)
    (undiagnosed : event.diagnosis = none) (causation : Option EventId) :
    Fallible.Uses (Wordless (Own context.threadId context.turnId))
      (emitNext context causation event) :=
  (uses_emit ongoing undiagnosed causation).bind fun _ => trivial

theorem uses_writeCheckpoint (step : UInt32) (phase : CheckpointPhase)
    (resumePolicy : ResumePolicy) (pendingOperation : Option PendingOperation) (lease : Lease) :
    Fallible.Uses (Wordless (Own threadId turnId))
      (writeCheckpoint deployment threadId turnId step phase resumePolicy pendingOperation
        lease) := by
  unfold writeCheckpoint
  refine Fallible.Uses.bind (uses_write (by exact ⟨trivial, trivial⟩)) fun _ => ?_
  refine Fallible.Uses.bind (uses_read (by exact ⟨trivial, trivial⟩)).attempt fun _ => ?_
  refine Fallible.Uses.bind (uses_ask (by exact ⟨trivial, trivial⟩)) fun _ => ?_
  refine Fallible.Uses.bind (uses_read (by exact ⟨trivial, trivial⟩)).attempt fun _ => ?_
  refine Fallible.Uses.bind (uses_ask (by exact ⟨trivial, trivial⟩)) fun _ => ?_
  exact uses_write (by exact ⟨trivial, trivial⟩)

theorem uses_emitToolResult (causation : Option EventId) (callId name : String)
    (output : ToolOutput) (success : Bool) :
    Fallible.Uses (Wordless (Own context.threadId context.turnId))
      (emitToolResult deployment context causation callId name output success) := by
  have describes (content : Json.Value) :
      Fallible.Uses (Wordless (Own context.threadId context.turnId))
      (if success then describeResult deployment context name output.evidence content
        else pure (output.evidence, content) : Async (EvidenceMeta × Json.Value)) := by
    split
    · unfold describeResult
      refine Fallible.Uses.bind ?_ fun artifact => ?_
      · unfold storeArtifact
        split
        · exact Fallible.Uses.map ⟨⟨trivial, trivial⟩, fun _ => trivial⟩
        · exact Fallible.Uses.pure
      · refine Fallible.Uses.bind (uses_ask (by exact ⟨trivial, trivial⟩)) fun fresh => ?_
        dsimp only
        split <;> exact Fallible.Uses.pure
    · exact Fallible.Uses.pure
  unfold emitToolResult
  refine Fallible.Uses.bind (describes _) fun described => ?_
  refine Fallible.Uses.bind (uses_emit (by exact rfl) (by exact rfl) _) fun envelope => ?_
  refine Fallible.Uses.bind (uses_writeCheckpoint deployment _ _ _ _ _) fun _ => ?_
  exact Fallible.Uses.pure

theorem uses_emitToolError (causation : Option EventId) (callId name : String)
    (arguments : Json.Value) (error : OpsCodexError) :
    Fallible.Uses (Wordless (Own context.threadId context.turnId))
      (emitToolError deployment context causation callId name arguments error) := by
  unfold emitToolError
  refine Fallible.Uses.bind (uses_ask (by exact ⟨trivial, trivial⟩)) fun observed => ?_
  refine Fallible.Uses.bind (uses_ask (by exact ⟨trivial, trivial⟩)) fun stamped => ?_
  exact uses_emitToolResult deployment _ _ _ _ _

theorem uses_requestApproval (causation : Option EventId) (callId name : String)
    (arguments : Json.Value) (descriptor : CapabilityDescriptor) :
    Fallible.Uses (Wordless (Own context.threadId context.turnId))
      (requestApproval deployment context causation callId name arguments descriptor) := by
  unfold requestApproval
  refine Fallible.Uses.bind (uses_ask (by exact ⟨trivial, trivial⟩)) fun fresh => ?_
  refine Fallible.Uses.bind (uses_ask (by exact ⟨trivial, trivial⟩)) fun receiver => ?_
  refine Fallible.Uses.bind (Fallible.Uses.orElseDo ?files ⟨⟨trivial, trivial⟩, fun _ => trivial⟩)
    fun filed => ?_
  case files =>
    unfold fileApproval
    refine Fallible.Uses.bind (uses_ask (by exact ⟨trivial, trivial⟩)) fun now => ?_
    refine Fallible.Uses.bind (uses_write (by exact ⟨trivial, trivial⟩)) fun _ => ?_
    refine Fallible.Uses.bind (uses_writeCheckpoint deployment _ _ _ _ _) fun _ => ?_
    refine Fallible.Uses.bind (uses_emitNext (by exact rfl) (by exact rfl) _) fun _ =>
      Fallible.Uses.pure
  refine Fallible.Uses.bind ?awaits fun approved => ?_
  case awaits =>
    unfold awaitApproval
    refine Fallible.Uses.bind (uses_ask (by exact ⟨trivial, trivial⟩)) fun decision => ?_
    cases decision with
    | answered approved => exact Fallible.Uses.pure
    | closed => exact Fallible.Uses.throw
    | cancelled => exact Fallible.Uses.throw
    | elapsed =>
        refine Fallible.Uses.bind (uses_read (by exact ⟨trivial, trivial⟩)) fun stored => ?_
        refine Fallible.Uses.bind (uses_write (by exact ⟨trivial, trivial⟩)).attempt fun _ => ?_
        exact Fallible.Uses.pure
  refine Fallible.Uses.bind ?settles fun _ => ?_
  case settles =>
    unfold settleApproval
    refine Fallible.Uses.bind (uses_read (by exact ⟨trivial, trivial⟩)) fun stored => ?_
    cases stored with
    | none => exact Fallible.Uses.pure
    | some durable =>
        refine Fallible.Uses.bind (uses_write (by exact ⟨trivial, trivial⟩)).attempt fun _ => ?_
        exact Fallible.Uses.pure
  refine Fallible.Uses.bind (uses_emitNext (by exact rfl) (by exact rfl) _) fun _ => ?_
  refine Fallible.Uses.bind (uses_emitNext (by exact rfl) (by exact rfl) _) fun _ =>
    Fallible.Uses.pure

theorem uses_authorizeTool (causation : Option EventId) (callId name : String)
    (arguments : Json.Value) (descriptor : CapabilityDescriptor) :
    Fallible.Uses (Wordless (Own context.threadId context.turnId))
      (authorizeTool deployment context causation callId name arguments descriptor) := by
  have refuses (causation : Option EventId) (error : OpsCodexError) :
      Fallible.Uses (Wordless (Own context.threadId context.turnId)) (Authorization.refused <$>
        emitToolError deployment context causation callId name arguments error) :=
    Fallible.Uses.map (uses_emitToolError deployment _ _ _ _ _)
  unfold authorizeTool
  dsimp only
  split
  · exact Fallible.Uses.bind (uses_emitNext (by exact rfl) (by exact rfl) _) fun _ => refuses _ _
  · exact Fallible.Uses.bind (uses_emitNext (by exact rfl) (by exact rfl) _) fun _ =>
      Fallible.Uses.pure
  · refine Fallible.Uses.bind (uses_requestApproval deployment _ _ _ _ _) fun answered => ?_
    obtain ⟨causation, approved⟩ := answered
    dsimp only
    split
    · exact refuses _ _
    · split
      · exact refuses _ _
      · split
        · exact refuses _ _
        · exact Fallible.Uses.pure

theorem uses_startTool (causation : Option EventId) (callId name : String)
    (arguments : Json.Value) (descriptor : CapabilityDescriptor) :
    Fallible.Uses (Wordless (Own context.threadId context.turnId))
      (startTool deployment context causation callId name arguments descriptor) := by
  unfold startTool
  refine Fallible.Uses.bind (uses_writeCheckpoint deployment _ _ _ _ _) fun _ => ?_
  refine Fallible.Uses.bind (uses_emitNext (by exact rfl) (by exact rfl) _) fun causation => ?_
  refine Fallible.Uses.bind (uses_ask (by exact ⟨trivial, trivial⟩)) fun ending => ?_
  cases ending with
  | cancelled => exact Fallible.Uses.throw
  | elapsed => exact uses_emitToolError deployment _ _ _ _ _
  | finished outcome durationMs =>
      cases outcome with
      | ok output => exact uses_emitToolResult deployment _ _ _ _ _
      | error error => exact uses_emitToolError deployment _ _ _ _ _

theorem uses_executeTool (callId name : String) (arguments : Json.Value)
    (alreadyAuthorized : Bool) :
    Fallible.Uses (Wordless (Own context.threadId context.turnId))
      (executeTool deployment context callId name arguments alreadyAuthorized) := by
  unfold executeTool
  refine Fallible.Uses.bind ?proposes fun causation => ?_
  case proposes =>
    split
    · exact Fallible.Uses.pure
    · exact uses_emitNext (by exact rfl) (by exact rfl) _
  split
  · exact uses_emitToolError deployment _ _ _ _ _
  · refine Fallible.Uses.bind ?authorizes fun authorization => ?_
    case authorizes =>
      split
      · exact Fallible.Uses.pure
      · exact uses_authorizeTool deployment _ _ _ _ _
    cases authorization with
    | refused eventId => exact Fallible.Uses.pure
    | proceed causation => exact uses_startTool deployment _ _ _ _ _

theorem uses_emitDeltas (deltas : List String) (last : Option EventId) :
    Fallible.Uses (Wordless (Own threadId turnId)) (emitDeltas threadId turnId deltas last) := by
  induction deltas generalizing last with
  | nil => exact Fallible.Uses.pure
  | cons delta deltas ih =>
      exact Fallible.Uses.bind (uses_emit (by exact rfl) (by exact rfl) _) fun envelope => ih _

theorem uses_completeModel (causation : Option EventId) (request : ModelRequest) :
    Fallible.Uses (Wordless (Own threadId turnId))
      (completeModel threadId turnId causation request) := by
  unfold completeModel
  refine Fallible.Uses.bind (uses_ask (by exact ⟨trivial, trivial⟩)) fun run => ?_
  refine Fallible.Uses.bind (uses_emitDeltas _ _) fun last => ?_
  cases run.ending with
  | cancelled => exact Fallible.Uses.throw
  | elapsed => exact Fallible.Uses.throw
  | finished outcome =>
      exact Fallible.Uses.bind (uses_ofResult _) fun _ => Fallible.Uses.pure

theorem uses_maybeCompact :
    Fallible.Uses (Wordless (Own threadId turnId)) (maybeCompact deployment threadId turnId) := by
  unfold maybeCompact
  refine Fallible.Uses.bind (uses_read (by exact ⟨trivial, trivial⟩)) fun history => ?_
  dsimp only
  split
  · exact Fallible.Uses.pure
  · split
    · split
      · exact Fallible.Uses.pure
      · refine Fallible.Uses.bind (uses_ask (by exact ⟨trivial, trivial⟩)) fun summaryId => ?_
        refine Fallible.Uses.bind (uses_emit (by exact rfl) (by exact rfl) _).attempt fun _ => ?_
        exact Fallible.Uses.pure
    · exact Fallible.Uses.pure

theorem uses_runOutputs (streamed : Bool) (outputs : List ModelOutput) (last : Option EventId)
    (calledTool : Bool) : Fallible.Uses (Own context.threadId context.turnId)
      (runOutputs deployment context streamed outputs last calledTool) := by
  induction outputs generalizing last calledTool with
  | nil => exact Fallible.Uses.pure
  | cons output outputs ih =>
      cases output with
      | message content =>
          unfold runOutputs
          have streams : Fallible.Uses (Own context.threadId context.turnId)
              (if streamed then pure last
                else emitNext context last (.assistantDelta content) :
                  Async (Option EventId)) := by
            split
            · exact Fallible.Uses.pure
            · exact uses_allowed (uses_emitNext (by exact rfl) (by exact rfl) _)
          refine Fallible.Uses.bind streams fun last => ?_
          refine Fallible.Uses.bind (uses_ask (by exact trivial)) fun seed => ?_
          refine Fallible.Uses.bind (uses_read (by exact trivial)) fun events => ?_
          refine Fallible.Uses.bind (Fallible.Uses.bind (uses_write ⟨rfl, rfl, rfl⟩)
            fun _ => Fallible.Uses.pure) fun last => ?_
          exact ih _ _
      | toolCall callId name arguments =>
          unfold runOutputs
          have executes : Fallible.Uses (Wordless (Own context.threadId context.turnId))
              (executeTool deployment { context with causationId := last } callId name arguments
                false) :=
            @uses_executeTool deployment { context with causationId := last } _ _ _ _
          exact Fallible.Uses.bind (uses_allowed executes) fun eventId => ih _ _

theorem uses_enterTurn (input : TurnInput) :
    Fallible.Uses (Wordless (Own context.threadId context.turnId))
      (enterTurn deployment context (.fresh input)) := by
  unfold enterTurn
  refine Fallible.Uses.bind (uses_emit (by exact rfl) (by exact rfl) _) fun _ => ?_
  refine Fallible.Uses.bind (uses_emit (by exact rfl) (by exact rfl) _) fun _ => ?_
  exact Fallible.Uses.bind (uses_writeCheckpoint deployment _ _ _ _ _) fun _ =>
    Fallible.Uses.pure

/-- A part of a turn that ends nothing, in front of the rest. -/
theorem owning {Value Returned : Type} {program : Async Value} {rest : Value → Async Returned}
    {ok : Returned → Span → Prop} {failed : OpsCodexError → Span → Prop}
    (uses : Fallible.Uses (Own threadId turnId) program)
    (next : ∀ value, Meets protocol (rest value) (.run threadId turnId .driving) ok failed)
    (stopped : ∀ error, failed error (.run threadId turnId .driving)) :
    Meets protocol (program >>= rest) (.run threadId turnId .driving) ok failed :=
  Meets.after_quiet (uses.stays advance_of_own) next stopped

theorem modelLoop_meets (instructions : String) (remaining : Nat) (step : UInt32)
    (last : Option EventId) :
    Meets protocol (modelLoop deployment context instructions remaining step last)
      (.run context.threadId context.turnId .driving)
      (fun _ after => after = .run context.threadId context.turnId .finished)
      (fun _ after => after = .run context.threadId context.turnId .driving) := by
  induction remaining generalizing step last with
  | zero => exact Meets.throw rfl
  | succ remaining ih =>
      unfold modelLoop
      refine owning (uses_allowed (uses_maybeCompact deployment)) (fun _ => ?_) fun _ => rfl
      refine owning (uses_allowed (uses_writeCheckpoint deployment _ _ _ _ _)) (fun _ => ?_)
        fun _ => rfl
      refine owning (uses_read (by exact trivial)) (fun input => ?_) fun _ => rfl
      refine owning (uses_allowed (uses_completeModel _ _)) (fun completion => ?_) fun _ => rfl
      have outputs : Fallible.Uses (Own context.threadId context.turnId)
          (runOutputs deployment { context with step := step } completion.2.1 completion.1
            (completion.2.2.or last) false) :=
        @uses_runOutputs deployment { context with step := step } _ _ _ _
      refine owning outputs (fun ran => ?_) fun _ => rfl
      obtain ⟨last, calledTool⟩ := ran
      cases calledTool with
      | true => exact ih _ _
      | false =>
          refine owning (uses_allowed (uses_writeCheckpoint deployment _ _ _ _ _)) (fun _ => ?_)
            fun _ => rfl
          refine Meets.bind (Async.meets_write fun answer => ?_)
          cases answer with
          | ok envelope => exact ⟨_, .complete rfl rfl rfl, Meets.pure rfl⟩
          | error error => exact ⟨_, .completeFailed rfl rfl rfl, rfl⟩

theorem runTurnInner_meets (input : TurnInput) (lease : Lease) :
    Meets protocol (runTurnInner deployment threadId turnId (.fresh input) lease)
      (.run threadId turnId .driving)
      (fun _ after => after = .run threadId turnId .finished)
      (fun _ after => after = .run threadId turnId .driving) := by
  unfold runTurnInner
  refine owning (uses_read (by exact trivial)) (fun thread => ?_) fun _ => rfl
  refine owning (uses_ask (by exact trivial)) (fun catalog => ?_) fun _ => rfl
  refine owning (uses_ofResult _) (fun _ => ?_) fun _ => rfl
  refine owning (uses_ofResult _) (fun tools => ?_) fun _ => rfl
  have enters (context : TurnEventContext) :
      Fallible.Uses (Wordless (Own context.threadId context.turnId))
        (enterTurn deployment context (.fresh input)) := uses_enterTurn deployment input
  refine owning (uses_allowed (enters {
      threadId := threadId, turnId := turnId, workspaceId := thread.workspaceId
      tools := tools, causationId := none, lease := lease, step := 0 }))
    (fun entered => ?_) fun _ => rfl
  obtain ⟨step, last⟩ := entered
  exact modelLoop_meets deployment _ _ _ _

theorem finalStatus_error (error : OpsCodexError) :
    (finalStatus (.error error)).fails = true := by
  cases error <;> rfl

/-- Where a drive ends: with its record written, or before it began. -/
def Ended (threadId : ThreadId) (turnId : TurnId) : Result Unit → Span → Prop
  | .ok (), after => after = .run threadId turnId (.closing .completed)
  | .error error, after => after = .run threadId turnId .held ∨
      after = .run threadId turnId (.closing (finalStatus (.error error)))

theorem driveTurn_meets (input : TurnInput) :
    Meets protocol (driveTurn deployment threadId turnId input) (.run threadId turnId .held)
      (fun value after => Ended threadId turnId (.ok value) after)
      (fun error after => Ended threadId turnId (.error error) after) := by
  unfold driveTurn
  refine Meets.bind (Async.meets_ask fun catalog => ⟨_, .aside trivial, ?_⟩)
  refine Meets.bind (Async.meets_write fun answer => ⟨_, .lease, ?_⟩)
  cases answer with
  | error error => exact .inl rfl
  | ok lease =>
      refine Meets.bind (Async.meets_ask fun now => ⟨_, .aside trivial, ?_⟩)
      refine Meets.bind (Async.meets_write fun answer => ?_)
      cases answer with
      | error error => exact ⟨_, .beginFailed rfl rfl rfl, .inl rfl⟩
      | ok =>
          refine ⟨_, .begin rfl rfl rfl, ?_⟩
          have releases (result : Result Unit) (after : Span)
              (ended : Ended threadId turnId result after) : Meets protocol (do
                let _ ← (Async.write (.releaseLease lease.leaseId lease.fencingToken)).attempt
                Async.ofResult result) after
                (fun value after => Ended threadId turnId (.ok value) after)
                (fun error after => Ended threadId turnId (.error error) after) := by
            refine Meets.bind (Meets.attempt (Async.meets_write fun answer =>
              ⟨after, .aside trivial, ?_⟩))
            cases answer <;> cases result <;> exact ended
          refine Meets.bind (Meets.attempt ((runTurnInner_meets deployment input lease).mono
            ?_ ?_))
          · rintro _ _ rfl
            refine Meets.bind (Async.meets_ask fun ended => ⟨_, .aside trivial, ?_⟩)
            refine Meets.bind (Meets.attempt (Async.meets_write fun answer =>
              ⟨_, .closeFinished rfl rfl rfl, ?_⟩))
            cases answer <;> exact releases (.ok ()) _ rfl
          · rintro error _ rfl
            refine Meets.bind (Async.meets_ask fun ended => ⟨_, .aside trivial, ?_⟩)
            refine Meets.bind (Meets.attempt (Async.meets_write fun answer =>
              ⟨_, .close rfl rfl (finalStatus_error error), ?_⟩))
            cases answer <;> exact releases (.error error) _ (.inr rfl)

/-- The points at which a run that failed announces it. -/
def Failed (threadId : ThreadId) (turnId : TurnId) (error : OpsCodexError) (after : Span) : Prop :=
  ∃ phase ended, after = .run threadId turnId phase ∧ phase.announces = some ended ∧
    (ended = none ∨ ended = some (finalStatus (.error error)))

theorem withThread_meets {body : Async Unit} (cancellable : Bool)
    (meets : Meets protocol body (.run threadId turnId .held)
      (fun value after => Ended threadId turnId (.ok value) after)
      (fun error after => Ended threadId turnId (.error error) after)) :
    Meets protocol (withThread threadId cancellable body) (.run threadId turnId .outside)
      (fun _ after => after = .run threadId turnId (.left (some .completed)))
      (Failed threadId turnId) := by
  unfold withThread
  refine Meets.bind fun permit => ⟨_, .aside trivial, ?_⟩
  have released (after : Span) {post : Span → Prop} (reached : post after) :
      Conforms protocol (Program.perform (I := serviceInterface) .releasePermit) after
        fun _ final => post final := fun answer => ⟨after, .aside trivial, reached⟩
  cases permit with
  | error error => exact ⟨.outside, none, rfl, rfl, .inl rfl⟩
  | ok =>
      refine Meets.andFinally (Meets.bind (Async.meets_ask fun entered => ?_))
      cases entered with
      | false =>
          refine ⟨_, .barred, Meets.throw (released _ ?_)⟩
          exact ⟨.left none, none, rfl, rfl, .inl rfl⟩
      | true =>
          refine ⟨_, .enter, Meets.andFinally (meets.mono ?_ ?_)⟩
          · rintro value _ rfl answer
            exact ⟨_, .leave, released _ rfl⟩
          · rintro error _ (rfl | rfl) answer
            · exact ⟨_, .leaveUnstarted, released _
                ⟨.left none, none, rfl, rfl, .inl rfl⟩⟩
            · exact ⟨_, .leave, released _
                ⟨.left (some (finalStatus (.error error))), _, rfl, rfl, .inr rfl⟩⟩

theorem runTurn_meets (threadId : ThreadId) (turnId : TurnId) (input : TurnInput) :
    Meets protocol (runTurn deployment threadId turnId input) (.run threadId turnId .outside)
      (fun _ after => after = .run threadId turnId (.left (some .completed)))
      (fun _ after => after = .run threadId turnId .outside ∨
        ∃ ended, after = .run threadId turnId (.done ended)) := by
  unfold runTurn
  refine Meets.after_quiet (uses_ofResult _ |>.stays fun op answer aside => .aside aside)
    (fun _ => ?_) fun _ => .inl rfl
  refine Meets.bind (Meets.attempt ((withThread_meets true
    (driveTurn_meets deployment input)).mono ?_ ?_))
  · intro value after reached
    exact Meets.pure reached
  · intro error after reached
    obtain ⟨phase, ended, rfl, at', ending⟩ := reached
    have announce (event : RuntimeEvent) (announces : Announces ended event) :
        Meets protocol (do
          let _ ← (emit threadId (some turnId) none event).attempt
          throw error : Async Unit) (.run threadId turnId phase)
          (fun _ after => after = .run threadId turnId (.left (some .completed)))
          (fun _ after => after = .run threadId turnId .outside ∨
            ∃ ended, after = .run threadId turnId (.done ended)) := by
      refine Meets.bind (Meets.attempt (Async.meets_write fun answer =>
        ⟨_, .announce at' rfl rfl announces, ?_⟩))
      cases answer <;> exact Meets.throw (.inr ⟨ended, rfl⟩)
    have announces (event : RuntimeEvent) (fails : event.fails = true)
        (agrees : Announces (some (finalStatus (.error error))) event) :
        Announces ended event := by
      obtain rfl | rfl := ending
      · exact fails
      · exact agrees
    cases error with
    | cancelled => exact announce _ (announces _ rfl rfl)
    | _ => exact announce _ (announces _ rfl ⟨_, rfl⟩)

theorem uses_recoveryReport (turnId : TurnId) :
    Fallible.Uses (Wordless Aside) (recoveryReport turnId) := by
  unfold recoveryReport
  refine Fallible.Uses.bind (uses_read (by exact ⟨trivial, trivial⟩)) fun turn => ?_
  cases turn with
  | none => exact Fallible.Uses.throw
  | some turn =>
      refine Fallible.Uses.bind (uses_read (by exact ⟨trivial, trivial⟩)) fun checkpoint => ?_
      cases checkpoint with
      | none => exact Fallible.Uses.throw
      | some checkpoint =>
          exact Fallible.Uses.bind (uses_read (by exact ⟨trivial, trivial⟩)) fun _ =>
            Fallible.Uses.pure

abbrev anywhere {Value : Type} : Value → Span → Prop := fun _ _ => True

theorem foreign_quiet {Value Returned : Type} {program : Async Value}
    {rest : Value → Async Returned} (uses : Fallible.Uses Aside program)
    (next : ∀ value, Meets protocol (rest value) .foreign anywhere anywhere) :
    Meets protocol (program >>= rest) .foreign anywhere anywhere :=
  Meets.after_quiet (uses.stays fun _ _ aside => .aside aside) next fun _ => trivial

/-- A resume that drives its turn stays at the point where nothing is known. -/
theorem wild_meets {Value : Type} (program : Async Value) {post : Value → Span → Prop}
    {fails : OpsCodexError → Span → Prop} (returns : ∀ value, post value .wild)
    (throws : ∀ error, fails error .wild) : Meets protocol program .wild post fails := by
  have conforms : Conforms protocol program.run .wild fun _ after => after = .wild := by
    generalize program.run = run
    induction run with
    | pure value => rfl
    | request op next ih => exact fun answer => ⟨.wild, .wild, ih answer⟩
  refine Conforms.mono conforms fun outcome after same => ?_
  subst same
  cases outcome with
  | ok value => exact returns value
  | error error => exact throws error

theorem driveResumed_meets (turnId : TurnId) (report : RecoveryReport) :
    Meets protocol (driveResumed deployment turnId report) .foreign
      (fun _ after => after = .foreign ∨ after = .wild)
      (fun _ after => after = .foreign ∨ after = .wild) := by
  have released (lease : Lease) (result : Result Unit) :
      Meets protocol (do
        let _ ← (Async.write (.releaseLease lease.leaseId lease.fencingToken)).attempt
        Async.ofResult result
        return report : Async RecoveryReport) .wild
        (fun _ after => after = .foreign ∨ after = .wild)
        (fun _ after => after = .foreign ∨ after = .wild) :=
    wild_meets _ (fun _ => .inr rfl) fun _ => .inr rfl
  unfold driveResumed
  refine Meets.bind (Async.meets_ask fun catalog => ⟨_, .aside trivial, ?_⟩)
  refine Meets.bind (Async.meets_write fun answer => ⟨_, .passLease, ?_⟩)
  cases answer with
  | error error => exact .inl rfl
  | ok lease =>
      unfold runTurnInner
      refine Meets.bind (Meets.attempt (Meets.bind (Async.meets_read fun answer =>
        ⟨_, .seize, ?_⟩)))
      cases answer with
      | error error => exact released lease _
      | ok thread => exact wild_meets _ (fun _ => released lease _) fun _ => released lease _

theorem resumeTurn_meets (turnId : TurnId) (idempotencyKey : Option String) :
    Meets protocol (resumeTurn deployment turnId idempotencyKey) .foreign anywhere anywhere := by
  unfold resumeTurn
  refine foreign_quiet (uses_allowed (uses_recoveryReport turnId)) fun report => ?_
  split
  · exact Meets.throw trivial
  · refine Meets.bind ((?remembers : Meets protocol _ .foreign (fun _ after => after = .foreign)
      fun _ after => after = .foreign).mono (fun remembered after reached => ?_) fun _ _ _ =>
        trivial)
    case remembers =>
      cases idempotencyKey with
      | none => exact Meets.pure rfl
      | some key =>
          refine Async.meets_write fun answer => ⟨_, .remember, ?_⟩
          cases answer <;> rfl
    subst reached
    cases remembered with
    | some existing => exact Meets.pure trivial
    | none =>
        unfold withThread
        refine Meets.bind fun permit => ⟨_, .aside trivial, ?_⟩
        have released (after : Span) : Conforms protocol
            (Program.perform (I := serviceInterface) .releasePermit) after
            fun _ _ => True := fun answer => ⟨after, .aside trivial, trivial⟩
        have leaves (after : Span) (reached : after = .foreign ∨ after = .wild) :
            Conforms protocol
              (Program.perform (I := serviceInterface) (.leaveThread report.threadId)) after
              fun _ final => Conforms protocol
                (Program.perform (I := serviceInterface) .releasePermit) final
                fun _ _ => True := by
          obtain rfl | rfl := reached
          · exact fun answer => ⟨_, .passOut, released _⟩
          · exact fun answer => ⟨_, .wild, released _⟩
        cases permit with
        | error error => trivial
        | ok =>
            refine Meets.andFinally (Meets.bind (Async.meets_ask fun entered => ?_))
            cases entered with
            | false => exact ⟨_, .pass, Meets.throw (released _)⟩
            | true =>
                refine ⟨_, .pass, Meets.andFinally
                  ((driveResumed_meets deployment turnId report).mono ?_ ?_)⟩
                · exact fun _ after reached => leaves after reached
                · exact fun _ after reached => leaves after reached

theorem uses_resolveApproval (id : ApprovalId) (approved : Bool) :
    Fallible.Uses (Wordless Aside) (resolveApproval id approved) := by
  have answers (answer : Bool) : Fallible.Uses (Wordless Aside) (Async.brokerResolve id answer) :=
    ⟨⟨trivial, trivial⟩, fun _ => trivial⟩
  unfold resolveApproval
  refine Fallible.Uses.bind (uses_read (by exact ⟨trivial, trivial⟩)) fun found => ?_
  cases found with
  | none => exact answers _
  | some durable =>
      dsimp only
      split
      · exact Fallible.Uses.throw
      · refine Fallible.Uses.bind ?expires fun expired => ?_
        case expires =>
          cases durable.expiresAt with
          | none => exact Fallible.Uses.pure
          | some expires => exact Fallible.Uses.map (uses_ask (by exact ⟨trivial, trivial⟩))
        split
        · refine Fallible.Uses.bind (uses_write (by exact ⟨trivial, trivial⟩)) fun _ => ?_
          exact Fallible.Uses.bind (answers _).attempt fun _ => Fallible.Uses.throw
        · refine Fallible.Uses.bind (uses_write (by exact ⟨trivial, trivial⟩)) fun _ => ?_
          refine Fallible.Uses.bind (answers _).attempt fun outcome => ?_
          cases outcome with
          | ok value => exact Fallible.Uses.pure
          | error error =>
              cases error with
              | notFound message => exact Fallible.Uses.pure
              | _ => exact Fallible.Uses.throw

/-- What a recovery asks: it also writes the records of turns. -/
def Sweeps : Op → Prop
  | .command (.upsertTurn _) => True
  | op => Aside op

theorem advance_of_sweeps (op : Op) (answer : op.Answer) (sweeps : Sweeps op) :
    protocol.Advance .sweeping op answer .sweeping := by
  cases op with
  | command command =>
      cases command with
      | upsertTurn record => exact .sweep
      | _ => exact .aside sweeps
  | _ => exact .aside sweeps

theorem uses_recoverTurns (turns : List TurnRecord) :
    Fallible.Uses (Wordless Sweeps) (recoverTurns turns) := by
  induction turns with
  | nil => exact Fallible.Uses.pure
  | cons turn turns ih =>
      unfold recoverTurns
      refine Fallible.Uses.bind ?recovers fun report => ?_
      case recovers =>
        unfold recoverTurn
        refine Fallible.Uses.bind (uses_write (by exact ⟨trivial, trivial⟩)).attempt fun _ => ?_
        refine Fallible.Uses.bind (uses_read (by exact ⟨trivial, trivial⟩)) fun checkpoint => ?_
        cases checkpoint with
        | none =>
            refine Fallible.Uses.bind (uses_ask (by exact ⟨trivial, trivial⟩)) fun now => ?_
            exact Fallible.Uses.bind (uses_write (by exact ⟨trivial, trivial⟩)) fun _ =>
              Fallible.Uses.pure
        | some checkpoint =>
            refine Fallible.Uses.bind (uses_read (by exact ⟨trivial, trivial⟩)) fun events => ?_
            refine Fallible.Uses.bind (uses_ask (by exact ⟨trivial, trivial⟩)) fun now => ?_
            exact Fallible.Uses.bind (uses_write (by exact ⟨trivial, trivial⟩)) fun _ =>
              Fallible.Uses.pure
      exact Fallible.Uses.bind ih fun _ => Fallible.Uses.pure

theorem uses_recover : Fallible.Uses (Wordless Sweeps) (recover deployment) := by
  unfold recover
  refine Fallible.Uses.bind (uses_ask (by exact ⟨trivial, trivial⟩)) fun now => ?_
  refine Fallible.Uses.bind (uses_read (by exact ⟨trivial, trivial⟩)) fun approvals => ?_
  refine Fallible.Uses.bind (Fallible.Uses.forEach fun approval => ?expires) fun _ => ?_
  case expires =>
    unfold expireApproval
    split
    · exact uses_write (by exact ⟨trivial, trivial⟩)
    · exact Fallible.Uses.pure
  refine Fallible.Uses.bind (uses_read (by exact ⟨trivial, trivial⟩)) fun actions => ?_
  refine Fallible.Uses.bind (Fallible.Uses.forEach fun action => ?moves) fun _ => ?_
  case moves =>
    unfold recoverAction
    split
    · exact Fallible.Uses.pure
    · refine Fallible.Uses.bind (uses_ofResult _) fun status => ?_
      refine Fallible.Uses.bind (uses_write (by exact ⟨trivial, trivial⟩)) fun _ => ?_
      refine Fallible.Uses.bind (Fallible.Uses.attempt ?_) fun _ => Fallible.Uses.pure
      exact uses_write (by exact ⟨rfl, rfl⟩)
  refine Fallible.Uses.bind (uses_read (by exact ⟨trivial, trivial⟩)) fun turns => ?_
  exact uses_recoverTurns turns

/-- Every call of the runtime follows the protocol. -/
theorem conforms (job : Job) :
    Conforms protocol ((system deployment).program job) (begins job) (ends job) := by
  cases job with
  | runTurn threadId turnId input =>
      have met : Meets protocol ((Job.runTurn threadId turnId input).run deployment)
          (.run threadId turnId .outside)
          (fun _ after => after = .run threadId turnId (.left (some .completed)))
          (fun _ after => after = .run threadId turnId .outside ∨
            ∃ ended, after = .run threadId turnId (.done ended)) :=
        (runTurn_meets deployment threadId turnId input).map fun _ _ reached => reached
      refine Conforms.mono met fun outcome after reached => ?_
      cases outcome with
      | ok value => exact .inr (.inl reached)
      | error error =>
          obtain early | late := reached
          · exact .inl early
          · exact .inr (.inr late)
  | resumeTurn turnId key =>
      have met : Meets protocol ((Job.resumeTurn turnId key).run deployment) .foreign
          anywhere anywhere :=
        (resumeTurn_meets deployment turnId key).map fun _ _ _ => trivial
      exact Conforms.mono met fun outcome _ _ => by cases outcome <;> trivial
  | recover =>
      have met : Meets protocol (Job.recover.run deployment) .sweeping
          (fun _ after => after = .sweeping) (fun _ after => after = .sweeping) :=
        ((uses_allowed (uses_recover deployment)).map).stays advance_of_sweeps
      exact Conforms.mono met fun outcome _ _ => by cases outcome <;> trivial
  | resolveApproval id approved =>
      have met : Meets protocol ((Job.resolveApproval id approved).run deployment) .aside
          (fun _ after => after = .aside) (fun _ after => after = .aside) :=
        ((uses_allowed (uses_resolveApproval id approved)).map).stays fun _ _ aside => .aside aside
      exact Conforms.mono met fun outcome _ _ => by cases outcome <;> trivial

end

end Span

end OpsCodex.Turn
