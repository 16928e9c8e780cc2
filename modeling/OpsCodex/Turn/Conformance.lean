import OpsCodex.Turn.Protocol

/-! Every call of the runtime on turns follows the protocol, whatever it is
answered. -/

set_option autoImplicit false

namespace OpsCodex.Turn

open Effect OpsCodex.Action OpsCodex.Evidence OpsCodex.Extensions OpsCodex.Store
open OpsCodex.Runtime

variable (deployment : Deployment)

/-- The point of a call that guards no thread. -/
abbrev outside {Value : Type} : Value → Control → Prop := fun _ after => after.guards = none

/-- The point of a drive whose end can be recorded. -/
abbrev closing {Value : Type} (drive : Drive) : Value → Control → Prop :=
  fun _ after => after.closable = some drive

section

variable {codec : Codec} {control : Control}

/-- A part that makes only quiet requests leaves the control point alone. -/
theorem quietly {Value Returned : Type} {program : Async Value} {rest : Value → Async Returned}
    {ok : Returned → Control → Prop} {failed : OpsCodexError → Control → Prop}
    (uses : Fallible.Uses Quiet program)
    (next : ∀ value, Meets (protocol codec) (rest value) control ok failed)
    (stopped : ∀ error, failed error control) :
    Meets (protocol codec) (program >>= rest) control ok failed :=
  Meets.after_quiet (uses.stays fun _ _ quiet => .quiet quiet) next stopped

theorem uses_read {query : Query} (quiet : Quiet (.query query)) :
    Fallible.Uses Quiet (Async.read query) := ⟨quiet, fun _ => trivial⟩

theorem uses_write {command : Command} (quiet : Quiet (.command command)) :
    Fallible.Uses Quiet (Async.write command) := ⟨quiet, fun _ => trivial⟩

theorem uses_ask {op : Op} (quiet : Quiet op) : Fallible.Uses Quiet (Async.ask op) :=
  ⟨quiet, fun _ => trivial⟩

theorem uses_ofResult {Value : Type} (result : Result Value) :
    Fallible.Uses Quiet (Async.ofResult result) := trivial

theorem uses_emit {event : RuntimeEvent}
    (quiet : event.decisive = false) (threadId : ThreadId)
    (turnId : Option TurnId) (causationId : Option EventId) :
    Fallible.Uses Quiet (emit threadId turnId causationId event) := uses_write quiet

theorem uses_emitNext {event : RuntimeEvent}
    (quiet : event.decisive = false)
    (context : TurnEventContext) (causation : Option EventId) :
    Fallible.Uses Quiet (emitNext context causation event) :=
  (uses_emit quiet ..).bind fun _ => trivial

end

/-- A checkpoint is written at the end of quiet requests. -/
theorem writeCheckpoint_meets {codec : Codec} {session : Session} {stage : Stage} (after : Stage)
    {threadId : ThreadId} {turnId : TurnId} {step : UInt32} {phase : CheckpointPhase}
    {resumePolicy : ResumePolicy} {pendingOperation : Option PendingOperation} {lease : Lease}
    {ok : Unit → Control → Prop} {failed : OpsCodexError → Control → Prop}
    (puts : ∀ checkpoint : CheckpointRecord, checkpoint.turnId = turnId →
      checkpoint.threadId = threadId → checkpoint.phase = phase →
      checkpoint.pendingOperation = pendingOperation → Puts session stage checkpoint after)
    (next : ok () (.within session after))
    (stopped : ∀ error, failed error (.within session stage))
    (lost : ∀ error, failed error (.failing session.toDrive)) :
    Meets (protocol codec)
      (writeCheckpoint deployment threadId turnId step phase resumePolicy pendingOperation lease)
      (.within session stage) ok failed := by
  unfold writeCheckpoint
  refine quietly (uses_write trivial) (fun _ => ?_) stopped
  refine quietly (uses_read (by exact trivial)).attempt (fun items => ?_) stopped
  refine quietly (uses_ask trivial) (fun checkpointId => ?_) stopped
  refine quietly (uses_read (by exact trivial)).attempt (fun lastSeq => ?_) stopped
  refine quietly (uses_ask trivial) (fun now => ?_) stopped
  refine Async.meets_write fun answer => ?_
  cases answer with
  | ok => exact ⟨.within session after, .checkpoint (puts _ rfl rfl rfl rfl), next⟩
  | error error => exact ⟨.failing session.toDrive, .checkpointFailed (puts _ rfl rfl rfl rfl),
      lost error⟩

/-- The session that a context belongs to. -/
def sessionOf (context : TurnEventContext) (origin : Origin) : Session where
  threadId := context.threadId
  turnId := context.turnId
  origin := origin
  workspaceId := context.workspaceId
  tools := context.tools

section

variable {codec : Codec} {context : TurnEventContext} {origin : Origin} {stage : Stage}

theorem closable_within {session : Session} (resting : stage.isRunning = false) :
    (Control.within session stage).closable = some session.toDrive := by
  simp [Control.closable, resting]

/-- The result of a call closes the call. -/
theorem emitResult_meets {call : Call} (completable : stage.completable = some call)
    (causation : Option EventId) (name : String) (content : Json.Value) (evidence : EvidenceMeta)
    (success : Bool) :
    Meets (protocol codec) (do
        let envelope ← emit context.threadId (some context.turnId) causation
          (.toolCompleted call.callId name content evidence success)
        writeCheckpoint deployment context.threadId context.turnId context.step .toolCompleted
          .skipCompletedTool none context.lease
        return envelope.eventId)
      (.within (sessionOf context origin) stage)
      (fun _ after => after = .within (sessionOf context origin) .driving)
      (closing (sessionOf context origin).toDrive) := by
  refine Meets.bind (Async.meets_write fun answer => ?_)
  cases answer with
  | error error => exact ⟨.failing _, .appendFailed (.complete completable rfl rfl rfl rfl), rfl⟩
  | ok envelope =>
      refine ⟨.within _ .answered, .append (.complete completable rfl rfl rfl rfl), ?_⟩
      refine Meets.bind (writeCheckpoint_meets deployment .driving ?_ ?_ ?_ ?_)
      · intro checkpoint turn thread phase free
        exact .plain (.inr rfl) ⟨turn, thread, by simp [phase], free⟩
      · exact Meets.pure rfl
      · exact fun _ => rfl
      · exact fun _ => rfl

theorem storeArtifact_meets (bytes : List UInt8) {session : Session} :
    Meets (protocol codec) (storeArtifact deployment context bytes) (.within session stage)
      (fun _ after => after = .within session stage) (closing session.toDrive) := by
  unfold storeArtifact
  split
  · intro answer
    cases answer with
    | ok stored => exact ⟨_, .quiet trivial, rfl⟩
    | error error => exact ⟨_, .artifactLost, rfl⟩
  · exact Meets.pure rfl

theorem describeResult_meets (name : String) (evidence : EvidenceMeta) (content : Json.Value)
    {session : Session} :
    Meets (protocol codec) (describeResult deployment context name evidence content)
      (.within session stage) (fun _ after => after = .within session stage)
      (closing session.toDrive) := by
  unfold describeResult
  refine Meets.bind ((storeArtifact_meets deployment _).mono ?_ fun _ _ lost => lost)
  rintro artifactRef _ rfl
  refine Meets.bind (Async.meets_ask fun fresh => ⟨.within session stage, .quiet trivial, ?_⟩)
  dsimp only
  split <;> exact Meets.pure rfl

theorem emitToolResult_meets {call : Call} (completable : stage.completable = some call)
    (causation : Option EventId) (name : String) (output : ToolOutput) (success : Bool) :
    Meets (protocol codec)
      (emitToolResult deployment context causation call.callId name output success)
      (.within (sessionOf context origin) stage)
      (fun _ after => after = .within (sessionOf context origin) .driving)
      (closing (sessionOf context origin).toDrive) := by
  unfold emitToolResult
  cases success with
  | false => exact emitResult_meets deployment completable _ _ _ _ _
  | true =>
      refine Meets.bind ((describeResult_meets deployment _ _ _).mono ?_ fun _ _ lost => lost)
      rintro ⟨evidence, content⟩ _ rfl
      exact emitResult_meets deployment completable _ _ _ _ _

theorem emitToolError_meets (call : Call) (completable : stage.completable = some call)
    (causation : Option EventId) (name : String) (arguments : Json.Value) (error : OpsCodexError) :
    Meets (protocol codec)
      (emitToolError deployment context causation call.callId name arguments error)
      (.within (sessionOf context origin) stage)
      (fun _ after => after = .within (sessionOf context origin) .driving)
      (closing (sessionOf context origin).toDrive) := by
  unfold emitToolError
  refine Meets.bind (Async.meets_ask fun observed => ⟨_, .quiet trivial, ?_⟩)
  refine Meets.bind (Async.meets_ask fun stamped => ⟨_, .quiet trivial, ?_⟩)
  exact emitToolResult_meets deployment completable _ _ _ _

/-- An event about a call moves the call on, unless the store fails. -/
theorem emitNext_meets {event : RuntimeEvent} {after : Stage} (causation : Option EventId)
    (appends : ∀ command : AppendEvent, command.threadId = context.threadId →
      command.turnId = some context.turnId → command.event = event →
      Appends (sessionOf context origin) stage command after) :
    Meets (protocol codec) (emitNext context causation event)
      (.within (sessionOf context origin) stage)
      (fun _ final => final = .within (sessionOf context origin) after)
      (closing (sessionOf context origin).toDrive) := by
  refine Meets.bind (Async.meets_write fun answer => ?_)
  cases answer with
  | error error => exact ⟨.failing _, .appendFailed (appends _ rfl rfl rfl), rfl⟩
  | ok envelope => exact ⟨_, .append (appends _ rfl rfl rfl), Meets.pure rfl⟩

/-- The row of a decided call is written back with another status. -/
theorem settleRow_meets {session : Session} {call : Call} {approvalId : ApprovalId}
    {approved : Bool} (durable : DurableApproval) {status : ApprovalStatus}
    (agrees : status = .approved ↔ approved = true) (settled : status ≠ .pending) :
    Meets (protocol codec) (Async.write (.putApproval { durable with status := status })).attempt
      (.within session (.settling call approvalId approved durable))
      (fun _ after => after = .within session (.decided call approvalId approved))
      (closing session.toDrive) :=
  Meets.attempt fun answer => ⟨_, .settle agrees settled, by cases answer <;> rfl⟩

theorem awaitApproval_meets {call : Call} {approvalId : ApprovalId} (receiver : Nat)
    (name : String) (arguments : Json.Value) (schemaHash : String) (expiresAt : DateTime) :
    Meets (protocol codec)
      (awaitApproval deployment context receiver approvalId name arguments schemaHash expiresAt)
      (.within (sessionOf context origin) (.announced call approvalId))
      (fun approved after =>
        after = .within (sessionOf context origin) (.decided call approvalId approved))
      (closing (sessionOf context origin).toDrive) := by
  unfold awaitApproval
  refine Meets.bind (Async.meets_ask fun decision => ?_)
  cases decision with
  | cancelled => exact ⟨_, .unanswered (.inr rfl), Meets.throw rfl⟩
  | closed => exact ⟨_, .unanswered (.inl rfl), Meets.throw rfl⟩
  | answered approved => exact ⟨_, .answer, Meets.pure rfl⟩
  | elapsed =>
      refine ⟨_, .elapse, ?_⟩
      refine Meets.bind (Async.meets_read fun answer => ?_)
      cases answer with
      | error error => exact ⟨_, .quiet trivial, rfl⟩
      | ok stored =>
          cases stored with
          | none =>
              refine ⟨.within _ (.decided call approvalId false), .quiet trivial, ?_⟩
              refine Meets.bind (Meets.attempt (Async.meets_write fun answer =>
                ⟨.within _ (.decided call approvalId false), .settleMissing rfl rfl, ?_⟩))
              cases answer <;> exact Meets.pure rfl
          | some durable =>
              refine ⟨_, .reread, ?_⟩
              refine Meets.bind ((settleRow_meets durable (by simp) (by simp)).mono ?_
                fun _ _ lost => lost)
              rintro _ _ rfl
              exact Meets.pure rfl

theorem settleApproval_meets {session : Session} {call : Call} {approvalId : ApprovalId}
    (approved : Bool) :
    Meets (protocol codec) (settleApproval approvalId approved)
      (.within session (.decided call approvalId approved))
      (fun _ after => after = .within session (.decided call approvalId approved))
      (closing session.toDrive) := by
  unfold settleApproval
  refine Meets.bind (Async.meets_read fun answer => ?_)
  cases answer with
  | error error => exact ⟨_, .quiet trivial, rfl⟩
  | ok stored =>
      cases stored with
      | none => exact ⟨_, .quiet trivial, Meets.pure rfl⟩
      | some durable =>
          refine ⟨_, .reread, ?_⟩
          refine Meets.bind ((settleRow_meets durable ?_ ?_).mono ?_ fun _ _ lost => lost)
          · cases approved
            · simp only [Bool.false_eq_true, if_false]
              split <;> simp
            · simp
          · cases approved
            · simp only [Bool.false_eq_true, if_false]
              split <;> simp
            · simp
          · rintro _ _ rfl
            exact Meets.pure rfl

theorem fileApproval_meets {call : Call} {descriptor : CapabilityDescriptor}
    (found : context.tools.descriptor call.tool = .ok descriptor) (causation : Option EventId)
    (approvalId : ApprovalId) (requestHash schemaHash : String) :
    Meets (protocol codec)
      (fileApproval deployment context causation call.callId call.tool call.arguments descriptor
        approvalId requestHash schemaHash)
      (.within (sessionOf context origin) (.asking call approvalId))
      (fun _ after => after = .within (sessionOf context origin) (.announced call approvalId))
      (closing (sessionOf context origin).toDrive) := by
  unfold fileApproval
  refine quietly (uses_ask trivial) (fun now => ?_) fun _ => rfl
  refine Meets.bind (Async.meets_write fun answer => ?_)
  cases answer with
  | error error => exact ⟨_, .fileFailed, rfl⟩
  | ok =>
      refine ⟨.within _ (.asked call approvalId), .file rfl rfl rfl, ?_⟩
      refine Meets.bind (writeCheckpoint_meets deployment (.parked call approvalId) ?_ ?_ ?_ ?_)
      · intro checkpoint turn thread phase pending
        exact .park ⟨turn, thread, phase, descriptor, found, pending⟩
      · refine Meets.bind ((emitNext_meets _ fun _ thread turn event =>
          .announce thread turn event).mono ?_ fun _ _ lost => lost)
        rintro _ _ rfl
        exact Meets.pure rfl
      · exact fun _ => rfl
      · exact fun _ => rfl

theorem requestApproval_meets {call : Call} {descriptor : CapabilityDescriptor}
    (found : context.tools.descriptor call.tool = .ok descriptor) (causation : Option EventId) :
    Meets (protocol codec)
      (requestApproval deployment context causation call.callId call.tool call.arguments
        descriptor)
      (.within (sessionOf context origin) (.proposed call))
      (fun reply after => ∃ approvalId, after = .within (sessionOf context origin)
        (if reply.2 then .allowed call (some approvalId) else .denied call))
      (closing (sessionOf context origin).toDrive) := by
  unfold requestApproval
  refine Meets.bind (Async.meets_ask fun fresh => ⟨_, .identify, ?_⟩)
  refine Meets.bind (Async.meets_ask fun receiver =>
    ⟨.within _ (.asking call ⟨fresh⟩), .ask rfl, ?_⟩)
  refine Meets.bind (Meets.orElseDo ((fileApproval_meets deployment found _ _ _ _).mono ?_ ?_))
  · rintro ⟨expiresAt, filed⟩ _ rfl
    refine Meets.bind ((awaitApproval_meets deployment _ _ _ _ _).mono ?_ fun _ _ lost => lost)
    rintro approved _ rfl
    refine Meets.bind ((settleApproval_meets approved).mono ?_ fun _ _ lost => lost)
    rintro _ _ rfl
    refine Meets.bind ((emitNext_meets _ fun _ thread turn event =>
      .resolve thread turn event).mono ?_ fun _ _ lost => lost)
    rintro _ _ rfl
    cases approved with
    | true =>
        refine Meets.bind ((emitNext_meets _ fun _ thread turn event =>
          .allowApproved thread turn event).mono ?_ fun _ _ lost => lost)
        rintro _ _ rfl
        exact Meets.pure ⟨_, rfl⟩
    | false =>
        refine Meets.bind ((emitNext_meets _ fun _ thread turn event =>
          .denyRefused thread turn event).mono ?_ fun _ _ lost => lost)
        rintro _ _ rfl
        exact Meets.pure ⟨⟨fresh⟩, rfl⟩
  · intro error after closed
    exact fun _ => ⟨after, .quiet trivial, closed⟩

/-- What a decision about a call leaves the control point at. -/
def Authorized (session : Session) (call : Call) : Authorization → Control → Prop
  | .refused _, after => after = .within session .driving
  | .proceed _, after => ∃ stage grant, after = .within session stage ∧
      stage.startable = some (call, grant)

theorem refuse_meets (call : Call) (completable : stage.completable = some call)
    (causation : Option EventId) (error : OpsCodexError) :
    Meets (protocol codec)
      (Authorization.refused <$> emitToolError deployment context causation call.callId call.tool
        call.arguments error)
      (.within (sessionOf context origin) stage) (Authorized (sessionOf context origin) call)
      (closing (sessionOf context origin).toDrive) :=
  (emitToolError_meets deployment call completable _ _ _ _).map fun _ _ reached => reached

theorem authorizeTool_meets (call : Call) {descriptor : CapabilityDescriptor}
    (found : context.tools.descriptor call.tool = .ok descriptor) (causation : Option EventId) :
    Meets (protocol codec)
      (authorizeTool deployment context causation call.callId call.tool call.arguments
        descriptor)
      (.within (sessionOf context origin) (.proposed call))
      (Authorized (sessionOf context origin) call)
      (closing (sessionOf context origin).toDrive) := by
  unfold authorizeTool
  dsimp only
  split
  · refine Meets.bind ((emitNext_meets _ fun _ thread turn event =>
      .deny thread turn event).mono ?_ fun _ _ lost => lost)
    rintro _ _ rfl
    exact refuse_meets deployment call rfl _ _
  · refine Meets.bind ((emitNext_meets _ fun _ thread turn event =>
      .allow thread turn event).mono ?_ fun _ _ lost => lost)
    rintro _ _ rfl
    refine Meets.pure ?_
    exact ⟨.allowed call none, none, rfl, rfl⟩
  · refine Meets.bind ((requestApproval_meets deployment found _).mono ?_ fun _ _ lost => lost)
    rintro ⟨causation, approved⟩ _ ⟨approvalId, rfl⟩
    cases approved with
    | false => exact refuse_meets deployment call rfl _ _
    | true =>
        simp only [found, Bool.not_true, Bool.false_eq_true, if_false, ne_eq, not_true_eq_false]
        refine Meets.pure ?_
        exact ⟨.allowed call (some approvalId), some approvalId, rfl, rfl⟩

theorem startTool_meets {call : Call} {grant : Option ApprovalId}
    (startable : stage.startable = some (call, grant)) {descriptor : CapabilityDescriptor}
    (found : context.tools.descriptor call.tool = .ok descriptor) (causation : Option EventId) :
    Meets (protocol codec)
      (startTool deployment context causation call.callId call.tool call.arguments descriptor)
      (.within (sessionOf context origin) stage)
      (fun _ after => after = .within (sessionOf context origin) .driving)
      (closing (sessionOf context origin).toDrive) := by
  unfold startTool
  refine Meets.bind (writeCheckpoint_meets deployment (.readied call grant) ?_ ?_ ?_ ?_)
  · intro checkpoint turn thread phase pending
    exact .ready startable ⟨turn, thread, phase, descriptor, found, pending⟩
  · refine Meets.bind ((emitNext_meets _ fun _ thread turn event =>
      .begin thread turn event).mono ?_ fun _ _ lost => lost)
    rintro _ _ rfl
    refine Meets.bind (Async.meets_ask fun ending => ?_)
    cases ending with
    | cancelled => exact ⟨_, .abandon, rfl⟩
    | elapsed =>
        exact ⟨_, .start (by simp), emitToolError_meets deployment call rfl _ _ _ _⟩
    | finished outcome durationMs =>
        refine ⟨_, .start (by simp), ?_⟩
        cases outcome with
        | ok output => exact emitToolResult_meets deployment rfl _ _ _ _
        | error error => exact emitToolError_meets deployment call rfl _ _ _ _
  · exact fun _ => closable_within (Stage.resting_of_startable startable)
  · exact fun _ => rfl

theorem executeTool_meets_fresh (callId name : String) (arguments : Json.Value) :
    Meets (protocol codec) (executeTool deployment context callId name arguments false)
      (.within (sessionOf context origin) .driving)
      (fun _ after => after = .within (sessionOf context origin) .driving)
      (closing (sessionOf context origin).toDrive) := by
  unfold executeTool
  let call : Call := ⟨callId, name, arguments⟩
  refine Meets.bind (Meets.bind (Async.meets_write fun answer => ?_))
  have propose : Appends (sessionOf context origin) .driving {
      threadId := context.threadId, turnId := some context.turnId, itemId := none
      causationId := context.causationId, streamKind := none
      event := .toolProposed callId name arguments } (.proposed call) := .propose rfl rfl rfl
  cases answer with
  | error error => exact ⟨_, .appendFailed propose, rfl⟩
  | ok envelope =>
      refine ⟨_, .append propose, ?_⟩
      refine Meets.pure ?_
      cases found : context.tools.descriptor name with
      | error error => exact emitToolError_meets deployment call rfl _ _ _ _
      | ok descriptor =>
          refine Meets.bind ((authorizeTool_meets deployment call found _).mono ?_
            fun _ _ lost => lost)
          intro authorization after authorized
          cases authorization with
          | refused eventId => exact Meets.pure authorized
          | proceed causation =>
              obtain ⟨stage, grant, rfl, startable⟩ := authorized
              exact startTool_meets deployment startable found _

theorem executeTool_meets_authorized {call : Call} {grant : Option ApprovalId}
    (startable : stage.startable = some (call, grant)) :
    Meets (protocol codec)
      (executeTool deployment context call.callId call.tool call.arguments true)
      (.within (sessionOf context origin) stage)
      (fun _ after => after = .within (sessionOf context origin) .driving)
      (closing (sessionOf context origin).toDrive) := by
  unfold executeTool
  refine Meets.bind (Meets.pure ?_)
  cases found : context.tools.descriptor call.tool with
  | error error =>
      exact emitToolError_meets deployment call (Stage.completable_of_startable startable) _ _ _ _
  | ok descriptor => exact Meets.bind (Meets.pure (startTool_meets deployment startable found _))

theorem expirePending_meets {session : Session} {call : Call} (stored : DurableApproval) :
    Meets (protocol codec) (expirePending stored) (.within session (.selected call stored))
      (fun pending after => after = .within session (.selected call stored) ∧
        (pending = stored ∨ pending = { stored with status := .expired }))
      (closing session.toDrive) := by
  unfold expirePending
  split
  · exact Meets.pure ⟨rfl, .inl rfl⟩
  · refine Meets.bind (Async.meets_ask fun now => ⟨_, .quiet trivial, ?_⟩)
    split
    · rename_i due
      have pending : stored.status = .pending := due.2
      refine Meets.bind (Async.meets_write fun answer => ⟨_, .refuse pending, ?_⟩)
      cases answer with
      | ok => exact Meets.pure ⟨rfl, .inr rfl⟩
      | error error => rfl
    · exact Meets.pure ⟨rfl, .inl rfl⟩

theorem expirePending_meets_approved {control : Control} {stored : DurableApproval}
    (approved : stored.status = .approved) {failed : OpsCodexError → Control → Prop} :
    Meets (protocol codec) (expirePending stored) control
      (fun pending after => after = control ∧ pending = stored) failed := by
  unfold expirePending
  split
  · exact Meets.pure ⟨rfl, rfl⟩
  · refine Meets.bind (Async.meets_ask fun now => ⟨_, .quiet trivial, ?_⟩)
    rw [if_neg (by simp [approved])]
    exact Meets.pure ⟨rfl, rfl⟩

/-- Where a decision on a restored approval leaves the call. -/
def Decided (codec : Codec) (session : Session) (call : Call) (stored : DurableApproval)
    (approved : Bool) (after : Control) : Prop :=
  if approved = true ∧ approvalRequestHash codec call.tool call.arguments stored.schemaHash =
      stored.requestHash then
    after = .within session (.granted call (some stored.approvalId))
  else after = .within session (.selected call stored)

theorem awaitRestored_meets {session : Session} {call : Call} {stored : DurableApproval}
    {threadId : ThreadId} {turnId : TurnId} (pending : stored.status = .pending)
    (thread : threadId = session.threadId) (turn : turnId = session.turnId) :
    Meets (protocol codec) (awaitRestored threadId turnId stored)
      (.within session (.selected call stored)) (Decided codec session call stored)
      (closing session.toDrive) := by
  unfold awaitRestored
  have decided (approved : Bool) : Meets (protocol codec) (do
      Async.write (.putApproval { stored with
        status := if approved then .approved else .rejected })
      let _ ← (emit threadId (some turnId) none
        (.approvalResolved stored.approvalId approved)).attempt
      return approved)
      (.within session (.selected call stored)) (Decided codec session call stored)
      (closing session.toDrive) := by
    refine Meets.bind (Async.meets_write fun answer => ?_)
    cases answer with
    | error error => exact ⟨_, .refuse pending, rfl⟩
    | ok =>
        by_cases bound : approved = true ∧ approvalRequestHash codec call.tool call.arguments
            stored.schemaHash = stored.requestHash
        · obtain ⟨rfl, bound⟩ := bound
          refine ⟨_, .grant pending bound, ?_⟩
          refine Meets.bind (Meets.attempt (Async.meets_write fun answer =>
            ⟨_, .note (.granted thread (congrArg some turn) rfl), ?_⟩))
          cases answer <;> exact Meets.pure (by rw [Decided, if_pos ⟨rfl, bound⟩])
        · refine ⟨_, .refuse pending, ?_⟩
          refine Meets.bind (Meets.attempt (Async.meets_write fun answer =>
            ⟨_, .note (.selected pending thread (congrArg some turn) rfl), ?_⟩))
          cases answer <;> exact Meets.pure (by rw [Decided, if_neg bound])
  dsimp only
  refine Meets.bind (Async.meets_ask fun receiver => ⟨_, .restore pending rfl, ?_⟩)
  refine Meets.bind (Async.meets_ask fun decision => ⟨_, .wait pending, ?_⟩)
  cases decision with
  | answered approved => exact decided approved
  | closed => exact decided false
  | cancelled => exact Meets.throw rfl
  | elapsed => exact Meets.throw rfl

/-- The last checks on a restored approval let only a bound call proceed. -/
theorem resumeChecks_meets {operation : PendingOperation} {pending : DurableApproval}
    (resting : stage.isRunning = false)
    (checked : Bound codec (.ofOperation operation) pending →
      ∃ grant, stage.startable = some (Call.ofOperation operation, grant)) :
    Meets (protocol codec) (do
        let descriptor ← Async.ofResult (context.tools.descriptor operation.tool)
        if pending.schemaHash.any fun hash =>
            decide (hash ≠ descriptor.provenance.schemaHash) then
          throw (.policy "capability schema changed; approval invalidated")
        else if approvalRequestHash codec operation.tool operation.arguments
            pending.schemaHash ≠ pending.requestHash then
          throw (.policy "approval request hash mismatch; refusing to execute")
        else return .proceed none)
      (.within (sessionOf context origin) stage)
      (Authorized (sessionOf context origin) (.ofOperation operation))
      (closing (sessionOf context origin).toDrive) := by
  refine quietly (uses_ofResult _) (fun descriptor => ?_) fun _ => closable_within resting
  split
  · exact Meets.throw (closable_within resting)
  · split
    · exact Meets.throw (closable_within resting)
    · rename_i bound
      obtain ⟨grant, startable⟩ := checked (Classical.not_not.mp bound)
      exact Meets.pure ⟨stage, grant, rfl, startable⟩

theorem authorizeResumed_meets (operation : PendingOperation) :
    Meets (protocol deployment.codec) (authorizeResumed deployment context operation)
      (.within (sessionOf context origin) (.authorizing (.ofOperation operation)))
      (Authorized (sessionOf context origin) (.ofOperation operation))
      (closing (sessionOf context origin).toDrive) := by
  unfold authorizeResumed
  refine Meets.bind (Async.meets_read fun answer => ?_)
  cases answer with
  | error error => exact ⟨_, .quiet trivial, rfl⟩
  | ok found =>
      cases found with
      | none => exact ⟨_, .quiet trivial, rfl⟩
      | some stored =>
          by_cases trusted : stored.status = .approved ∧
              Bound deployment.codec (.ofOperation operation) stored
          · refine ⟨_, .trust trusted.1 trusted.2, ?_⟩
            refine Meets.bind ((expirePending_meets_approved trusted.1).mono ?_
              fun _ _ lost => lost)
            rintro pending _ ⟨rfl, rfl⟩
            rw [trusted.1]
            exact Meets.bind (Meets.pure (resumeChecks_meets rfl fun _ => ⟨_, rfl⟩))
          · refine ⟨_, .select, ?_⟩
            refine Meets.bind ((expirePending_meets stored).mono ?_ fun _ _ lost => lost)
            rintro pending _ ⟨rfl, same⟩
            have refused : Meets (protocol deployment.codec) (Authorization.refused <$>
                emitToolError deployment context none operation.callId operation.tool
                  operation.arguments (.policy "approval rejected"))
                (.within (sessionOf context origin) (.selected (.ofOperation operation) stored))
                (Authorized (sessionOf context origin) (.ofOperation operation))
                (closing (sessionOf context origin).toDrive) :=
              refuse_meets deployment (.ofOperation operation) rfl _ _
            cases status : pending.status with
            | rejected => exact Meets.bind (Meets.pure refused)
            | expired => exact Meets.bind (Meets.pure refused)
            | approved =>
                obtain rfl : pending = stored := same.resolve_right (by rintro rfl; cases status)
                exact Meets.bind (Meets.pure (resumeChecks_meets rfl fun bound =>
                  absurd ⟨status, bound⟩ trusted))
            | pending =>
                obtain rfl : pending = stored := same.resolve_right (by rintro rfl; cases status)
                have restored : Meets (protocol deployment.codec)
                    (awaitRestored context.threadId context.turnId pending)
                    (.within (sessionOf context origin)
                      (.selected (.ofOperation operation) pending))
                    (Decided deployment.codec (sessionOf context origin) (.ofOperation operation)
                      pending)
                    (closing (sessionOf context origin).toDrive) :=
                  awaitRestored_meets status rfl rfl
                refine Meets.bind (restored.mono ?_ fun _ _ lost => lost)
                intro approved after decided
                cases approved with
                | false =>
                    obtain rfl : after = _ := decided
                    exact refused
                | true =>
                    by_cases bound : Bound deployment.codec (.ofOperation operation) pending
                    · obtain rfl : after = .within _ (.granted _ _) := by
                        unfold Decided at decided
                        rwa [if_pos ⟨rfl, bound⟩] at decided
                      exact resumeChecks_meets rfl fun _ => ⟨_, rfl⟩
                    · obtain rfl : after = .within _ (.selected _ _) := by
                        unfold Decided at decided
                        rwa [if_neg fun both => bound both.2] at decided
                      exact resumeChecks_meets rfl fun checked => absurd checked bound

theorem resumePendingTool_meets (operation : PendingOperation) (policy : ResumePolicy)
    (opening : stage = if policy = .waitApproval then .authorizing (.ofOperation operation)
      else .granted (.ofOperation operation) none) :
    Meets (protocol deployment.codec) (resumePendingTool deployment context operation policy)
      (.within (sessionOf context origin) stage)
      (fun _ after => after = .within (sessionOf context origin) .driving)
      (closing (sessionOf context origin).toDrive) := by
  unfold resumePendingTool
  have run {control : Control} {stage : Stage} {grant : Option ApprovalId}
      (resumed : control = .within (sessionOf context origin) stage)
      (startable : stage.startable = some (Call.ofOperation operation, grant)) :
      Meets (protocol deployment.codec)
        (executeTool deployment context operation.callId operation.tool operation.arguments true)
        control
        (fun _ after => after = .within (sessionOf context origin) .driving)
        (closing (sessionOf context origin).toDrive) := by
    subst resumed
    exact executeTool_meets_authorized deployment startable
  subst opening
  split
  · refine Meets.bind ((authorizeResumed_meets deployment operation).mono ?_ fun _ _ lost => lost)
    intro authorization after reached
    cases authorization with
    | refused eventId => exact Meets.pure reached
    | proceed causation =>
        obtain ⟨stage, grant, resumed, startable⟩ := reached
        exact run resumed startable
  · exact Meets.bind (Meets.pure (run rfl rfl))

theorem uses_emitDeltas (threadId : ThreadId) (turnId : TurnId) (deltas : List String)
    (last : Option EventId) : Fallible.Uses Quiet (emitDeltas threadId turnId deltas last) := by
  induction deltas generalizing last with
  | nil => exact Fallible.Uses.pure
  | cons delta deltas ih =>
      exact Fallible.Uses.bind (uses_emit (by exact rfl) _ _ _) fun envelope => ih _

theorem uses_completeModel (threadId : ThreadId) (turnId : TurnId) (causation : Option EventId)
    (request : ModelRequest) :
    Fallible.Uses Quiet (completeModel threadId turnId causation request) := by
  unfold completeModel
  refine Fallible.Uses.bind (uses_ask trivial) fun run => ?_
  refine Fallible.Uses.bind (uses_emitDeltas _ _ _ _) fun last => ?_
  cases run.ending with
  | cancelled => exact Fallible.Uses.throw
  | elapsed => exact Fallible.Uses.throw
  | finished outcome =>
      exact Fallible.Uses.bind (uses_ofResult _) fun _ => Fallible.Uses.pure

theorem uses_maybeCompact (threadId : ThreadId) (turnId : TurnId) :
    Fallible.Uses Quiet (maybeCompact deployment threadId turnId) := by
  unfold maybeCompact
  refine Fallible.Uses.bind (uses_read (by exact trivial)) fun history => ?_
  dsimp only
  split
  · exact Fallible.Uses.pure
  · split
    · split
      · exact Fallible.Uses.pure
      · refine Fallible.Uses.bind (uses_ask trivial) fun summaryId => ?_
        refine Fallible.Uses.bind (uses_emit (by exact rfl) _ _ _).attempt fun _ => ?_
        exact Fallible.Uses.pure
    · exact Fallible.Uses.pure

theorem runOutputs_meets (streamed : Bool) (outputs : List ModelOutput)
    (last : Option EventId) (calledTool : Bool) :
    Meets (protocol codec) (runOutputs deployment context streamed outputs last calledTool)
      (.within (sessionOf context origin) .driving)
      (fun _ after => after = .within (sessionOf context origin) .driving)
      (closing (sessionOf context origin).toDrive) := by
  induction outputs generalizing last calledTool with
  | nil => exact Meets.pure rfl
  | cons output outputs ih =>
      cases output with
      | message content =>
          unfold runOutputs
          have streams : Fallible.Uses Quiet (if streamed then pure last
              else emitNext context last (.assistantDelta content) : Async (Option EventId)) := by
            split
            · exact Fallible.Uses.pure
            · exact uses_emitNext (by exact rfl) _ _
          refine quietly streams (fun last => ?_) fun _ => rfl
          refine quietly (uses_ask trivial) (fun seed => ?_) fun _ => rfl
          refine quietly (uses_read (by exact trivial)) (fun events => ?_) fun _ => rfl
          refine quietly (uses_emitNext (by exact rfl) _ _) (fun last => ?_) fun _ => rfl
          exact ih _ _
      | toolCall callId name arguments =>
          unfold runOutputs
          refine Meets.bind ((executeTool_meets_fresh deployment callId name arguments).mono ?_
            fun _ _ lost => lost)
          rintro eventId _ rfl
          exact ih _ _

theorem modelLoop_meets (instructions : String) (remaining : Nat) (step : UInt32)
    (last : Option EventId) :
    Meets (protocol codec) (modelLoop deployment context instructions remaining step last)
      (.within (sessionOf context origin) .driving)
      (closing (sessionOf context origin).toDrive)
      (closing (sessionOf context origin).toDrive) := by
  induction remaining generalizing step last with
  | zero => exact Meets.throw rfl
  | succ remaining ih =>
      unfold modelLoop
      refine quietly (uses_maybeCompact deployment _ _) (fun _ => ?_) fun _ => rfl
      refine Meets.bind (writeCheckpoint_meets deployment .driving ?_ ?_ ?_ ?_)
      · intro checkpoint turn thread phase free
        exact .plain (.inl rfl) ⟨turn, thread, by simp [phase], free⟩
      · refine quietly (uses_read (by exact trivial)) (fun input => ?_) fun _ => rfl
        refine quietly (uses_completeModel _ _ _ _) (fun completion => ?_) fun _ => rfl
        refine Meets.bind ((runOutputs_meets deployment completion.2.1 completion.1 _ _).mono ?_
          fun _ _ lost => lost)
        rintro ⟨last, calledTool⟩ _ rfl
        cases calledTool with
        | true => exact ih _ _
        | false =>
            refine Meets.bind (writeCheckpoint_meets deployment .driving ?_ ?_ ?_ ?_)
            · intro checkpoint turn thread phase free
              exact .plain (.inl rfl) ⟨turn, thread, by simp [phase], free⟩
            · refine quietly (uses_emit (by exact rfl) _ _ _) (fun _ => ?_) fun _ => rfl
              exact Meets.pure rfl
            · exact fun _ => rfl
            · exact fun _ => rfl
      · exact fun _ => rfl
      · exact fun _ => rfl

/-- A start of a turn that belongs to an origin. -/
def Opens : TurnStart → Origin → Prop
  | .fresh _, .fresh => True
  | .resume report, .resumed checkpoint events => report = classifyCheckpoint checkpoint events
  | _, _ => False

theorem enterTurn_meets {start : TurnStart} (opens : Opens start origin) :
    Meets (protocol deployment.codec) (enterTurn deployment context start)
      (.within (sessionOf context origin) (sessionOf context origin).opening)
      (fun _ after => after = .within (sessionOf context origin) .driving)
      (closing (sessionOf context origin).toDrive) := by
  cases start with
  | fresh input =>
      cases origin with
      | resumed => exact opens.elim
      | fresh =>
          refine quietly (uses_emit (by exact rfl) _ _ _) (fun _ => ?_) fun _ => rfl
          refine quietly (uses_emit (by exact rfl) _ _ _) (fun _ => ?_) fun _ => rfl
          refine Meets.bind (writeCheckpoint_meets deployment .driving ?_ ?_ ?_ ?_)
          · intro checkpoint turn thread phase free
            exact .plain (.inl rfl) ⟨turn, thread, by simp [phase], free⟩
          · exact Meets.pure rfl
          · exact fun _ => rfl
          · exact fun _ => rfl
  | resume report =>
      cases origin with
      | fresh => exact opens.elim
      | resumed checkpoint events =>
          obtain rfl : report = classifyCheckpoint checkpoint events := opens
          have resting :=
            Drive.opening_resting (sessionOf context (.resumed checkpoint events)).toDrive
          have recorded : (classifyCheckpoint checkpoint events).checkpoint = some checkpoint := rfl
          by_cases reconcile : (classifyCheckpoint checkpoint events).resumePolicy = .reconcile
          · simp only [enterTurn, if_pos reconcile]
            refine Meets.throw ?_
            exact closable_within resting
          cases pending : checkpoint.pendingOperation with
          | none =>
              simp only [enterTurn, if_neg reconcile, recorded, Option.bind_some, pending]
              refine Meets.pure ?_
              exact congrArg _ (Drive.opening_free (by simp [pending]))
          | some operation =>
              by_cases resumes : (classifyCheckpoint checkpoint events).resumePolicy = .retryObserve
                  ∨ (classifyCheckpoint checkpoint events).resumePolicy = .waitApproval
              · simp only [enterTurn, if_neg reconcile, recorded, Option.bind_some, pending,
                  if_pos resumes]
                refine Meets.bind ((resumePendingTool_meets deployment operation _ ?_).mono ?_
                  fun _ _ lost => lost)
                · rcases resumes with retry | wait
                  · simp [Drive.opening, sessionOf, pending, retry]
                  · simp [Drive.opening, sessionOf, pending, wait]
                · exact fun _ _ reached => Meets.pure reached
              · simp only [enterTurn, if_neg reconcile, recorded, Option.bind_some, pending,
                  if_neg resumes]
                refine Meets.pure ?_
                exact congrArg _ (Drive.opening_free fun _ _ => not_or.mp resumes)

theorem runTurnInner_meets (drive : Drive) {start : TurnStart}
    (opens : Opens start drive.origin) (lease : Lease) :
    Meets (protocol deployment.codec)
      (runTurnInner deployment drive.threadId drive.turnId start lease)
      (.entered drive) (closing drive) (closing drive) := by
  unfold runTurnInner
  refine Meets.bind (Async.meets_read fun answer => ?_)
  cases answer with
  | error error => exact ⟨_, .quiet trivial, rfl⟩
  | ok thread =>
      refine ⟨_, .situate, ?_⟩
      refine Meets.bind (Async.meets_ask fun catalog => ?_)
      cases found : catalog.toolsFor thread.workspaceId with
      | error error =>
          refine ⟨_, .quiet trivial, ?_⟩
          refine quietly (uses_ofResult _) (fun _ => ?_) fun _ => rfl
          exact Meets.bind (Meets.throw rfl)
      | ok tools =>
          refine ⟨_, .equip found, ?_⟩
          have resting := drive.opening_resting
          refine quietly (uses_ofResult _) (fun _ => ?_) fun _ => closable_within resting
          refine Async.meets_ok ?_
          refine Meets.bind ((enterTurn_meets deployment opens).mono ?_ fun _ _ lost => lost)
          rintro ⟨step, last⟩ _ rfl
          exact modelLoop_meets deployment _ _ _ _

/-- The point of a call that can give up the guard of its thread. -/
abbrev leaving {Value : Type} (drive : Drive) : Value → Control → Prop :=
  fun _ after => after.leavable = some drive

theorem withThread_meets {codec : Codec} (drive : Drive) {Value : Type} {body : Async Value}
    (cancellable : Bool)
    (meets : Meets (protocol codec) body (.guarded drive) (leaving drive) (leaving drive)) :
    Meets (protocol codec) (withThread drive.threadId cancellable body) (.waiting drive)
      outside outside := by
  unfold withThread
  refine Meets.bind fun permit => ⟨.waiting drive, .quiet trivial, ?_⟩
  have released (after : Control) (unguarded : after.guards = none) {Value : Type}
      (value : Value) :
      Conforms (protocol codec) (Program.perform (I := serviceInterface) .releasePermit) after
        fun _ final => outside value final := fun answer => ⟨after, .quiet trivial, unguarded⟩
  cases permit with
  | error error => rfl
  | ok =>
      refine Meets.andFinally (Meets.bind (Async.meets_ask fun entered => ?_))
      cases entered with
      | false => exact ⟨_, .barred, Meets.throw (released _ rfl _)⟩
      | true =>
          refine ⟨_, .enter, Meets.andFinally (meets.mono ?_ ?_)⟩
          · exact fun value after leavable answer => ⟨.idle, .leave leavable, released _ rfl value⟩
          · exact fun error after leavable answer => ⟨.idle, .leave leavable, released _ rfl error⟩

theorem driveTurn_meets (threadId : ThreadId) (turnId : TurnId) (input : TurnInput) :
    Meets (protocol deployment.codec) (driveTurn deployment threadId turnId input)
      (.guarded ⟨threadId, turnId, .fresh⟩) (leaving ⟨threadId, turnId, .fresh⟩)
      (leaving ⟨threadId, turnId, .fresh⟩) := by
  unfold driveTurn
  refine quietly (uses_ask trivial) (fun catalog => ?_) fun _ => rfl
  refine Meets.bind (Async.meets_write fun answer => ?_)
  cases answer with
  | error error => exact ⟨_, .unleased, rfl⟩
  | ok lease =>
      refine ⟨_, .lease rfl, ?_⟩
      refine quietly (uses_ask trivial) (fun now => ?_) fun _ => rfl
      refine Meets.bind (Async.meets_write fun answer => ?_)
      cases answer with
      | error error => exact ⟨_, .beginFailed rfl rfl rfl, rfl⟩
      | ok =>
          refine ⟨_, .begin rfl rfl rfl, ?_⟩
          have opens : Opens (.fresh input) .fresh := trivial
          have inner := runTurnInner_meets deployment ⟨threadId, turnId, .fresh⟩ opens lease
          have ending (result : Result Unit) (after : Control)
              (closable : after.closable = some ⟨threadId, turnId, .fresh⟩) :
              Meets (protocol deployment.codec) (do
                let ended ← Async.ask .now
                let _ ← (Async.write (.upsertTurn
                  (turnRecord turnId threadId (finalStatus result) none none now ended))).attempt
                let _ ← (Async.write (.releaseLease lease.leaseId lease.fencingToken)).attempt
                Async.ofResult result) after (leaving ⟨threadId, turnId, .fresh⟩)
                (leaving ⟨threadId, turnId, .fresh⟩) := by
            refine Meets.bind (Async.meets_ask fun ended => ⟨after, .quiet trivial, ?_⟩)
            have closed : Meets (protocol deployment.codec)
                (Async.write (.upsertTurn (turnRecord turnId threadId (finalStatus result) none
                  none now ended))).attempt after
                (fun _ after => after = .failing ⟨threadId, turnId, .fresh⟩)
                (leaving ⟨threadId, turnId, .fresh⟩) :=
              Meets.attempt fun answer => ⟨_, .close closable rfl rfl, by cases answer <;> rfl⟩
            refine Meets.bind (closed.mono ?_ fun _ _ lost => lost)
            rintro _ _ rfl
            refine quietly (uses_write (by exact trivial)).attempt (fun _ => ?_) fun _ => rfl
            cases result with
            | ok value => exact Meets.pure rfl
            | error error => exact Meets.throw rfl
          refine Meets.bind (Meets.attempt (inner.mono ?_ ?_))
          · exact fun value after closable => ending (.ok value) after closable
          · exact fun error after closable => ending (.error error) after closable

theorem runTurn_meets (threadId : ThreadId) (turnId : TurnId) (input : TurnInput) :
    Meets (protocol deployment.codec) (runTurn deployment threadId turnId input)
      (.waiting ⟨threadId, turnId, .fresh⟩) outside outside := by
  unfold runTurn
  refine quietly (uses_ofResult _) (fun _ => ?_) fun _ => rfl
  have driven := withThread_meets ⟨threadId, turnId, .fresh⟩ true
    (driveTurn_meets deployment threadId turnId input)
  refine Meets.bind (Meets.attempt (driven.mono ?_ ?_))
  · exact fun _ _ unguarded => Meets.pure unguarded
  · intro error after unguarded
    have announce (event : RuntimeEvent)
        (quiet : event.decisive = false) :
        Meets (protocol deployment.codec) (do
          let _ ← (emit threadId (some turnId) none event).attempt
          throw error : Async Unit) after outside outside :=
      quietly (uses_emit quiet _ _ _).attempt (fun _ => Meets.throw unguarded) fun _ => unguarded
    cases error with
    | cancelled => exact announce _ rfl
    | _ => exact announce _ rfl

theorem recoveryReport_meets {codec : Codec} (turnId : TurnId) :
    Meets (protocol codec) (recoveryReport turnId) (.resuming turnId)
      (fun report after => ∃ checkpoint events, report = classifyCheckpoint checkpoint events ∧
        after.guards = none ∧ (report.resumePolicy ≠ .reconcile →
          after = .waiting ⟨checkpoint.threadId, turnId, .resumed checkpoint events⟩)) outside := by
  unfold recoveryReport
  refine Meets.bind (Async.meets_read fun turn => ?_)
  cases turn with
  | error error => exact ⟨_, .quiet trivial, rfl⟩
  | ok turn =>
      cases turn with
      | none => exact ⟨_, .quiet trivial, Meets.throw rfl⟩
      | some turn =>
          refine ⟨_, .trace, ?_⟩
          refine Meets.bind (Async.meets_read fun answer => ?_)
          cases answer with
          | error error => exact ⟨_, .unreported fun _ same => (by cases same), rfl⟩
          | ok found =>
              cases found with
              | none => exact ⟨_, .unreported fun _ same => (by cases same), rfl⟩
              | some checkpoint =>
                  refine ⟨_, .report, ?_⟩
                  refine Meets.bind (Async.meets_read fun answer => ?_)
                  cases answer with
                  | error error => exact ⟨_, .quiet trivial, rfl⟩
                  | ok events =>
                      by_cases reconcile :
                          (classifyCheckpoint checkpoint events).resumePolicy = .reconcile
                      · exact ⟨_, .quiet trivial, Meets.pure ⟨checkpoint, events, rfl, rfl,
                          fun drivable => absurd reconcile drivable⟩⟩
                      · exact ⟨_, .classify reconcile, Meets.pure
                          ⟨checkpoint, events, rfl, rfl, fun _ => rfl⟩⟩

theorem driveResumed_meets (turnId : TurnId) (checkpoint : CheckpointRecord)
    (events : List EventEnvelope) {drive : Drive}
    (resumed : drive = ⟨checkpoint.threadId, turnId, .resumed checkpoint events⟩) :
    Meets (protocol deployment.codec)
      (driveResumed deployment turnId (classifyCheckpoint checkpoint events))
      (.guarded drive) (leaving drive) (leaving drive) := by
  subst resumed
  unfold driveResumed
  refine quietly (uses_ask trivial) (fun catalog => ?_) fun _ => rfl
  refine Meets.bind (Async.meets_write fun answer => ?_)
  cases answer with
  | error error => exact ⟨_, .unleased, rfl⟩
  | ok lease =>
      refine ⟨_, .leaseResumed, ?_⟩
      have opens : Opens (.resume (classifyCheckpoint checkpoint events))
          (.resumed checkpoint events) := rfl
      have inner := runTurnInner_meets deployment
        ⟨checkpoint.threadId, turnId, .resumed checkpoint events⟩ opens lease
      have ending (result : Result Unit) (after : Control) (closable : after.closable =
          some ⟨checkpoint.threadId, turnId, .resumed checkpoint events⟩) :
          Meets (protocol deployment.codec) (do
            let _ ← (Async.write (.releaseLease lease.leaseId lease.fencingToken)).attempt
            Async.ofResult result
            return classifyCheckpoint checkpoint events) after
            (leaving ⟨checkpoint.threadId, turnId, .resumed checkpoint events⟩)
            (leaving ⟨checkpoint.threadId, turnId, .resumed checkpoint events⟩) := by
        have guards := Control.leavable_of_closable closable
        refine quietly (uses_write (by exact trivial)).attempt (fun _ => ?_) fun _ => guards
        cases result with
        | ok value => exact Meets.bind (Meets.pure (Meets.pure guards))
        | error error => exact Meets.bind (Meets.throw guards)
      refine Meets.bind (Meets.attempt (inner.mono ?_ ?_))
      · exact fun value after closable => ending (.ok value) after closable
      · exact fun error after closable => ending (.error error) after closable

theorem resumeTurn_meets (turnId : TurnId) (idempotencyKey : Option String) :
    Meets (protocol deployment.codec) (resumeTurn deployment turnId idempotencyKey)
      (.resuming turnId) outside outside := by
  unfold resumeTurn
  refine Meets.bind ((recoveryReport_meets turnId).mono ?_ fun _ _ unguarded => unguarded)
  rintro report after ⟨checkpoint, events, rfl, unguarded, located⟩
  split
  · exact Meets.throw unguarded
  · rename_i drivable
    rw [located drivable]
    refine quietly ?remembers (fun remembered => ?_) fun _ => rfl
    case remembers =>
      cases idempotencyKey with
      | none => exact Fallible.Uses.pure
      | some key => exact uses_write trivial
    cases remembered with
    | some existing => exact Meets.pure rfl
    | none =>
        exact withThread_meets ⟨checkpoint.threadId, turnId, .resumed checkpoint events⟩ false
          (driveResumed_meets deployment turnId checkpoint events rfl)

theorem resolveApproval_meets {codec : Codec} (id : ApprovalId) (approved : Bool) :
    Meets (protocol codec) (resolveApproval id approved) (.resolving id) outside outside := by
  have answers (after : Control) (unguarded : after.guards = none) (answer : Bool) :
      Meets (protocol codec) (Async.brokerResolve id answer) after
        (fun _ final => final = after) (fun _ final => final = after) :=
    fun outcome => ⟨after, .quiet trivial, by cases outcome <;> rfl⟩
  unfold resolveApproval
  refine Meets.bind (Async.meets_read fun answer => ?_)
  cases answer with
  | error error => exact ⟨_, .quiet trivial, rfl⟩
  | ok found =>
      cases found with
      | none =>
          refine ⟨_, .quiet trivial, (answers _ rfl _).mono ?_ ?_⟩
          · rintro _ _ rfl
            rfl
          · rintro _ _ rfl
            rfl
      | some durable =>
          refine ⟨_, .recall, ?_⟩
          simp only [Outcome]
          split
          · exact Meets.throw rfl
          · rename_i settled
            have pending : durable.status = .pending := Decidable.not_not.mp settled
            refine quietly ?expires (fun expired => ?_) fun _ => rfl
            case expires =>
              cases durable.expiresAt with
              | none => exact Fallible.Uses.pure
              | some deadline => exact Fallible.Uses.map (uses_ask (by exact trivial))
            cases expired with
            | true =>
                refine Meets.bind (Async.meets_write fun answer => ⟨_, .resolve pending, ?_⟩)
                cases answer with
                | error error => rfl
                | ok =>
                    refine Meets.bind (Meets.attempt ((answers .idle rfl _).mono ?_ ?_))
                    · rintro _ _ rfl
                      exact Meets.throw rfl
                    · rintro _ _ rfl
                      exact Meets.throw rfl
            | false =>
                refine Meets.bind (Async.meets_write fun answer => ⟨_, .resolve pending, ?_⟩)
                cases answer with
                | error error => rfl
                | ok =>
                    refine Meets.bind (Meets.attempt ((answers .idle rfl _).mono ?_ ?_))
                    · rintro _ _ rfl
                      exact Meets.pure rfl
                    · rintro error _ rfl
                      cases error <;> first | exact Meets.pure rfl | exact Meets.throw rfl

end

theorem recoverTurn_meets {codec : Codec} (turn : TurnRecord) (rest : List TurnRecord) :
    Meets (protocol codec) (recoverTurn turn) (.sweeping (turn :: rest))
      (fun _ after => after = .sweeping rest) outside := by
  unfold recoverTurn
  refine quietly (uses_write (by exact trivial)).attempt (fun _ => ?_) fun _ => rfl
  have judged (status : TurnStatus) (checkpointId : Option Uuid) (report : Option RecoveryReport) :
      Meets (protocol codec) (do
        let now ← Async.ask .now
        Async.write (.upsertTurn (turnRecord turn.id turn.threadId status none checkpointId
          turn.createdAt now))
        return report) (.judged turn status rest) (fun _ after => after = .sweeping rest)
        outside := by
    refine quietly (uses_ask trivial) (fun now => ?_) fun _ => rfl
    refine Meets.bind (Async.meets_write fun answer => ?_)
    cases answer with
    | error error => exact ⟨_, .markFailed rfl rfl, rfl⟩
    | ok => exact ⟨_, .mark rfl rfl, Meets.pure rfl⟩
  refine Meets.bind (Async.meets_read fun answer => ?_)
  cases answer with
  | error error => exact ⟨_, .unexamined, rfl⟩
  | ok found =>
      cases found with
      | none => exact ⟨_, .unstarted, judged _ _ _⟩
      | some checkpoint =>
          refine ⟨_, .examine, ?_⟩
          refine Meets.bind (Async.meets_read fun answer => ?_)
          cases answer with
          | error error => exact ⟨_, .quiet trivial, rfl⟩
          | ok events => exact ⟨_, .judge, judged _ _ _⟩

theorem recoverTurns_meets {codec : Codec} (turns : List TurnRecord) :
    Meets (protocol codec) (recoverTurns turns) (.sweeping turns)
      (fun _ after => after = .sweeping []) outside := by
  induction turns with
  | nil => exact Meets.pure rfl
  | cons turn turns ih =>
      unfold recoverTurns
      refine Meets.bind ((recoverTurn_meets turn turns).mono ?_ fun _ _ lost => lost)
      rintro report _ rfl
      refine Meets.bind (ih.mono ?_ fun _ _ lost => lost)
      exact fun _ _ reached => Meets.pure reached

theorem uses_append {event : RuntimeEvent}
    (quiet : event.decisive = false) (threadId : ThreadId)
    (turnId : Option TurnId) : Fallible.Uses Quiet (append threadId turnId event) :=
  uses_write quiet

theorem uses_recoverAction (now : DateTime) (stored : ActionRecord) :
    Fallible.Uses Quiet (recoverAction deployment now stored) := by
  unfold recoverAction
  split
  · exact Fallible.Uses.pure
  · refine Fallible.Uses.bind (uses_ofResult _) fun status => ?_
    refine Fallible.Uses.bind (uses_write trivial) fun _ => ?_
    refine Fallible.Uses.bind (Fallible.Uses.attempt ?_) fun _ => Fallible.Uses.pure
    exact uses_append (by exact rfl) _ _

theorem recover_meets {codec : Codec} :
    Meets (protocol codec) (recover deployment) .scanning
      (fun _ after => after = .sweeping []) outside := by
  unfold recover
  refine quietly (uses_ask trivial) (fun now => ?_) fun _ => rfl
  refine Meets.bind (Async.meets_read fun answer => ?_)
  cases answer with
  | error error => exact ⟨_, .quiet trivial, rfl⟩
  | ok approvals =>
      refine ⟨.expiring approvals, .scan, ?_⟩
      have expired : Meets (protocol codec) (Fallible.forEach (expireApproval now) approvals)
          (.expiring approvals) (fun _ after => after = .expiring approvals) outside := by
        refine Meets.forEach ?_ rfl
        rintro approval member _ rfl
        unfold expireApproval
        split
        · exact Async.meets_write fun answer => ⟨_, .expire member, by cases answer <;> rfl⟩
        · exact Meets.pure rfl
      refine Meets.bind (expired.mono ?_ fun _ _ lost => lost)
      rintro _ _ rfl
      refine quietly (uses_read (by exact trivial)) (fun actions => ?_) fun _ => rfl
      refine quietly (Fallible.Uses.forEach fun action => uses_recoverAction deployment now action)
        (fun _ => ?_) fun _ => rfl
      refine Meets.bind (Async.meets_read fun answer => ?_)
      cases answer with
      | error error => exact ⟨_, .quiet trivial, rfl⟩
      | ok turns => exact ⟨_, .sweep, recoverTurns_meets turns⟩

/-- Every call of the runtime follows the protocol. -/
theorem conforms (job : Job) :
    Conforms (protocol deployment.codec) ((system deployment).program job) (begins job)
      (ends job) := by
  cases job with
  | runTurn threadId turnId input =>
      have met : Meets (protocol deployment.codec)
          ((Job.runTurn threadId turnId input).run deployment)
          (.waiting ⟨threadId, turnId, .fresh⟩) outside outside :=
        (runTurn_meets deployment threadId turnId input).map fun _ _ unguarded => unguarded
      exact Conforms.mono met fun outcome _ reached => by cases outcome <;> exact reached
  | resumeTurn turnId key =>
      have met : Meets (protocol deployment.codec) ((Job.resumeTurn turnId key).run deployment)
          (.resuming turnId) outside outside :=
        (resumeTurn_meets deployment turnId key).map fun _ _ unguarded => unguarded
      exact Conforms.mono met fun outcome _ reached => by cases outcome <;> exact reached
  | recover =>
      have met : Meets (protocol deployment.codec) (Job.recover.run deployment) .scanning
          (fun _ after => after = Control.sweeping []) outside :=
        (recover_meets deployment).map fun _ _ reached => reached
      refine Conforms.mono met ?_
      intro outcome after reached
      cases outcome with
      | ok returned => exact reached
      | error error => exact reached
  | resolveApproval id approved =>
      have met : Meets (protocol deployment.codec)
          ((Job.resolveApproval id approved).run deployment) (.resolving id) outside outside :=
        (resolveApproval_meets id approved).map fun _ _ unguarded => unguarded
      exact Conforms.mono met fun outcome _ reached => by cases outcome <;> exact reached

end OpsCodex.Turn
