import Mathlib.Data.Set.Function
import OpsCodex.Effect.Answers
import OpsCodex.Evidence.Settled
import OpsCodex.Turn.Span

/-! What is recorded of a tool result, and what the bytes that are kept of it are. -/

set_option autoImplicit false

namespace OpsCodex.Turn

open Effect OpsCodex.Json OpsCodex.Evidence OpsCodex.Action OpsCodex.Store OpsCodex.Runtime

/-- The bytes of a result are kept in its event, or as an artifact that was stored. -/
inductive Kept (codec : Codec) (program : Async EventId) (workspaceId : WorkspaceId)
    (admits : (op : Op) → op.Answer → Prop) (evidence : EvidenceMeta) (output : Value) :
    List UInt8 → Prop where
  | inline {content : Value} (unstored : evidence.artifactRef = none)
      (written : output.get? "content" = some content) :
      Kept codec program workspaceId admits evidence output (codec.toVec content)
  | artifact {bytes : List UInt8} {ref : String} (stored : evidence.artifactRef = some ref)
      (named : ref = codec.sha256Hex bytes)
      (asked : Asks (I := serviceInterface) admits program.run (.putArtifact workspaceId bytes)) :
      Kept codec program workspaceId admits evidence output bytes

/-- Evidence gives the digest and the size of some bytes, and names no other artifact. -/
structure Describes (codec : Codec) (evidence : EvidenceMeta) (bytes : List UInt8) : Prop where
  sha256 : evidence.sha256 = codec.sha256Hex bytes
  byteSize : evidence.byteSize = UInt64.ofNat bytes.length
  artifactRef : ∀ ref, evidence.artifactRef = some ref → ref = evidence.sha256

namespace ToolResults

/-- An artifact is named by the digest of its bytes. -/
def Digests (codec : Codec) (op : Op) (answer : op.Answer) : Prop :=
  match op, answer with
  | .putArtifact _ bytes, answer => ∀ ref, answer = .ok ref → ref = codec.sha256Hex bytes
  | _, _ => True

/-- Requests that neither log an event nor store an artifact. -/
def Unrecorded : Op → Prop
  | .command (.appendEvent _) => False
  | .putArtifact _ _ => False
  | _ => True

/-- The artifact that a result is stored as. -/
def artifactRefOf (deployment : Deployment) (content : Value) : Option String :=
  if deployment.config.inlineArtifactBytes < (deployment.codec.toVec content).length then
    some (deployment.codec.sha256Hex (deployment.codec.toVec content))
  else none

/-- What the model is told of a successful result. -/
def modelContent (deployment : Deployment) (name : String) (evidence : EvidenceMeta)
    (content : Value) : Value :=
  match evidence.artifactRef, deployment.content.artifactTopologyProjection name content with
  | some _, some projection =>
      setField (modelToolOutput evidence content) "topology_projection" projection
  | _, _ => modelToolOutput evidence content

section

variable {deployment : Deployment} {context : TurnEventContext} {causation : Option EventId}
  {callId name : String} {evidence own : EvidenceMeta} {content described : Value}

theorem describeResult_eq : describeResult deployment context name own content = (do
    let artifactRef ← storeArtifact deployment context (deployment.codec.toVec content)
    let fresh ← Async.ask .newId
    return (finalizeEvidence deployment own content artifactRef fresh,
      modelContent deployment name (finalizeEvidence deployment own content artifactRef fresh)
        content) : Async (EvidenceMeta × Value)) := by
  unfold describeResult modelContent
  congr
  funext artifactRef
  congr
  funext fresh
  cases artifactRef with
  | none => rfl
  | some ref => cases deployment.content.artifactTopologyProjection name content <;> rfl

theorem uses_writeCheckpoint (threadId : ThreadId) (turnId : TurnId) (step : UInt32)
    (phase : CheckpointPhase) (resumePolicy : ResumePolicy)
    (pendingOperation : Option PendingOperation) (lease : Lease) :
    Fallible.Uses Unrecorded (writeCheckpoint deployment threadId turnId step phase resumePolicy
      pendingOperation lease) := by
  unfold writeCheckpoint
  refine Fallible.Uses.bind (Span.uses_write (by exact trivial)) fun _ => ?_
  refine Fallible.Uses.bind (Span.uses_read (by exact trivial)).attempt fun _ => ?_
  refine Fallible.Uses.bind (Span.uses_ask (by exact trivial)) fun _ => ?_
  refine Fallible.Uses.bind (Span.uses_read (by exact trivial)).attempt fun _ => ?_
  refine Fallible.Uses.bind (Span.uses_ask (by exact trivial)) fun _ => ?_
  exact Span.uses_write (by exact trivial)

theorem returns_storeArtifact {artifactRef : Option String} :
    Effect.Returns (I := serviceInterface) (Digests deployment.codec)
        (storeArtifact deployment context (deployment.codec.toVec content)).run
        (.ok artifactRef) ↔
      artifactRef = artifactRefOf deployment content := by
  unfold storeArtifact artifactRefOf
  split
  · constructor
    · intro returns
      obtain ⟨outcome, stored, later⟩ := returns_bind.mp returns
      obtain ⟨answer, digests, done⟩ := returns_request.mp stored
      cases done
      cases outcome with
      | ok ref =>
          cases later
          rw [digests ref rfl]
      | error error => cases later
    · rintro rfl
      refine returns_bind.mpr ⟨.ok (deployment.codec.sha256Hex (deployment.codec.toVec content)),
        ?_, .pure⟩
      refine returns_request.mpr ⟨.ok (deployment.codec.sha256Hex (deployment.codec.toVec content)),
        ?_, .pure⟩
      intro ref same
      exact (Except.ok.inj same).symm
  · exact Fallible.returns_pure.trans ⟨fun same => Except.ok.inj same, fun same => by rw [same]⟩

theorem returns_newId {codec : Codec} {fresh : Uuid} :
    Effect.Returns (I := serviceInterface) (Digests codec) (Async.ask .newId : Async Uuid).run
      (.ok fresh) := .request trivial .pure

theorem returns_describeResult :
    Effect.Returns (I := serviceInterface) (Digests deployment.codec)
        (describeResult deployment context name own content).run (.ok (evidence, described)) ↔
      ∃ fresh, evidence = finalizeEvidence deployment own content
          (artifactRefOf deployment content) fresh ∧
        described = modelContent deployment name evidence content := by
  rw [describeResult_eq]
  refine Fallible.returns_bind_ok.trans ⟨?_, ?_⟩
  · rintro ⟨artifactRef, stored, later⟩
    obtain rfl := returns_storeArtifact.mp stored
    obtain ⟨fresh, -, done⟩ := Fallible.returns_bind_ok.mp later
    have same := Fallible.returns_pure.mp done
    cases same
    exact ⟨fresh, rfl, rfl⟩
  · rintro ⟨fresh, rfl, rfl⟩
    exact ⟨_, returns_storeArtifact.mpr rfl,
      Fallible.returns_bind_ok.mpr ⟨fresh, returns_newId, Fallible.returns_pure.mpr rfl⟩⟩

theorem asks_describeResult {asked : Op} (asks : Asks (I := serviceInterface)
    (Digests deployment.codec) (describeResult deployment context name own content).run asked) :
    asked = .newId ∨ (asked = .putArtifact context.workspaceId (deployment.codec.toVec content) ∧
      deployment.config.inlineArtifactBytes < (deployment.codec.toVec content).length) := by
  rw [describeResult_eq] at asks
  rcases Fallible.asks_bind.mp asks with stores | ⟨artifactRef, -, later⟩
  · unfold storeArtifact at stores
    split at stores
    · rename_i large
      rcases asks_bind.mp stores with put | ⟨outcome, -, done⟩
      · rcases asks_request.mp put with same | ⟨answer, -, done⟩
        · exact .inr ⟨same, large⟩
        · cases done
      · cases outcome <;> cases done
    · cases stores
  · rcases Fallible.asks_bind.mp later with fresh | ⟨fresh, -, done⟩
    · rcases asks_request.mp fresh with same | ⟨answer, -, done⟩
      · exact .inl same
      · cases done
    · cases done

/-- A large result is stored as an artifact. -/
theorem asks_putArtifact
    (large : deployment.config.inlineArtifactBytes < (deployment.codec.toVec content).length) :
    Asks (I := serviceInterface) (Digests deployment.codec)
      (describeResult deployment context name own content).run
      (.putArtifact context.workspaceId (deployment.codec.toVec content)) := by
  rw [describeResult_eq]
  refine Fallible.asks_bind.mpr (.inl ?_)
  unfold storeArtifact
  rw [if_pos large]
  exact asks_bind.mpr (.inl .now)

/-- What a tool result is logged as. -/
def completion (context : TurnEventContext) (causation : Option EventId) (callId name : String)
    (evidence : EvidenceMeta) (described : Value) (success : Bool) : AppendEvent where
  threadId := context.threadId
  turnId := some context.turnId
  itemId := none
  causationId := causation
  streamKind := none
  event := .toolCompleted callId name described evidence success

/-- A successful result is logged once it is described. -/
theorem asks_emitToolResult {output : ToolOutput} {command : AppendEvent} :
    Asks (I := serviceInterface) (Digests deployment.codec)
        (emitToolResult deployment context causation callId name output true).run
        (.command (.appendEvent command)) ↔
      ∃ fresh, command = completion context causation callId name
        (finalizeEvidence deployment output.evidence
          (deployment.content.redactJson output.content)
          (artifactRefOf deployment (deployment.content.redactJson output.content)) fresh)
        (modelContent deployment name
          (finalizeEvidence deployment output.evidence
            (deployment.content.redactJson output.content)
            (artifactRefOf deployment (deployment.content.redactJson output.content)) fresh)
          (deployment.content.redactJson output.content)) true := by
  unfold emitToolResult
  refine Fallible.asks_bind.trans ⟨?_, ?_⟩
  · rintro (describes | ⟨⟨evidence, described⟩, returns, later⟩)
    · rcases asks_describeResult describes with same | ⟨same, -⟩
      · cases same
      · cases same
    · obtain ⟨fresh, rfl, rfl⟩ := returns_describeResult.mp returns
      rcases Fallible.asks_bind.mp later with appends | ⟨envelope, -, rest⟩
      · rcases asks_request.mp appends with same | ⟨answer, -, done⟩
        · cases same
          exact ⟨fresh, rfl⟩
        · cases done
      · rcases Fallible.asks_bind.mp rest with checkpoint | ⟨done, -, rest⟩
        · exact (checkpoint.allowed (uses_writeCheckpoint ..)).elim
        · cases rest
  · rintro ⟨fresh, rfl⟩
    exact .inr ⟨_, returns_describeResult.mpr ⟨fresh, rfl, rfl⟩,
      Fallible.asks_bind.mpr (.inl .now)⟩

/-- Only the redacted result is stored. -/
theorem asks_put_emitToolResult {output : ToolOutput} {workspaceId : WorkspaceId}
    {bytes : List UInt8} (asks : Asks (I := serviceInterface) (Digests deployment.codec)
      (emitToolResult deployment context causation callId name output true).run
      (.putArtifact workspaceId bytes)) :
    bytes = deployment.codec.toVec (deployment.content.redactJson output.content) := by
  unfold emitToolResult at asks
  rcases Fallible.asks_bind.mp asks with describes | ⟨described, -, later⟩
  · rcases asks_describeResult describes with same | ⟨same, -⟩
    · cases same
    · cases same
      rfl
  · rcases Fallible.asks_bind.mp later with appends | ⟨envelope, -, rest⟩
    · rcases asks_request.mp appends with same | ⟨answer, -, done⟩
      · cases same
      · cases done
    · rcases Fallible.asks_bind.mp rest with checkpoint | ⟨done, -, rest⟩
      · exact (checkpoint.allowed (uses_writeCheckpoint ..)).elim
      · cases rest

theorem content_modelContent (inline : evidence.artifactRef = none) :
    (modelContent deployment name evidence content).get? "content" = some content := by
  unfold modelContent modelToolOutput
  rw [inline]
  rfl

/-- What is kept of a successful result is its redacted content. -/
theorem bytes_of_kept {output : ToolOutput} {bytes : List UInt8}
    (kept : Kept deployment.codec
      (emitToolResult deployment context causation callId name output true) context.workspaceId
      (Digests deployment.codec) evidence
      (modelContent deployment name evidence (deployment.content.redactJson output.content))
      bytes) :
    bytes = deployment.codec.toVec (deployment.content.redactJson output.content) := by
  cases kept with
  | inline unstored written =>
      rw [content_modelContent unstored] at written
      cases written
      rfl
  | artifact stored named asked => exact asks_put_emitToolResult asked

theorem kept_finalizeEvidence {output : ToolOutput} (fresh : Uuid)
    (evidenceEq : evidence = finalizeEvidence deployment output.evidence
      (deployment.content.redactJson output.content)
      (artifactRefOf deployment (deployment.content.redactJson output.content)) fresh) :
    Kept deployment.codec
      (emitToolResult deployment context causation callId name output true) context.workspaceId
      (Digests deployment.codec) evidence
      (modelContent deployment name evidence (deployment.content.redactJson output.content))
      (deployment.codec.toVec (deployment.content.redactJson output.content)) := by
  by_cases large : deployment.config.inlineArtifactBytes <
      (deployment.codec.toVec (deployment.content.redactJson output.content)).length
  · have stored : evidence.artifactRef = some (deployment.codec.sha256Hex
        (deployment.codec.toVec (deployment.content.redactJson output.content))) := by
      rw [evidenceEq]
      exact if_pos large
    exact .artifact stored rfl (Fallible.asks_bind.mpr (.inl (asks_putArtifact large)))
  · have unstored : evidence.artifactRef = none := by
      rw [evidenceEq]
      exact if_neg large
    exact .inline unstored (content_modelContent unstored)

end

end ToolResults

open ToolResults

/-- Evidence of a successful result describes the bytes that are kept exactly if every string of
the content that is not under a sensitive key is settled once it is redacted. -/
theorem describes_iff {deployment : Deployment}
    (redacts : ∀ value redacted, Redact.redactJson value = some redacted →
      deployment.content.redactJson value = redacted.1)
    (context : TurnEventContext) (causation : Option EventId) (callId name : String)
    (output : ToolOutput) (redacted again : Value × Bool)
    (first : Redact.redactJson output.content = some redacted)
    (second : Redact.redactJson redacted.1 = some again)
    (distinct : Set.InjOn (fun value => deployment.codec.sha256Hex (deployment.codec.toVec value))
      {redacted.1, again.1}) :
    (∀ command evidence described bytes,
      Asks (I := serviceInterface) (Digests deployment.codec)
        (emitToolResult deployment context causation callId name output true).run
        (.command (.appendEvent command)) →
      command.event = .toolCompleted callId name described evidence true →
      Kept deployment.codec
        (emitToolResult deployment context causation callId name output true)
        context.workspaceId (Digests deployment.codec) evidence described bytes →
      Describes deployment.codec evidence bytes) ↔
    ∀ text ∈ Redact.shownLeaves output.content, Redact.Settles text := by
  have once := redacts _ _ first
  have twice := redacts _ _ second
  rw [← Redact.redactValue_eq_self_iff first second]
  constructor
  · intro describes
    have described := describes _ _ _ _ (asks_emitToolResult.mpr ⟨0, rfl⟩) rfl
      (kept_finalizeEvidence 0 rfl)
    have digest := described.sha256
    simp only [finalizeEvidence, once, twice] at digest
    exact distinct (.inr rfl) (.inl rfl) digest
  · intro settled command evidence described bytes asks completed kept
    obtain ⟨fresh, rfl⟩ := asks_emitToolResult.mp asks
    cases completed
    rw [bytes_of_kept kept]
    constructor
    · simp only [finalizeEvidence, once, twice, settled]
    · simp only [finalizeEvidence, once, twice, settled]
    · intro ref stored
      simp only [finalizeEvidence, artifactRefOf, once, twice, settled] at stored ⊢
      split at stored
      · exact (Option.some.inj stored).symm
      · cases stored

namespace ToolResults

/-- JSON texts of strings without escapes, and digests that tell lengths apart. -/
def codec : Codec where
  sha256Hex := fun bytes => toString bytes.length
  toVec
    | .string text => 34 :: text.toList.map (fun char => UInt8.ofNat char.toNat) ++ [34]
    | _ => []
  toRfc3339 := fun _ => ""

def deployment : Deployment :=
  { Demo.deployment with
    codec := codec
    content := { Demo.deployment.content with
      redactJson := fun value => ((Redact.redactJson value).getD (value, false)).1 } }

def context : TurnEventContext where
  threadId := Demo.thread
  turnId := Demo.turn
  workspaceId := .default
  tools := Demo.tools
  causationId := none
  lease := { leaseId := 0, turnId := Demo.turn, threadId := Demo.thread, ownerId := 0,
             expiresAt := 0, fencingToken := 0 }
  step := 0

def output (text : String) : ToolOutput where
  content := .string text
  evidence := EvidenceMeta.new "exec" 0 0

/-- A bearer token and two assignments to one key, the second of which stays. -/
def login : String := "bearer abcdefghijk token=abc token=def"

/-- Two private keys in one text. -/
def keys : String := "-----BEGIN A-----k-----END A----- -----BEGIN B-----k-----END B-----"

theorem redacts_deployment (value : Value) (redacted : Value × Bool)
    (found : Redact.redactJson value = some redacted) :
    deployment.content.redactJson value = redacted.1 := by
  simp only [deployment, found, Option.getD_some]

end ToolResults

theorem describes_iff_login :
    Redact.Settles login ∧
    ∀ command evidence described bytes,
      Asks (I := serviceInterface) (Digests codec)
        (emitToolResult deployment context none "c" "exec" (output login) true).run
        (.command (.appendEvent command)) →
      command.event = .toolCompleted "c" "exec" described evidence true →
      Kept codec (emitToolResult deployment context none "c" "exec" (output login) true)
        .default (Digests codec) evidence described bytes →
      Describes codec evidence bytes := by
  have settles : Redact.Settles login := by decide +kernel
  have exact' := describes_iff redacts_deployment context none "c" "exec" (output login)
    (.string "Bearer [REDACTED] token=[REDACTED] token=def", true)
    (.string "Bearer [REDACTED] token=[REDACTED] token=def", true) rfl rfl
    (fun _ first _ second _ => ((or_self _).mp first).trans ((or_self _).mp second).symm)
  refine ⟨settles, exact'.mpr fun text member => ?_⟩
  rw [List.mem_singleton.mp member]
  exact settles

/-- Of two private keys the second is redacted in the bytes that are hashed only. -/
theorem not_describes :
    ¬ ∀ command evidence described bytes,
      Asks (I := serviceInterface) (Digests codec)
        (emitToolResult deployment context none "c" "exec" (output keys) true).run
        (.command (.appendEvent command)) →
      command.event = .toolCompleted "c" "exec" described evidence true →
      Kept codec (emitToolResult deployment context none "c" "exec" (output keys) true)
        .default (Digests codec) evidence described bytes →
      Describes codec evidence bytes := by
  intro describes
  have asks : ∀ command, Asks (I := serviceInterface) (Digests deployment.codec)
      (emitToolResult deployment context none "c" "exec" (output keys) true).run
      (.command (.appendEvent command)) ↔ _ := fun command => asks_emitToolResult
  have kept : Kept deployment.codec
      (emitToolResult deployment context none "c" "exec" (output keys) true) context.workspaceId
      (Digests deployment.codec) _ _ _ := kept_finalizeEvidence 0 rfl
  have described := describes _ _ _ _ ((asks _).mpr ⟨0, rfl⟩) rfl kept
  have digest := described.sha256
  simp only [finalizeEvidence] at digest
  revert digest
  decide +kernel

end OpsCodex.Turn
