import OpsCodex.Turn.ResumeKeys

/-! The diagnoses of a log: a claim that is not a recommendation cites evidence, and each
evidence it cites is that of a successful tool call logged before in the same thread. -/

set_option autoImplicit false

namespace OpsCodex.Turn

open Effect OpsCodex.Action OpsCodex.Evidence OpsCodex.Store OpsCodex.Runtime

namespace Grounding

/-- What a call has read of a log last. -/
inductive Control where
  | unread
  | read (threadId : ThreadId) (events : List EventEnvelope)

inductive Advance : Control → (op : Op) → op.Answer → Control → Prop where
  | undiagnosed {control op answer} (undiagnosed : Span.Undiagnosed op) :
      Advance control op answer control
  | read {control threadId events} :
      Advance control (.query (.eventsAfter threadId 0)) (.ok events) (.read threadId events)
  | conclude {threadId events command answer content diagnosis}
      (thread : command.threadId = threadId)
      (event : command.event =
        .assistantCompleted content (some (finalizeTurnDiagnosis diagnosis events))) :
      Advance (.read threadId events) (.command (.appendEvent command)) answer
        (.read threadId events)

def protocol : Protocol serviceInterface where
  Control := Control
  Advance := Advance

abbrev anywhere {Value : Type} : Value → Control → Prop := fun _ _ => True

/-- A program that concludes only from what it has read, whatever was read before it. -/
def Careful {Value : Type} (program : Async Value) : Prop :=
  ∀ control, Meets protocol program control anywhere anywhere

section

variable {Value Returned : Type} {program : Async Value} {rest : Value → Async Returned}

theorem advance_undiagnosed {control : Control} (op : Op) (answer : op.Answer)
    (undiagnosed : Span.Undiagnosed op) : protocol.Advance control op answer control :=
  .undiagnosed undiagnosed

theorem conforms_undiagnosed {program : Program serviceInterface Value} {control : Control}
    (uses : Effect.Uses Span.Undiagnosed program) :
    Conforms protocol program control anywhere :=
  (Conforms.of_uses uses advance_undiagnosed).mono fun _ _ _ => trivial

namespace Careful

theorem of_uses (uses : Fallible.Uses Span.Undiagnosed program) : Careful program :=
  fun _ => (uses.stays advance_undiagnosed).mono (fun _ _ _ => trivial) fun _ _ _ => trivial

theorem of_wordless {allowed : Op → Prop}
    (uses : Fallible.Uses (Span.Wordless allowed) program) : Careful program :=
  of_uses (Span.uses_undiagnosed uses)

theorem pure {value : Value} : Careful (Pure.pure value : Async Value) :=
  fun _ => Meets.pure trivial

theorem throw {error : OpsCodexError} : Careful (MonadExcept.throw error : Async Value) :=
  fun _ => Meets.throw trivial

theorem bind (first : Careful program) (second : ∀ value, Careful (rest value)) :
    Careful (program >>= rest) :=
  fun control => Meets.bind ((first control).mono (fun value after _ => second value after)
    fun _ _ _ => trivial)

theorem map {transform : Value → Returned} (careful : Careful program) :
    Careful (transform <$> program) :=
  fun control => (careful control).map fun _ _ _ => trivial

theorem attempt (careful : Careful program) : Careful program.attempt :=
  fun control => Meets.attempt (careful control)

theorem andFinally {cleanup : Program serviceInterface Unit} (careful : Careful program)
    (cleans : Effect.Uses Span.Undiagnosed cleanup) : Careful (program.andFinally cleanup) :=
  fun control => Meets.andFinally ((careful control).mono
    (fun _ _ _ => conforms_undiagnosed cleans) fun _ _ _ => conforms_undiagnosed cleans)

end Careful

end

section

variable (deployment : Deployment) {context : TurnEventContext} {threadId : ThreadId}
  {turnId : TurnId}

/-- An answer is logged with a diagnosis that rests on the log read for it. -/
theorem careful_runOutputs (streamed : Bool) (outputs : List ModelOutput)
    (last : Option EventId) (calledTool : Bool) :
    Careful (runOutputs deployment context streamed outputs last calledTool) := by
  induction outputs generalizing last calledTool with
  | nil => exact Careful.pure
  | cons output outputs ih =>
      cases output with
      | message content =>
          unfold runOutputs
          have streams : Careful (if streamed then pure last
              else emitNext context last (.assistantDelta content) : Async (Option EventId)) := by
            split
            · exact Careful.pure
            · exact Careful.of_wordless (Span.uses_emitNext (by exact rfl) (by exact rfl) _)
          refine Careful.bind streams fun last => ?_
          refine Careful.bind (Careful.of_uses (Span.uses_ask (by exact trivial))) fun seed => ?_
          intro control
          refine Meets.bind (Async.meets_read fun answer => ?_)
          cases answer with
          | error error => exact ⟨_, .undiagnosed trivial, trivial⟩
          | ok events =>
              refine ⟨_, .read, Meets.bind (Meets.bind (Async.meets_write fun answer =>
                ⟨_, .conclude rfl rfl, ?_⟩))⟩
              cases answer with
              | error error => trivial
              | ok envelope => exact ih _ _ _
      | toolCall callId name arguments =>
          unfold runOutputs
          have executes : Careful (executeTool deployment { context with causationId := last }
              callId name arguments false) :=
            Careful.of_wordless (Span.uses_executeTool deployment callId name arguments false)
          exact Careful.bind executes fun eventId => ih _ _

theorem careful_modelLoop (instructions : String) (remaining : Nat) (step : UInt32)
    (last : Option EventId) :
    Careful (modelLoop deployment context instructions remaining step last) := by
  induction remaining generalizing step last with
  | zero => exact Careful.throw
  | succ remaining ih =>
      unfold modelLoop
      have checkpoints (phase : CheckpointPhase) (policy : ResumePolicy) :
          Careful (writeCheckpoint deployment context.threadId context.turnId step phase policy
            none context.lease) :=
        Careful.of_wordless (Span.uses_writeCheckpoint deployment _ _ _ _ _)
      refine Careful.bind (Careful.of_wordless (Span.uses_maybeCompact deployment)) fun _ => ?_
      refine Careful.bind (checkpoints _ _) fun _ => ?_
      refine Careful.bind (Careful.of_uses (Span.uses_read (by exact trivial))) fun input => ?_
      refine Careful.bind (Careful.of_wordless (Span.uses_completeModel _ _))
        fun completion => ?_
      refine Careful.bind (careful_runOutputs deployment _ _ _ _) fun ran => ?_
      obtain ⟨last, calledTool⟩ := ran
      cases calledTool with
      | true => exact ih _ _
      | false =>
          refine Careful.bind (checkpoints _ _) fun _ => ?_
          refine Careful.bind (Careful.of_uses (Span.uses_write (by exact rfl))) fun _ => ?_
          exact Careful.pure

theorem careful_enterTurn (start : TurnStart) : Careful (enterTurn deployment context start) := by
  cases start with
  | fresh input => exact Careful.of_wordless (Span.uses_enterTurn deployment input)
  | resume report => exact Careful.of_wordless (ResumeKeys.uses_enterTurn deployment report)

theorem careful_runTurnInner (start : TurnStart) (lease : Lease) :
    Careful (runTurnInner deployment threadId turnId start lease) := by
  unfold runTurnInner
  refine Careful.bind (Careful.of_uses (Span.uses_read (by exact trivial))) fun thread => ?_
  refine Careful.bind (Careful.of_uses (Span.uses_ask (by exact trivial))) fun catalog => ?_
  refine Careful.bind (Careful.of_uses (Span.uses_ofResult _)) fun _ => ?_
  refine Careful.bind (Careful.of_uses (Span.uses_ofResult _)) fun tools => ?_
  refine Careful.bind (careful_enterTurn deployment start) fun entered => ?_
  exact careful_modelLoop deployment _ _ _ _

theorem careful_withThread {Value : Type} {body : Async Value} (cancellable : Bool)
    (careful : Careful body) : Careful (withThread threadId cancellable body) := by
  unfold withThread
  refine Careful.bind (Careful.of_uses ⟨trivial, fun _ => trivial⟩) fun _ => ?_
  refine Careful.andFinally ?_ ⟨trivial, fun _ => trivial⟩
  refine Careful.bind (Careful.of_uses (Span.uses_ask (by exact trivial))) fun entered => ?_
  split
  · exact Careful.andFinally careful ⟨trivial, fun _ => trivial⟩
  · exact Careful.throw

theorem careful_driveTurn (input : TurnInput) :
    Careful (driveTurn deployment threadId turnId input) := by
  unfold driveTurn
  refine Careful.bind (Careful.of_uses (Span.uses_ask (by exact trivial))) fun catalog => ?_
  refine Careful.bind (Careful.of_uses (Span.uses_write (by exact trivial))) fun lease => ?_
  refine Careful.bind (Careful.of_uses (Span.uses_ask (by exact trivial))) fun now => ?_
  refine Careful.bind (Careful.of_uses (Span.uses_write (by exact trivial))) fun _ => ?_
  refine Careful.bind (careful_runTurnInner deployment _ lease).attempt fun result => ?_
  refine Careful.bind (Careful.of_uses (Span.uses_ask (by exact trivial))) fun ended => ?_
  refine Careful.bind (Careful.of_uses (Span.uses_write (by exact trivial))).attempt fun _ => ?_
  refine Careful.bind (Careful.of_uses (Span.uses_write (by exact trivial))).attempt fun _ => ?_
  exact Careful.of_uses (Span.uses_ofResult _)

theorem careful_runTurn (input : TurnInput) :
    Careful (runTurn deployment threadId turnId input) := by
  have announces (event : RuntimeEvent) (undiagnosed : event.diagnosis = none)
      (error : OpsCodexError) : Careful (do
        let _ ← (emit threadId (some turnId) none event).attempt
        throw error : Async Unit) :=
    Careful.bind (Careful.of_uses (Span.uses_write (by exact undiagnosed))).attempt fun _ =>
      Careful.throw
  unfold runTurn
  refine Careful.bind (Careful.of_uses (Span.uses_ofResult _)) fun _ => ?_
  refine Careful.bind (careful_withThread true
    (careful_driveTurn deployment input)).attempt fun result => ?_
  cases result with
  | ok value => exact Careful.pure
  | error error =>
      cases error with
      | cancelled => exact announces _ rfl _
      | _ => exact announces _ rfl _

theorem careful_driveResumed (report : RecoveryReport) :
    Careful (driveResumed deployment turnId report) := by
  unfold driveResumed
  refine Careful.bind (Careful.of_uses (Span.uses_ask (by exact trivial))) fun catalog => ?_
  refine Careful.bind (Careful.of_uses (Span.uses_write (by exact trivial))) fun lease => ?_
  refine Careful.bind (careful_runTurnInner deployment _ lease).attempt fun result => ?_
  refine Careful.bind (Careful.of_uses (Span.uses_write (by exact trivial))).attempt fun _ => ?_
  exact Careful.bind (Careful.of_uses (Span.uses_ofResult _)) fun _ => Careful.pure

theorem careful_resumeTurn (key : Option String) :
    Careful (resumeTurn deployment turnId key) := by
  unfold resumeTurn
  refine Careful.bind (Careful.of_wordless (Span.uses_recoveryReport turnId)) fun report => ?_
  split
  · exact Careful.throw
  · refine Careful.bind ?remembers fun remembered => ?_
    case remembers =>
      cases key with
      | none => exact Careful.pure
      | some key => exact Careful.of_uses (Span.uses_write (by exact trivial))
    cases remembered with
    | some existing => exact Careful.pure
    | none => exact careful_withThread false (careful_driveResumed deployment report)

theorem careful_job (job : Job) : Careful (job.run deployment) := by
  cases job with
  | runTurn threadId turnId input => exact (careful_runTurn deployment input).map
  | resumeTurn turnId key => exact (careful_resumeTurn deployment key).map
  | recover => exact (Careful.of_wordless (Span.uses_recover deployment)).map
  | resolveApproval id approved =>
      exact (Careful.of_wordless (Span.uses_resolveApproval id approved)).map

/-- Every call of the runtime concludes only from what it has read. -/
theorem conforms (job : Job) : Conforms protocol ((system deployment).program job) .unread
    fun _ _ => True :=
  Conforms.mono (careful_job deployment job .unread) fun _ _ _ => trivial

end

/-- A successful result in the log of the thread has brought the evidence. -/
def Sourced (log : List EventEnvelope) (threadId : ThreadId) (evidenceId : EvidenceId) : Prop :=
  ∃ earlier ∈ log, earlier.threadId = threadId ∧ ∃ callId tool output evidence,
    earlier.event = .toolCompleted callId tool output evidence true ∧
      evidence.evidenceId = some evidenceId

/-- What is observed or inferred cites evidence of the log, and only such. -/
def Supported (log : List EventEnvelope) (threadId : ThreadId) (diagnosis : Diagnosis) : Prop :=
  ∀ claim ∈ diagnosis.claims, claim.kind ≠ .recommended → claim.evidenceIds ≠ [] ∧
    ∀ evidenceId ∈ claim.evidenceIds, Sourced log threadId evidenceId

/-- The diagnoses from a position of the log on are supported by what is before them. -/
def Grounded (log : List EventEnvelope) (first : Nat) : Prop :=
  ∀ index (inside : index < log.length), first ≤ index → ∀ content diagnosis,
    log[index].event = .assistantCompleted content (some diagnosis) →
      Supported (log.take index) log[index].threadId diagnosis

section

variable {log events : List EventEnvelope} {first : Nat} {threadId : ThreadId}

theorem supported_finalizeTurnDiagnosis (diagnosis : Diagnosis)
    (known : ∀ envelope ∈ events, envelope ∈ log ∧ envelope.threadId = threadId) :
    Supported log threadId (finalizeTurnDiagnosis diagnosis events) := by
  intro claim member binding
  unfold finalizeTurnDiagnosis at member
  rw [claims_applyCitationLimitations, List.mem_filter, retained_iff] at member
  obtain ⟨-, recommended | ⟨cites, grounded⟩⟩ := member
  · exact absurd recommended binding
  · refine ⟨cites, fun evidenceId cited => ?_⟩
    obtain ⟨evidence, present, identified⟩ := grounded evidenceId cited
    obtain ⟨envelope, read, brought⟩ := List.mem_filterMap.mp present
    obtain ⟨logged, thread⟩ := known envelope read
    split at brought
    · rename_i callId tool output evidence event
      cases brought
      exact ⟨envelope, logged, thread, callId, tool, output, _, event, identified⟩
    · cases brought

theorem Grounded.of_length (log : List EventEnvelope) : Grounded log log.length :=
  fun _ inside late => absurd inside (Nat.not_lt_of_le late)

/-- A log grows by an event whose diagnosis is supported by the log before it. -/
theorem Grounded.snoc {added : EventEnvelope} (grounded : Grounded log first)
    (supported : ∀ diagnosis, added.event.diagnosis = some diagnosis →
      Supported log added.threadId diagnosis) : Grounded (log ++ [added]) first := by
  intro index inside late content diagnosis event
  rw [List.length_append, List.length_singleton] at inside
  by_cases old : index < log.length
  · rw [List.getElem_append_left old] at event ⊢
    rw [List.take_append_of_le_length (Nat.le_of_lt old)]
    exact grounded index old late content diagnosis event
  · have last : index = log.length := by omega
    subst last
    rw [List.getElem_concat_length rfl] at event ⊢
    rw [List.take_left]
    exact supported diagnosis (by rw [event]; rfl)

variable {content : Content} {codec : Codec} {op : Op} {choice : Choice} {world state : World}
  {answer : op.Answer}

/-- A request that logs a diagnosis only with its support keeps the log grounded. -/
theorem perform_grounded (grounded : Grounded world.db.events first)
    (supported : ∀ command, op = .command (.appendEvent command) → ∀ diagnosis,
      command.event.diagnosis = some diagnosis →
        Supported world.db.events command.threadId diagnosis)
    (performed : World.perform content codec op choice world = some (answer, state)) :
    Grounded state.db.events first := by
  by_cases append : ∃ command, op = .command (.appendEvent command)
  · obtain ⟨command, rfl⟩ := append
    obtain ⟨envelope, -, grown, -, thread, -, event⟩ | ⟨_, -, same⟩ :=
      World.perform_append performed
    · rw [grown]
      refine grounded.snoc fun diagnosis carried => ?_
      rw [thread]
      exact supported command rfl diagnosis (event ▸ carried)
    · rw [same]
      exact grounded
  · have same : state.db.events = world.db.events := by
      refine (World.perform_keeps performed).events ?_
      unfold World.writes
      split <;> simp_all
    rw [same]
    exact grounded

/-- What is read of a thread is in its log. -/
theorem perform_eventsAfter {events : List EventEnvelope}
    (performed : World.perform content codec (.query (.eventsAfter threadId 0)) choice world =
      some (.ok events, state)) :
    ∀ envelope ∈ events, envelope ∈ world.db.events ∧ envelope.threadId = threadId := by
  obtain ⟨-, answered | ⟨_, failed⟩⟩ := World.perform_query performed
  · have loaded : world.db.loadEvents threadId 0 = .ok events := answered.symm
    unfold Database.loadEvents at loaded
    split at loaded
    · cases loaded
    · cases loaded
      intro envelope member
      rw [List.mem_insertionSort, List.mem_filter] at member
      obtain ⟨logged, thread⟩ := List.mem_filter.mp member.1
      exact ⟨logged, of_decide_eq_true thread⟩
  · cases failed

end

section

variable {deployment : Deployment}

structure Holds (first : Nat) (pool : Pool deployment) (controls : Nat → Option Control) :
    Prop where
  grounded : Grounded pool.state.db.events first
  known : ∀ caller threadId events, controls caller = some (.read threadId events) →
    ∀ envelope ∈ events, envelope ∈ pool.state.db.events ∧ envelope.threadId = threadId

theorem holds_step {first : Nat} {pool next : Pool deployment}
    {controls : Nat → Option Control} {caller : Nat} {op : Op} {answer : op.Answer}
    {before after : Control} {choice : Choice} {state : World}
    (moves : next.state = state) (held : controls caller = some before)
    (advance : Advance before op answer after)
    (performed : World.perform deployment.content deployment.codec op choice pool.state =
      some (answer, state)) (holds : Holds first pool controls) :
    Holds first next (assign controls caller (some after)) := by
  subst moves
  have kept {threadId : ThreadId} {events : List EventEnvelope}
      (known : ∀ envelope ∈ events, envelope ∈ pool.state.db.events ∧
        envelope.threadId = threadId) :
      ∀ envelope ∈ events, envelope ∈ next.state.db.events ∧ envelope.threadId = threadId :=
    fun envelope member => ⟨perform_events_mem performed (known envelope member).1,
      (known envelope member).2⟩
  constructor
  · refine perform_grounded holds.grounded ?_ performed
    rintro command rfl diagnosis carried
    cases advance with
    | undiagnosed undiagnosed =>
        rw [show command.event.diagnosis = none from undiagnosed] at carried
        cases carried
    | conclude thread event =>
        rw [event] at carried
        cases carried
        rw [thread]
        exact supported_finalizeTurnDiagnosis _ (holds.known caller _ _ held)
  · intro other threadId events reads
    obtain ⟨rfl, now⟩ | ⟨-, reads⟩ := assign_eq_some reads
    · cases now
      cases advance with
      | undiagnosed undiagnosed => exact kept (holds.known other _ _ held)
      | read => exact kept (perform_eventsAfter performed)
      | conclude thread event => exact kept (holds.known other _ _ held)
    · exact kept (holds.known other threadId events reads)

theorem invariant (deployment : Deployment) (first : Nat) :
    Invariant (system deployment) protocol (fun _ => .unread) (fun _ _ _ => True)
      (fun _ _ => True) (Holds first) where
  spawn job tracks admitted holds := by
    refine ⟨holds.grounded, fun caller threadId events reads => ?_⟩
    obtain ⟨-, now⟩ | ⟨-, reads⟩ := assign_eq_some reads
    · cases now
    · exact holds.known caller threadId events reads
  perform tracks admitted found held advance performed holds :=
    holds_step rfl held advance performed holds
  finish found held returned holds := by
    refine ⟨holds.grounded, fun caller threadId events reads => ?_⟩
    obtain ⟨-, now⟩ | ⟨-, reads⟩ := assign_eq_some reads
    · cases now
    · exact holds.known caller threadId events reads
  crash startup tracks admitted holds :=
    ⟨holds.grounded, fun _ _ _ reads => by cases reads⟩

/-- Whatever the model answers, the calls on turns log diagnoses that are supported by what
their thread has logged before, and finalizing a diagnosis keeps its recommendations and
its grounded claims in their order, once and for all. -/
theorem diagnoses_grounded (deployment : Deployment) (world : World) (pool : Pool deployment)
    (reached : Effect.Pool.Reachable (fun _ _ => True)
      (fun initial => initial = Effect.Pool.boot world) pool) :
    Grounded pool.state.db.events world.db.events.length ∧
      ∀ (diagnosis : Diagnosis) (evidence : List EvidenceMeta),
        (applyCitationLimitations diagnosis evidence).claims =
            (diagnosis.claims.filter fun claim =>
              decide (claim.kind = .recommended ∨ claim.Grounded evidence)) ∧
          applyCitationLimitations (applyCitationLimitations diagnosis evidence) evidence =
            applyCitationLimitations diagnosis evidence := by
  obtain ⟨controls, -, holds⟩ := (invariant deployment world.db.events.length).reachable
    (fun _ initial => by
      subst initial
      exact ⟨fun _ => rfl, .of_length _, fun _ _ _ reads => by cases reads⟩)
    (conforms deployment) reached
  exact ⟨holds.grounded, fun _ _ =>
    ⟨claims_applyCitationLimitations_eq, applyCitationLimitations_idem⟩⟩

end

/-! A turn whose model reads with a tool and then answers with three claims. -/

namespace Demo

def claim (kind : ClaimKind) (evidenceIds : List EvidenceId) : Claim where
  claimId := ⟨0⟩
  kind := kind
  statement := ""
  evidenceIds := evidenceIds
  confidence := .low

def answer (summary : String) : Diagnosis where
  summary := summary
  claims := [claim .observed [⟨17⟩], claim .inferred [⟨17⟩, ⟨0⟩], claim .recommended []]
  recommendedActions := []
  limitations := []

def deployment : Deployment :=
  { Turn.Demo.deployment with
    content := { Content.plain with parseDiagnosis := fun _ summary => answer summary } }

def settle (start count : Nat) : List (Label (system deployment)) :=
  (List.range count).map fun (position : Nat) => .perform 0 (.settle (start + position))

def model (outputs : List ModelOutput) : Label (system deployment) :=
  .perform 0 (.model { deltas := [], ending := .finished (.ok outputs) })

/-- The tool succeeds, and the answer cites its evidence once alone and once with evidence
that is not there. -/
def labels : List (Label (system deployment)) :=
  .spawn (.runTurn Turn.Demo.thread Turn.Demo.turn { content := "", incidentContext := none }) ::
    settle 0 24 ++ model [.toolCall "c" "list" .null] :: settle 24 9 ++
    .perform 0 (.tool (.finished (.ok {
      content := .null, evidence := EvidenceMeta.new "list" 0 0 }) 0)) ::
    settle 33 16 ++ model [.message "answer"] :: settle 49 4

/-- The evidence that the diagnoses of a log cite. -/
def cited (log : List EventEnvelope) : List (List (List EvidenceId)) :=
  log.filterMap fun envelope => envelope.event.diagnosis.map fun diagnosis =>
    diagnosis.claims.map Claim.evidenceIds

end Demo

theorem diagnoses_grounded_answer : ∃ pool : Pool Demo.deployment,
    Demo.cited pool.state.db.events = [[[⟨17⟩], []]] ∧
      Grounded pool.state.db.events Turn.Demo.world.db.events.length := by
  have ran : (Effect.Pool.runChecked (fun _ _ => true) Demo.labels
      (Effect.Pool.boot Turn.Demo.world)).map
        (fun pool => Demo.cited pool.state.db.events) = some [[[⟨17⟩], []]] := by
    decide +kernel
  obtain ⟨pool, final, cited⟩ := Option.map_eq_some_iff.mp ran
  exact ⟨pool, cited, (diagnoses_grounded Demo.deployment Turn.Demo.world pool
    (.of_runChecked (fun _ _ _ => trivial) (.start rfl) final)).1⟩

end Grounding

end OpsCodex.Turn
