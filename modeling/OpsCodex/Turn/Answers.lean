import OpsCodex.Evidence.DiagnosisText
import OpsCodex.Turn.Requests
import OpsCodex.Turn.ResumeKeys

/-! The answers on record: every diagnosis that is logged was read out of what the model
answered to the call that logs it, and rests on what that call has read of its thread. -/

set_option autoImplicit false

namespace OpsCodex.Turn

open Effect OpsCodex.Action OpsCodex.Evidence OpsCodex.Store OpsCodex.Runtime
open OpsCodex.Strings (trim)

/-- What a call has heard of the model last, and what it has read of a log last. -/
structure Heard where
  said : List String
  /-- The thread, the number after which it was read, and the events. -/
  read : Option (ThreadId × Nat × List EventEnvelope)

namespace Heard

/-- The messages of an answer of the model. -/
def messages : List ModelOutput → List String
  | [] => []
  | .message content :: outputs => content :: messages outputs
  | .toolCall .. :: outputs => messages outputs

def answered (run : ModelRun) : List String :=
  match run.ending with
  | .finished (.ok outputs) => messages outputs
  | _ => []

def move (heard : Heard) : (op : Op) → op.Answer → Heard
  | .completeModel _, run => { heard with said := answered run }
  | .query (.eventsAfter threadId after), .ok events =>
      { heard with read := some (threadId, after, events) }
  | _, _ => heard

/-- The request logs the reading of something that was said, with the log that was read. -/
def Concludes (content : Content) (heard : Heard) (command : AppendEvent) : Prop :=
  ∃ text ∈ heard.said, ∃ seed events, heard.read = some (command.threadId, 0, events) ∧
    command.event = .assistantCompleted text
      (some (finalizeTurnDiagnosis (content.parseDiagnosis seed text) events))

def Admitted (content : Content) (heard : Heard) : Op → Prop
  | .command (.appendEvent command) =>
      command.event.diagnosis = none ∨ heard.Concludes content command
  | _ => True

def monitor (content : Content) : Monitor serviceInterface where
  Standing := Heard
  start := { said := [], read := none }
  Admits := Admitted content
  move := move

variable {content : Content} {context : TurnEventContext} {threadId : ThreadId}
  {turnId : TurnId} {workspaceId : WorkspaceId}

theorem admitted_of_undiagnosed {heard : Heard} {op : Op} (undiagnosed : Span.Undiagnosed op) :
    Admitted content heard op := by
  cases op with
  | command command =>
      cases command with
      | appendEvent command => exact .inl undiagnosed
      | _ => trivial
  | _ => trivial

/-- Only an answer of the model changes what was said last. -/
theorem said_of_requests {op : Op} (requests : Requests threadId turnId workspaceId op)
    (heard : Heard) (answer : op.Answer) : (heard.move op answer).said = heard.said := by
  cases op with
  | completeModel request => exact requests.elim
  | query query =>
      cases query with
      | eventsAfter thread after => cases answer <;> rfl
      | _ => rfl
  | _ => rfl

theorem surrounds : Surrounds (monitor content) (fun _ => True) fun _ _ => True where
  start := trivial
  opens := fun _ _ _ => trivial
  before := by
    intro op heard around _
    refine ⟨?_, fun _ => trivial⟩
    cases op with
    | command command =>
        cases command with
        | appendEvent command => exact .inl around
        | _ => trivial
    | _ => trivial
  after := by
    intro threadId op heard around _
    refine ⟨?_, fun _ => trivial⟩
    cases op with
    | command command =>
        cases command with
        | appendEvent command => exact .inl around.1
        | _ => trivial
    | _ => trivial

variable (deployment : Deployment)

/-- The parts of a turn that log no diagnosis. -/
theorem undiagnosed_meets {Value : Type} {program : Async Value}
    (uses : Fallible.Uses Span.Undiagnosed program) (heard : Heard) :
    Meets (monitor content).protocol program heard (fun _ _ => True) fun _ _ => True :=
  Monitor.keeps_of_uses uses
    (fun _ _ undiagnosed _ => ⟨admitted_of_undiagnosed undiagnosed, fun _ => trivial⟩) trivial

/-- A part of a turn that logs no diagnosis, in front of the rest. -/
theorem aside {Value Returned : Type} {program : Async Value} {rest : Value → Async Returned}
    {heard : Heard} (uses : Fallible.Uses Span.Undiagnosed program)
    (next : ∀ value after, Meets (monitor content).protocol (rest value) after
      (fun _ _ => True) fun _ _ => True) :
    Meets (monitor content).protocol (program >>= rest) heard (fun _ _ => True)
      fun _ _ => True :=
  Meets.bind ((undiagnosed_meets uses heard).mono (fun value after _ => next value after)
    fun _ _ _ => trivial)

/-- The parts of a turn that log no diagnosis and do not ask the model. -/
theorem keeps_said {Value : Type} {program : Async Value} {allowed : Op → Prop}
    (requests : Fallible.Uses (Requests.Of context) program)
    (wordless : Fallible.Uses (Span.Wordless allowed) program) {heard : Heard} {said : List String}
    (same : heard.said = said) :
    Meets (monitor content).protocol program heard (fun _ after => after.said = said)
      fun _ _ => True := by
  have kept : Meets (monitor content).protocol program heard (fun _ after => after.said = said)
      fun _ after => after.said = said :=
    Monitor.keeps_of_uses (Effect.Uses.and requests (Span.uses_undiagnosed wordless))
      (fun op heard allowed same => ⟨admitted_of_undiagnosed allowed.2, fun answer =>
        (said_of_requests allowed.1 heard answer).trans same⟩) same
  exact kept.mono (fun _ _ same => same) fun _ _ _ => trivial

theorem runOutputs_meets (streamed : Bool) (outputs : List ModelOutput) (last : Option EventId)
    (calledTool : Bool) (heard : Heard) (spoken : ∀ text ∈ messages outputs, text ∈ heard.said) :
    Meets (monitor deployment.content).protocol
      (runOutputs deployment context streamed outputs last calledTool) heard
      (fun _ _ => True) fun _ _ => True := by
  induction outputs generalizing last calledTool heard with
  | nil => exact Meets.pure trivial
  | cons output outputs ih =>
      cases output with
      | message content =>
          unfold runOutputs
          have streams : Meets (monitor deployment.content).protocol
              (if streamed then pure last
                else emitNext context last (.assistantDelta content) : Async (Option EventId))
              heard (fun _ after => after.said = heard.said) fun _ _ => True := by
            split
            · exact Meets.pure rfl
            · exact keeps_said (Requests.emitNext _ _)
                (Span.uses_emitNext (by exact rfl) (by exact rfl) _) rfl
          refine Meets.bind (streams.mono (fun last after same => ?_) fun _ _ _ => trivial)
          refine Meets.bind (Async.meets_ask fun seed => ⟨_, ⟨trivial, rfl⟩, ?_⟩)
          refine Meets.bind (Async.meets_read fun answer => ⟨_, ⟨trivial, rfl⟩, ?_⟩)
          cases answer with
          | error error => trivial
          | ok events =>
              have heardOf : content ∈ after.said := same ▸ spoken content List.mem_cons_self
              refine Meets.bind (Meets.bind (Async.meets_write fun answer =>
                ⟨_, ⟨.inr ⟨content, heardOf, seed, events, rfl, rfl⟩, rfl⟩, ?_⟩))
              cases answer with
              | error error => trivial
              | ok envelope =>
                  refine ih _ _ _ fun text member => ?_
                  exact same ▸ spoken text (List.mem_cons_of_mem _ member)
      | toolCall callId name arguments =>
          unfold runOutputs
          have executes : Meets (monitor deployment.content).protocol
              (executeTool deployment { context with causationId := last } callId name arguments
                false) heard (fun _ after => after.said = heard.said) fun _ _ => True :=
            keeps_said
              (@Requests.executeTool deployment { context with causationId := last } _ _ _ _)
              (Span.uses_executeTool deployment callId name arguments false) rfl
          refine Meets.bind (executes.mono (fun eventId after same => ?_) fun _ _ _ => trivial)
          exact ih _ _ _ fun text member => same ▸ spoken text member

theorem completeModel_meets (causation : Option EventId) (request : ModelRequest)
    (heard : Heard) :
    Meets (monitor content).protocol
      (completeModel context.threadId context.turnId causation request) heard
      (fun completion after => ∀ text ∈ messages completion.1, text ∈ after.said)
      fun _ _ => True := by
  unfold completeModel
  refine Meets.bind (Async.meets_ask fun run => ⟨_, ⟨trivial, rfl⟩, ?_⟩)
  have streams : Meets (monitor content).protocol
      (emitDeltas context.threadId context.turnId run.deltas causation)
      { heard with said := answered run } (fun _ after => after.said = answered run)
      fun _ _ => True :=
    keeps_said (Requests.emitDeltas _ _) (Span.uses_emitDeltas _ _) rfl
  refine Meets.bind (streams.mono (fun last after same => ?_) fun _ _ _ => trivial)
  unfold answered at same
  cases ending : run.ending with
  | cancelled => exact Meets.throw trivial
  | elapsed => exact Meets.throw trivial
  | finished outcome =>
      cases outcome with
      | error error => exact Meets.bind (Meets.throw trivial)
      | ok outputs =>
          rw [ending] at same
          exact Meets.bind (Meets.pure (Meets.pure fun text member => same ▸ member))

theorem modelLoop_meets (instructions : String) (remaining : Nat) (step : UInt32)
    (last : Option EventId) (heard : Heard) :
    Meets (monitor deployment.content).protocol
      (modelLoop deployment context instructions remaining step last) heard
      (fun _ _ => True) fun _ _ => True := by
  induction remaining generalizing step last heard with
  | zero => exact Meets.throw trivial
  | succ remaining ih =>
      unfold modelLoop
      refine aside (Span.uses_undiagnosed (Span.uses_maybeCompact deployment)) fun _ _ => ?_
      refine aside (Span.uses_undiagnosed
        (Span.uses_writeCheckpoint deployment _ _ _ _ _)) fun _ _ => ?_
      refine Meets.bind (Async.meets_read fun answer => ⟨_, ⟨trivial, rfl⟩, ?_⟩)
      cases answer with
      | error error => trivial
      | ok items =>
          refine Meets.bind ((completeModel_meets last _ _).mono ?_ fun _ _ _ => trivial)
          rintro ⟨outputs, streamed, modelEvent⟩ after spoken
          refine Meets.bind ((@runOutputs_meets { context with step := step } deployment streamed
            outputs _ false after spoken).mono ?_ fun _ _ _ => trivial)
          rintro ⟨last, calledTool⟩ after -
          cases calledTool with
          | true => exact ih _ _ _
          | false =>
              refine aside (Span.uses_undiagnosed
                (Span.uses_writeCheckpoint deployment _ _ _ _ _)) fun _ _ => ?_
              exact aside (Span.uses_write (by exact rfl)) fun _ _ => Meets.pure trivial

theorem runTurnInner_meets (threadId : ThreadId) (turnId : TurnId) (start : TurnStart)
    (lease : Lease) (heard : Heard) :
    Meets (monitor deployment.content).protocol
      (runTurnInner deployment threadId turnId start lease) heard
      (fun _ _ => True) fun _ _ => True := by
  have enters (context : TurnEventContext) :
      Fallible.Uses Span.Undiagnosed (enterTurn deployment context start) := by
    cases start with
    | fresh input => exact Span.uses_undiagnosed (Span.uses_enterTurn deployment input)
    | resume report => exact Span.uses_undiagnosed (ResumeKeys.uses_enterTurn deployment report)
  unfold runTurnInner
  refine aside (Span.uses_read (by exact trivial)) fun thread _ => ?_
  refine aside (Span.uses_ask (by exact trivial)) fun catalog _ => ?_
  refine aside (Span.uses_ofResult _) fun _ _ => ?_
  refine aside (Span.uses_ofResult _) fun tools _ => ?_
  refine aside (enters _) fun entered _ => ?_
  exact modelLoop_meets deployment _ _ _ _ _

/-- Every call logs only readings of what it was told. -/
theorem conforms (job : Job) :
    Conforms (monitor deployment.content).protocol ((system deployment).program job)
      (monitor deployment.content).start fun _ _ => True :=
  surrounds.conforms deployment (fun threadId turnId start lease heard _ =>
    runTurnInner_meets deployment threadId turnId start lease heard) job

/-- The messages that a request was answered with. -/
def told : (op : Op) → op.Answer → List String
  | .completeModel _, run => answered run
  | _, _ => []

/-- The events that a request has read of a whole log. -/
def listed : (op : Op) → op.Answer → Option (ThreadId × Nat × List EventEnvelope)
  | .query (.eventsAfter threadId after), .ok events => some (threadId, after, events)
  | _, _ => none

theorem said_move {heard : Heard} {op : Op} {answer : op.Answer} {text : String}
    (known : text ∈ (heard.move op answer).said) :
    text ∈ told op answer ∨ text ∈ heard.said := by
  unfold move at known
  split at known
  · exact .inl known
  · exact .inr known
  · exact .inr known

theorem read_move {heard : Heard} {op : Op} {answer : op.Answer}
    {log : ThreadId × Nat × List EventEnvelope} (known : (heard.move op answer).read = some log) :
    listed op answer = some log ∨ heard.read = some log := by
  unfold move at known
  split at known
  · exact .inr known
  · exact .inl known
  · exact .inr known

section

variable {deployment} {trace : List (Entry deployment)} {caller : Nat}

theorem standing_said {text : String}
    (known : text ∈ ((monitor content).standing trace caller).said) :
    ∃ entry ∈ trace, entry.caller = caller ∧ text ∈ told entry.op entry.answer := by
  induction trace with
  | nil => cases known
  | cons entry older ih =>
      have rest (before : text ∈ ((monitor content).standing older caller).said) :
          ∃ other ∈ entry :: older, other.caller = caller ∧ text ∈ told other.op other.answer := by
        obtain ⟨other, member, own, told⟩ := ih before
        exact ⟨other, List.mem_cons_of_mem _ member, own, told⟩
      rw [Monitor.standing] at known
      split at known
      · case isTrue own =>
          obtain here | before := said_move known
          · exact ⟨entry, List.mem_cons_self, own, here⟩
          · exact rest before
      · exact rest known

theorem standing_read {log : ThreadId × Nat × List EventEnvelope}
    (known : ((monitor content).standing trace caller).read = some log) :
    ∃ entry ∈ trace, entry.caller = caller ∧ listed entry.op entry.answer = some log := by
  induction trace with
  | nil => cases known
  | cons entry older ih =>
      have rest (before : ((monitor content).standing older caller).read = some log) :
          ∃ other ∈ entry :: older, other.caller = caller ∧
            listed other.op other.answer = some log := by
        obtain ⟨other, member, own, listed⟩ := ih before
        exact ⟨other, List.mem_cons_of_mem _ member, own, listed⟩
      rw [Monitor.standing] at known
      split at known
      · case isTrue own =>
          obtain here | before := read_move known
          · exact ⟨entry, List.mem_cons_self, own, here⟩
          · exact rest before
      · exact rest known

/-- The request of the entry put the event into the log. -/
def Appends (entry : Entry deployment) (envelope : EventEnvelope) : Prop :=
  ∃ command, entry.op = .command (.appendEvent command) ∧
    command.threadId = envelope.threadId ∧ command.event = envelope.event

/-- What the log has more than it began with was put there by the calls. -/
def Logged (world : World) (pool : Pool deployment) : Prop :=
  ∀ envelope ∈ pool.state.db.events, envelope ∈ world.db.events ∨
    ∃ entry ∈ pool.trace, Appends entry envelope

theorem perform_events_other {content : Content} {codec : Codec} {op : Op} {choice : Choice}
    {world state : World} {answer : op.Answer}
    (other : ¬ ∃ command, op = .command (.appendEvent command))
    (performed : World.perform content codec op choice world = some (answer, state)) :
    state.db.events = world.db.events := by
  refine (World.perform_keeps performed).events ?_
  unfold World.writes
  split <;> simp_all

theorem logged_keeps (world : World) :
    @Monitor.Keeps _ (system deployment) (monitor deployment.content) (fun _ _ _ => True)
      (Logged world) where
  spawn := fun _ _ logged => logged
  perform := by
    intro pool caller job op next choice answer state watched found performed logged
    have kept (envelope : EventEnvelope) (old : envelope ∈ pool.state.db.events) :
        envelope ∈ world.db.events ∨
          ∃ entry ∈ (pool.record caller job op answer (next answer) state).trace,
            Appends entry envelope := by
      obtain initial | ⟨entry, member, appends⟩ := logged envelope old
      · exact .inl initial
      · exact .inr ⟨entry, List.mem_cons_of_mem _ member, appends⟩
    intro envelope member
    change envelope ∈ state.db.events at member
    by_cases append : ∃ command, op = .command (.appendEvent command)
    · obtain ⟨command, rfl⟩ := append
      obtain ⟨added, -, grown, -, thread, -, event⟩ | ⟨_, -, same⟩ :=
        World.perform_append performed
      · rw [grown, List.mem_append, List.mem_singleton] at member
        obtain old | rfl := member
        · exact kept envelope old
        · exact .inr ⟨_, List.mem_cons_self, command, rfl, thread.symm, event.symm⟩
      · exact kept envelope (same ▸ member)
    · exact kept envelope (perform_events_other append performed ▸ member)
  crash := fun _ _ logged => logged

/-- The evidence of the successful tool calls among events. -/
def gathered (events : List EventEnvelope) : List EvidenceMeta :=
  events.filterMap fun envelope =>
    match envelope.event with
    | .toolCompleted _ _ _ evidence true => some evidence
    | _ => none

/-- The diagnosis is what a text says, limited to some evidence: the object that the text
holds and that can be decoded, or none. -/
def ReadFrom (fromStr : String → Option LooseDiagnosis) (fresh : Nat → ClaimId) (text : String)
    (evidence : List EvidenceMeta) (diagnosis : Diagnosis) : Prop :=
  (∃ object loose, Holds (trim text.toList) object ∧
    fromStr (String.ofList object) = some loose ∧
      RecordedFrom fresh text loose evidence diagnosis) ∨
  (∀ object, Holds (trim text.toList) object → fromStr (String.ofList object) = none) ∧
    diagnosis = unverified text

theorem readFrom_finalizeTurnDiagnosis (fromStr : String → Option LooseDiagnosis)
    (fresh : Nat → ClaimId) (text : String) (events : List EventEnvelope) :
    ReadFrom fromStr fresh text (gathered events)
      (finalizeTurnDiagnosis (parseDiagnosis fromStr fresh text) events) := by
  change ReadFrom fromStr fresh text (gathered events)
    (applyCitationLimitations (parseDiagnosis fromStr fresh text) (gathered events))
  by_cases decodes : ∃ object loose, Holds (trim text.toList) object ∧
      fromStr (String.ofList object) = some loose
  · obtain ⟨object, loose, holds, decoded⟩ := decodes
    rw [parseDiagnosis_of_holds holds decoded]
    exact .inl ⟨object, loose, holds, decoded, recordedFrom_settle fresh text loose _⟩
  · have unread (object : List Char) (holds : Holds (trim text.toList) object) :
        fromStr (String.ofList object) = none := by
      cases decoded : fromStr (String.ofList object) with
      | none => rfl
      | some loose => exact absurd ⟨object, loose, holds, decoded⟩ decodes
    rw [parseDiagnosis_of_unread unread]
    exact .inr ⟨unread, applyCitationLimitations_unverified _⟩

end

end Heard

/-- Every diagnosis that the calls on turns put into the log is read out of a message that
the model answered to the same call before, as an object of the message or as none, with the
claims that the call's reading of the log of its thread supports. -/
theorem answers_authentic (deployment : Deployment) (fromStr : String → Option LooseDiagnosis)
    (fresh : Uuid → Nat → ClaimId)
    (reads : ∀ seed text, deployment.content.parseDiagnosis seed text =
      parseDiagnosis fromStr (fresh seed) text)
    (world : World) (pool : Pool deployment)
    (reached : Effect.Pool.Reachable (fun _ _ => True)
      (fun initial => initial = Effect.Pool.boot world) pool) :
    ∀ envelope ∈ pool.state.db.events, envelope ∈ world.db.events ∨
      ∀ diagnosis, envelope.event.diagnosis = some diagnosis →
        ∃ newer entry older, pool.trace = newer ++ entry :: older ∧
          Heard.Appends entry envelope ∧ ∃ text, ∃ seed events,
            envelope.event = .assistantCompleted text (some diagnosis) ∧
            (∃ asked ∈ older, asked.caller = entry.caller ∧
              text ∈ Heard.told asked.op asked.answer) ∧
            (∃ read ∈ older, read.caller = entry.caller ∧
              Heard.listed read.op read.answer = some (envelope.threadId, 0, events)) ∧
            Heard.ReadFrom fromStr (fresh seed) text (Heard.gathered events) diagnosis := by
  obtain ⟨watched, logged⟩ := (Heard.logged_keeps world).reachable (Heard.conforms deployment)
    (fun initial same => by
      subst same
      exact ⟨⟨world, rfl⟩, fun envelope member => .inl member⟩) reached
  intro envelope member
  obtain initial | ⟨entry, recorded, appends⟩ := logged envelope member
  · exact .inl initial
  · refine .inr fun diagnosis carried => ?_
    obtain ⟨newer, older, split⟩ := List.append_of_mem recorded
    have admitted := watched.admitted newer entry older split
    obtain ⟨command, request, thread, event⟩ := id appends
    rw [request] at admitted
    obtain undiagnosed | ⟨text, spoken, seed, events, read, concludes⟩ := admitted
    · rw [event, carried] at undiagnosed
      cases undiagnosed
    · have written : envelope.event = .assistantCompleted text (some
          (finalizeTurnDiagnosis (deployment.content.parseDiagnosis seed text) events)) :=
        event.symm.trans concludes
      have same : finalizeTurnDiagnosis (deployment.content.parseDiagnosis seed text) events =
          diagnosis := by
        rw [written] at carried
        exact Option.some.inj carried
      refine ⟨newer, entry, older, split, appends, text, seed, events, same ▸ written,
        Heard.standing_said spoken, thread ▸ Heard.standing_read read, ?_⟩
      rw [← same, reads]
      exact Heard.readFrom_finalizeTurnDiagnosis fromStr (fresh seed) text events

/-! A turn whose model answers at once with an object in a fence. -/

namespace Heard.Demo

def object : String := "\x7b\"summary\":\"up\"\x7d"

def decode (text : String) : Option LooseDiagnosis :=
  if text = object then
    some { summary := some "up", claims := [], recommendedActions := [], limitations := [] }
  else none

def deployment : Deployment :=
  { Turn.Demo.deployment with
    content := { Content.plain with
      parseDiagnosis := fun seed text => parseDiagnosis decode (fun _ => ⟨seed⟩) text } }

def settle (start count : Nat) : List (Label (system deployment)) :=
  (List.range count).map fun (position : Nat) => .perform 0 (.settle (start + position))

def labels : List (Label (system deployment)) :=
  .spawn (.runTurn Turn.Demo.thread Turn.Demo.turn { content := "", incidentContext := none }) ::
    settle 0 24 ++ .perform 0 (.model {
      deltas := [], ending := .finished (.ok [.message ("```json\n" ++ object ++ "\n```")]) }) ::
    settle 24 4

def summaries (log : List EventEnvelope) : List String :=
  log.filterMap fun envelope => envelope.event.diagnosis.map Diagnosis.summary

end Heard.Demo

theorem answers_authentic_fenced : ∃ (pool : Pool Heard.Demo.deployment) (text : String)
    (events : List EventEnvelope) (diagnosis : Diagnosis),
    (∃ envelope ∈ pool.state.db.events,
      envelope.event = .assistantCompleted text (some diagnosis)) ∧ diagnosis.summary = "up" ∧
      ∃ seed, Heard.ReadFrom Heard.Demo.decode (fun _ => ⟨seed⟩) text (Heard.gathered events)
        diagnosis := by
  have ran : (Effect.Pool.runChecked (fun _ _ => true) Heard.Demo.labels
      (Effect.Pool.boot Turn.Demo.world)).map
        (fun pool => Heard.Demo.summaries pool.state.db.events) = some ["up"] := by
    decide +kernel
  obtain ⟨pool, final, told⟩ := Option.map_eq_some_iff.mp ran
  have first : "up" ∈ Heard.Demo.summaries pool.state.db.events := told ▸ List.mem_cons_self
  obtain ⟨envelope, member, carried⟩ := List.mem_filterMap.mp first
  obtain ⟨diagnosis, carried, summary⟩ := Option.map_eq_some_iff.mp carried
  have plain : ∀ old ∈ Turn.Demo.world.db.events, old.event.diagnosis = none := by decide
  obtain initial | authentic := answers_authentic Heard.Demo.deployment Heard.Demo.decode
    (fun seed _ => ⟨seed⟩) (fun _ _ => rfl) Turn.Demo.world pool
    (.of_runChecked (fun _ _ _ => trivial) (.start rfl) final) envelope member
  · rw [plain envelope initial] at carried
    cases carried
  · obtain ⟨_, _, _, _, _, text, seed, events, written, _, _, read⟩ := authentic diagnosis carried
    exact ⟨pool, text, events, diagnosis, ⟨envelope, member, written⟩, summary, seed, read⟩

end OpsCodex.Turn
