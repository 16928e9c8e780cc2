import Mathlib.Data.List.Induction
import OpsCodex.Runtime.Event

/-! What a thread's log says about the authorization of tool calls, and which
events may be added to a log whose starts are all authorized. -/

set_option autoImplicit false

namespace OpsCodex.Runtime

namespace RuntimeEvent

def Proposes (callId : String) (event : RuntimeEvent) : Prop :=
  event.proposedCall = some callId

def Authorizes (callId decision : String) (event : RuntimeEvent) : Prop :=
  ∃ tool, event = .toolAuthorized callId tool decision

def Requires (id : ApprovalId) (event : RuntimeEvent) : Prop :=
  ∃ tool arguments, event = .approvalRequired id tool arguments

def Resolves (id : ApprovalId) (approved : Bool) (event : RuntimeEvent) : Prop :=
  event = .approvalResolved id approved

def Starts (callId : String) (event : RuntimeEvent) : Prop :=
  ∃ tool, event = .toolExecutionStarted callId tool

def authorization : RuntimeEvent → Option (String × String)
  | .toolAuthorized callId _ decision => some (callId, decision)
  | _ => none

def startedCallId : RuntimeEvent → Option String
  | .toolExecutionStarted callId _ => some callId
  | _ => none

theorem authorizes_iff {callId decision : String} {event : RuntimeEvent} :
    event.Authorizes callId decision ↔ event.authorization = some (callId, decision) := by
  cases event <;> simp [Authorizes, authorization]

theorem starts_iff {callId : String} {event : RuntimeEvent} :
    event.Starts callId ↔ event.startedCallId = some callId := by
  cases event <;> simp [Starts, startedCallId]

instance (callId decision : String) : DecidablePred (Authorizes callId decision) :=
  fun _ => decidable_of_iff _ authorizes_iff.symm

instance (callId : String) : DecidablePred (Starts callId) :=
  fun _ => decidable_of_iff _ starts_iff.symm

/-- The events that the audit of a tool's start reads. -/
def audited : RuntimeEvent → Bool
  | .toolAuthorized .. | .approvalRequired .. | .approvalResolved ..
  | .toolExecutionStarted .. => true
  | _ => false

end RuntimeEvent

/-- A turn logged an event. -/
def Logged (turnId : TurnId) (tells : RuntimeEvent → Prop) (events : List EventEnvelope) : Prop :=
  ∃ envelope ∈ events, envelope.turnId = some turnId ∧ tells envelope.event

instance (turnId : TurnId) (tells : RuntimeEvent → Prop) [DecidablePred tells]
    (events : List EventEnvelope) : Decidable (Logged turnId tells events) :=
  inferInstanceAs (Decidable (∃ envelope ∈ events, envelope.turnId = some turnId ∧
    tells envelope.event))

/-- The call that a turn proposed last. -/
def lastProposed (turnId : TurnId) (events : List EventEnvelope) : Option String :=
  events.foldl (fun last envelope =>
    if envelope.turnId = some turnId then envelope.event.proposedCall <|> last else last) none

/-- The user was asked to approve a call: the one that its turn had proposed last. -/
def Asked (turnId : TurnId) (callId : String) (id : ApprovalId) (events : List EventEnvelope) :
    Prop :=
  ∃ before envelope after, events = before ++ envelope :: after ∧
    envelope.turnId = some turnId ∧ envelope.event.Requires id ∧
    lastProposed turnId before = some callId

abbrev Allowed (turnId : TurnId) (callId : String) : List EventEnvelope → Prop :=
  Logged turnId (RuntimeEvent.Authorizes callId "allow")

abbrev Denied (turnId : TurnId) (callId : String) : List EventEnvelope → Prop :=
  Logged turnId (RuntimeEvent.Authorizes callId "deny")

abbrev Resolved (turnId : TurnId) (id : ApprovalId) (approved : Bool) :
    List EventEnvelope → Prop :=
  Logged turnId (RuntimeEvent.Resolves id approved)

/-- Every start of a tool was allowed before it, and by the user where the user was
asked; a call that was denied or refused is not started at all. -/
def AuthorizedStarts (events : List EventEnvelope) : Prop :=
  ∀ before envelope after turnId callId, events = before ++ envelope :: after →
    envelope.turnId = some turnId → envelope.event.Starts callId →
    Allowed turnId callId before ∧ ¬ Denied turnId callId events ∧
      ∀ id, Asked turnId callId id events →
        Resolved turnId id true before ∧ ¬ Resolved turnId id false events

section

variable {turnId : TurnId} {events before after : List EventEnvelope} {added : EventEnvelope}

/-- A place in a log that has grown is an old place or its end. -/
theorem append_eq_middle {envelope : EventEnvelope}
    (split : events ++ [added] = before ++ envelope :: after) :
    (∃ rest, events = before ++ envelope :: rest) ∨ (before = events ∧ envelope = added) := by
  obtain rfl | ⟨rest, last, rfl⟩ := List.eq_nil_or_concat after
  · obtain ⟨rfl, same⟩ := List.append_inj' split rfl
    exact .inr ⟨rfl, (List.cons.inj same).1.symm⟩
  · have regrouped : events ++ [added] = (before ++ envelope :: rest) ++ [last] := by
      simpa using split
    exact .inl ⟨rest, (List.append_inj' regrouped rfl).1⟩

theorem logged_append {tells : RuntimeEvent → Prop} : Logged turnId tells (events ++ [added]) ↔
    Logged turnId tells events ∨ (added.turnId = some turnId ∧ tells added.event) := by
  simp [Logged, or_and_right, exists_or]

theorem Logged.grow {tells : RuntimeEvent → Prop} (logged : Logged turnId tells events)
    (suffix : List EventEnvelope) : Logged turnId tells (events ++ suffix) := by
  obtain ⟨envelope, member, own⟩ := logged
  exact ⟨envelope, List.mem_append_left _ member, own⟩

theorem lastProposed_append : lastProposed turnId (events ++ [added]) =
    if added.turnId = some turnId then added.event.proposedCall <|> lastProposed turnId events
    else lastProposed turnId events := by
  simp [lastProposed]

theorem logged_of_lastProposed {callId : String} (last : lastProposed turnId events = some callId) :
    Logged turnId (RuntimeEvent.Proposes callId) events := by
  induction events using List.reverseRecOn with
  | nil => cases last
  | append_singleton events added ih =>
      rw [lastProposed_append] at last
      rw [logged_append]
      by_cases own : added.turnId = some turnId
      · rw [if_pos own] at last
        cases proposed : added.event.proposedCall with
        | none =>
            rw [proposed] at last
            exact .inl (ih last)
        | some proposal =>
            rw [proposed] at last
            exact .inr ⟨own, proposed.trans last⟩
      · rw [if_neg own] at last
        exact .inl (ih last)

theorem asked_append {callId : String} {id : ApprovalId} :
    Asked turnId callId id (events ++ [added]) ↔ Asked turnId callId id events ∨
      (added.turnId = some turnId ∧ added.event.Requires id ∧
        lastProposed turnId events = some callId) := by
  constructor
  · intro asked
    obtain ⟨before, envelope, after, split, turn, requires, last⟩ := asked
    obtain ⟨rest, same⟩ | ⟨rfl, rfl⟩ := append_eq_middle split
    · exact .inl ⟨before, envelope, rest, same, turn, requires, last⟩
    · exact .inr ⟨turn, requires, last⟩
  · intro asked
    obtain ⟨before, envelope, rest, rfl, own⟩ | own := asked
    · exact ⟨before, envelope, rest ++ [added], by simp, own⟩
    · exact ⟨events, added, [], rfl, own⟩

theorem Asked.proposed {callId : String} {id : ApprovalId} (asked : Asked turnId callId id events) :
    Logged turnId (RuntimeEvent.Proposes callId) events := by
  obtain ⟨before, envelope, after, rfl, -, -, last⟩ := asked
  exact (logged_of_lastProposed last).grow _

/-- An event that no authorization is lost by. -/
structure Sound (events : List EventEnvelope) (turnId : TurnId) (event : RuntimeEvent) :
    Prop where
  authorizes : ∀ callId decision, event.Authorizes callId decision →
    Logged turnId (RuntimeEvent.Proposes callId) events
  allows : ∀ callId, event.Authorizes callId "allow" → ¬ Denied turnId callId events ∧
    ∀ id, Asked turnId callId id events →
      Resolved turnId id true events ∧ ¬ Resolved turnId id false events
  denies : ∀ callId, event.Authorizes callId "deny" → ¬ Allowed turnId callId events
  requires : ∀ id callId, event.Requires id → lastProposed turnId events = some callId →
    ¬ Allowed turnId callId events
  refuses : ∀ id, event.Resolves id false → (∃ callId, Asked turnId callId id events) ∧
    ∀ callId, Asked turnId callId id events → ¬ Allowed turnId callId events
  starts : ∀ callId, event.Starts callId → Allowed turnId callId events

theorem sound_of_unaudited {event : RuntimeEvent} (unaudited : event.audited = false) :
    Sound events turnId event := by
  constructor
  · rintro _ _ ⟨_, rfl⟩
    cases unaudited
  · rintro _ ⟨_, rfl⟩
    cases unaudited
  · rintro _ ⟨_, rfl⟩
    cases unaudited
  · rintro _ _ ⟨_, _, rfl⟩
    cases unaudited
  · rintro _ rfl
    cases unaudited
  · rintro _ ⟨_, rfl⟩
    cases unaudited

theorem sound_of_authorized {callId tool decision : String}
    (proposed : Logged turnId (RuntimeEvent.Proposes callId) events)
    (allows : decision = "allow" → ¬ Denied turnId callId events ∧
      ∀ id, Asked turnId callId id events →
        Resolved turnId id true events ∧ ¬ Resolved turnId id false events)
    (denies : decision = "deny" → ¬ Allowed turnId callId events) :
    Sound events turnId (.toolAuthorized callId tool decision) := by
  constructor
  · rintro _ _ ⟨_, same⟩
    cases same
    exact proposed
  · rintro _ ⟨_, same⟩
    cases same
    exact allows rfl
  · rintro _ ⟨_, same⟩
    cases same
    exact denies rfl
  · rintro _ _ ⟨_, _, same⟩
    cases same
  · intro _ same
    cases same
  · rintro _ ⟨_, same⟩
    cases same

theorem sound_of_required {id : ApprovalId} {tool : String} {arguments : Json.Value}
    (unallowed : ∀ callId, lastProposed turnId events = some callId →
      ¬ Allowed turnId callId events) :
    Sound events turnId (.approvalRequired id tool arguments) := by
  constructor
  · rintro _ _ ⟨_, same⟩
    cases same
  · rintro _ ⟨_, same⟩
    cases same
  · rintro _ ⟨_, same⟩
    cases same
  · rintro _ callId ⟨_, _, same⟩ last
    exact unallowed callId last
  · intro _ same
    cases same
  · rintro _ ⟨_, same⟩
    cases same

theorem sound_of_resolved {id : ApprovalId} {approved : Bool}
    (refuses : approved = false → (∃ callId, Asked turnId callId id events) ∧
      ∀ callId, Asked turnId callId id events → ¬ Allowed turnId callId events) :
    Sound events turnId (.approvalResolved id approved) := by
  constructor
  · rintro _ _ ⟨_, same⟩
    cases same
  · rintro _ ⟨_, same⟩
    cases same
  · rintro _ ⟨_, same⟩
    cases same
  · rintro _ _ ⟨_, _, same⟩
    cases same
  · intro _ same
    cases same
    exact refuses rfl
  · rintro _ ⟨_, same⟩
    cases same

theorem sound_of_started {callId tool : String} (allowed : Allowed turnId callId events) :
    Sound events turnId (.toolExecutionStarted callId tool) := by
  constructor
  · rintro _ _ ⟨_, same⟩
    cases same
  · rintro _ ⟨_, same⟩
    cases same
  · rintro _ ⟨_, same⟩
    cases same
  · rintro _ _ ⟨_, _, same⟩
    cases same
  · intro _ same
    cases same
  · rintro _ ⟨_, same⟩
    cases same
    exact allowed

theorem logged_append_other {tells : RuntimeEvent → Prop} (silent : ¬ tells added.event) :
    Logged turnId tells (events ++ [added]) ↔ Logged turnId tells events := by
  rw [logged_append]
  exact or_iff_left fun told => silent told.2

theorem asked_append_other {callId : String} {id : ApprovalId}
    (silent : ¬ added.event.Requires id) :
    Asked turnId callId id (events ++ [added]) ↔ Asked turnId callId id events := by
  rw [asked_append]
  exact or_iff_left fun required => silent required.2.1

/-- A log keeps what it says when an event is added that the audit does not read. -/
theorem logged_append_unaudited {tells : RuntimeEvent → Prop}
    (decides : ∀ event, tells event → event.audited = true)
    (unaudited : added.event.audited = false) :
    Logged turnId tells (events ++ [added]) ↔ Logged turnId tells events := by
  refine logged_append_other fun told => ?_
  rw [decides _ told] at unaudited
  cases unaudited

theorem asked_append_unaudited {callId : String} {id : ApprovalId}
    (unaudited : added.event.audited = false) :
    Asked turnId callId id (events ++ [added]) ↔ Asked turnId callId id events := by
  refine asked_append_other fun required => ?_
  obtain ⟨_, _, event⟩ := required
  rw [event] at unaudited
  cases unaudited

/-- A log of authorized starts, with what the next ones rely on. -/
structure Trail (events : List EventEnvelope) : Prop where
  started : ∀ before envelope after turnId callId, events = before ++ envelope :: after →
    envelope.turnId = some turnId → envelope.event.Starts callId →
    Allowed turnId callId before ∧
      ∀ id, Asked turnId callId id events → Resolved turnId id true before
  allowed : ∀ turnId callId, Allowed turnId callId events → ¬ Denied turnId callId events ∧
    ∀ id, Asked turnId callId id events →
      Resolved turnId id true events ∧ ¬ Resolved turnId id false events
  refused : ∀ turnId id, Resolved turnId id false events → ∃ callId, Asked turnId callId id events
  authorized : ∀ turnId callId decision,
    Logged turnId (RuntimeEvent.Authorizes callId decision) events →
    Logged turnId (RuntimeEvent.Proposes callId) events

theorem Trail.authorizedStarts (trail : Trail events) : AuthorizedStarts events := by
  intro before envelope after turnId callId split turn starts
  obtain ⟨allowed, approved⟩ := trail.started before envelope after turnId callId split turn starts
  have known : Allowed turnId callId events := by
    rw [split]
    exact allowed.grow _
  obtain ⟨undenied, unrefused⟩ := trail.allowed turnId callId known
  exact ⟨allowed, undenied, fun id asked => ⟨approved id asked, (unrefused id asked).2⟩⟩

theorem trail_of_untagged (untagged : ∀ envelope ∈ events, envelope.turnId = none) :
    Trail events := by
  have nothing {turnId : TurnId} {tells : RuntimeEvent → Prop} : ¬ Logged turnId tells events := by
    rintro ⟨envelope, member, turn, -⟩
    rw [untagged envelope member] at turn
    cases turn
  constructor
  · intro before envelope after turnId callId split turn
    rw [untagged envelope (by simp [split])] at turn
    cases turn
  · exact fun _ _ allowed => absurd allowed nothing
  · exact fun _ _ refused => absurd refused nothing
  · exact fun _ _ _ authorized => absurd authorized nothing

theorem Trail.append (trail : Trail events)
    (sound : ∀ turnId, added.turnId = some turnId → Sound events turnId added.event) :
    Trail (events ++ [added]) := by
  have unasked {turnId : TurnId} {callId : String} {id : ApprovalId}
      (allowed : Allowed turnId callId events)
      (asked : Asked turnId callId id (events ++ [added])) : Asked turnId callId id events := by
    obtain old | ⟨turn, requires, last⟩ := asked_append.mp asked
    · exact old
    · exact absurd allowed ((sound turnId turn).requires id callId requires last)
  constructor
  · intro before envelope after turnId callId split turn starts
    obtain ⟨rest, rfl⟩ | ⟨rfl, rfl⟩ := append_eq_middle split
    · obtain ⟨allowed, approved⟩ :=
        trail.started before envelope rest turnId callId rfl turn starts
      exact ⟨allowed, fun id asked => approved id (unasked (allowed.grow _) asked)⟩
    · have allowed := (sound turnId turn).starts callId starts
      exact ⟨allowed, fun id asked =>
        ((trail.allowed turnId callId allowed).2 id (unasked allowed asked)).1⟩
  · intro turnId callId allowed
    obtain old | ⟨turn, allows⟩ := logged_append.mp allowed
    · obtain ⟨undenied, resolved⟩ := trail.allowed turnId callId old
      refine ⟨fun denied => ?_, fun id asked => ?_⟩
      · obtain before | ⟨turn, denies⟩ := logged_append.mp denied
        · exact undenied before
        · exact (sound turnId turn).denies callId denies old
      · have asked := unasked old asked
        obtain ⟨approved, unrefused⟩ := resolved id asked
        refine ⟨approved.grow _, fun refused => ?_⟩
        obtain before | ⟨turn, refuses⟩ := logged_append.mp refused
        · exact unrefused before
        · exact ((sound turnId turn).refuses id refuses).2 callId asked old
    · obtain ⟨undenied, resolved⟩ := (sound turnId turn).allows callId allows
      obtain ⟨tool, event⟩ := allows
      refine ⟨fun denied => ?_, fun id asked => ?_⟩
      · obtain before | ⟨-, other, event'⟩ := logged_append.mp denied
        · exact undenied before
        · rw [event] at event'
          simp at event'
      · obtain asked | ⟨-, ⟨_, _, event'⟩, -⟩ := asked_append.mp asked
        · obtain ⟨approved, unrefused⟩ := resolved id asked
          refine ⟨approved.grow _, fun refused => ?_⟩
          obtain before | ⟨-, event'⟩ := logged_append.mp refused
          · exact unrefused before
          · rw [RuntimeEvent.Resolves, event] at event'
            cases event'
        · rw [event] at event'
          cases event'
  · intro turnId id refused
    obtain ⟨callId, asked⟩ : ∃ callId, Asked turnId callId id events := by
      obtain old | ⟨turn, refuses⟩ := logged_append.mp refused
      · exact trail.refused turnId id old
      · exact ((sound turnId turn).refuses id refuses).1
    exact ⟨callId, asked_append.mpr (.inl asked)⟩
  · intro turnId callId decision authorized
    obtain old | ⟨turn, authorizes⟩ := logged_append.mp authorized
    · exact (trail.authorized turnId callId decision old).grow _
    · exact ((sound turnId turn).authorizes callId decision authorizes).grow _

end

end OpsCodex.Runtime
