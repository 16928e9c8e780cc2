import OpsCodex.Server.Broadcast

/-! When a subscriber receives every event of its thread: broadcasts in the order of the
log, and no event that is never broadcast. -/

set_option autoImplicit false

namespace OpsCodex.Server

open OpsCodex.Runtime Transcript

/-- The call is still going to broadcast the event with the number. -/
def Owes (seq : Nat) : Task → Prop
  | .emitting envelope => envelope.seq = seq
  | .handling after => after < seq
  | .publishing rest => ∃ envelope ∈ rest, envelope.seq = seq

/-- A broadcast does not overtake an earlier event, and a handler does not fail while it
alone owes a broadcast. -/
def Orderly (system : System) : Action → Prop
  | .emitSend task => ∀ envelope, system.tasks task = some (.emitting envelope) →
      envelope.seq ≤ system.sent + 1
  | .publishNext task => ∀ envelope rest,
      system.tasks task = some (.publishing (envelope :: rest)) → envelope.seq ≤ system.sent + 1
  | .handlerFails task => ∀ seq, system.sent < seq → seq ≤ system.log.length →
      ∃ other entry, other ≠ task ∧ system.tasks other = some entry ∧ Owes seq entry
  | _ => True

/-- What the subscriber asks for. -/
def wanted (query : EventQuery) (envelope : EventEnvelope) : Bool :=
  decide (query.after < envelope.seq) && matchesKind query envelope

def Numbered (log : List EventEnvelope) : Prop :=
  ∀ index (inside : index < log.length), log[index].seq = index + 1

/-- What a call works on is in the log. -/
def Grounded (log : List EventEnvelope) : Task → Prop
  | .emitting envelope => envelope ∈ log
  | .handling after => after ≤ log.length
  | .publishing rest => ∀ envelope ∈ rest, envelope ∈ log

/-- Messages of which none is more than one beyond all before it, up to the last number. -/
def Chained : Nat → List EventEnvelope → Nat → Prop
  | known, [], last => known = last
  | known, envelope :: queue, last =>
      envelope.seq ≤ known + 1 ∧ Chained (max known envelope.seq) queue last

structure Sound (system : System) : Prop where
  numbered : Numbered system.log
  sent : system.sent ≤ system.log.length
  grounded : ∀ task entry, system.tasks task = some entry → Grounded system.log entry
  owed : ∀ seq, system.sent < seq → seq ≤ system.log.length →
    ∃ task entry, system.tasks task = some entry ∧ Owes seq entry

/-- The subscriber has, or is about to deliver, what it wants of the events reached. -/
structure Follows (query : EventQuery) (system : System) (lastSeq : Nat)
    (pending : List EventEnvelope) (known reached : Nat) : Prop where
  chained : Chained known system.queue system.sent
  queued : ∀ envelope ∈ system.queue, envelope ∈ system.log
  inside : reached ≤ system.log.length
  given : system.delivered ++ pending = (system.log.take reached).filter (wanted query)
  after : query.after ≤ lastSeq
  before : lastSeq ≤ max query.after reached
  passed : ∀ envelope ∈ system.delivered, envelope.seq ≤ lastSeq

def Tracks (query : EventQuery) (system : System) : Prop :=
  match system.phase with
  | .absent => system.delivered = []
  | .subscribed =>
      system.delivered = [] ∧ (∃ known, Chained known system.queue system.sent) ∧
        ∀ envelope ∈ system.queue, envelope ∈ system.log
  | .streaming lastSeq pending =>
      ∃ known reached, Follows query system lastSeq pending known reached ∧
        (system.lagged = false → known ≤ reached)
  | .recovering lastSeq => ∃ known reached, Follows query system lastSeq [] known reached
  | .closed => True

/-- The steps that can happen, with what they lead to. -/
inductive Moves (query : EventQuery) (system : System) : Action → System → Prop where
  | emitAppend {task envelope} (free : system.tasks task = none) :
      Moves query system (.emitAppend task envelope)
        ((system.append envelope).setTask task (some (.emitting (system.numbered envelope))))
  | emitSend {task envelope} (held : system.tasks task = some (.emitting envelope)) :
      Moves query system (.emitSend task) ((system.send envelope).setTask task none)
  | enterHandler {task lastSeqRead} (free : system.tasks task = none) :
      Moves query system (.enterHandler task lastSeqRead)
        (system.setTask task (some (.handling (if lastSeqRead then system.log.length else 0))))
  | handlerAppend {task envelope after} (held : system.tasks task = some (.handling after)) :
      Moves query system (.handlerAppend task envelope) (system.append envelope)
  | handlerReturns {task after} (held : system.tasks task = some (.handling after)) :
      Moves query system (.handlerReturns task)
        (system.setTask task (some (.publishing (eventsAfter system.log after))))
  | handlerFails {task after} (held : system.tasks task = some (.handling after)) :
      Moves query system (.handlerFails task) (system.setTask task none)
  | published {task} (held : system.tasks task = some (.publishing [])) :
      Moves query system (.publishNext task) (system.setTask task none)
  | publish {task envelope rest}
      (held : system.tasks task = some (.publishing (envelope :: rest))) :
      Moves query system (.publishNext task)
        ((system.send envelope).setTask task (some (.publishing rest)))
  | subscribe (phase : system.phase = .absent) :
      Moves query system .subscribe
        { system with phase := .subscribed, queue := [], lagged := false }
  | replay (phase : system.phase = .subscribed) :
      Moves query system .replay { system with
        phase := .streaming query.after
          ((eventsAfter system.log query.after).filter (matchesKind query)) }
  | deliverNext {lastSeq envelope pending}
      (phase : system.phase = .streaming lastSeq (envelope :: pending)) :
      Moves query system .deliverNext { system with
        phase := .streaming (max lastSeq envelope.seq) pending
        delivered := system.delivered ++ [envelope] }
  | receive {lastSeq} (phase : system.phase = .streaming lastSeq []) :
      Moves query system .receive (system.receive query lastSeq)
  | recover {lastSeq} (phase : system.phase = .recovering lastSeq) :
      Moves query system .recover { system with
        phase := .streaming lastSeq
          ((eventsAfter system.log lastSeq).filter (matchesKind query)) }
  | close : Moves query system .close { system with phase := .closed }

section

variable {query : EventQuery} {system : System} {log : List EventEnvelope}
  {envelope : EventEnvelope} {lastSeq known reached last : Nat} {pending queue : List EventEnvelope}

theorem Chained.le (chained : Chained known queue last) : known ≤ last := by
  induction queue generalizing known with
  | nil => exact Nat.le_of_eq chained
  | cons envelope queue ih => exact Nat.le_trans (Nat.le_max_left _ _) (ih chained.2)

theorem Chained.snoc (chained : Chained known queue last) (next : envelope.seq ≤ last + 1) :
    Chained known (queue ++ [envelope]) (max last envelope.seq) := by
  induction queue generalizing known with
  | nil =>
      cases chained
      exact ⟨next, rfl⟩
  | cons first queue ih => exact ⟨chained.1, ih chained.2⟩

theorem Numbered.snoc (numbered : Numbered log) (envelope : EventEnvelope) :
    Numbered (log ++ [{ envelope with seq := log.length + 1 }]) := by
  intro index inside
  by_cases old : index < log.length
  · rw [List.getElem_append_left old]
    exact numbered index old
  · have last : index = log.length := by
      rw [List.length_append, List.length_singleton] at inside
      omega
    subst last
    simp

theorem Numbered.mem_iff (numbered : Numbered log) :
    envelope ∈ log ↔ ∃ index, ∃ inside : index < log.length,
      log[index] = envelope ∧ envelope.seq = index + 1 := by
  constructor
  · intro member
    obtain ⟨index, inside, rfl⟩ := List.getElem_of_mem member
    exact ⟨index, inside, rfl, numbered index inside⟩
  · rintro ⟨index, inside, rfl, -⟩
    exact List.getElem_mem inside

theorem Numbered.seq_le_of_mem_take (numbered : Numbered log)
    (member : envelope ∈ log.take reached) : envelope.seq ≤ reached := by
  obtain ⟨index, inside, rfl⟩ := List.getElem_of_mem member
  rw [List.length_take] at inside
  rw [List.getElem_take, numbered index (by omega)]
  omega

theorem Numbered.lt_seq_of_mem_drop (numbered : Numbered log)
    (member : envelope ∈ log.drop reached) : reached < envelope.seq := by
  obtain ⟨index, inside, rfl⟩ := List.getElem_of_mem member
  rw [List.length_drop] at inside
  rw [List.getElem_drop, numbered (reached + index) (by omega)]
  omega

theorem Numbered.mem_take (numbered : Numbered log) (member : envelope ∈ log)
    (within : envelope.seq ≤ reached) : envelope ∈ log.take reached := by
  obtain ⟨index, inside, rfl, seq⟩ := numbered.mem_iff.mp member
  have early : index < reached := by omega
  exact List.mem_take_iff_getElem.mpr ⟨index, by omega, rfl⟩

/-- The events up to the next one are those before it and the one itself. -/
theorem Numbered.take_succ (numbered : Numbered log) (member : envelope ∈ log)
    (next : envelope.seq = reached + 1) :
    log.take (reached + 1) = log.take reached ++ [envelope] := by
  obtain ⟨index, inside, rfl, seq⟩ := numbered.mem_iff.mp member
  have same : index = reached := by omega
  subst same
  exact (List.take_append_getElem inside).symm

theorem Numbered.pairwise (numbered : Numbered log) :
    log.Pairwise fun first second => first.seq < second.seq := by
  rw [List.pairwise_iff_getElem]
  intro first second firstInside secondInside before
  rw [numbered first firstInside, numbered second secondInside]
  omega

/-- A tracked subscriber stays tracked when only what it does not look at changes. -/
theorem Tracks.of_same {other : System} (tracks : Tracks query system)
    (log : other.log = system.log) (sent : other.sent = system.sent)
    (phase : other.phase = system.phase) (queue : other.queue = system.queue)
    (lagged : other.lagged = system.lagged) (delivered : other.delivered = system.delivered) :
    Tracks query other := by
  obtain ⟨_, tasks, _, _, _, _, _⟩ := other
  subst log sent phase queue lagged delivered
  unfold Tracks at tracks ⊢
  cases phase : system.phase with
  | absent =>
      rw [phase] at tracks
      exact tracks
  | subscribed =>
      rw [phase] at tracks
      exact tracks
  | streaming lastSeq pending =>
      rw [phase] at tracks
      obtain ⟨known, reached, follows, fresh⟩ := tracks
      exact ⟨known, reached, ⟨follows.chained, follows.queued, follows.inside, follows.given,
        follows.after, follows.before, follows.passed⟩, fresh⟩
  | recovering lastSeq =>
      rw [phase] at tracks
      obtain ⟨known, reached, follows⟩ := tracks
      exact ⟨known, reached, ⟨follows.chained, follows.queued, follows.inside, follows.given,
        follows.after, follows.before, follows.passed⟩⟩
  | closed => trivial

/-! Appends -/

theorem Follows.append (follows : Follows query system lastSeq pending known reached)
    (envelope : EventEnvelope) :
    Follows query (system.append envelope) lastSeq pending known reached where
  chained := follows.chained
  queued other member := List.mem_append_left _ (follows.queued other member)
  inside := by
    have grown := follows.inside
    simp only [System.append, List.length_append, List.length_singleton]
    omega
  given := by
    have same := follows.given
    simp only [System.append, List.take_append_of_le_length follows.inside]
    exact same
  after := follows.after
  before := follows.before
  passed := follows.passed

theorem tracks_append (tracks : Tracks query system) (envelope : EventEnvelope) :
    Tracks query (system.append envelope) := by
  have phase' : (system.append envelope).phase = system.phase := rfl
  unfold Tracks at tracks ⊢
  rw [phase']
  cases phase : system.phase with
  | absent =>
      rw [phase] at tracks
      exact tracks
  | subscribed =>
      rw [phase] at tracks
      exact ⟨tracks.1, tracks.2.1, fun other member =>
        List.mem_append_left _ (tracks.2.2 other member)⟩
  | streaming lastSeq pending =>
      rw [phase] at tracks
      obtain ⟨known, reached, follows, fresh⟩ := tracks
      exact ⟨known, reached, follows.append envelope, fresh⟩
  | recovering lastSeq =>
      rw [phase] at tracks
      obtain ⟨known, reached, follows⟩ := tracks
      exact ⟨known, reached, follows.append envelope⟩
  | closed => trivial

/-! Broadcasts -/

/-- What a broadcast leaves in the channel, and whether the receiver then lags. -/
theorem send_queue (envelope : EventEnvelope)
    (listening : system.phase ≠ .absent ∧ system.phase ≠ .closed) :
    ((system.send envelope).queue = system.queue ++ [envelope] ∧
        (system.send envelope).lagged = system.lagged) ∨
      ∃ first rest, system.queue = first :: rest ∧
        (system.send envelope).queue = rest ++ [envelope] ∧
          (system.send envelope).lagged = true := by
  obtain ⟨present, opened⟩ := listening
  unfold System.send
  split
  · exact absurd ‹_› present
  · exact absurd ‹_› opened
  · split
    · exact .inl ⟨rfl, rfl⟩
    · rename_i full
      cases queue : system.queue with
      | nil =>
          rw [queue] at full
          exact absurd (by decide) full
      | cons first rest => exact .inr ⟨first, rest, rfl, rfl, rfl⟩

theorem send_frame (system : System) (envelope : EventEnvelope) :
    (system.send envelope).log = system.log ∧ (system.send envelope).phase = system.phase ∧
      (system.send envelope).delivered = system.delivered ∧
        (system.send envelope).sent = max system.sent envelope.seq ∧
          (system.send envelope).tasks = system.tasks := by
  unfold System.send
  split
  · exact ⟨rfl, rfl, rfl, rfl, rfl⟩
  · exact ⟨rfl, rfl, rfl, rfl, rfl⟩
  · split
    · exact ⟨rfl, rfl, rfl, rfl, rfl⟩
    · exact ⟨rfl, rfl, rfl, rfl, rfl⟩

/-- A channel keeps its messages chained when nothing is overtaken. -/
theorem chained_send (listening : system.phase ≠ .absent ∧ system.phase ≠ .closed)
    (chained : Chained known system.queue system.sent) (next : envelope.seq ≤ system.sent + 1) :
    ∃ known', Chained known' (system.send envelope).queue (system.send envelope).sent ∧
      ((system.send envelope).lagged = false → known' = known ∧ system.lagged = false) := by
  obtain ⟨-, -, -, sent, -⟩ := send_frame system envelope
  obtain ⟨queue, lagged⟩ | ⟨first, rest, before, queue, lagged⟩ :=
    send_queue envelope listening
  · rw [queue, sent, lagged]
    exact ⟨known, chained.snoc next, fun same => ⟨rfl, same⟩⟩
  · rw [before] at chained
    rw [queue, sent, lagged]
    exact ⟨_, chained.2.snoc next, fun impossible => absurd impossible Bool.noConfusion⟩

theorem queued_send (listening : system.phase ≠ .absent ∧ system.phase ≠ .closed)
    (queued : ∀ other ∈ system.queue, other ∈ log) (member : envelope ∈ log) :
    ∀ other ∈ (system.send envelope).queue, other ∈ log := by
  intro other waiting
  obtain ⟨queue, -⟩ | ⟨first, rest, before, queue, -⟩ :=
    send_queue envelope listening
  · rw [queue] at waiting
    obtain old | new := List.mem_append.mp waiting
    · exact queued other old
    · rw [List.mem_singleton.mp new]
      exact member
  · rw [queue] at waiting
    obtain old | new := List.mem_append.mp waiting
    · exact queued other (before ▸ List.mem_cons_of_mem _ old)
    · rw [List.mem_singleton.mp new]
      exact member

theorem Follows.send {known' : Nat} (follows : Follows query system lastSeq pending known reached)
    (chained : Chained known' (system.send envelope).queue (system.send envelope).sent)
    (queued : ∀ other ∈ (system.send envelope).queue, other ∈ system.log) :
    Follows query (system.send envelope) lastSeq pending known' reached := by
  obtain ⟨log, -, delivered, -, -⟩ := send_frame system envelope
  exact
    { chained := chained
      queued := log ▸ queued
      inside := log ▸ follows.inside
      given := by
        rw [log, delivered]
        exact follows.given
      after := follows.after
      before := follows.before
      passed := delivered ▸ follows.passed }

theorem tracks_send (tracks : Tracks query system) (member : envelope ∈ system.log)
    (next : envelope.seq ≤ system.sent + 1) : Tracks query (system.send envelope) := by
  obtain ⟨log, phase', delivered, -, -⟩ := send_frame system envelope
  unfold Tracks at tracks ⊢
  rw [phase']
  cases phase : system.phase with
  | absent =>
      rw [phase] at tracks
      exact delivered.trans tracks
  | subscribed =>
      rw [phase] at tracks
      obtain ⟨nothing, ⟨known, chained⟩, queued⟩ := tracks
      have listening : system.phase ≠ .absent ∧ system.phase ≠ .closed := by
        rw [phase]
        exact ⟨Phase.noConfusion, Phase.noConfusion⟩
      obtain ⟨known', sound, -⟩ := chained_send listening chained next
      refine ⟨delivered.trans nothing, ⟨known', sound⟩, ?_⟩
      rw [log]
      exact queued_send listening queued member
  | streaming lastSeq pending =>
      rw [phase] at tracks
      obtain ⟨known, reached, follows, fresh⟩ := tracks
      have listening : system.phase ≠ .absent ∧ system.phase ≠ .closed := by
        rw [phase]
        exact ⟨Phase.noConfusion, Phase.noConfusion⟩
      obtain ⟨known', sound, same⟩ := chained_send listening follows.chained next
      refine ⟨known', reached,
        follows.send sound (queued_send listening follows.queued member), fun current => ?_⟩
      obtain ⟨rfl, before⟩ := same current
      exact fresh before
  | recovering lastSeq =>
      rw [phase] at tracks
      obtain ⟨known, reached, follows⟩ := tracks
      have listening : system.phase ≠ .absent ∧ system.phase ≠ .closed := by
        rw [phase]
        exact ⟨Phase.noConfusion, Phase.noConfusion⟩
      obtain ⟨known', sound, -⟩ := chained_send listening follows.chained next
      exact ⟨known', reached,
        follows.send sound (queued_send listening follows.queued member)⟩
  | closed => trivial

/-! The subscriber -/

theorem wanted_of_given (follows : Follows query system lastSeq pending known reached)
    (member : envelope ∈ system.delivered ++ pending) :
    envelope ∈ system.log.take reached ∧ wanted query envelope = true := by
  rw [follows.given] at member
  exact List.mem_filter.mp member

theorem Follows.deliverNext (follows : Follows query system lastSeq (envelope :: pending) known
    reached) (numbered : Numbered system.log) (phase : Phase) :
    Follows query { system with phase := phase, delivered := system.delivered ++ [envelope] }
      (max lastSeq envelope.seq) pending known reached where
  chained := follows.chained
  queued := follows.queued
  inside := follows.inside
  given := by
    rw [List.append_assoc, List.singleton_append]
    exact follows.given
  after := Nat.le_trans follows.after (Nat.le_max_left _ _)
  before := by
    have reachedNext := numbered.seq_le_of_mem_take
      (wanted_of_given follows (List.mem_append_right _ List.mem_cons_self)).1
    have passed := follows.before
    omega
  passed other member := by
    obtain old | new := List.mem_append.mp member
    · exact Nat.le_trans (follows.passed other old) (Nat.le_max_left _ _)
    · rw [List.mem_singleton.mp new]
      exact Nat.le_max_right _ _

/-- A wanted event that the stream has not passed has not been reached either. -/
theorem Follows.reached_lt (follows : Follows query system lastSeq [] known reached)
    (numbered : Numbered system.log) (member : envelope ∈ system.log)
    (later : lastSeq < envelope.seq) (matching : matchesKind query envelope = true) :
    reached < envelope.seq := by
  by_contra within
  have taken := numbered.mem_take member (Nat.le_of_not_lt within)
  have wants : wanted query envelope = true := by
    rw [wanted, matching, Bool.and_true]
    exact decide_eq_true (Nat.lt_of_le_of_lt follows.after later)
  have had : envelope ∈ system.delivered := by
    rw [← List.append_nil system.delivered, follows.given]
    exact List.mem_filter.mpr ⟨taken, wants⟩
  exact absurd (follows.passed envelope had) (Nat.not_le_of_lt later)

/-- The events reached grow by the message that the receiver takes. -/
theorem Follows.given_next (follows : Follows query system lastSeq [] known reached)
    (numbered : Numbered system.log) (member : envelope ∈ system.log)
    (next : envelope.seq ≤ reached + 1) :
    (system.log.take (max reached envelope.seq)).filter (wanted query) =
      if lastSeq < envelope.seq ∧ matchesKind query envelope = true then
        system.delivered ++ [envelope]
      else system.delivered := by
  have given := follows.given
  rw [List.append_nil] at given
  by_cases old : envelope.seq ≤ reached
  · rw [Nat.max_eq_left old, if_neg, ← given]
    rintro ⟨later, matching⟩
    exact absurd old (Nat.not_le_of_lt (follows.reached_lt numbered member later matching))
  · have new : envelope.seq = reached + 1 := by omega
    rw [new, Nat.max_eq_right (Nat.le_succ _), numbered.take_succ member new, List.filter_append,
      ← given, ← new]
    by_cases later : lastSeq < envelope.seq
    · have asked : query.after < envelope.seq := Nat.lt_of_le_of_lt follows.after later
      cases matching : matchesKind query envelope with
      | true => simp [later, wanted, asked, matching]
      | false => simp [wanted, matching]
    · have unasked : ¬ query.after < envelope.seq := by
        have passed := follows.before
        omega
      simp [later, wanted, unasked]

theorem Follows.receive {query : EventQuery}
    (follows : Follows query system lastSeq [] known reached) (numbered : Numbered system.log)
    (fresh : known ≤ reached) (waiting : system.queue = envelope :: queue) :
    ∃ known' reached', known' ≤ reached' ∧
      Follows query { system with
        queue := queue
        phase := .streaming (max lastSeq envelope.seq) []
        delivered := if lastSeq < envelope.seq ∧ matchesKind query envelope = true then
            system.delivered ++ [envelope] else system.delivered }
        (max lastSeq envelope.seq) [] known' reached' := by
  have chained := follows.chained
  rw [waiting] at chained
  have member := follows.queued envelope (waiting ▸ List.mem_cons_self)
  have next : envelope.seq ≤ reached + 1 := by
    have step := chained.1
    omega
  obtain ⟨index, inside, -, seq⟩ := numbered.mem_iff.mp member
  refine ⟨max known envelope.seq, max reached envelope.seq, by omega, ?_⟩
  exact
    { chained := chained.2
      queued := fun other old => follows.queued other (waiting ▸ List.mem_cons_of_mem _ old)
      inside := by
        have within := follows.inside
        show max reached envelope.seq ≤ system.log.length
        omega
      given := by
        rw [List.append_nil, follows.given_next numbered member next]
      after := Nat.le_trans follows.after (Nat.le_max_left _ _)
      before := by
        have passed := follows.before
        omega
      passed := by
        intro other had
        dsimp only at had
        split at had
        · obtain old | new := List.mem_append.mp had
          · exact Nat.le_trans (follows.passed other old) (Nat.le_max_left _ _)
          · rw [List.mem_singleton.mp new]
            exact Nat.le_max_right _ _
        · exact Nat.le_trans (follows.passed other had) (Nat.le_max_left _ _) }

/-- What a lagging subscriber has missed is what it has not reached. -/
theorem Follows.recover (follows : Follows query system lastSeq [] known reached)
    (numbered : Numbered system.log) (phase : Phase) :
    Follows query { system with phase := phase } lastSeq
      ((eventsAfter system.log lastSeq).filter (matchesKind query)) known system.log.length where
  chained := follows.chained
  queued := follows.queued
  inside := Nat.le_refl _
  given := by
    have given := follows.given
    rw [List.append_nil] at given
    have parts : (system.log.take system.log.length).filter (wanted query) =
        (system.log.take reached).filter (wanted query) ++
          (system.log.drop reached).filter (wanted query) := by
      rw [List.take_length, ← List.filter_append, List.take_append_drop]
    rw [parts, ← given]
    refine congrArg (system.delivered ++ ·) ?_
    have split : (eventsAfter system.log lastSeq).filter (matchesKind query) =
        (system.log.take reached ++ system.log.drop reached).filter fun envelope =>
          matchesKind query envelope && decide (lastSeq < envelope.seq) := by
      rw [List.take_append_drop, eventsAfter, List.filter_filter]
    have early : (system.log.take reached).filter (fun envelope =>
        matchesKind query envelope && decide (lastSeq < envelope.seq)) = [] := by
      rw [List.filter_eq_nil_iff]
      intro envelope member missed
      simp only [Bool.and_eq_true, decide_eq_true_eq] at missed
      have beyond := follows.reached_lt numbered (List.mem_of_mem_take member) missed.2 missed.1
      exact absurd (numbered.seq_le_of_mem_take member) (Nat.not_le_of_lt beyond)
    rw [split, List.filter_append, early, List.nil_append]
    refine List.filter_congr fun envelope member => ?_
    have beyond := numbered.lt_seq_of_mem_drop member
    have same : decide (lastSeq < envelope.seq) = decide (query.after < envelope.seq) := by
      have after := follows.after
      have before := follows.before
      rw [decide_eq_decide]
      omega
    rw [wanted, same, Bool.and_comm]
  after := follows.after
  before := by
    have before := follows.before
    have inside := follows.inside
    show lastSeq ≤ max query.after system.log.length
    omega
  passed := follows.passed

theorem follows_replay (nothing : system.delivered = [])
    (chained : Chained known system.queue system.sent)
    (queued : ∀ envelope ∈ system.queue, envelope ∈ system.log) (phase : Phase) :
    Follows query { system with phase := phase } query.after
      ((eventsAfter system.log query.after).filter (matchesKind query)) known
        system.log.length where
  chained := chained
  queued := queued
  inside := Nat.le_refl _
  given := by
    show system.delivered ++ _ = _
    rw [nothing, List.nil_append, List.take_length, eventsAfter, List.filter_filter]
    exact List.filter_congr fun envelope _ => Bool.and_comm _ _
  after := Nat.le_refl _
  before := Nat.le_max_left _ _
  passed envelope member := by
    rw [show ({ system with phase := phase } : System).delivered = [] from nothing] at member
    exact absurd member List.not_mem_nil

/-! The calls -/

theorem Grounded.append {entry : Task} (grounded : Grounded log entry)
    (more : List EventEnvelope) : Grounded (log ++ more) entry := by
  cases entry with
  | emitting envelope => exact List.mem_append_left _ grounded
  | handling after =>
      have within : after ≤ log.length := grounded
      show after ≤ (log ++ more).length
      rw [List.length_append]
      omega
  | publishing rest =>
      exact fun envelope member => List.mem_append_left _ (grounded envelope member)

theorem Sound.append (sound : Sound system) (envelope : EventEnvelope)
    {tasks : Nat → Option Task}
    (grounded : ∀ task entry, tasks task = some entry → system.tasks task = some entry ∨
      Grounded (system.append envelope).log entry)
    (kept : ∀ task entry, system.tasks task = some entry → tasks task = some entry)
    (owner : ∃ task entry, tasks task = some entry ∧ Owes (system.log.length + 1) entry) :
    Sound { system.append envelope with tasks := tasks } where
  numbered := sound.numbered.snoc envelope
  sent := by
    have within := sound.sent
    simp only [System.append, List.length_append, List.length_singleton]
    omega
  grounded task entry held := by
    obtain old | new := grounded task entry held
    · exact (sound.grounded task entry old).append _
    · exact new
  owed seq unsent inside := by
    simp only [System.append, List.length_append, List.length_singleton] at unsent inside
    by_cases old : seq ≤ system.log.length
    · obtain ⟨task, entry, held, owes⟩ := sound.owed seq unsent old
      exact ⟨task, entry, kept task entry held, owes⟩
    · have new : seq = system.log.length + 1 := by omega
      rw [new]
      exact owner

theorem Sound.setTask (sound : Sound system) (task : Nat) (entry : Option Task)
    (grounded : ∀ new, entry = some new → Grounded system.log new)
    (owed : ∀ seq old, system.sent < seq → seq ≤ system.log.length →
      system.tasks task = some old → Owes seq old →
        (∃ other held, other ≠ task ∧ system.tasks other = some held ∧ Owes seq held) ∨
          ∃ new, entry = some new ∧ Owes seq new) :
    Sound (system.setTask task entry) where
  numbered := sound.numbered
  sent := sound.sent
  grounded other held now := by
    simp only [System.setTask] at now
    split at now
    · exact grounded held now
    · exact sound.grounded other held now
  owed seq unsent inside := by
    have elsewhere : (∃ other held, other ≠ task ∧ system.tasks other = some held ∧
        Owes seq held) → ∃ other held, (system.setTask task entry).tasks other = some held ∧
          Owes seq held := by
      rintro ⟨other, held, different, holds, owes⟩
      exact ⟨other, held, (if_neg different).trans holds, owes⟩
    obtain ⟨other, held, holds, owes⟩ := sound.owed seq unsent inside
    by_cases same : other = task
    · subst same
      obtain others | ⟨new, rfl, owes⟩ := owed seq held unsent inside holds owes
      · exact elsewhere others
      · exact ⟨other, new, if_pos rfl, owes⟩
    · exact elsewhere ⟨other, held, same, holds, owes⟩

theorem Sound.send (sound : Sound system) (member : envelope ∈ system.log) :
    Sound (system.send envelope) := by
  obtain ⟨log, -, -, sent, tasks⟩ := send_frame system envelope
  obtain ⟨index, inside, -, seq⟩ := sound.numbered.mem_iff.mp member
  refine ⟨log ▸ sound.numbered, ?_, ?_, ?_⟩
  · rw [log, sent]
    exact Nat.max_le.mpr ⟨sound.sent, by omega⟩
  · rw [log, tasks]
    exact sound.grounded
  · rw [log, sent, tasks]
    intro seq unsent
    exact sound.owed seq (Nat.lt_of_le_of_lt (Nat.le_max_left _ _) unsent)

/-- What is broadcast is not owed any more. -/
theorem lt_of_send {seq : Nat} (unsent : (system.send envelope).sent < seq) :
    envelope.seq < seq := by
  obtain ⟨-, -, -, sent, -⟩ := send_frame system envelope
  rw [sent] at unsent
  exact Nat.lt_of_le_of_lt (Nat.le_max_right _ _) unsent

theorem tracks_setTask (tracks : Tracks query system) (task : Nat) (entry : Option Task) :
    Tracks query (system.setTask task entry) :=
  tracks.of_same rfl rfl rfl rfl rfl rfl

/-- The subscriber changes nothing that the calls look at. -/
theorem Sound.of_same {other : System} (sound : Sound system) (log : other.log = system.log)
    (sent : other.sent = system.sent) (tasks : other.tasks = system.tasks) : Sound other := by
  refine ⟨log ▸ sound.numbered, ?_, ?_, ?_⟩
  · rw [sent, log]
    exact sound.sent
  · rw [log, tasks]
    exact sound.grounded
  · rw [sent, log, tasks]
    exact sound.owed

/-- A step that cannot happen changes nothing. -/
theorem step_cases (query : EventQuery) (system : System) (action : Action) :
    (system.step query action).2 = system ∨
      Moves query system action (system.step query action).2 := by
  cases action with
  | emitAppend task envelope =>
      simp only [System.step]
      split
      · exact .inr (.emitAppend ‹_›)
      · exact .inl rfl
  | emitSend task =>
      simp only [System.step]
      split
      · exact .inr (.emitSend ‹_›)
      · exact .inl rfl
  | enterHandler task lastSeqRead =>
      simp only [System.step]
      split
      · exact .inr (.enterHandler ‹_›)
      · exact .inl rfl
  | handlerAppend task envelope =>
      simp only [System.step]
      split
      · exact .inr (.handlerAppend ‹_›)
      · exact .inl rfl
  | handlerReturns task =>
      simp only [System.step]
      split
      · exact .inr (.handlerReturns ‹_›)
      · exact .inl rfl
  | handlerFails task =>
      simp only [System.step]
      split
      · exact .inr (.handlerFails ‹_›)
      · exact .inl rfl
  | publishNext task =>
      simp only [System.step]
      split
      · exact .inr (.published ‹_›)
      · exact .inr (.publish ‹_›)
      · exact .inl rfl
  | subscribe =>
      simp only [System.step]
      split
      · exact .inr (.subscribe ‹_›)
      · exact .inl rfl
  | replay =>
      simp only [System.step]
      split
      · exact .inr (.replay ‹_›)
      · exact .inl rfl
  | deliverNext =>
      simp only [System.step]
      split
      · exact .inr (.deliverNext ‹_›)
      · exact .inl rfl
  | receive =>
      simp only [System.step]
      split
      · exact .inr (.receive ‹_›)
      · exact .inl rfl
  | recover =>
      simp only [System.step]
      split
      · exact .inr (.recover ‹_›)
      · exact .inl rfl
  | close => exact .inr .close

/-- The message that the receiver takes moves the stream on to its number. -/
theorem receive_cons (current : system.lagged = false) (waiting : system.queue = envelope :: queue)
    (phase : system.phase = .streaming lastSeq []) :
    system.receive query lastSeq = { system with
      queue := queue
      phase := .streaming (max lastSeq envelope.seq) []
      delivered := if lastSeq < envelope.seq ∧ matchesKind query envelope = true then
          system.delivered ++ [envelope] else system.delivered } := by
  simp only [System.receive, current, Bool.false_eq_true, if_false, waiting]
  by_cases later : lastSeq < envelope.seq
  · simp only [later, if_true, true_and, Nat.max_eq_right (Nat.le_of_lt later)]
  · simp only [later, if_false, false_and, Nat.max_eq_left (Nat.le_of_not_lt later), phase]

theorem receive_orderly (sound : Sound system) (tracks : Tracks query system)
    (phase : system.phase = .streaming lastSeq []) :
    Sound (system.receive query lastSeq) ∧ Tracks query (system.receive query lastSeq) := by
  have before := tracks
  unfold Tracks at tracks
  rw [phase] at tracks
  obtain ⟨known, reached, follows, fresh⟩ := tracks
  cases lagged : system.lagged with
  | true =>
      simp only [System.receive, lagged, if_true]
      exact ⟨sound.of_same rfl rfl rfl, known, reached, follows.chained, follows.queued,
        follows.inside, follows.given, follows.after, follows.before, follows.passed⟩
  | false =>
      cases waiting : system.queue with
      | nil =>
          simp only [System.receive, lagged, waiting, Bool.false_eq_true, if_false]
          exact ⟨sound, before⟩
      | cons envelope queue =>
          obtain ⟨known', reached', fresh', follows'⟩ :=
            follows.receive sound.numbered (fresh lagged) waiting
          rw [receive_cons lagged waiting phase]
          exact ⟨sound.of_same rfl rfl rfl, known', reached', follows', fun _ => fresh'⟩

/-- A step that is orderly keeps the calls sound and the subscriber on track. -/
theorem step_orderly (sound : Sound system) (tracks : Tracks query system) (action : Action)
    (orderly : Orderly system action) :
    Sound (system.step query action).2 ∧ Tracks query (system.step query action).2 := by
  obtain same | moves := step_cases query system action
  · rw [same]
    exact ⟨sound, tracks⟩
  · generalize (system.step query action).2 = next at moves ⊢
    cases moves with
    | @emitAppend task envelope free =>
        refine ⟨sound.append envelope ?_ ?_ ?_, tracks_setTask (tracks_append tracks _) _ _⟩
        · intro other entry now
          simp only [System.append] at now
          split at now
          · cases now
            exact .inr (List.mem_append_right _ (List.mem_singleton_self _))
          · exact .inl now
        · intro other entry before
          have different : other ≠ task := by
            rintro rfl
            rw [free] at before
            cases before
          exact (if_neg different).trans before
        · exact ⟨task, _, if_pos rfl, rfl⟩
    | @emitSend task envelope held =>
        have member : envelope ∈ system.log := sound.grounded task _ held
        have next := orderly envelope held
        obtain ⟨-, -, -, -, tasks⟩ := send_frame system envelope
        refine ⟨(sound.send member).setTask task none (fun _ impossible => by
          cases impossible) ?_, tracks_setTask (tracks_send tracks member next) _ _⟩
        intro seq old unsent _ holds owes
        rw [tasks, held] at holds
        cases holds
        exact absurd owes (Nat.ne_of_lt (lt_of_send unsent))
    | @enterHandler task lastSeqRead free =>
        refine ⟨sound.setTask task _ ?_ ?_, tracks_setTask tracks _ _⟩
        · intro new same
          cases same
          show (if lastSeqRead = true then system.log.length else 0) ≤ system.log.length
          split
          · exact Nat.le_refl _
          · exact Nat.zero_le _
        · intro seq old _ _ holds
          rw [free] at holds
          cases holds
    | @handlerAppend task envelope after held =>
        have within : after ≤ system.log.length := sound.grounded task _ held
        have grown : Sound { system.append envelope with tasks := system.tasks } :=
          sound.append envelope (fun _ _ now => .inl now) (fun _ _ before => before)
            ⟨task, _, held, Nat.lt_succ_of_le within⟩
        exact ⟨grown, tracks_append tracks _⟩
    | @handlerReturns task after held =>
        refine ⟨sound.setTask task _ ?_ ?_, tracks_setTask tracks _ _⟩
        · intro new same
          cases same
          exact fun envelope member => List.mem_of_mem_filter member
        · intro seq old unsent inside holds owes
          rw [held] at holds
          cases holds
          have later : after < seq := owes
          refine .inr ⟨_, rfl, system.log[seq - 1], ?_, ?_⟩
          · refine List.mem_filter.mpr ⟨List.getElem_mem _, decide_eq_true ?_⟩
            rw [sound.numbered (seq - 1) (by omega)]
            omega
          · rw [sound.numbered (seq - 1) (by omega)]
            omega
    | @handlerFails task after held =>
        refine ⟨sound.setTask task none (fun _ impossible => by cases impossible) ?_,
          tracks_setTask tracks _ _⟩
        exact fun seq _ unsent inside _ _ => .inl (orderly seq unsent inside)
    | @published task held =>
        refine ⟨sound.setTask task none (fun _ impossible => by cases impossible) ?_,
          tracks_setTask tracks _ _⟩
        intro seq old _ _ holds owes
        rw [held] at holds
        cases holds
        obtain ⟨_, member, -⟩ := owes
        exact absurd member List.not_mem_nil
    | @publish task envelope rest held =>
        have grounded : ∀ other ∈ envelope :: rest, other ∈ system.log :=
          sound.grounded task _ held
        have member := grounded envelope List.mem_cons_self
        have next := orderly envelope rest held
        obtain ⟨log, -, -, -, tasks⟩ := send_frame system envelope
        refine ⟨(sound.send member).setTask task _ ?_ ?_,
          tracks_setTask (tracks_send tracks member next) _ _⟩
        · intro new same
          cases same
          rw [log]
          exact fun other waiting => grounded other (List.mem_cons_of_mem _ waiting)
        · intro seq old unsent _ holds owes
          rw [tasks, held] at holds
          cases holds
          obtain ⟨other, waiting, seq'⟩ := owes
          obtain rfl | waiting := List.mem_cons.mp waiting
          · exact absurd seq' (Nat.ne_of_lt (lt_of_send unsent))
          · exact .inr ⟨_, rfl, other, waiting, seq'⟩
    | subscribe phase =>
        unfold Tracks at tracks
        rw [phase] at tracks
        exact ⟨sound.of_same rfl rfl rfl, tracks, ⟨system.sent, rfl⟩,
          fun _ member => absurd member List.not_mem_nil⟩
    | replay phase =>
        unfold Tracks at tracks
        rw [phase] at tracks
        obtain ⟨nothing, ⟨known, chained⟩, queued⟩ := tracks
        exact ⟨sound.of_same rfl rfl rfl, known, system.log.length,
          follows_replay nothing chained queued _, fun _ => Nat.le_trans chained.le sound.sent⟩
    | deliverNext phase =>
        unfold Tracks at tracks
        rw [phase] at tracks
        obtain ⟨known, reached, follows, fresh⟩ := tracks
        exact ⟨sound.of_same rfl rfl rfl, known, reached,
          follows.deliverNext sound.numbered _, fresh⟩
    | receive phase => exact receive_orderly sound tracks phase
    | recover phase =>
        unfold Tracks at tracks
        rw [phase] at tracks
        obtain ⟨known, reached, follows⟩ := tracks
        exact ⟨sound.of_same rfl rfl rfl, known, system.log.length,
          follows.recover sound.numbered _,
          fun _ => Nat.le_trans follows.chained.le sound.sent⟩
    | close => exact ⟨sound.of_same rfl rfl rfl, trivial⟩

/-- An orderly run keeps the calls sound and the subscriber on track. -/
theorem run_orderly {actions : List Action} (sound : Sound system) (tracks : Tracks query system)
    (orderly : Throughout (System.step query) Orderly system actions) :
    Sound (final (System.step query) system actions) ∧
      Tracks query (final (System.step query) system actions) := by
  induction actions generalizing system with
  | nil => exact ⟨sound, tracks⟩
  | cons action actions ih =>
      obtain ⟨sound, tracks⟩ := step_orderly sound tracks action orderly.1
      exact ih sound tracks orderly.2

theorem sound_ofLog (numbered : Numbered log) : Sound (.ofLog log) where
  numbered := numbered
  sent := Nat.le_refl _
  grounded _ _ held := by cases held
  owed _ unsent inside := absurd inside (Nat.not_le_of_lt unsent)

/-- A subscriber that has read everything has every event it wants of a log that nobody is
still broadcasting. -/
theorem Sound.delivered_eq (sound : Sound system) (tracks : Tracks query system)
    (finished : ∀ task, system.tasks task = none) (streaming : system.phase = .streaming lastSeq [])
    (drained : system.queue = []) (current : system.lagged = false) :
    system.delivered = system.log.filter (wanted query) := by
  unfold Tracks at tracks
  rw [streaming] at tracks
  obtain ⟨known, reached, follows, fresh⟩ := tracks
  have all : system.log.length ≤ system.sent := by
    by_contra unsent
    obtain ⟨task, entry, held, -⟩ :=
      sound.owed system.log.length (Nat.lt_of_not_le unsent) (Nat.le_refl _)
    rw [finished task] at held
    cases held
  have chained := follows.chained
  rw [drained] at chained
  have sent : known = system.sent := chained
  have within := fresh current
  have given := follows.given
  rw [List.append_nil, List.take_of_length_le (by omega)] at given
  exact given

end

/-- When no broadcast overtakes an earlier event and no handler fails while it alone owes a
broadcast, a subscriber that has read everything has received every event after its cursor
that matches its filter, each once and in the order of the log. -/
theorem delivered_of_orderly (query : EventQuery) (log : List EventEnvelope)
    (actions : List Action) (lastSeq : Nat) (numbered : Numbered log)
    (orderly : Throughout (System.step query) Orderly (.ofLog log) actions)
    (finished : ∀ task, (final (System.step query) (.ofLog log) actions).tasks task = none)
    (streaming : (final (System.step query) (.ofLog log) actions).phase = .streaming lastSeq [])
    (drained : (final (System.step query) (.ofLog log) actions).queue = [])
    (current : (final (System.step query) (.ofLog log) actions).lagged = false) :
    (final (System.step query) (.ofLog log) actions).delivered =
        (final (System.step query) (.ofLog log) actions).log.filter (wanted query) ∧
      (final (System.step query) (.ofLog log) actions).delivered.Pairwise
        fun first second => first.seq < second.seq := by
  obtain ⟨sound, tracks⟩ := run_orderly (sound_ofLog numbered) rfl orderly
  have all := sound.delivered_eq tracks finished streaming drained current
  refine ⟨all, ?_⟩
  rw [all]
  exact sound.numbered.pairwise.filter _

namespace Demo

def envelope : EventEnvelope where
  schemaVersion := eventSchemaVersion
  streamKind := .domain
  eventId := ⟨0⟩
  seq := 0
  workspaceId := WorkspaceId.default
  threadId := ⟨0⟩
  turnId := none
  itemId := none
  causationId := none
  timestamp := 0
  event := .turnStarted

def query : EventQuery where
  after := 0
  streamKind := none

/-- One event is broadcast to a subscriber. -/
def broadcast : List Action :=
  [.subscribe, .replay, .emitAppend 0 envelope, .emitSend 0, .receive]

/-- Of two events that are appended in turn, the second one is broadcast first. -/
def overtaken : List Action :=
  [.subscribe, .replay, .emitAppend 0 envelope, .emitAppend 1 envelope, .emitSend 1, .emitSend 0,
    .receive, .receive]

/-- A handler appends an event and fails. -/
def failedHandler : List Action :=
  [.subscribe, .replay, .enterHandler 0 true, .handlerAppend 0 envelope, .handlerFails 0]

end Demo

theorem delivered_of_orderly_broadcast :
    (final (System.step Demo.query) (.ofLog []) Demo.broadcast).delivered =
      (final (System.step Demo.query) (.ofLog []) Demo.broadcast).log.filter
        (wanted Demo.query) := by
  have orderly : Throughout (System.step Demo.query) Orderly (.ofLog []) Demo.broadcast := by
    refine ⟨trivial, trivial, trivial, fun envelope held => ?_, trivial, trivial⟩
    cases held
    decide
  have finished : ∀ task,
      (final (System.step Demo.query) (.ofLog []) Demo.broadcast).tasks task = none := by
    intro task
    show (if task = 0 then none else if task = 0 then _ else none) = none
    split
    · rfl
    · rfl
  exact (delivered_of_orderly Demo.query [] Demo.broadcast 1 (fun _ inside => by cases inside)
    orderly finished rfl rfl rfl).1

/-- An event that is overtaken is skipped, and one that a failed handler has appended is
never broadcast. -/
theorem not_delivered :
    (final (System.step Demo.query) (.ofLog []) Demo.overtaken).log.map EventEnvelope.seq =
        [1, 2] ∧
      (final (System.step Demo.query) (.ofLog []) Demo.overtaken).delivered.map
        EventEnvelope.seq = [2] ∧
      (final (System.step Demo.query) (.ofLog []) Demo.overtaken).queue.length = 0 ∧
      (final (System.step Demo.query) (.ofLog []) Demo.failedHandler).log.map
        EventEnvelope.seq = [1] ∧
      (final (System.step Demo.query) (.ofLog []) Demo.failedHandler).delivered.length = 0 := by
  refine ⟨rfl, rfl, rfl, rfl, rfl⟩

end OpsCodex.Server
