import OpsCodex.Runtime.EventText
import OpsCodex.Store.Jsonl

/-! Appends to a thread's log that crashes cut off. Whatever a crash leaves, the log
still parses to the records it held, and to the one being written if its text was
complete. Only a record nested too deep to be read back makes the log unreadable. -/

set_option autoImplicit false

namespace OpsCodex.Store.Jsonl

open OpsCodex.Json OpsCodex.Runtime Framing Storage

/-- A carriage return behind a text does not matter. -/
def EnvelopeCodec.IgnoresReturn (codec : EnvelopeCodec) : Prop :=
  ∀ {text envelope}, codec.fromSlice (text ++ [carriageReturn]) = .ok envelope →
    codec.fromSlice text = .ok envelope

/-- What the store relies on of the serialisation library. -/
structure EnvelopeCodec.Lawful (codec : EnvelopeCodec) : Prop where
  decode_encode : ∀ {envelope json}, codec.toVec envelope = .ok json →
    envelope.event.Legible → codec.fromSlice json = .ok (envelope.restored codec.number)
  nonempty : ∀ {envelope json}, codec.toVec envelope = .ok json → json ≠ []
  single_line : ∀ {envelope json}, codec.toVec envelope = .ok json → newline ∉ json
  prefix_free : ∀ {envelope json written}, codec.toVec envelope = .ok json →
    written <+: json → written ≠ json → ∀ other, codec.fromSlice written ≠ .ok other
  trailing_return : codec.IgnoresReturn

section

variable {codec : EnvelopeCodec} {path : ThreadId → String} {threadId : ThreadId}

theorem fromSlice_strip (returns : codec.IgnoresReturn) {line : Bytes} {envelope : EventEnvelope}
    (decoded : codec.fromSlice line = .ok envelope) :
    codec.fromSlice (stripCarriageReturn line) = .ok envelope := by
  unfold stripCarriageReturn
  split
  · rename_i last
    obtain ⟨shorter, rfl⟩ := List.getLast?_eq_some_iff.mp last
    rw [List.dropLast_concat]
    exact returns decoded
  · exact decoded

/-- Sequence numbers count the records from one. -/
def Contiguous (events : List EventEnvelope) : Prop :=
  events.map EventEnvelope.seq = List.range' 1 events.length

theorem Contiguous.getLast {events : List EventEnvelope} {last : EventEnvelope}
    (contiguous : Contiguous events) (found : events.getLast? = some last) :
    last.seq = events.length := by
  obtain ⟨earlier, rfl⟩ := List.getLast?_eq_some_iff.mp found
  have numbers := congrArg List.getLast? contiguous
  simpa [List.getLast?_range', Nat.add_comm] using numbers

theorem Contiguous.snoc {events : List EventEnvelope} {envelope : EventEnvelope}
    (contiguous : Contiguous events) (next : envelope.seq = events.length + 1) :
    Contiguous (events ++ [envelope]) := by
  unfold Contiguous at contiguous ⊢
  simp only [List.map_append, contiguous, List.map_cons, List.map_nil, next, List.length_append,
    List.length_singleton, List.range'_concat]
  simp [Nat.add_comm]

theorem validateEnvelope_seq {previous : List EventEnvelope} {envelope : EventEnvelope}
    (contiguous : Contiguous previous)
    (valid : validateEnvelope path threadId previous envelope = .ok ()) :
    envelope.seq = previous.length + 1 := by
  by_cases owner : envelope.threadId = threadId
  · cases last : previous.getLast? with
    | none =>
        have empty := List.getLast?_eq_none_iff.mp last
        by_cases first : envelope.seq = 1
        · simpa [empty] using first
        · simp [validateEnvelope, owner, last, first, bind, Except.bind, pure, Except.pure,
            throw, throwThe, MonadExceptOf.throw] at valid
    | some event =>
        have number := contiguous.getLast last
        by_cases room : event.seq + 1 < 2 ^ 64
        · by_cases next : envelope.seq = event.seq + 1
          · rw [next, number]
          · simp only [validateEnvelope, owner, last, if_pos room, bind, Except.bind, pure,
              Except.pure, throw, throwThe, MonadExceptOf.throw] at valid
            simp [next] at valid
        · simp only [validateEnvelope, owner, last, if_neg room, bind, Except.bind,
            throw, throwThe, MonadExceptOf.throw] at valid
          simp at valid
  · simp [validateEnvelope, owner, bind, Except.bind,
      throw, throwThe, MonadExceptOf.throw] at valid

/-- The record an append builds passes the check that reading it makes. -/
theorem validateEnvelope_appended {command : AppendEvent} {clock : DateTime} {fresh : Uuid}
    {events : List EventEnvelope} {seq : Nat}
    (next : nextSeq command.threadId events = .ok seq) :
    validateEnvelope path command.threadId events
      (appendedEnvelope command clock fresh events seq) = .ok () := by
  cases last : events.getLast? with
  | none =>
      have empty := List.getLast?_eq_none_iff.mp last
      subst empty
      simp only [nextSeq, List.getLast?_nil, Except.ok.injEq] at next
      simp [validateEnvelope, appendedEnvelope, ← next, bind, Except.bind, pure, Except.pure]
  | some event =>
      simp only [nextSeq, last] at next
      split at next
      · rename_i room
        cases head : events.head? with
        | none => simp [List.head?_eq_none_iff.mp head] at last
        | some first =>
            simp only [Except.ok.injEq] at next
            simp only [validateEnvelope, appendedEnvelope, ← next, last, head, if_pos room, bind,
              Except.bind, pure, Except.pure]
            simp
      · cases next

theorem parseLines_append (first second : List Bytes) (index : Nat)
    (events : List EventEnvelope) :
    parseLines codec path threadId index events (first ++ second) =
      (parseLines codec path threadId index events first).bind fun parsed =>
        parseLines codec path threadId (index + first.length) parsed second := by
  induction first generalizing index events with
  | nil => rfl
  | cons line first ih =>
      simp only [List.cons_append, parseLines, List.length_cons]
      cases codec.fromSlice (stripCarriageReturn line) with
      | error error => rfl
      | ok envelope =>
          simp only [bind, Except.bind]
          cases validateEnvelope path threadId events envelope with
          | error error => rfl
          | ok _ => simp only [ih, Except.bind, Nat.add_assoc, Nat.add_comm 1]

theorem parseLines_contiguous {lines : List Bytes} {index : Nat}
    {events parsed : List EventEnvelope} (contiguous : Contiguous events)
    (read : parseLines codec path threadId index events lines = .ok parsed) :
    Contiguous parsed := by
  induction lines generalizing index events with
  | nil =>
      simp only [parseLines, Except.ok.injEq] at read
      exact read ▸ contiguous
  | cons line lines ih =>
      simp only [parseLines] at read
      cases decoded : codec.fromSlice (stripCarriageReturn line) with
      | error error => simp [decoded] at read
      | ok envelope =>
          simp only [decoded, bind, Except.bind] at read
          cases valid : validateEnvelope path threadId events envelope with
          | error error => simp [valid] at read
          | ok _ =>
              simp only [valid] at read
              exact ih (contiguous.snoc (validateEnvelope_seq contiguous valid)) read

/-- A log whose records are all terminated, and what it parses to. -/
def Settled (codec : EnvelopeCodec) (path : ThreadId → String) (threadId : ThreadId)
    (bytes : Bytes) (events : List EventEnvelope) : Prop :=
  ∃ lines, Framed newline bytes lines [] ∧
    parseLines codec path threadId 0 [] lines = .ok events

theorem parseLog_of_framed {bytes rest : Bytes} {lines : List Bytes}
    {events : List EventEnvelope} (framed : Framed newline bytes lines rest)
    (parsed : parseLines codec path threadId 0 [] lines = .ok events) :
    parseLog codec path threadId bytes =
      if rest.isEmpty then .ok { events := events, tail := .clean }
      else match codec.fromSlice rest with
        | .ok envelope =>
            (validateEnvelope path threadId events envelope).bind fun _ =>
              .ok { events := events ++ [envelope], tail := .validWithoutNewline }
        | .error _ =>
            .ok { events := events, tail := .partialRecord (completeLength newline bytes) } := by
  cases empty : rest.isEmpty with
  | true =>
      simp [parseLog, framed.records_eq, framed.tail_eq, parsed, empty, bind, Except.bind, pure,
        Except.pure]
  | false =>
      cases decoded : codec.fromSlice rest with
      | error error =>
          simp [parseLog, framed.records_eq, framed.tail_eq, parsed, empty, decoded, bind,
            Except.bind, pure, Except.pure]
      | ok envelope =>
          simp [parseLog, framed.records_eq, framed.tail_eq, parsed, empty, decoded, bind,
            Except.bind, pure, Except.pure]

theorem Settled.parseLog_eq {bytes : Bytes} {events : List EventEnvelope}
    (settled : Settled codec path threadId bytes events) :
    parseLog codec path threadId bytes = .ok { events := events, tail := .clean } := by
  obtain ⟨lines, framed, parsed⟩ := settled
  rw [parseLog_of_framed framed parsed]
  rfl

theorem settled_nil : Settled codec path threadId [] [] :=
  ⟨[], framed [], rfl⟩

/-- What a log that parses is made of. -/
theorem parseLog_cases {bytes : Bytes} {log : ParsedLog}
    (parsed : parseLog codec path threadId bytes = .ok log) :
    ∃ lines rest events, Framed newline bytes lines rest ∧
      parseLines codec path threadId 0 [] lines = .ok events ∧
      ((rest = [] ∧ log = ⟨events, .clean⟩) ∨
        (∃ envelope, codec.fromSlice rest = .ok envelope ∧
          validateEnvelope path threadId events envelope = .ok () ∧
          log = ⟨events ++ [envelope], .validWithoutNewline⟩) ∨
        log = ⟨events, .partialRecord (completeLength newline bytes)⟩) := by
  have made : Framed newline bytes (records newline bytes) (tail newline bytes) := framed bytes
  cases lines : parseLines codec path threadId 0 [] (records newline bytes) with
  | error error => simp [parseLog, lines, bind, Except.bind] at parsed
  | ok events =>
      refine ⟨_, _, events, made, lines, ?_⟩
      rw [parseLog_of_framed made lines] at parsed
      split at parsed
      · rename_i empty
        exact .inl ⟨List.isEmpty_iff.mp empty, (Except.ok.inj parsed).symm⟩
      · cases decoded : codec.fromSlice (tail newline bytes) with
        | error error =>
            simp only [decoded, Except.ok.injEq] at parsed
            exact .inr (.inr parsed.symm)
        | ok envelope =>
            simp only [decoded] at parsed
            cases valid : validateEnvelope path threadId events envelope with
            | error error => simp [valid, Except.bind] at parsed
            | ok _ =>
                simp only [valid, Except.bind, Except.ok.injEq] at parsed
                exact .inr (.inl ⟨envelope, rfl, valid, parsed.symm⟩)

theorem parseLog_contiguous {bytes : Bytes} {log : ParsedLog}
    (parsed : parseLog codec path threadId bytes = .ok log) : Contiguous log.events := by
  obtain ⟨lines, rest, events, -, read, shape⟩ := parseLog_cases parsed
  have contiguous := parseLines_contiguous (show Contiguous [] from rfl) read
  rcases shape with ⟨-, rfl⟩ | ⟨envelope, -, valid, rfl⟩ | rfl
  · exact contiguous
  · exact contiguous.snoc (validateEnvelope_seq contiguous valid)
  · exact contiguous

/-- A decodable text that a newline ends is one more record. -/
theorem Settled.of_line (returns : codec.IgnoresReturn) {bytes rest : Bytes} {lines : List Bytes}
    {events : List EventEnvelope} {envelope : EventEnvelope}
    (framed : Framed newline bytes lines rest)
    (parsed : parseLines codec path threadId 0 [] lines = .ok events)
    (decoded : codec.fromSlice rest = .ok envelope)
    (valid : validateEnvelope path threadId events envelope = .ok ()) :
    Settled codec path threadId (bytes ++ [newline]) (events ++ [envelope]) := by
  refine ⟨lines ++ [rest], framed.terminate, ?_⟩
  rw [parseLines_append, parsed]
  simp only [Except.bind, parseLines, fromSlice_strip returns decoded, valid, bind]

/-- After its repair a log is settled and parses as before. -/
theorem settled_repair (lawful : codec.Lawful) {bytes : Bytes} {log : ParsedLog}
    (parsed : parseLog codec path threadId bytes = .ok log) :
    Settled codec path threadId (perform (repair log.tail).1 bytes ++ (repair log.tail).2)
      log.events := by
  obtain ⟨lines, rest, events, framed, read, shape⟩ := parseLog_cases parsed
  rcases shape with ⟨rfl, rfl⟩ | ⟨envelope, decoded, valid, rfl⟩ | rfl
  · have settled : Settled codec path threadId bytes events := ⟨lines, framed, read⟩
    simpa only [repair, perform, List.foldl_nil, List.append_nil] using settled
  · simpa [repair, perform] using
      Settled.of_line lawful.trailing_return framed read decoded valid
  · have settled : Settled codec path threadId (bytes.take (completeLength newline bytes)) events :=
      ⟨lines, framed.truncate, read⟩
    simpa only [repair, perform, List.foldl_cons, List.foldl_nil, Operation.apply,
      List.append_nil] using settled

section Record

variable {bytes json : Bytes} {events : List EventEnvelope} {envelope : EventEnvelope}

/-- A settled log with a line behind it that is read as a record. -/
theorem Settled.line (returns : codec.IgnoresReturn)
    (settled : Settled codec path threadId bytes events) (single : newline ∉ json)
    (decoded : codec.fromSlice json = .ok envelope)
    (valid : validateEnvelope path threadId events envelope = .ok ()) :
    Settled codec path threadId (bytes ++ (json ++ [newline])) (events ++ [envelope]) := by
  obtain ⟨lines, framed, read⟩ := settled
  have extended := framed.extend single
  rw [List.nil_append] at extended
  rw [← List.append_assoc]
  exact Settled.of_line returns extended read decoded valid

/-- A settled log with a whole record behind it. -/
theorem Settled.record (lawful : codec.Lawful)
    (settled : Settled codec path threadId bytes events)
    (valid : validateEnvelope path threadId events envelope = .ok ())
    (encoded : codec.toVec envelope = .ok json) (legible : envelope.event.Legible) :
    Settled codec path threadId (bytes ++ (json ++ [newline]))
      (events ++ [envelope.restored codec.number]) := by
  have validRead : validateEnvelope path threadId events (envelope.restored codec.number) =
    .ok () := valid
  exact settled.line lawful.trailing_return (lawful.single_line encoded)
    (lawful.decode_encode encoded legible) validRead

/-- A settled log with a line behind it that cannot be read. -/
theorem Settled.unreadable (settled : Settled codec path threadId bytes events)
    (single : newline ∉ json) (returns : carriageReturn ∉ json) {error : String}
    (refused : codec.fromSlice json = .error error) :
    ∃ error, parseLog codec path threadId (bytes ++ (json ++ [newline])) = .error error := by
  obtain ⟨lines, framed, read⟩ := settled
  have extended := framed.extend single
  rw [List.nil_append] at extended
  have ended : Framed newline (bytes ++ (json ++ [newline])) (lines ++ [json]) [] := by
    rw [← List.append_assoc]
    exact extended.terminate
  have stripped : stripCarriageReturn json = json := by
    unfold stripCarriageReturn
    split
    · rename_i last
      exact absurd (List.mem_of_getLast? last) returns
    · rfl
  have failed : parseLines codec path threadId 0 [] (lines ++ [json]) = .error (.storage
      s!"malformed JSONL record at {path threadId}:{0 + lines.length + 1}: {error}") := by
    rw [parseLines_append, read]
    simp only [Except.bind, parseLines, stripped, refused]
  exact ⟨_, by simp only [parseLog, ended.records_eq, failed, bind, Except.bind]; rfl⟩

/-- A settled log with a part of a record behind it parses to what it held, and to
the record once its text is complete. -/
theorem Settled.torn (lawful : codec.Lawful)
    (settled : Settled codec path threadId bytes events)
    (valid : validateEnvelope path threadId events envelope = .ok ())
    (encoded : codec.toVec envelope = .ok json) (legible : envelope.event.Legible)
    (count : Nat) :
    ∃ tail, parseLog codec path threadId (bytes ++ (json ++ [newline]).take count) =
      .ok { events := if json.length ≤ count then events ++ [envelope.restored codec.number]
              else events,
            tail := tail } := by
  by_cases whole : json.length < count
  · have all : (json ++ [newline]).take count = json ++ [newline] := by
      apply List.take_of_length_le
      simp only [List.length_append, List.length_singleton]
      omega
    rw [all, if_pos (Nat.le_of_lt whole)]
    exact ⟨_, (settled.record lawful valid encoded legible).parseLog_eq⟩
  · have before : (json ++ [newline]).take count = json.take count := by
      rw [List.take_append_of_le_length (by omega)]
    obtain ⟨lines, framed, read⟩ := settled
    have free : newline ∉ json.take count := fun member =>
      lawful.single_line encoded (List.mem_of_mem_take member)
    have extended := framed.extend free
    rw [List.nil_append] at extended
    rw [before, parseLog_of_framed extended read]
    by_cases complete : json.length ≤ count
    · have text : json.take count = json := List.take_of_length_le complete
      have filled : json.isEmpty = false := by simpa using lawful.nonempty encoded
      have validRead : validateEnvelope path threadId events (envelope.restored codec.number) =
        .ok () := valid
      simp [text, filled, lawful.decode_encode encoded legible, validRead, complete, Except.bind]
    · rw [if_neg complete]
      by_cases empty : (json.take count).isEmpty
      · exact ⟨_, by rw [if_pos empty]⟩
      · have shorter : json.take count ≠ json := by
          intro same
          have length := congrArg List.length same
          rw [List.length_take] at length
          omega
        have refused := lawful.prefix_free encoded (List.take_prefix count json) shorter
        cases decoded : codec.fromSlice (json.take count) with
        | ok other => exact absurd decoded (refused other)
        | error error => exact ⟨_, by rw [if_neg empty]⟩

end Record

section Append

variable {bytes : Bytes} {log : ParsedLog}

theorem parseLog_perform_repair (lawful : codec.Lawful)
    (parsed : parseLog codec path threadId bytes = .ok log) :
    ∃ tail, parseLog codec path threadId (perform (repair log.tail).1 bytes) =
      .ok { events := log.events, tail := tail } := by
  have settled := settled_repair lawful parsed
  obtain ⟨events, tail⟩ := log
  cases tail with
  | clean => exact ⟨_, parsed⟩
  | validWithoutNewline => exact ⟨_, parsed⟩
  | partialRecord validBytes =>
      rw [repair, List.append_nil] at settled
      exact ⟨_, settled.parseLog_eq⟩

theorem parseLog_leaves_repair (lawful : codec.Lawful)
    (parsed : parseLog codec path threadId bytes = .ok log) (tear : Tear) :
    ∃ tail, parseLog codec path threadId (tear.leaves (repair log.tail).1 bytes) =
      .ok { events := log.events, tail := tail } := by
  have repaired := parseLog_perform_repair lawful parsed
  obtain ⟨events, tail⟩ := log
  cases tail with
  | clean => simpa [repair, Tear.leaves, perform] using repaired
  | validWithoutNewline => simpa [repair, Tear.leaves, perform] using repaired
  | partialRecord validBytes =>
      cases finished : tear.finished with
      | zero => exact ⟨_, by simpa [repair, Tear.leaves, perform, finished] using parsed⟩
      | succ count => simpa [repair, Tear.leaves, perform, finished] using repaired

/-- How an append ends: before it writes, after a repair alone, or with its record. -/
theorem appendEvent_cases (command : AppendEvent) (clock : DateTime) (fresh : Uuid)
    (parsed : parseLog codec path command.threadId bytes = .ok log) :
    (∃ error, appendEvent codec path command clock fresh (some bytes) = (.error error, [])) ∨
    (∃ error, appendEvent codec path command clock fresh (some bytes) =
      (.error error, (repair log.tail).1)) ∨
    ∃ envelope json,
      validateEnvelope path command.threadId log.events envelope = .ok () ∧
      codec.toVec envelope = .ok json ∧ envelope.event = command.event ∧
      appendEvent codec path command clock fresh (some bytes) = (.ok envelope,
        (repair log.tail).1 ++ [.append ((repair log.tail).2 ++ (json ++ [newline]))]) := by
  cases next : nextSeq command.threadId log.events with
  | error error => exact .inl ⟨error, by simp [appendEvent, parsed, next]⟩
  | ok seq =>
      cases encoded : codec.toVec (appendedEnvelope command clock fresh log.events seq) with
      | error error =>
          exact .inr (.inl ⟨_, by simp [appendEvent, parsed, next, encodeLine, encoded]; rfl⟩)
      | ok json =>
          refine .inr (.inr ⟨_, json, validateEnvelope_appended next, encoded, rfl, ?_⟩)
          simp [appendEvent, parsed, next, encodeLine, encoded]

/-- An append that answers has put its record behind the log, and one that fails has
left the log's records alone. -/
theorem parseLog_appendEvent (lawful : codec.Lawful) (command : AppendEvent)
    (legible : command.event.Legible) (clock : DateTime) (fresh : Uuid)
    (parsed : parseLog codec path command.threadId bytes = .ok log) :
    ∃ tail, parseLog codec path command.threadId
        (perform (appendEvent codec path command clock fresh (some bytes)).2 bytes) =
      .ok { events := log.events ++
              ((appendEvent codec path command clock fresh (some bytes)).1.toOption.map
                (EventEnvelope.restored codec.number)).toList,
            tail := tail } := by
  obtain ⟨error, failed⟩ | ⟨error, failed⟩ | ⟨envelope, json, valid, encoded, own, written⟩ :=
    appendEvent_cases command clock fresh parsed
  · rw [failed]
    exact ⟨_, by simpa [perform, Except.toOption] using parsed⟩
  · rw [failed]
    simpa [Except.toOption] using parseLog_perform_repair lawful parsed
  · rw [written]
    rw [← own] at legible
    have whole := ((settled_repair lawful parsed).record lawful valid encoded legible).parseLog_eq
    refine ⟨.clean, ?_⟩
    simpa [perform, Operation.apply, Except.toOption, List.append_assoc] using whole

/-- An append that a crash cuts off leaves the log's records, and its own behind them
if all of its text was written. -/
theorem parseLog_torn (lawful : codec.Lawful) (command : AppendEvent)
    (legible : command.event.Legible) (clock : DateTime) (fresh : Uuid)
    (parsed : parseLog codec path command.threadId bytes = .ok log) (tear : Tear) :
    ∃ survived tail, parseLog codec path command.threadId
        (tear.leaves (appendEvent codec path command clock fresh (some bytes)).2 bytes) =
      .ok { events := log.events ++ survived, tail := tail } ∧
      (survived = [] ∨ ∃ envelope, survived = [envelope.restored codec.number] ∧
        (appendEvent codec path command clock fresh (some bytes)).1 = .ok envelope) := by
  obtain ⟨error, failed⟩ | ⟨error, failed⟩ | ⟨envelope, json, valid, encoded, own, written⟩ :=
    appendEvent_cases command clock fresh parsed
  · rw [failed]
    exact ⟨[], log.tail, by simpa [Tear.leaves, perform] using parsed, .inl rfl⟩
  · rw [failed]
    obtain ⟨tail, left⟩ := parseLog_leaves_repair lawful parsed tear
    exact ⟨[], tail, by simpa using left, .inl rfl⟩
  · rw [written]
    rw [← own] at legible
    obtain ⟨-, before⟩ | ⟨count, within⟩ := tear.leaves_snoc (repair log.tail).1
      ((repair log.tail).2 ++ (json ++ [newline])) bytes
    · obtain ⟨tail, left⟩ := parseLog_leaves_repair lawful parsed tear
      exact ⟨[], tail, by rw [before, left, List.append_nil], .inl rfl⟩
    · by_cases past : (repair log.tail).2.length ≤ count
      · obtain ⟨tail, torn⟩ := (settled_repair lawful parsed).torn lawful valid encoded
          legible (count - (repair log.tail).2.length)
        have text : perform (repair log.tail).1 bytes ++
              ((repair log.tail).2 ++ (json ++ [newline])).take count =
            perform (repair log.tail).1 bytes ++ (repair log.tail).2 ++
              (json ++ [newline]).take (count - (repair log.tail).2.length) := by
          rw [List.take_append, List.take_of_length_le past, List.append_assoc]
        rw [within, text, torn]
        split
        · exact ⟨[envelope.restored codec.number], tail, rfl, .inr ⟨envelope, rfl, rfl⟩⟩
        · exact ⟨[], tail, by rw [List.append_nil], .inl rfl⟩
      · have shorter : (repair log.tail).2.length ≤ 1 := by
          cases log.tail <;> simp [repair]
        have none : count = 0 := by omega
        obtain ⟨tail, left⟩ := parseLog_perform_repair lawful parsed
        exact ⟨[], tail, by rw [within, none, List.take_zero, List.append_nil, left,
          List.append_nil], .inl rfl⟩

end Append

end

section Rounds

variable (codec : EnvelopeCodec) (path : ThreadId → String)

/-- An append to some thread's log, finished or cut off by a crash of the process. -/
structure Round where
  command : AppendEvent
  clock : DateTime
  fresh : Uuid
  torn : Option Tear

/-- What the caller of an append learns: its answer, or nothing. The answer that a
crash kept from the caller stands beside it. -/
inductive Outcome where
  | acknowledged (envelope : EventEnvelope)
  | failed (error : OpsCodexError)
  | interrupted (unsent : Result EventEnvelope)

def Round.run (round : Round) (directory : Directory) : Outcome × Directory :=
  let (answer, operations) := appendEvent codec path round.command round.clock round.fresh
    (read directory round.command.threadId)
  match round.torn with
  | some tear =>
      (.interrupted answer, write directory round.command.threadId (tear.leaves operations))
  | none =>
      (match answer with
        | .ok envelope => .acknowledged envelope
        | .error error => .failed error,
        write directory round.command.threadId (perform operations))

def runRounds : List Round → Directory → List (ThreadId × Outcome) × Directory
  | [], directory => ([], directory)
  | round :: rounds, directory =>
      let (outcome, next) := round.run codec path directory
      let (outcomes, last) := runRounds rounds next
      ((round.command.threadId, outcome) :: outcomes, last)

theorem Round.run_snd (round : Round) (directory : Directory) :
    ∃ change, (round.run codec path directory).2 =
      write directory round.command.threadId change := by
  cases torn : round.torn with
  | none => exact ⟨_, by simp only [Round.run, torn]; rfl⟩
  | some tear => exact ⟨_, by simp only [Round.run, torn]; rfl⟩

/-- The records that a thread's log has gained, as it gives them back: every acknowledged
one, and of each interrupted append its whole record or nothing. -/
inductive Survive (threadId : ThreadId) :
    List (ThreadId × Outcome) → List EventEnvelope → Prop where
  | done : Survive threadId [] []
  | acknowledged {envelope outcomes events} : Survive threadId outcomes events →
      Survive threadId ((threadId, .acknowledged envelope) :: outcomes)
        (envelope.restored codec.number :: events)
  | failed {error outcomes events} : Survive threadId outcomes events →
      Survive threadId ((threadId, .failed error) :: outcomes) events
  | lost {unsent outcomes events} : Survive threadId outcomes events →
      Survive threadId ((threadId, .interrupted unsent) :: outcomes) events
  | kept {envelope outcomes events} : Survive threadId outcomes events →
      Survive threadId ((threadId, .interrupted (.ok envelope)) :: outcomes)
        (envelope.restored codec.number :: events)
  | elsewhere {other outcome outcomes events} : other ≠ threadId →
      Survive threadId outcomes events →
      Survive threadId ((other, outcome) :: outcomes) events

variable {codec path}

theorem read_write_same (directory : Directory) (threadId : ThreadId)
    (change : Bytes → Bytes) :
    read (write directory threadId change) threadId = (read directory threadId).map change := by
  unfold read write
  rw [Table.lookup_update]
  · cases found : Table.lookup LogFile.threadId threadId directory with
    | none => rfl
    | some file => simp [Table.lookup_key found]
  · exact fun _ _ => rfl

theorem read_write_other {threadId other : ThreadId} (different : other ≠ threadId)
    (directory : Directory) (change : Bytes → Bytes) :
    read (write directory other change) threadId = read directory threadId := by
  unfold read write
  rw [Table.lookup_update]
  · cases found : Table.lookup LogFile.threadId threadId directory with
    | none => rfl
    | some file =>
        have unselected : ¬ threadId = other := fun same => different same.symm
        simp [Table.lookup_key found, unselected]
  · exact fun _ _ => rfl

/-- One round, acknowledged, failed or torn, on a log that parses. -/
theorem Round.run_parses (lawful : codec.Lawful) {directory : Directory} {bytes : Bytes}
    {log : ParsedLog} (round : Round) (legible : round.command.event.Legible)
    (stored : read directory round.command.threadId = some bytes)
    (parsed : parseLog codec path round.command.threadId bytes = .ok log) :
    ∃ next gained tail,
      read (round.run codec path directory).2 round.command.threadId = some next ∧
      parseLog codec path round.command.threadId next =
        .ok { events := log.events ++ gained, tail := tail } ∧
      ∀ outcomes events, Survive codec round.command.threadId outcomes events →
        Survive codec round.command.threadId
          ((round.command.threadId, (round.run codec path directory).1) :: outcomes)
          (gained ++ events) := by
  obtain ⟨command, clock, fresh, torn⟩ := round
  cases torn with
  | none =>
      obtain ⟨tail, appended⟩ := parseLog_appendEvent lawful command legible clock fresh parsed
      refine ⟨_, _, tail, ?_, appended, ?_⟩
      · simp only [Round.run, stored, read_write_same, Option.map_some]
      · intro outcomes events rest
        simp only [Round.run, stored]
        cases answer : (appendEvent codec path command clock fresh (some bytes)).1 with
        | ok envelope => exact .acknowledged rest
        | error error => exact .failed rest
  | some tear =>
      obtain ⟨survived, tail, left, shape⟩ :=
        parseLog_torn lawful command legible clock fresh parsed tear
      refine ⟨_, survived, tail, ?_, left, ?_⟩
      · simp only [Round.run, stored, read_write_same, Option.map_some]
      · intro outcomes events rest
        simp only [Round.run, stored]
        rcases shape with rfl | ⟨envelope, rfl, answer⟩
        · exact .lost rest
        · rw [answer]
          exact .kept rest

/-- Whatever readable records are appended to a log that parses, and wherever crashes cut
the appends off, the log goes on to parse, to the records it held and those that survived,
numbered from one. -/
theorem parseLog_runRounds (lawful : codec.Lawful) {threadId : ThreadId}
    {directory : Directory} {bytes : Bytes} {log : ParsedLog} (rounds : List Round)
    (legible : ∀ round ∈ rounds, round.command.threadId = threadId →
      round.command.event.Legible)
    (stored : read directory threadId = some bytes)
    (parsed : parseLog codec path threadId bytes = .ok log) :
    ∃ last survived tail,
      read (runRounds codec path rounds directory).2 threadId = some last ∧
      parseLog codec path threadId last =
        .ok { events := log.events ++ survived, tail := tail } ∧
      Survive codec threadId (runRounds codec path rounds directory).1 survived ∧
      (log.events ++ survived).map EventEnvelope.seq =
        List.range' 1 (log.events ++ survived).length := by
  suffices grown : ∃ last survived tail,
      read (runRounds codec path rounds directory).2 threadId = some last ∧
      parseLog codec path threadId last =
        .ok { events := log.events ++ survived, tail := tail } ∧
      Survive codec threadId (runRounds codec path rounds directory).1 survived by
    obtain ⟨last, survived, tail, read, parses, survive⟩ := grown
    exact ⟨last, survived, tail, read, parses, survive, parseLog_contiguous parses⟩
  induction rounds generalizing directory bytes log with
  | nil => exact ⟨bytes, [], log.tail, stored, by simpa using parsed, .done⟩
  | cons round rounds ih =>
      have later : ∀ other ∈ rounds, other.command.threadId = threadId →
          other.command.event.Legible := fun other member =>
        legible other (List.mem_cons_of_mem _ member)
      by_cases own : round.command.threadId = threadId
      · subst own
        obtain ⟨next, gained, tail, written, parses, survives⟩ :=
          round.run_parses lawful (legible round List.mem_cons_self rfl) stored parsed
        obtain ⟨last, survived, lastTail, read, ends, survive⟩ := ih later written parses
        refine ⟨last, gained ++ survived, lastTail, read, ?_, survives _ _ survive⟩
        simpa only [List.append_assoc] using ends
      · obtain ⟨change, moved⟩ := round.run_snd codec path directory
        have kept : read (round.run codec path directory).2 threadId = some bytes := by
          rw [moved, read_write_other own, stored]
        obtain ⟨last, survived, tail, read, parses, survive⟩ := ih later kept parsed
        exact ⟨last, survived, tail, read, parses, .elsewhere own survive⟩

end Rounds

/-! A library that knows the text of a few records. -/

namespace Demo

open OpsCodex.Runtime.Demo.EventText (nested)

structure Sample where
  envelope : EventEnvelope
  json : Bytes

/-- The number of arrays around nothing. -/
def layers : Value → Option Nat
  | .null => some 0
  | .array [item] => (layers item).map (· + 1)
  | _ => none

theorem eq_nested {value : Value} {depth : Nat} (found : layers value = some depth) :
    value = nested depth := by
  fun_induction layers value generalizing depth with
  | case1 =>
      cases found
      rfl
  | case2 item ih =>
      obtain ⟨inner, known, rfl⟩ := Option.map_eq_some_iff.mp found
      rw [ih known, nested]
  | case3 => cases found

def sameValue (left right : Value) : Bool :=
  match layers left, layers right with
  | some left, some right => left = right
  | _, _ => false

theorem sameValue_eq {left right : Value} (equal : sameValue left right = true) :
    left = right := by
  unfold sameValue at equal
  split at equal
  · rename_i first second
    rw [eq_nested first, eq_nested second, of_decide_eq_true equal]
  · cases equal

def sameEvent : RuntimeEvent → RuntimeEvent → Bool
  | .threadCreated, .threadCreated => true
  | .userMessage left none, .userMessage right none => left = right
  | .toolProposed call tool arguments, .toolProposed otherCall otherTool otherArguments =>
      call = otherCall && tool = otherTool && sameValue arguments otherArguments
  | _, _ => false

def same (left right : EventEnvelope) : Bool :=
  left.schemaVersion = right.schemaVersion && left.streamKind = right.streamKind &&
    left.eventId = right.eventId && left.seq = right.seq &&
    left.workspaceId = right.workspaceId && left.threadId = right.threadId &&
    left.turnId = right.turnId && left.itemId = right.itemId &&
    left.causationId = right.causationId && left.timestamp = right.timestamp &&
    sameEvent left.event right.event

theorem sameEvent_eq {left right : RuntimeEvent} (equal : sameEvent left right = true) :
    left = right := by
  unfold sameEvent at equal
  split at equal
  · rfl
  · rw [of_decide_eq_true equal]
  · simp only [Bool.and_eq_true, decide_eq_true_eq] at equal
    rw [equal.1.1, equal.1.2, sameValue_eq equal.2]
  · cases equal

theorem same_eq {left right : EventEnvelope} (equal : same left right = true) :
    left = right := by
  cases left
  cases right
  simp only [same, Bool.and_eq_true, decide_eq_true_eq] at equal
  obtain ⟨⟨⟨⟨⟨⟨⟨⟨⟨⟨rfl, rfl⟩, rfl⟩, rfl⟩, rfl⟩, rfl⟩, rfl⟩, rfl⟩, rfl⟩, rfl⟩, event⟩ := equal
  rw [sameEvent_eq event]

def trimReturns (text : Bytes) : Bytes :=
  (text.reverse.dropWhile (· = carriageReturn)).reverse

def codec (samples : List Sample) : EnvelopeCodec where
  toVec envelope :=
    match samples.find? fun sample => same envelope sample.envelope with
    | some sample => .ok sample.json
    | none => .error "unknown record"
  fromSlice text :=
    match samples.find? fun sample => decide (sample.json = trimReturns text) with
    | some sample =>
        if sample.envelope.event.Legible then .ok sample.envelope.reread
        else .error "recursion limit exceeded"
    | none => .error "EOF while parsing an object"
  eventVec _ := []
  number := id

/-- Texts on single lines of which none begins another. -/
def legible (samples : List Sample) : Bool :=
  (samples.all fun sample => !sample.json.isEmpty && !sample.json.contains newline &&
    !sample.json.contains carriageReturn) &&
  samples.zipIdx.all fun left => samples.zipIdx.all fun right =>
    left.2 = right.2 || !left.1.json.isPrefixOf right.1.json

theorem trimReturns_of_free {text : Bytes} (free : carriageReturn ∉ text) :
    trimReturns text = text := by
  unfold trimReturns
  cases last : text.reverse with
  | nil => rw [List.reverse_eq_nil_iff.mp last]; rfl
  | cons symbol rest =>
      have different : symbol ≠ carriageReturn := by
        intro equal
        apply free
        rw [← List.mem_reverse, last, equal]
        exact List.mem_cons_self
      rw [List.dropWhile_cons_of_neg (by simpa using different), ← last, List.reverse_reverse]

theorem legible_unique {samples : List Sample} (fine : legible samples = true)
    {left right : Sample} (first : left ∈ samples) (second : right ∈ samples)
    (begins : left.json <+: right.json) : left = right := by
  simp only [legible, Bool.and_eq_true, List.all_eq_true] at fine
  obtain ⟨-, apart⟩ := fine
  obtain ⟨leftIndex, leftAt⟩ := List.mem_iff_getElem?.mp first
  obtain ⟨rightIndex, rightAt⟩ := List.mem_iff_getElem?.mp second
  have separate := apart (left, leftIndex) (List.mem_zipIdx_iff_getElem?.mpr leftAt)
    (right, rightIndex) (List.mem_zipIdx_iff_getElem?.mpr rightAt)
  simp only [Bool.or_eq_true, decide_eq_true_eq, Bool.not_eq_true',
    ← Bool.not_eq_true, List.isPrefixOf_iff_prefix] at separate
  rcases separate with sameIndex | disjoint
  · rw [sameIndex, rightAt] at leftAt
    exact (Option.some.inj leftAt).symm
  · exact absurd begins disjoint

theorem legible_free {samples : List Sample} (fine : legible samples = true)
    {sample : Sample} (member : sample ∈ samples) :
    sample.json ≠ [] ∧ newline ∉ sample.json ∧ carriageReturn ∉ sample.json := by
  simp only [legible, Bool.and_eq_true, List.all_eq_true] at fine
  simpa [and_assoc] using fine.1 sample member

theorem fromSlice_sample {samples : List Sample} (fine : legible samples = true)
    {sample : Sample} (member : sample ∈ samples) :
    (codec samples).fromSlice sample.json =
      if sample.envelope.event.Legible then .ok sample.envelope.reread
      else .error "recursion limit exceeded" := by
  have trimmed := trimReturns_of_free (legible_free fine member).2.2
  simp only [codec, trimmed]
  cases found : samples.find? fun other => decide (other.json = sample.json) with
  | none => simpa using List.find?_eq_none.mp found sample member
  | some other =>
      have equal : other.json = sample.json := by simpa using List.find?_some found
      have one := legible_unique fine (List.mem_of_find?_eq_some found) member
        (equal ▸ List.prefix_refl _)
      simp only [one]

theorem lawful {samples : List Sample} (fine : legible samples = true) :
    (codec samples).Lawful := by
  have encodes : ∀ {envelope json}, (codec samples).toVec envelope = .ok json →
      ∃ sample ∈ samples, sample.envelope = envelope ∧ sample.json = json := by
    intro envelope json encoded
    simp only [codec] at encoded
    split at encoded
    · rename_i sample found
      exact ⟨sample, List.mem_of_find?_eq_some found,
        (same_eq (by simpa using List.find?_some found)).symm, Except.ok.inj encoded⟩
    · cases encoded
  have decodes : ∀ {text envelope}, (codec samples).fromSlice text = .ok envelope →
      ∃ sample ∈ samples, sample.json = trimReturns text := by
    intro text envelope decoded
    simp only [codec] at decoded
    split at decoded
    · rename_i sample found
      exact ⟨sample, List.mem_of_find?_eq_some found, by simpa using List.find?_some found⟩
    · cases decoded
  constructor
  · intro envelope json encoded readable
    obtain ⟨sample, member, rfl, rfl⟩ := encodes encoded
    have exact : sample.envelope.restored id = sample.envelope.reread :=
      sample.envelope.restored_exact fun _ => rfl
    rw [fromSlice_sample fine member, if_pos readable]
    exact congrArg Except.ok exact.symm
  · intro envelope json encoded
    obtain ⟨sample, member, rfl, rfl⟩ := encodes encoded
    exact (legible_free fine member).1
  · intro envelope json encoded
    obtain ⟨sample, member, rfl, rfl⟩ := encodes encoded
    exact (legible_free fine member).2.1
  · intro envelope json written encoded begins shorter other decoded
    obtain ⟨sample, member, rfl, rfl⟩ := encodes encoded
    obtain ⟨found, foundMember, text⟩ := decodes decoded
    have free : carriageReturn ∉ written := fun inside =>
      (legible_free fine member).2.2 (begins.subset inside)
    rw [trimReturns_of_free free] at text
    have one := legible_unique fine foundMember member (text ▸ begins)
    exact shorter (by rw [← text, one])
  · intro text envelope decoded
    have trimmed : trimReturns (text ++ [carriageReturn]) = trimReturns text := by
      simp [trimReturns]
    simp only [codec, trimmed] at decoded ⊢
    exact decoded

def threadId : ThreadId := ⟨1⟩

def path (threadId : ThreadId) : String := s!"/var/lib/opscodex/{threadId}.jsonl"

def message (eventId seq : Nat) (workspaceId : WorkspaceId) : EventEnvelope where
  schemaVersion := eventSchemaVersion
  streamKind := .domain
  eventId := ⟨eventId⟩
  seq := seq
  workspaceId := workspaceId
  threadId := threadId
  turnId := none
  itemId := none
  causationId := none
  timestamp := 0
  event := .userMessage "hello" none

/-- The text of a record, from the parts in which the samples differ. -/
def recordText (eventId seq workspaceId event fields : String) : Bytes :=
  ("\x7b\"schema_version\":2,\"stream_kind\":\"domain\",\"event_id\":\"".toList ++
    "00000000-0000-0000-0000-00000000000".toList ++ eventId.toList ++
    "\",\"seq\":".toList ++ seq.toList ++
    ",\"workspace_id\":\"".toList ++ workspaceId.toList ++
    "\",\"thread_id\":\"00000000-0000-0000-0000-000000000001\"".toList ++
    ",\"timestamp\":\"1970-01-01T00:00:00Z\",\"type\":\"".toList ++ event.toList ++
    "\",\"event\":\x7b\"type\":\"".toList ++ event.toList ++ "\"".toList ++
    fields.toList ++ "\x7d\x7d".toList).map Char.toUInt8

def createdSample : Sample where
  envelope := createdEnvelope threadId ⟨"team"⟩ 0 2
  json := recordText "2" "1" "team" "thread_created" ""

def messageSample : Sample where
  envelope := message 3 2 ⟨"team"⟩
  json := recordText "3" "2" "team" "user_message" ",\"content\":\"hello\""

def strayedSample : Sample where
  envelope := message 3 1 .default
  json := recordText "3" "1" "default" "user_message" ",\"content\":\"hello\""

/-- A proposal whose arguments are nested too deep for its record to be read. -/
def buriedSample : Sample where
  envelope := { message 3 2 ⟨"team"⟩ with event := .toolProposed "call" "list" (nested 126) }
  json := recordText "3" "2" "team" "tool_proposed"
    (",\"call_id\":\"call\",\"tool\":\"list\",\"arguments\":" ++
      String.ofList (List.replicate 126 '[') ++ "null" ++ String.ofList (List.replicate 126 ']'))

def samples : List Sample := [createdSample, messageSample, strayedSample, buriedSample]

def command : AppendEvent where
  threadId := threadId
  turnId := none
  itemId := none
  causationId := none
  streamKind := none
  event := .userMessage "hello" none

/-- A first append loses its record to a crash and a second one is acknowledged. -/
def rounds : List Round := [
  { command := command, clock := 0, fresh := 3, torn := some { finished := 0, written := 40 } },
  { command := command, clock := 0, fresh := 3, torn := none }]

set_option maxRecDepth 20000 in
theorem samples_legible : legible samples = true := by decide +kernel

def directory : Directory := [{ threadId := threadId, bytes := createdSample.json ++ [newline] }]

theorem created_settled : Settled (codec samples) path threadId
    (createdSample.json ++ [newline]) [createdSample.envelope] := by
  have settled : Settled (codec samples) path threadId [] [] := settled_nil
  have record := settled.record (lawful samples_legible)
    (show validateEnvelope path threadId [] createdSample.envelope = .ok () from rfl)
    (show (codec samples).toVec createdSample.envelope = .ok createdSample.json from rfl)
    (by decide)
  exact record

set_option maxRecDepth 20000 in
theorem toVec_buried : (codec samples).toVec buriedSample.envelope = .ok buriedSample.json := rfl

/-- The append of the record that cannot be read. -/
def buriedRound : Round where
  command := { command with event := buriedSample.envelope.event }
  clock := 0
  fresh := 3
  torn := none

end Demo

/-- The torn record is lost, the acknowledged one takes its number. -/
theorem parseLog_runRounds_tornMessage :
    ∃ last survived tail,
      read (runRounds (Demo.codec Demo.samples) Demo.path Demo.rounds Demo.directory).2
        Demo.threadId = some last ∧
      parseLog (Demo.codec Demo.samples) Demo.path Demo.threadId last =
        .ok { events := [Demo.createdSample.envelope] ++ survived, tail := tail } ∧
      Survive (Demo.codec Demo.samples) Demo.threadId
        (runRounds (Demo.codec Demo.samples) Demo.path Demo.rounds Demo.directory).1 survived ∧
      ([Demo.createdSample.envelope] ++ survived).map EventEnvelope.seq =
        List.range' 1 ([Demo.createdSample.envelope] ++ survived).length :=
  parseLog_runRounds (Demo.lawful Demo.samples_legible) Demo.rounds (by decide) rfl
    Demo.created_settled.parseLog_eq

open OpsCodex.Runtime.Demo.EventText (not_legible_buried) in
/-- A record that is acknowledged and cannot be read: the log no longer parses. -/
theorem not_parseLog_runRounds :
    (Demo.codec Demo.samples).Lawful ∧
    (∃ log, parseLog (Demo.codec Demo.samples) Demo.path Demo.threadId
      (Demo.createdSample.json ++ [newline]) = .ok log) ∧
    ∃ envelope last error,
      runRounds (Demo.codec Demo.samples) Demo.path [Demo.buriedRound] Demo.directory =
        ([(Demo.threadId, .acknowledged envelope)],
          [{ threadId := Demo.threadId, bytes := last }]) ∧
      parseLog (Demo.codec Demo.samples) Demo.path Demo.threadId last = .error error := by
  have parsed := Demo.created_settled.parseLog_eq
  have member : Demo.buriedSample ∈ Demo.samples := by simp [Demo.samples]
  have free := Demo.legible_free Demo.samples_legible member
  have refused := Demo.fromSlice_sample Demo.samples_legible member
  have deep : ¬ Demo.buriedSample.envelope.event.Legible := not_legible_buried
  rw [if_neg deep] at refused
  obtain ⟨error, failed⟩ := Demo.created_settled.unreadable free.2.1 free.2.2 refused
  refine ⟨Demo.lawful Demo.samples_legible, ⟨_, parsed⟩, Demo.buriedSample.envelope, _, error, ?_,
    failed⟩
  have appended : appendEvent (Demo.codec Demo.samples) Demo.path Demo.buriedRound.command
      Demo.buriedRound.clock Demo.buriedRound.fresh (some (Demo.createdSample.json ++ [newline])) =
        (.ok Demo.buriedSample.envelope, [.append (Demo.buriedSample.json ++ [newline])]) := by
    have own : Demo.buriedRound.command.threadId = Demo.threadId := rfl
    have next : nextSeq Demo.threadId [Demo.createdSample.envelope] = .ok 2 := rfl
    have line : encodeLine (Demo.codec Demo.samples) Demo.buriedSample.envelope =
        .ok (Demo.buriedSample.json ++ [newline]) := by
      simp only [encodeLine, Demo.toVec_buried]
    have built : appendedEnvelope Demo.buriedRound.command Demo.buriedRound.clock
      Demo.buriedRound.fresh [Demo.createdSample.envelope] 2 = Demo.buriedSample.envelope := rfl
    simp only [appendEvent, own, parsed, next, built, line, repair, List.nil_append]
  have stored : read Demo.directory Demo.buriedRound.command.threadId =
    some (Demo.createdSample.json ++ [newline]) := rfl
  simp only [runRounds, Round.run, stored, appended]
  rfl

end OpsCodex.Store.Jsonl
