import Mathlib.Data.List.Sort
import OpsCodex.Storage.Framing
import OpsCodex.Storage.TornWrite
import OpsCodex.Store.Sqlite
import OpsCodex.Strings

/-! The JSONL event store: one log file per thread, one JSON record per line. -/

set_option autoImplicit false

namespace OpsCodex.Runtime.WorkspaceId

open OpsCodex.Strings (trim)

def validate (id : WorkspaceId) : Result Unit :=
  let value := trim id.asStr.toList
  if value.isEmpty || 64 < (value.map Char.utf8Size).sum then
    .error (.protocol "workspace id must be 1-64 characters")
  else if !value.all fun ch => ch.isAlphanum || ch = '-' || ch = '_' then
    .error (.protocol "workspace id must be alphanumeric, dash, or underscore")
  else .ok ()

end OpsCodex.Runtime.WorkspaceId

namespace OpsCodex.Store.Jsonl

open OpsCodex.Runtime Framing Storage

abbrev Bytes := List UInt8

def newline : UInt8 := 10

def carriageReturn : UInt8 := 13

/-- The JSON text of an envelope, as the serialisation library writes and reads it, the text
of an event alone, and what is read back of a number that was written. -/
structure EnvelopeCodec where
  toVec : EventEnvelope → Except String Bytes
  fromSlice : Bytes → Except String EventEnvelope
  eventVec : RuntimeEvent → Bytes
  number : Json.Number → Json.Number

inductive LogTail where
  | clean
  | validWithoutNewline
  | partialRecord (validBytes : Nat)
  deriving DecidableEq, Repr

structure ParsedLog where
  events : List EventEnvelope
  tail : LogTail

structure LogFile where
  threadId : ThreadId
  bytes : Bytes

/-- The files of the store's directory, in the order in which it lists them. -/
abbrev Directory := List LogFile

structure ThreadSummary where
  id : ThreadId
  workspaceId : WorkspaceId
  status : ThreadStatus
  title : Option String
  createdAt : DateTime
  updatedAt : DateTime

section

variable (codec : EnvelopeCodec) (path : ThreadId → String)

def validateEnvelope (threadId : ThreadId) (previous : List EventEnvelope)
    (envelope : EventEnvelope) : Result Unit := do
  if envelope.threadId ≠ threadId then
    throw (.storage s!"thread ID mismatch in {path threadId} at sequence {envelope.seq}")
  let expected ← match previous.getLast? with
    | some event =>
        if event.seq + 1 < 2 ^ 64 then pure (event.seq + 1)
        else throw (.storage s!"sequence overflow while reading {path threadId}")
    | none => pure 1
  if envelope.seq ≠ expected then
    throw (.storage
      s!"non-monotonic sequence in {path threadId}: expected {expected}, found {envelope.seq}")
  match previous.head? with
  | some first =>
      if first.workspaceId ≠ envelope.workspaceId then
        throw (.storage s!"workspace mismatch in {path threadId} at sequence {envelope.seq}")
  | none => pure ()

def stripCarriageReturn (line : Bytes) : Bytes :=
  if line.getLast? = some carriageReturn then line.dropLast else line

def parseLines (threadId : ThreadId) : Nat → List EventEnvelope → List Bytes →
    Result (List EventEnvelope)
  | _, events, [] => .ok events
  | index, events, line :: lines =>
      match codec.fromSlice (stripCarriageReturn line) with
      | .error error =>
          .error (.storage
            s!"malformed JSONL record at {path threadId}:{index + 1}: {error}")
      | .ok envelope => do
          validateEnvelope path threadId events envelope
          parseLines threadId (index + 1) (events ++ [envelope]) lines

def parseLog (threadId : ThreadId) (bytes : Bytes) : Result ParsedLog := do
  let events ← parseLines codec path threadId 0 [] (records newline bytes)
  let trailing := tail newline bytes
  if trailing.isEmpty then
    return { events := events, tail := .clean }
  match codec.fromSlice trailing with
  | .ok envelope =>
      validateEnvelope path threadId events envelope
      return { events := events ++ [envelope], tail := .validWithoutNewline }
  | .error _ =>
      return { events := events, tail := .partialRecord (completeLength newline bytes) }

def encodeLine (envelope : EventEnvelope) : Result Bytes :=
  match codec.toVec envelope with
  | .error error => .error (.storage s!"failed to encode event: {error}")
  | .ok bytes => .ok (bytes ++ [newline])

/-- The sequence number of the record that an append writes. -/
def nextSeq (threadId : ThreadId) (events : List EventEnvelope) : Result Nat :=
  match events.getLast? with
  | some envelope =>
      if envelope.seq + 1 < 2 ^ 64 then .ok (envelope.seq + 1)
      else .error (.storage s!"thread {threadId} sequence is exhausted")
  | none => .ok 1

/-- The record that an append writes behind the events it has parsed. -/
def appendedEnvelope (command : AppendEvent) (clock : DateTime) (fresh : Uuid)
    (events : List EventEnvelope) (seq : Nat) : EventEnvelope where
  schemaVersion := eventSchemaVersion
  streamKind := command.streamKind.getD (streamKindFor command.event)
  eventId := ⟨fresh⟩
  seq := seq
  workspaceId := (events.head?.map EventEnvelope.workspaceId).getD .default
  threadId := command.threadId
  turnId := command.turnId
  itemId := command.itemId
  causationId := command.causationId
  timestamp := clock
  event := command.event

/-- What an append does to the file before it writes, and what it writes before
the record. -/
def repair : LogTail → List (Operation UInt8) × Bytes
  | .clean => ([], [])
  | .validWithoutNewline => ([], [newline])
  | .partialRecord validBytes => ([.truncate validBytes], [])

/-- The answer of an append and the file operations it makes until it answers. -/
def appendEvent (command : AppendEvent) (clock : DateTime) (fresh : Uuid)
    (file : Option Bytes) : Result EventEnvelope × List (Operation UInt8) :=
  match file with
  | none => (.error (.notFound s!"thread {command.threadId}"), [])
  | some bytes =>
      match parseLog codec path command.threadId bytes with
      | .error error => (.error error, [])
      | .ok parsed =>
          match nextSeq command.threadId parsed.events with
          | .error error => (.error error, [])
          | .ok seq =>
              let envelope := appendedEnvelope command clock fresh parsed.events seq
              let (repairs, lead) := repair parsed.tail
              match encodeLine codec envelope with
              | .error error => (.error error, repairs)
              | .ok line => (.ok envelope, repairs ++ [.append (lead ++ line)])

def read (directory : Directory) (threadId : ThreadId) : Option Bytes :=
  (Table.lookup LogFile.threadId threadId directory).map LogFile.bytes

/-- Replace the content of a thread's file. -/
def write (directory : Directory) (threadId : ThreadId) (change : Bytes → Bytes) : Directory :=
  Table.update (fun file => decide (file.threadId = threadId))
    (fun file => { file with bytes := change file.bytes }) directory

/-- The first record of a thread. -/
def createdEnvelope (threadId : ThreadId) (workspaceId : WorkspaceId) (clock : DateTime)
    (fresh : Uuid) : EventEnvelope where
  schemaVersion := eventSchemaVersion
  streamKind := streamKindFor .threadCreated
  eventId := ⟨fresh⟩
  seq := 1
  workspaceId := workspaceId
  threadId := threadId
  turnId := none
  itemId := none
  causationId := none
  timestamp := clock
  event := .threadCreated

/-- The record of a new thread and the line it is written as, if the thread can be
created: its file is created empty and the line then appended. -/
def createThread (threadId : ThreadId) (workspaceId : WorkspaceId) (clock : DateTime)
    (fresh : Uuid) (directory : Directory) : Result (EventEnvelope × Bytes) := do
  workspaceId.validate
  let envelope := createdEnvelope threadId workspaceId clock fresh
  let line ← encodeLine codec envelope
  if (read directory threadId).isSome then
    throw (.storage s!"failed to create thread log {path threadId}: File exists (os error 17)")
  return (envelope, line)

def eventsAfter (directory : Directory) (threadId : ThreadId) (afterSeq : Nat) :
    Result (List EventEnvelope) :=
  match read directory threadId with
  | none => .error (.notFound s!"thread {threadId}")
  | some bytes => do
      let parsed ← parseLog codec path threadId bytes
      return parsed.events.filter fun envelope => decide (afterSeq < envelope.seq)

def summarizeThread (directory : Directory) (threadId : ThreadId) : Result ThreadSummary := do
  let events ← eventsAfter codec path directory threadId 0
  let thread ← reconstructThread threadId events
  return {
    id := thread.id
    workspaceId := thread.workspaceId
    status := events.foldl (fun status envelope => statusAfter status envelope.event) .idle
    title := events.findSome? fun envelope => titleFromEvent envelope.event
    createdAt := (events.head?.map EventEnvelope.timestamp).getD 0
    updatedAt := (events.getLast?.map EventEnvelope.timestamp).getD 0 }

/-- The latest change first, and of two as late the one with the greater identifier. -/
def ThreadSummary.listedBefore (left right : ThreadSummary) : Prop :=
  right.updatedAt < left.updatedAt ∨
    (right.updatedAt = left.updatedAt ∧ toString right.id ≤ toString left.id)

instance : DecidableRel ThreadSummary.listedBefore := fun _ _ =>
  inferInstanceAs (Decidable (_ ∨ _))

def listThreads (directory : Directory) : Result (List ThreadSummary) := do
  let summaries ← (directory.map LogFile.threadId).mapM (summarizeThread codec path directory)
  return summaries.insertionSort ThreadSummary.listedBefore

end

end OpsCodex.Store.Jsonl
