import OpsCodex.Runtime.Event
import OpsCodex.Sequence.Transcript

/-! The events of one thread on their way to one subscriber: appends and broadcasts are
steps of their own, and the subscriber joins a replay of the log with the channel. -/

set_option autoImplicit false

namespace OpsCodex.Server

open OpsCodex.Runtime

/-- The query of a subscriber. -/
structure EventQuery where
  after : Nat
  streamKind : Option StreamKind

/-- A call that has appended to the log, or may do so, and has not finished. -/
inductive Task where
  | emitting (envelope : EventEnvelope)
  | handling (after : Nat)
  | publishing (rest : List EventEnvelope)

/-- Where the handler of a subscriber stands. -/
inductive Phase where
  | absent
  | subscribed
  | streaming (lastSeq : Nat) (pending : List EventEnvelope)
  | recovering (lastSeq : Nat)
  | closed

structure System where
  log : List EventEnvelope
  tasks : Nat → Option Task
  /-- The highest number that has been broadcast. -/
  sent : Nat
  phase : Phase
  queue : List EventEnvelope
  lagged : Bool
  delivered : List EventEnvelope

inductive Action where
  | emitAppend (task : Nat) (envelope : EventEnvelope)
  | emitSend (task : Nat)
  | enterHandler (task : Nat) (lastSeqRead : Bool)
  | handlerAppend (task : Nat) (envelope : EventEnvelope)
  | handlerReturns (task : Nat)
  | handlerFails (task : Nat)
  | publishNext (task : Nat)
  | subscribe
  | replay
  | deliverNext
  | receive
  | recover
  | close

def channelCapacity : Nat := 256

def matchesKind (query : EventQuery) (envelope : EventEnvelope) : Bool :=
  match query.streamKind with
  | none => true
  | some kind => decide (envelope.streamKind = kind)

def eventsAfter (log : List EventEnvelope) (after : Nat) : List EventEnvelope :=
  log.filter fun envelope => after < envelope.seq

namespace System

def setTask (system : System) (task : Nat) (entry : Option Task) : System :=
  { system with tasks := fun other => if other = task then entry else system.tasks other }

/-- The store gives an event the number after the last one. -/
def append (system : System) (envelope : EventEnvelope) : System :=
  { system with log := system.log ++ [{ envelope with seq := system.log.length + 1 }] }

def numbered (system : System) (envelope : EventEnvelope) : EventEnvelope :=
  { envelope with seq := system.log.length + 1 }

/-- A channel that is full forgets its oldest message, and its receiver lags. -/
def send (system : System) (envelope : EventEnvelope) : System :=
  let announced := { system with sent := max system.sent envelope.seq }
  match system.phase with
  | .absent => announced
  | .closed => announced
  | _ =>
      if system.queue.length < channelCapacity then
        { announced with queue := system.queue ++ [envelope] }
      else { announced with queue := system.queue.tail ++ [envelope], lagged := true }

variable (query : EventQuery)

/-- What the receiver's next message does to the stream. -/
def receive (system : System) (lastSeq : Nat) : System :=
  if system.lagged then { system with phase := .recovering lastSeq, lagged := false }
  else
    match system.queue with
    | [] => system
    | envelope :: queue =>
        if lastSeq < envelope.seq then
          { system with
            queue := queue
            phase := .streaming envelope.seq []
            delivered :=
              if matchesKind query envelope then system.delivered ++ [envelope]
              else system.delivered }
        else { system with queue := queue }

/-- One step of a call or of the subscriber; what cannot happen changes nothing. -/
def step (system : System) : Action → Unit × System
  | .emitAppend task envelope =>
      match system.tasks task with
      | none =>
          ((), (system.append envelope).setTask task (some (.emitting (system.numbered envelope))))
      | some _ => ((), system)
  | .emitSend task =>
      match system.tasks task with
      | some (.emitting envelope) => ((), (system.send envelope).setTask task none)
      | _ => ((), system)
  | .enterHandler task lastSeqRead =>
      match system.tasks task with
      | none =>
          ((), system.setTask task
            (some (.handling (if lastSeqRead then system.log.length else 0))))
      | some _ => ((), system)
  | .handlerAppend task envelope =>
      match system.tasks task with
      | some (.handling _) => ((), system.append envelope)
      | _ => ((), system)
  | .handlerReturns task =>
      match system.tasks task with
      | some (.handling after) =>
          ((), system.setTask task (some (.publishing (eventsAfter system.log after))))
      | _ => ((), system)
  | .handlerFails task =>
      match system.tasks task with
      | some (.handling _) => ((), system.setTask task none)
      | _ => ((), system)
  | .publishNext task =>
      match system.tasks task with
      | some (.publishing []) => ((), system.setTask task none)
      | some (.publishing (envelope :: rest)) =>
          ((), (system.send envelope).setTask task (some (.publishing rest)))
      | _ => ((), system)
  | .subscribe =>
      match system.phase with
      | .absent => ((), { system with phase := .subscribed, queue := [], lagged := false })
      | _ => ((), system)
  | .replay =>
      match system.phase with
      | .subscribed =>
          ((), { system with
            phase := .streaming query.after
              ((eventsAfter system.log query.after).filter (matchesKind query)) })
      | _ => ((), system)
  | .deliverNext =>
      match system.phase with
      | .streaming lastSeq (envelope :: pending) =>
          ((), { system with
            phase := .streaming (max lastSeq envelope.seq) pending
            delivered := system.delivered ++ [envelope] })
      | _ => ((), system)
  | .receive =>
      match system.phase with
      | .streaming lastSeq [] => ((), system.receive query lastSeq)
      | _ => ((), system)
  | .recover =>
      match system.phase with
      | .recovering lastSeq =>
          ((), { system with
            phase := .streaming lastSeq
              ((eventsAfter system.log lastSeq).filter (matchesKind query)) })
      | _ => ((), system)
  | .close => ((), { system with phase := .closed })

/-- A thread whose log is all that there is: nobody appends, nobody listens. -/
def ofLog (log : List EventEnvelope) : System where
  log := log
  tasks _ := none
  sent := log.length
  phase := .absent
  queue := []
  lagged := false
  delivered := []

end System

end OpsCodex.Server
