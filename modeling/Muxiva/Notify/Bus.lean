import Mathlib.Data.List.Sort
import Mathlib.Logic.Function.Basic
import Muxiva.Lib.System

/-! `NotificationBus`: callers that take the state lock, one worker for each subscriber, a bounded
mailbox between them. A critical section in which nothing waits is one step; a publication holds the
lock from mailbox to mailbox. What `stop` waits for once it has the retired workers is left out. -/
set_option linter.all false
namespace Muxiva.Notify

structure EventFrame (P : Type) where
  topic : String
  payload : P
  deriving DecidableEq

/-- `number` counts the publications; nothing reads it. -/
structure Notification (P : Type) where
  number : ℕ
  event : EventFrame P
  deriving DecidableEq

structure PublishReport where
  matched : ℕ
  enqueued : ℕ
  droppedFull : ℕ
  deriving DecidableEq, Repr

inductive SendResult where
  | ok
  | full
  | disconnected
  deriving DecidableEq, Repr

/-- What a handler does with a message. -/
inductive HandlerOutcome where
  | success
  | error
  | panic
  deriving DecidableEq, Repr

/-- A subscriber's channel, its worker's thread and its metrics, with a log of what went in and of
what the handler is done with. -/
structure Subscriber (P : Type) where
  topic : String
  sender : Bool
  mailbox : List (Notification P)
  handling : Option (Notification P)
  done : Bool
  delivered : ℕ
  handlerErrors : ℕ
  handlerPanics : ℕ
  droppedFull : ℕ
  enqueuedLog : List (Notification P)
  handledLog : List (Notification P)

variable {P : Type}

namespace Subscriber

def new (topic : String) : Subscriber P where
  topic
  sender := true
  mailbox := []
  handling := none
  done := false
  delivered := 0
  handlerErrors := 0
  handlerPanics := 0
  droppedFull := 0
  enqueuedLog := []
  handledLog := []

variable (w : Subscriber P)

/-- `try_send`, and the metrics of a full mailbox. -/
def trySend (capacity : ℕ) (m : Notification P) : Subscriber P × SendResult :=
  if w.done then (w, .disconnected)
  else if capacity ≤ w.mailbox.length then ({ w with droppedFull := w.droppedFull + 1 }, .full)
  else ({ w with mailbox := w.mailbox ++ [m], enqueuedLog := w.enqueuedLog ++ [m] }, .ok)

/-- `sender.take()`. -/
def close : Subscriber P := { w with sender := false }

/-- The metrics after the handler returned or panicked. -/
def count (outcome : HandlerOutcome) : Subscriber P :=
  match outcome with
  | .success => { w with delivered := w.delivered + 1 }
  | .error => { w with handlerErrors := w.handlerErrors + 1 }
  | .panic => { w with handlerPanics := w.handlerPanics + 1 }

/-- The worker's thread: it ends a call of the handler, takes the next message, or ends as the
channel is empty and closed. -/
def work (outcome : HandlerOutcome) : Option (Subscriber P) :=
  match w.handling with
  | some m => some { w.count outcome with handling := none, handledLog := w.handledLog ++ [m] }
  | none =>
    match w.mailbox with
    | m :: rest => some { w with mailbox := rest, handling := some m }
    | [] => if w.sender = false ∧ w.done = false then some { w with done := true } else none

end Subscriber

/-- `report` after one turn of the loop. -/
def PublishReport.add (report : PublishReport) (result : SendResult) : PublishReport :=
  match result with
  | .ok => { report with matched := report.matched + 1, enqueued := report.enqueued + 1 }
  | .full => { report with matched := report.matched + 1, droppedFull := report.droppedFull + 1 }
  | .disconnected => { report with matched := report.matched + 1 }

inductive Answer where
  | stopped
  | notSpawned
  | subscribed (id : ℕ)
  | published (report : PublishReport)
  | unsubscribed (id : ℕ) (removed : Bool)
  | stopRequested (first : Bool)
  | stopEnded (stoppedFirst : Bool) (workerTotal : ℕ)
  deriving DecidableEq, Repr

/-- Where a caller's thread is. -/
inductive Caller (P : Type) where
  | idle
  | subscribeLocks (id : ℕ)
  | publishLocks (event : EventFrame P)
  | publishes (notification : Notification P) (remaining : List ℕ) (report : PublishReport)
  | unsubscribeLocks (id : ℕ)
  | stopLocks (reaps : Bool)
  | stopReaps (stoppedFirst : Bool)
  | returned (answer : Answer)
  deriving DecidableEq

/-- `subscribers` holds every worker that was started; `active`, `retired` and `observations` are
keyed by it. -/
structure NotificationBus (P : Type) where
  nextId : ℕ
  stopped : Bool
  active : List ℕ
  retired : List ℕ
  observations : List ℕ
  subscribers : ℕ → Option (Subscriber P)
  lockHolder : Option ℕ
  callers : ℕ → Caller P
  publications : ℕ

inductive Operation (P : Type) where
  | subscribe (topic : String) (spawns : Bool)
  | publish (event : EventFrame P)
  | unsubscribe (id : ℕ)
  | requestStop
  | stop

inductive Action (P : Type) where
  | call (caller : ℕ) (operation : Operation P)
  | caller (caller : ℕ)
  | worker (id : ℕ) (outcome : HandlerOutcome)

namespace NotificationBus

def new : NotificationBus P where
  nextId := 1
  stopped := false
  active := []
  retired := []
  observations := []
  subscribers := fun _ => none
  lockHolder := none
  callers := fun _ => .idle
  publications := 0

variable (s : NotificationBus P)

def moveTo (n : ℕ) (pc : Caller P) : NotificationBus P :=
  { s with callers := Function.update s.callers n pc }

def setSubscriber (id : ℕ) (w : Subscriber P) : NotificationBus P :=
  { s with subscribers := Function.update s.subscribers id (some w) }

/-- The senders of these workers are taken. -/
def closeAll (ids : List ℕ) : NotificationBus P :=
  { s with subscribers := fun id =>
      if id ∈ ids then (s.subscribers id).map Subscriber.close else s.subscribers id }

/-- What comes before the lock: `subscribe` has started its worker by then. -/
def start (n : ℕ) : Operation P → Option (NotificationBus P)
  | .subscribe topic spawns =>
    let id := s.nextId
    let s := { s with nextId := s.nextId + 1 }
    if spawns then some ((s.setSubscriber id (.new topic)).moveTo n (.subscribeLocks id))
    else some (s.moveTo n (.returned .notSpawned))
  | .publish event => some (s.moveTo n (.publishLocks event))
  -- a `Subscription` comes from a subscribe that succeeded
  | .unsubscribe id =>
    if id ∈ s.observations then some (s.moveTo n (.unsubscribeLocks id)) else none
  | .requestStop => some (s.moveTo n (.stopLocks false))
  | .stop => some (s.moveTo n (.stopLocks true))

def subscribe (n id : ℕ) : NotificationBus P :=
  if s.stopped then (s.closeAll [id]).moveTo n (.returned .stopped)
  else
    { s with
      observations := s.observations ++ [id]
      active := s.active.orderedInsert (· ≤ ·) id
      callers := Function.update s.callers n (.returned (.subscribed id)) }

def publish (n : ℕ) (event : EventFrame P) : NotificationBus P :=
  if s.stopped then s.moveTo n (.returned .stopped)
  else
    { s with
      lockHolder := some n
      publications := s.publications + 1
      callers := Function.update s.callers n (.publishes ⟨s.publications, event⟩ s.active ⟨0, 0, 0⟩) }

/-- One turn of the loop of `publish`, or its end. -/
def publishNext (capacity n : ℕ) (notification : Notification P) (remaining : List ℕ)
    (report : PublishReport) : NotificationBus P :=
  match remaining with
  | [] => { s with
      lockHolder := none
      callers := Function.update s.callers n (.returned (.published report)) }
  | id :: rest =>
    match s.subscribers id with
    | none => s.moveTo n (.publishes notification rest report)
    | some w =>
      if w.topic ≠ notification.event.topic then
        s.moveTo n (.publishes notification rest report)
      else if w.sender = false then
        s.moveTo n (.publishes notification rest { report with matched := report.matched + 1 })
      else
        let (w, result) := w.trySend capacity notification
        (s.setSubscriber id w).moveTo n (.publishes notification rest (report.add result))

def unsubscribe (n id : ℕ) : NotificationBus P :=
  if id ∈ s.active then
    { s.closeAll [id] with
      active := s.active.erase id
      retired := s.retired ++ [id]
      callers := Function.update s.callers n (.returned (.unsubscribed id true)) }
  else s.moveTo n (.returned (.unsubscribed id false))

def requestStop (n : ℕ) (reaps : Bool) : NotificationBus P :=
  let first := !s.stopped
  { s.closeAll s.active with
    stopped := true
    active := []
    retired := s.retired ++ s.active
    callers := Function.update s.callers n
      (if reaps then .stopReaps first else .returned (.stopRequested first)) }

/-- `stop` takes the retired workers. -/
def reap (n : ℕ) (stoppedFirst : Bool) : NotificationBus P :=
  { s.closeAll s.retired with
    retired := []
    callers := Function.update s.callers n (.returned (.stopEnded stoppedFirst s.retired.length)) }

/-- A caller's next step. Whoever takes the lock waits until it is free. -/
def advance (capacity n : ℕ) : Option (NotificationBus P) :=
  match s.callers n with
  | .publishes notification remaining report =>
    some (s.publishNext capacity n notification remaining report)
  | .idle | .returned _ => none
  | .subscribeLocks id => if s.lockHolder = none then some (s.subscribe n id) else none
  | .publishLocks event => if s.lockHolder = none then some (s.publish n event) else none
  | .unsubscribeLocks id => if s.lockHolder = none then some (s.unsubscribe n id) else none
  | .stopLocks reaps => if s.lockHolder = none then some (s.requestStop n reaps) else none
  | .stopReaps stoppedFirst => if s.lockHolder = none then some (s.reap n stoppedFirst) else none

def step (capacity : ℕ) : Action P → Option (NotificationBus P)
  | .call n operation =>
    match s.callers n with
    | .idle | .returned _ => s.start n operation
    | _ => none
  | .caller n => s.advance capacity n
  | .worker id outcome =>
    (s.subscribers id).bind fun w => (w.work outcome).map fun w => s.setSubscriber id w

end NotificationBus

def busSystem (P : Type) (capacity : ℕ) : Transition.System (NotificationBus P) (Action P) where
  init s := s = .new
  step s a := s.step capacity a

end Muxiva.Notify
