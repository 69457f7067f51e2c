import Mathlib.Logic.Function.Basic
import Muxiva.Lib.System
import Muxiva.Runtime.Queue

/-! `EdgeQueue` as any number of threads share it: every stretch of code between taking and
releasing the lock is one step, and a thread asleep on a condition variable may wake at any
time. -/
set_option linter.all false
namespace Muxiva.Queue
open Muxiva.Runtime (saturatingAdd DrainMode EdgeQueue PushResult)

inductive QueueDropReason where
  | queueFullDropOldest
  | queueFullDropNewest
  | shutdownDiscard
  deriving DecidableEq, Repr

def QueueDropReason.asStr : QueueDropReason → String
  | .queueFullDropOldest => "queue full: dropped oldest frame"
  | .queueFullDropNewest => "queue full: dropped newest frame"
  | .shutdownDiscard => "queue closed: discarded buffered frame"

inductive EnqueueOutcome where
  | enqueued
  | dropped (reason : QueueDropReason)
  | enqueuedAfterDroppingOldest
  deriving DecidableEq, Repr

inductive QueuePushError where
  | closed
  | overflowAbort
  deriving DecidableEq, Repr

variable {α : Type}

structure QueueState (α : Type) where
  frames : List α
  enqueuedAt : List ℕ
  closed : Bool
  highWatermark : ℕ
  enqueueTotal : ℕ
  dequeueTotal : ℕ
  dropTotal : ℕ
  signalTotal : ℕ
  fullTotal : ℕ
  blockedDurationNs : ℕ
  payloadBytesTotal : ℕ
  audioDurationNsTotal : ℕ
  latestErrorReason : Option String
  deriving DecidableEq

/-- What does not change about a queue; `frameMeasurement` gives the payload bytes and the audio
duration of a frame. -/
structure QueueInner (α : Type) where
  policy : QueuePolicy
  frameMeasurement : α → ℕ × ℕ

namespace QueueState

def new : QueueState α where
  frames := []
  enqueuedAt := []
  closed := false
  highWatermark := 0
  enqueueTotal := 0
  dequeueTotal := 0
  dropTotal := 0
  signalTotal := 0
  fullTotal := 0
  blockedDurationNs := 0
  payloadBytesTotal := 0
  audioDurationNsTotal := 0
  latestErrorReason := none

def setReason (q : QueueState α) (reason : String) : QueueState α :=
  { q with latestErrorReason := some (bounded reason) }

/-- `nanos` of the time since `started`. -/
def elapsedNanos (started now : ℕ) : ℕ := min (now - started) (2 ^ 64 - 1)

def addBlockedDuration (q : QueueState α) (blockedAt : Option ℕ) (now : ℕ) : QueueState α :=
  match blockedAt with
  | some started =>
    { q with blockedDurationNs := saturatingAdd q.blockedDurationNs (elapsedNanos started now) }
  | none => q

def dequeue (q : QueueState α) : Option α × QueueState α :=
  match q.frames with
  | [] => (none, q)
  | frame :: frames =>
    (some frame, { q with
      frames := frames
      enqueuedAt := q.enqueuedAt.tail
      dequeueTotal := saturatingAdd q.dequeueTotal 1 })

def tryPop (q : QueueState α) : Except Unit (Option α) × QueueState α :=
  match q.dequeue with
  | (some frame, q) => (.ok (some frame), q)
  | (none, q) => (if q.closed then .error () else .ok none, q)

/-- One turn of the loop of `pop`; `none` goes to sleep on `not_empty`. -/
def pop (q : QueueState α) : Option (Except Unit α) × QueueState α :=
  match q.dequeue with
  | (some frame, q) => (some (.ok frame), q)
  | (none, q) => (if q.closed then some (.error ()) else none, q)

def close (q : QueueState α) (mode : DrainMode) : QueueState α :=
  let q := { q with closed := true }
  match mode with
  | .drain => q
  | .discard =>
    let discarded := q.frames.length
    let q := { q with frames := [], enqueuedAt := [] }
    if discarded ≠ 0 then
      { q with dropTotal := saturatingAdd q.dropTotal discarded }.setReason
        QueueDropReason.shutdownDiscard.asStr
    else q

def recordDrop (q : QueueState α) (reason : String) : QueueState α :=
  { q with dropTotal := saturatingAdd q.dropTotal 1 }.setReason reason

def recordSignal (q : QueueState α) : QueueState α :=
  { q with signalTotal := saturatingAdd q.signalTotal 1 }

def recordError (q : QueueState α) (reason : String) : QueueState α := q.setReason reason

end QueueState

/-- How a stretch of `push` ends: it returns, or sleeps on `not_full` since an instant. -/
inductive Turn where
  | returned (result : Except QueuePushError EnqueueOutcome)
  | waiting (blockedAt : ℕ)

namespace QueueState
variable (inner : QueueInner α)

def enqueue (q : QueueState α) (frame : α) (now : ℕ) : QueueState α :=
  { q with
    frames := q.frames ++ [frame]
    enqueuedAt := q.enqueuedAt ++ [now]
    enqueueTotal := saturatingAdd q.enqueueTotal 1
    payloadBytesTotal := saturatingAdd q.payloadBytesTotal (inner.frameMeasurement frame).1
    audioDurationNsTotal := saturatingAdd q.audioDurationNsTotal (inner.frameMeasurement frame).2
    highWatermark := max q.highWatermark (q.frames.length + 1) }

/-- One turn of the loop of `push`. -/
def pushTurn (q : QueueState α) (frame : α) (blockedAt : Option ℕ) (now : ℕ) :
    Turn × QueueState α :=
  if q.frames.length = inner.policy.capacity then
    let q := { q with fullTotal := saturatingAdd q.fullTotal 1 }
    match inner.policy.overflow with
    | .block => (.waiting (blockedAt.getD now), q)
    | .dropOldest =>
      let q := { q with
        frames := q.frames.tail
        enqueuedAt := q.enqueuedAt.tail
        dropTotal := saturatingAdd q.dropTotal 1 }.setReason
          QueueDropReason.queueFullDropOldest.asStr
      (.returned (.ok .enqueuedAfterDroppingOldest), q.enqueue inner frame now)
    | .dropNewest =>
      (.returned (.ok (.dropped .queueFullDropNewest)),
        { q with dropTotal := saturatingAdd q.dropTotal 1 }.setReason
          QueueDropReason.queueFullDropNewest.asStr)
    | .abort =>
      (.returned (.error .overflowAbort), q.setReason "queue full: overflow policy abort")
  else (.returned (.ok .enqueued), (q.addBlockedDuration blockedAt now).enqueue inner frame now)

/-- `push` up to its return or its first sleep. -/
def push (q : QueueState α) (frame : α) (now : ℕ) : Turn × QueueState α :=
  if q.closed then (.returned (.error .closed), q) else q.pushTurn inner frame none now

/-- `push` from a wake-up to its return or its next sleep. -/
def pushWoken (q : QueueState α) (frame : α) (blockedAt now : ℕ) : Turn × QueueState α :=
  if q.closed then (.returned (.error .closed), q.addBlockedDuration (some blockedAt) now)
  else q.pushTurn inner frame (some blockedAt) now

end QueueState

inductive Thread (α : Type) where
  | idle
  | pushing (frame : α) (blockedAt : ℕ)
  | popping

inductive Label (α : Type) where
  | push (t : ℕ) (frame : α) (now : ℕ)
  | pushWoken (t : ℕ) (now : ℕ)
  | pop (t : ℕ)
  | popWoken (t : ℕ)
  | tryPop (t : ℕ)
  | close (mode : DrainMode)
  | recordDrop (reason : String)
  | recordSignal
  | recordError (reason : String)

/-- What callers see, in the order of the lock. -/
inductive Event (α : Type) where
  | pushed (frame : α) (result : Except QueuePushError EnqueueOutcome)
  | popped (result : Except Unit (Option α))
  | closed (mode : DrainMode)

/-- How a frame left the queue: to a consumer, or dropped from the queue. -/
inductive Departure (α : Type) where
  | popped (frame : α)
  | removed (frame : α)

/-- A queue and its threads, with the frames that entered and left so far, the lengths the queue
went through and what callers saw. -/
structure Run (α : Type) where
  queue : QueueState α
  threads : ℕ → Thread α
  accepted : List α
  departed : List (Departure α)
  lengths : List ℕ
  log : List (Event α)

namespace Run

def start : Run α := ⟨.new, fun _ => .idle, [], [], [0], []⟩

def setThread (r : Run α) (t : ℕ) (thread : Thread α) : Run α :=
  { r with threads := Function.update r.threads t thread }

/-- The run after a step that leaves the queue at `q`. -/
def record (r : Run α) (q : QueueState α) (entered : List α) (left : List (Departure α))
    (seen : List (Event α)) : Run α :=
  { r with
    queue := q
    accepted := r.accepted ++ entered
    departed := r.departed ++ left
    lengths := r.lengths ++ [q.frames.length]
    log := r.log ++ seen }

/-- A stretch of `push` by thread `t`. -/
def pushed (r : Run α) (t : ℕ) (frame : α) : Turn × QueueState α → Run α
  | (.waiting blockedAt, q) => (r.record q [] [] []).setThread t (.pushing frame blockedAt)
  | (.returned (.ok .enqueued), q) =>
    (r.record q [frame] [] [.pushed frame (.ok .enqueued)]).setThread t .idle
  | (.returned (.ok .enqueuedAfterDroppingOldest), q) =>
    (r.record q [frame] (r.queue.frames.head?.map .removed).toList
      [.pushed frame (.ok .enqueuedAfterDroppingOldest)]).setThread t .idle
  | (.returned result, q) => (r.record q [] [] [.pushed frame result]).setThread t .idle

/-- A stretch of `pop` by thread `t`. -/
def popped (r : Run α) (t : ℕ) : Option (Except Unit α) × QueueState α → Run α
  | (none, q) => (r.record q [] [] []).setThread t .popping
  | (some (.ok frame), q) =>
    (r.record q [] [.popped frame] [.popped (.ok (some frame))]).setThread t .idle
  | (some (.error ()), q) => (r.record q [] [] [.popped (.error ())]).setThread t .idle

/-- `try_pop`. -/
def triedPop (r : Run α) : Except Unit (Option α) × QueueState α → Run α
  | (.ok (some frame), q) => r.record q [] [.popped frame] [.popped (.ok (some frame))]
  | (result, q) => r.record q [] [] [.popped result]

variable (inner : QueueInner α)

/-- A thread calls an operation when it is idle and goes on when it was asleep in one. -/
def step (r : Run α) : Label α → Option (Run α)
  | .push t frame now =>
    match r.threads t with
    | .idle => some (r.pushed t frame (r.queue.push inner frame now))
    | _ => none
  | .pushWoken t now =>
    match r.threads t with
    | .pushing frame blockedAt =>
      some (r.pushed t frame (r.queue.pushWoken inner frame blockedAt now))
    | _ => none
  | .pop t =>
    match r.threads t with
    | .idle => some (r.popped t r.queue.pop)
    | _ => none
  | .popWoken t =>
    match r.threads t with
    | .popping => some (r.popped t r.queue.pop)
    | _ => none
  | .tryPop t =>
    match r.threads t with
    | .idle => some (r.triedPop r.queue.tryPop)
    | _ => none
  | .close mode =>
    let left := match mode with
      | .drain => []
      | .discard => r.queue.frames.map .removed
    some (r.record (r.queue.close mode) [] left [.closed mode])
  | .recordDrop reason => some (r.record (r.queue.recordDrop reason) [] [] [])
  | .recordSignal => some (r.record r.queue.recordSignal [] [] [])
  | .recordError reason => some (r.record (r.queue.recordError reason) [] [] [])

end Run

/-- The queue under every interleaving of its threads. -/
def sharing (inner : QueueInner α) : Transition.System (Run α) (Label α) where
  init r := r = .start
  step r a := r.step inner a

/-- The queue of the runtime: the same queue without time stamps and measures. -/
def QueueState.toEdgeQueue (inner : QueueInner α) (q : QueueState α) : EdgeQueue α where
  capacity := inner.policy.capacity
  overflow := inner.policy.overflow
  frames := q.frames
  closed := q.closed
  highWatermark := q.highWatermark
  enqueueTotal := q.enqueueTotal
  dequeueTotal := q.dequeueTotal
  dropTotal := q.dropTotal
  signalTotal := q.signalTotal
  fullTotal := q.fullTotal
  latestErrorReason := q.latestErrorReason

def Turn.toPushResult : Turn → PushResult
  | .waiting _ => .wait
  | .returned (.ok .enqueued) => .enqueued
  | .returned (.ok .enqueuedAfterDroppingOldest) => .enqueuedAfterDroppingOldest
  | .returned (.ok (.dropped _)) => .dropped
  | .returned (.error .closed) => .closed
  | .returned (.error .overflowAbort) => .overflowAbort

section Refinement
variable (inner : QueueInner α) (q : QueueState α)

/-- Each stretch of `push`, first or later, is the lock section of the runtime's queue. -/
theorem pushTurn_toEdgeQueue (frame : α) (blockedAt : Option ℕ) (now : ℕ)
    (hopen : q.closed = false) :
    (q.toEdgeQueue inner).push frame =
      ((q.pushTurn inner frame blockedAt now).1.toPushResult,
        (q.pushTurn inner frame blockedAt now).2.toEdgeQueue inner) := by
  obtain ⟨⟨capacity, overflow, hpos⟩, measurement⟩ := inner
  by_cases hfull : q.frames.length = capacity
  · cases overflow <;>
      simp [EdgeQueue.push, QueueState.pushTurn, QueueState.toEdgeQueue, hopen, hfull,
        Turn.toPushResult, EdgeQueue.setReason, QueueState.setReason, EdgeQueue.enqueue,
        QueueState.enqueue, QueueDropReason.asStr]
  · cases blockedAt <;>
      simp [EdgeQueue.push, QueueState.pushTurn, QueueState.toEdgeQueue, hopen, hfull,
        Turn.toPushResult, EdgeQueue.enqueue, QueueState.enqueue, QueueState.addBlockedDuration]

theorem push_toEdgeQueue (frame : α) (now : ℕ) :
    (q.toEdgeQueue inner).push frame = ((q.push inner frame now).1.toPushResult,
      (q.push inner frame now).2.toEdgeQueue inner) := by
  unfold QueueState.push
  cases hclosed : q.closed with
  | true => simp [EdgeQueue.push, QueueState.toEdgeQueue, hclosed, Turn.toPushResult]
  | false => exact pushTurn_toEdgeQueue inner q frame none now hclosed

theorem pushWoken_toEdgeQueue (frame : α) (blockedAt now : ℕ) :
    (q.toEdgeQueue inner).push frame = ((q.pushWoken inner frame blockedAt now).1.toPushResult,
      (q.pushWoken inner frame blockedAt now).2.toEdgeQueue inner) := by
  unfold QueueState.pushWoken
  cases hclosed : q.closed with
  | true =>
    simp [EdgeQueue.push, QueueState.toEdgeQueue, hclosed, Turn.toPushResult,
      QueueState.addBlockedDuration]
  | false => exact pushTurn_toEdgeQueue inner q frame (some blockedAt) now hclosed

theorem dequeue_toEdgeQueue :
    (q.toEdgeQueue inner).tryPop = (q.dequeue.1, q.dequeue.2.toEdgeQueue inner) := by
  unfold EdgeQueue.tryPop QueueState.dequeue
  cases hframes : q.frames <;> simp [QueueState.toEdgeQueue, hframes]

theorem close_toEdgeQueue (mode : DrainMode) :
    (q.toEdgeQueue inner).close mode = (q.close mode).toEdgeQueue inner := by
  cases mode with
  | drain => rfl
  | discard =>
    cases hframes : q.frames with
    | nil => simp [EdgeQueue.close, QueueState.close, QueueState.toEdgeQueue, hframes]
    | cons x xs =>
      simp [EdgeQueue.close, QueueState.close, QueueState.toEdgeQueue, hframes,
        EdgeQueue.setReason, QueueState.setReason, QueueDropReason.asStr]

end Refinement

end Muxiva.Queue
