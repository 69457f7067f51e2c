import Mathlib.Algebra.GroupWithZero.Nat
import Mathlib.Order.MinMax
import Muxiva.Graph.Types

/-! The bounded edge queue and the bounded signal queue. Each operation here is one critical
section under the queue's lock; the notifications that follow it are steps of the runtime. -/
set_option linter.all false
namespace Muxiva.Runtime

variable {α : Type}

/-- `u64::saturating_add`. -/
def saturatingAdd (a b : ℕ) : ℕ := min (a + b) (2 ^ 64 - 1)

inductive DrainMode where
  | drain
  | discard
  deriving DecidableEq, Repr

/-- `EdgeQueue` with its counters; what `Instant` readings and payload sizes feed is left out. -/
structure EdgeQueue (α : Type) where
  capacity : ℕ
  overflow : QueueOverflowPolicy
  frames : List α
  closed : Bool
  highWatermark : ℕ
  enqueueTotal : ℕ
  dequeueTotal : ℕ
  dropTotal : ℕ
  signalTotal : ℕ
  fullTotal : ℕ
  latestErrorReason : Option String
  deriving DecidableEq, Repr

namespace EdgeQueue

def new (policy : QueuePolicy) : EdgeQueue α where
  capacity := policy.capacity
  overflow := policy.overflow
  frames := []
  closed := false
  highWatermark := 0
  enqueueTotal := 0
  dequeueTotal := 0
  dropTotal := 0
  signalTotal := 0
  fullTotal := 0
  latestErrorReason := none

def setReason (q : EdgeQueue α) (reason : String) : EdgeQueue α :=
  { q with latestErrorReason := some (bounded reason) }

def recordDrop (q : EdgeQueue α) (reason : String) : EdgeQueue α :=
  { q with dropTotal := saturatingAdd q.dropTotal 1 }.setReason reason

def recordSignal (q : EdgeQueue α) : EdgeQueue α :=
  { q with signalTotal := saturatingAdd q.signalTotal 1 }

def recordError (q : EdgeQueue α) (reason : String) : EdgeQueue α := q.setReason reason

def enqueue (q : EdgeQueue α) (x : α) : EdgeQueue α :=
  { q with
    frames := q.frames ++ [x]
    enqueueTotal := saturatingAdd q.enqueueTotal 1
    highWatermark := max q.highWatermark (q.frames.length + 1) }

end EdgeQueue

/-- How one lock section of `push` ends: `wait` means the producer goes to sleep on `not_full`
and runs the section again when it is woken. -/
inductive PushResult where
  | enqueued
  | enqueuedAfterDroppingOldest
  | dropped
  | wait
  | closed
  | overflowAbort
  deriving DecidableEq, Repr

namespace EdgeQueue

def push (q : EdgeQueue α) (x : α) : PushResult × EdgeQueue α :=
  if q.closed then (.closed, q)
  else if q.frames.length = q.capacity then
    let q := { q with fullTotal := saturatingAdd q.fullTotal 1 }
    match q.overflow with
    | .block => (.wait, q)
    | .dropOldest =>
      (.enqueuedAfterDroppingOldest,
        ({ q with
          frames := q.frames.tail
          dropTotal := saturatingAdd q.dropTotal 1 }.setReason
            "queue full: dropped oldest frame").enqueue x)
    | .dropNewest =>
      (.dropped, { q with dropTotal := saturatingAdd q.dropTotal 1 }.setReason
        "queue full: dropped newest frame")
    | .abort => (.overflowAbort, q.setReason "queue full: overflow policy abort")
  else (.enqueued, q.enqueue x)

def tryPop (q : EdgeQueue α) : Option α × EdgeQueue α :=
  match q.frames with
  | [] => (none, q)
  | x :: xs =>
    (some x, { q with frames := xs, dequeueTotal := saturatingAdd q.dequeueTotal 1 })

def close (q : EdgeQueue α) : DrainMode → EdgeQueue α
  | .drain => { q with closed := true }
  | .discard =>
    if q.frames = [] then { q with closed := true }
    else { q with
      closed := true
      frames := []
      dropTotal := saturatingAdd q.dropTotal q.frames.length }.setReason
        "queue closed: discarded buffered frame"

def isClosedAndEmpty (q : EdgeQueue α) : Bool := q.closed && q.frames.isEmpty

variable (q : EdgeQueue α)

@[simp] theorem recordDrop_frames (r : String) : (q.recordDrop r).frames = q.frames := rfl
@[simp] theorem recordDrop_closed (r : String) : (q.recordDrop r).closed = q.closed := rfl
@[simp] theorem recordSignal_frames : q.recordSignal.frames = q.frames := rfl
@[simp] theorem recordSignal_closed : q.recordSignal.closed = q.closed := rfl
@[simp] theorem recordError_frames (r : String) : (q.recordError r).frames = q.frames := rfl
@[simp] theorem recordError_closed (r : String) : (q.recordError r).closed = q.closed := rfl

@[simp] theorem close_closed (m : DrainMode) : (q.close m).closed = true := by
  cases m with
  | drain => rfl
  | discard =>
    simp only [close]
    split_ifs <;> rfl

@[simp] theorem close_drain_frames : (q.close .drain).frames = q.frames := rfl

@[simp] theorem close_discard_frames : (q.close .discard).frames = [] := by
  simp only [close]
  split_ifs with h
  · exact h
  · rfl

@[simp] theorem close_bounds (m : DrainMode) :
    (q.close m).capacity = q.capacity ∧ (q.close m).overflow = q.overflow := by
  cases m with
  | drain => exact ⟨rfl, rfl⟩
  | discard =>
    simp only [close]
    split_ifs <;> exact ⟨rfl, rfl⟩

theorem close_frames_sublist (m : DrainMode) : (q.close m).frames.Sublist q.frames := by
  cases m with
  | drain => exact List.Sublist.refl _
  | discard => simp

/-- A pop takes the head or finds the queue empty, and touches nothing else. -/
theorem tryPop_cases :
    (q.frames = [] ∧ q.tryPop = (none, q)) ∨
    ∃ x xs, q.frames = x :: xs ∧ q.tryPop.1 = some x ∧ q.tryPop.2.frames = xs ∧
      q.tryPop.2.closed = q.closed ∧ q.tryPop.2.capacity = q.capacity ∧
      q.tryPop.2.overflow = q.overflow := by
  unfold tryPop
  cases h : q.frames with
  | nil => exact .inl ⟨rfl, rfl⟩
  | cons x xs => exact .inr ⟨x, xs, rfl, rfl, rfl, rfl, rfl, rfl⟩

/-- What one lock section of `push` can do. -/
theorem push_cases (x : α) :
    (q.closed = true ∧ q.push x = (.closed, q)) ∨
    (q.closed = false ∧ q.frames.length = q.capacity ∧ q.overflow = .block ∧
      (q.push x).1 = .wait ∧ (q.push x).2.frames = q.frames ∧ (q.push x).2.closed = false) ∨
    (q.closed = false ∧ q.frames.length = q.capacity ∧ q.overflow = .dropOldest ∧
      (q.push x).1 = .enqueuedAfterDroppingOldest ∧
      (q.push x).2.frames = q.frames.tail ++ [x] ∧ (q.push x).2.closed = false) ∨
    (q.closed = false ∧ q.frames.length = q.capacity ∧ q.overflow = .dropNewest ∧
      (q.push x).1 = .dropped ∧ (q.push x).2.frames = q.frames ∧
      (q.push x).2.closed = false) ∨
    (q.closed = false ∧ q.frames.length = q.capacity ∧ q.overflow = .abort ∧
      (q.push x).1 = .overflowAbort ∧ (q.push x).2.frames = q.frames ∧
      (q.push x).2.closed = false) ∨
    (q.closed = false ∧ q.frames.length ≠ q.capacity ∧ (q.push x).1 = .enqueued ∧
      (q.push x).2.frames = q.frames ++ [x] ∧ (q.push x).2.closed = false) := by
  cases hc : q.closed with
  | true => simp [push, hc]
  | false =>
    by_cases hl : q.frames.length = q.capacity
    · cases ho : q.overflow <;> simp [push, hc, hl, ho, setReason, enqueue]
    · simp [push, hc, hl, enqueue]

theorem push_bounds (x : α) :
    (q.push x).2.capacity = q.capacity ∧ (q.push x).2.overflow = q.overflow := by
  unfold push
  split_ifs
  · exact ⟨rfl, rfl⟩
  · cases q.overflow <;> exact ⟨rfl, rfl⟩
  · exact ⟨rfl, rfl⟩

end EdgeQueue

structure SignalQueue (α : Type) where
  capacity : ℕ
  queue : List α
  closed : Bool
  enqueueTotal : ℕ
  dequeueTotal : ℕ
  fullTotal : ℕ
  deriving DecidableEq, Repr

inductive SignalQueuePushError where
  | full
  | closed
  deriving DecidableEq, Repr

namespace SignalQueue

def new (capacity : ℕ) : SignalQueue α := ⟨capacity, [], false, 0, 0, 0⟩

def tryPush (q : SignalQueue α) (x : α) : Option SignalQueuePushError × SignalQueue α :=
  if q.closed then (some .closed, q)
  else if q.queue.length = q.capacity then
    (some .full, { q with fullTotal := saturatingAdd q.fullTotal 1 })
  else (none, { q with
    queue := q.queue ++ [x], enqueueTotal := saturatingAdd q.enqueueTotal 1 })

def tryPop (q : SignalQueue α) : Option α × SignalQueue α :=
  match q.queue with
  | [] => (none, q)
  | x :: xs => (some x, { q with queue := xs, dequeueTotal := saturatingAdd q.dequeueTotal 1 })

def close (q : SignalQueue α) : DrainMode → SignalQueue α
  | .drain => { q with closed := true }
  | .discard => { q with closed := true, queue := [] }

def isClosedAndEmpty (q : SignalQueue α) : Bool := q.closed && q.queue.isEmpty

variable (q : SignalQueue α)

@[simp] theorem close_closed (m : DrainMode) : (q.close m).closed = true := by cases m <;> rfl

@[simp] theorem close_drain_queue : (q.close .drain).queue = q.queue := rfl

@[simp] theorem close_discard_queue : (q.close .discard).queue = [] := rfl

theorem tryPop_cases :
    (q.queue = [] ∧ q.tryPop = (none, q)) ∨
    ∃ x xs, q.queue = x :: xs ∧ q.tryPop.1 = some x ∧ q.tryPop.2.queue = xs ∧
      q.tryPop.2.closed = q.closed := by
  unfold tryPop
  cases h : q.queue with
  | nil => exact .inl ⟨rfl, rfl⟩
  | cons x xs => exact .inr ⟨x, xs, rfl, rfl, rfl, rfl⟩

theorem tryPush_cases (x : α) :
    (∃ err, (q.tryPush x).1 = some err ∧ (q.tryPush x).2.queue = q.queue ∧
      (q.tryPush x).2.closed = q.closed) ∨
    (q.closed = false ∧ (q.tryPush x).1 = none ∧ (q.tryPush x).2.queue = q.queue ++ [x] ∧
      (q.tryPush x).2.closed = false) := by
  unfold tryPush
  split_ifs with hc hl
  · exact .inl ⟨_, rfl, rfl, rfl⟩
  · exact .inl ⟨_, rfl, rfl, rfl⟩
  · exact .inr ⟨by simpa using hc, rfl, rfl, by simpa using hc⟩

end SignalQueue
end Muxiva.Runtime
