import Muxiva.Queue.Model

/-! What enters an edge queue leaves it in order, and the counters say how much. -/
set_option linter.all false
namespace Muxiva.Queue
open Muxiva.Runtime (saturatingAdd DrainMode)

variable {α : Type}

def Departure.frame : Departure α → α
  | .popped frame => frame
  | .removed frame => frame

def Departure.toConsumer : Departure α → Option α
  | .popped frame => some frame
  | .removed _ => none

def Departure.fromQueue : Departure α → Option α
  | .popped _ => none
  | .removed frame => some frame

/-- The frames handed to consumers, in order. -/
def Run.poppedFrames (r : Run α) : List α := r.departed.filterMap Departure.toConsumer

/-- The frames dropped from the queue by `DropOldest` or a discarding close, in order. -/
def Run.removedFrames (r : Run α) : List α := r.departed.filterMap Departure.fromQueue

def Event.isClose : Event α → Bool
  | .closed _ => true
  | _ => false

def Event.isDiscard : Event α → Bool
  | .closed .discard => true
  | _ => false

def Event.isPushOk : Event α → Bool
  | .pushed _ (.ok _) => true
  | _ => false

def Event.isFrame : Event α → Bool
  | .popped (.ok (some _)) => true
  | _ => false

/-- `u64::saturating_add` of ones counts up to the largest value. -/
def counted (n : ℕ) : ℕ := min n (2 ^ 64 - 1)

theorem saturatingAdd_counted (n : ℕ) : saturatingAdd (counted n) 1 = counted (n + 1) := by
  unfold saturatingAdd counted
  omega

/-- What holds between the queue and its history. -/
structure Balanced (capacity : ℕ) (r : Run α) : Prop where
  stamped : r.queue.frames.length = r.queue.enqueuedAt.length
  bounded : r.queue.frames.length ≤ capacity
  fifo : r.accepted = r.departed.map Departure.frame ++ r.queue.frames
  watermark : r.queue.highWatermark = r.lengths.foldr max 0
  reached : r.queue.frames.length ≤ r.queue.highWatermark
  enqueued : r.queue.enqueueTotal = counted r.accepted.length
  dequeued : r.queue.dequeueTotal = counted r.poppedFrames.length
  closes : (∃ e ∈ r.log, e.isClose = true) → r.queue.closed = true
  discards : (∃ e ∈ r.log, e.isDiscard = true) → r.queue.frames = []
  noPush : r.log.Pairwise fun a b => a.isClose = true → b.isPushOk = false
  noFrame : r.log.Pairwise fun a b => a.isDiscard = true → b.isFrame = false

/-- A discarding close is a close. -/
theorem isClose_of_isDiscard {e : Event α} (h : e.isDiscard = true) : e.isClose = true := by
  cases e with
  | closed mode => rfl
  | pushed frame result => cases h
  | popped result => cases h

theorem foldr_max_append (xs : List ℕ) (n : ℕ) :
    (xs ++ [n]).foldr max 0 = max (xs.foldr max 0) n := by
  induction xs with
  | nil => simp
  | cons x xs ih =>
    simp only [List.cons_append, List.foldr_cons, ih]
    exact (max_assoc _ _ _).symm

theorem pairwise_of_length_le_one {ε : Type} {R : ε → ε → Prop} {xs : List ε}
    (h : xs.length ≤ 1) : xs.Pairwise R := by
  match xs, h with
  | [], _ => exact .nil
  | [x], _ => exact List.pairwise_singleton R x

/-- One step: frames enter at the back and leave at the front. -/
theorem Balanced.record {capacity : ℕ} {r : Run α} (h : Balanced capacity r) {q : QueueState α}
    {entered : List α} {left : List (Departure α)} {seen : List (Event α)}
    (stamped : q.frames.length = q.enqueuedAt.length) (bounded : q.frames.length ≤ capacity)
    (fifo : r.queue.frames ++ entered = left.map Departure.frame ++ q.frames)
    (watermark : q.highWatermark = max r.queue.highWatermark q.frames.length)
    (enqueued : q.enqueueTotal = counted (r.accepted.length + entered.length))
    (dequeued : q.dequeueTotal =
      counted (r.poppedFrames.length + (left.filterMap Departure.toConsumer).length))
    (closes : r.queue.closed = true → q.closed = true)
    (emptied : r.queue.closed = true → r.queue.frames = [] → q.frames = [])
    (one : seen.length ≤ 1)
    (sees : ∀ e ∈ seen, (e.isClose = true → q.closed = true) ∧
      (e.isDiscard = true → q.frames = []) ∧ (r.queue.closed = true → e.isPushOk = false) ∧
      (r.queue.frames = [] → e.isFrame = false)) :
    Balanced capacity (r.record q entered left seen) where
  stamped := stamped
  bounded := bounded
  fifo := by
    simp only [Run.record, h.fifo, List.map_append, List.append_assoc, fifo]
  watermark := by
    simp only [Run.record, foldr_max_append, ← h.watermark, watermark]
  reached := watermark ▸ le_max_right _ _
  enqueued := by
    simp only [Run.record, List.length_append, enqueued]
  dequeued := by
    simp only [Run.record, Run.poppedFrames, List.filterMap_append, List.length_append]
    exact dequeued
  closes := by
    rintro ⟨e, he, hclose⟩
    rcases List.mem_append.mp he with he | he
    · exact closes (h.closes ⟨e, he, hclose⟩)
    · exact (sees e he).1 hclose
  discards := by
    rintro ⟨e, he, hdiscard⟩
    rcases List.mem_append.mp he with he | he
    · exact emptied (h.closes ⟨e, he, isClose_of_isDiscard hdiscard⟩)
        (h.discards ⟨e, he, hdiscard⟩)
    · exact (sees e he).2.1 hdiscard
  noPush := by
    have hsingle : seen.Pairwise fun a b => a.isClose = true → b.isPushOk = false :=
      pairwise_of_length_le_one one
    refine List.pairwise_append.mpr ⟨h.noPush, hsingle, fun a ha b hb hclose => ?_⟩
    exact (sees b hb).2.2.1 (h.closes ⟨a, ha, hclose⟩)
  noFrame := by
    have hsingle : seen.Pairwise fun a b => a.isDiscard = true → b.isFrame = false :=
      pairwise_of_length_le_one one
    refine List.pairwise_append.mpr ⟨h.noFrame, hsingle, fun a ha b hb hdiscard => ?_⟩
    exact (sees b hb).2.2.2 (h.discards ⟨a, ha, hdiscard⟩)

/-- A step that leaves the frames and their counters alone and is not seen as a close, an
accepted push or a frame. -/
theorem Balanced.record_same {capacity : ℕ} {r : Run α} (h : Balanced capacity r)
    {q : QueueState α} (seen : List (Event α)) (frames : q.frames = r.queue.frames)
    (stamps : q.enqueuedAt = r.queue.enqueuedAt) (closed : q.closed = r.queue.closed)
    (watermark : q.highWatermark = r.queue.highWatermark)
    (enqueued : q.enqueueTotal = r.queue.enqueueTotal)
    (dequeued : q.dequeueTotal = r.queue.dequeueTotal) (one : seen.length ≤ 1)
    (sees : ∀ e ∈ seen, e.isClose = false ∧ e.isFrame = false ∧
      (r.queue.closed = true → e.isPushOk = false)) :
    Balanced capacity (r.record q [] [] seen) := by
  refine h.record (by rw [frames, stamps, h.stamped]) (frames ▸ h.bounded) (by simp [frames])
    ?_ ?_ ?_ (fun hc => closed.trans hc) (fun _ he => frames.trans he) one ?_
  · rw [watermark, frames, max_eq_left h.reached]
  · rw [enqueued, h.enqueued]
    rfl
  · rw [dequeued, h.dequeued]
    rfl
  · intro e he
    obtain ⟨hclose, hframe, hpush⟩ := sees e he
    refine ⟨by simp [hclose], fun hd => ?_, hpush, fun _ => hframe⟩
    rw [isClose_of_isDiscard hd] at hclose
    cases hclose

theorem Balanced.setThread {capacity : ℕ} {r : Run α} (h : Balanced capacity r) (t : ℕ)
    (thread : Thread α) : Balanced capacity (r.setThread t thread) := { h with }

variable {inner : QueueInner α} {r : Run α}

/-- A frame enters behind what is left of the queue once `left` is gone. -/
theorem Balanced.enter (h : Balanced inner.policy.capacity r) (hopen : r.queue.closed = false)
    (q : QueueState α) (left : List (Departure α)) (event : Event α) (frame : α) (now : ℕ)
    (stamped : q.frames.length = q.enqueuedAt.length)
    (room : q.frames.length < inner.policy.capacity)
    (fifo : r.queue.frames = left.map Departure.frame ++ q.frames)
    (dropped : left.filterMap Departure.toConsumer = [])
    (watermark : q.highWatermark = r.queue.highWatermark)
    (enqueued : q.enqueueTotal = r.queue.enqueueTotal)
    (dequeued : q.dequeueTotal = r.queue.dequeueTotal) (notClose : event.isClose = false)
    (notFrame : event.isFrame = false) :
    Balanced inner.policy.capacity (r.record (q.enqueue inner frame now) [frame] left [event]) := by
  have hlength : (q.enqueue inner frame now).frames.length = q.frames.length + 1 := by
    simp [QueueState.enqueue]
  refine h.record ?_ ?_ ?_ ?_ ?_ ?_ ?_ ?_ (le_refl 1) ?_
  · rw [hlength, stamped]
    simp [QueueState.enqueue]
  · rw [hlength]
    exact room
  · rw [fifo, List.append_assoc]
    rfl
  · rw [hlength, ← watermark]
    rfl
  · simp only [QueueState.enqueue, enqueued, h.enqueued, saturatingAdd_counted,
      List.length_singleton]
  · rw [dropped]
    exact dequeued.trans h.dequeued
  · simp [hopen]
  · simp [hopen]
  · intro e he
    rw [List.mem_singleton.mp he, notFrame]
    refine ⟨by simp [notClose], fun hd => ?_, by simp [hopen], fun _ => rfl⟩
    rw [isClose_of_isDiscard hd] at notClose
    cases notClose

theorem Balanced.pushTurn (h : Balanced inner.policy.capacity r)
    (hopen : r.queue.closed = false) (t : ℕ) (frame : α) (blockedAt : Option ℕ) (now : ℕ) :
    Balanced inner.policy.capacity
      (r.pushed t frame (r.queue.pushTurn inner frame blockedAt now)) := by
  have hstamped := h.stamped
  have hbounded := h.bounded
  have hpos := inner.policy.capacity_pos
  unfold QueueState.pushTurn
  split_ifs with hfull
  · dsimp only
    cases hpolicy : inner.policy.overflow with
    | block =>
      have hwait := h.record_same (q := { r.queue with
        fullTotal := saturatingAdd r.queue.fullTotal 1 }) [] rfl rfl rfl rfl rfl rfl
      exact (hwait (by simp) (by simp)).setThread t _
    | dropOldest =>
      have henter := h.enter hopen ({ r.queue with
        fullTotal := saturatingAdd r.queue.fullTotal 1
        frames := r.queue.frames.tail
        enqueuedAt := r.queue.enqueuedAt.tail
        dropTotal := saturatingAdd r.queue.dropTotal 1 }.setReason
          QueueDropReason.queueFullDropOldest.asStr) (r.queue.frames.head?.map .removed).toList
        (.pushed frame (.ok .enqueuedAfterDroppingOldest)) frame now
      refine Balanced.setThread (henter ?_ ?_ ?_ ?_ rfl rfl rfl rfl rfl) t _
      · simp [QueueState.setReason, hstamped]
      · simp only [QueueState.setReason, List.length_tail]
        omega
      · cases hframes : r.queue.frames with
        | nil =>
          rw [hframes, List.length_nil] at hfull
          omega
        | cons x xs => rfl
      · cases r.queue.frames <;> rfl
    | dropNewest =>
      have hdrop := h.record_same
        [.pushed frame (.ok (.dropped .queueFullDropNewest))] (q := { r.queue with
          fullTotal := saturatingAdd r.queue.fullTotal 1
          dropTotal := saturatingAdd r.queue.dropTotal 1 }.setReason
            QueueDropReason.queueFullDropNewest.asStr) rfl rfl rfl rfl rfl rfl
      exact (hdrop (by simp) (by simp [Event.isClose, Event.isFrame, hopen])).setThread t _
    | abort =>
      have habort := h.record_same [.pushed frame (.error .overflowAbort)] (q := { r.queue with
        fullTotal := saturatingAdd r.queue.fullTotal 1 }.setReason
          "queue full: overflow policy abort") rfl rfl rfl rfl rfl rfl
      exact (habort (by simp) (by simp [Event.isClose, Event.isFrame, hopen])).setThread t _
  · have hsame : ∀ {β : Type} (f : QueueState α → β), (∀ n,
        f { r.queue with blockedDurationNs := n } = f r.queue) →
        f (r.queue.addBlockedDuration blockedAt now) = f r.queue := by
      intro β f hf
      unfold QueueState.addBlockedDuration
      split
      · exact hf _
      · rfl
    have hframes := hsame QueueState.frames fun _ => rfl
    refine Balanced.setThread (h.enter hopen _ [] (.pushed frame (.ok .enqueued)) frame now
      ?_ ?_ ?_ rfl ?_ ?_ ?_ rfl rfl) t _
    · rw [hframes, hsame QueueState.enqueuedAt fun _ => rfl, hstamped]
    · rw [hframes]
      omega
    · rw [hframes]
      rfl
    · exact hsame QueueState.highWatermark fun _ => rfl
    · exact hsame QueueState.enqueueTotal fun _ => rfl
    · exact hsame QueueState.dequeueTotal fun _ => rfl

theorem Balanced.push (h : Balanced inner.policy.capacity r) (t : ℕ) (frame : α) (now : ℕ) :
    Balanced inner.policy.capacity (r.pushed t frame (r.queue.push inner frame now)) := by
  unfold QueueState.push
  cases hclosed : r.queue.closed with
  | true =>
    have hrefused := h.record_same [.pushed frame (.error .closed)] (q := r.queue) rfl rfl rfl rfl
      rfl rfl
    exact (hrefused (by simp) (by simp [Event.isClose, Event.isFrame, Event.isPushOk])).setThread
      t _
  | false => exact h.pushTurn hclosed t frame none now

theorem Balanced.pushWoken (h : Balanced inner.policy.capacity r) (t : ℕ) (frame : α)
    (blockedAt now : ℕ) :
    Balanced inner.policy.capacity
      (r.pushed t frame (r.queue.pushWoken inner frame blockedAt now)) := by
  unfold QueueState.pushWoken
  cases hclosed : r.queue.closed with
  | true =>
    have hrefused := h.record_same [.pushed frame (.error .closed)]
      (q := r.queue.addBlockedDuration (some blockedAt) now) rfl rfl rfl rfl rfl rfl
    exact (hrefused (by simp) (by simp [Event.isClose, Event.isFrame, Event.isPushOk])).setThread
      t _
  | false => exact h.pushTurn hclosed t frame (some blockedAt) now

/-- A consumer takes the head. -/
theorem Balanced.leave {capacity : ℕ} (h : Balanced capacity r) {frame : α} {frames : List α}
    (front : r.queue.frames = frame :: frames) :
    Balanced capacity (r.record r.queue.dequeue.2 [] [.popped frame]
      [.popped (.ok (some frame))]) := by
  have hstamped := h.stamped
  have hbounded := h.bounded
  have hreached := h.reached
  have hq : r.queue.dequeue.2 = { r.queue with
      frames := frames
      enqueuedAt := r.queue.enqueuedAt.tail
      dequeueTotal := saturatingAdd r.queue.dequeueTotal 1 } := by
    simp [QueueState.dequeue, front]
  rw [front, List.length_cons] at hstamped hbounded hreached
  rw [hq]
  refine h.record ?_ ?_ ?_ ?_ ?_ ?_ id ?_ (le_refl 1) ?_
  · simp only [List.length_tail]
    omega
  · exact Nat.le_of_succ_le hbounded
  · simp [front, Departure.frame]
  · exact (max_eq_left (Nat.le_of_succ_le hreached)).symm
  · exact h.enqueued
  · simp only [h.dequeued, saturatingAdd_counted, Departure.toConsumer, List.filterMap_cons,
      List.filterMap_nil, List.length_singleton]
  · simp [front]
  · simp [front, Event.isClose, Event.isDiscard, Event.isPushOk]

theorem dequeue_none {q : QueueState α} (h : q.frames = []) : q.dequeue = (none, q) := by
  simp [QueueState.dequeue, h]

theorem dequeue_some {q : QueueState α} {frame : α} {frames : List α}
    (h : q.frames = frame :: frames) : q.dequeue = (some frame, q.dequeue.2) := by
  simp [QueueState.dequeue, h]

theorem Balanced.pop {capacity : ℕ} (h : Balanced capacity r) (t : ℕ) :
    Balanced capacity (r.popped t r.queue.pop) := by
  unfold QueueState.pop
  cases hframes : r.queue.frames with
  | nil =>
    rw [dequeue_none hframes]
    dsimp only
    split_ifs with hclosed
    · have hended := h.record_same [.popped (.error ())] (q := r.queue) rfl rfl rfl rfl rfl rfl
      exact (hended (by simp) (by simp [Event.isClose, Event.isFrame, Event.isPushOk])).setThread
        t _
    · have hwait := h.record_same [] (q := r.queue) rfl rfl rfl rfl rfl rfl
      exact (hwait (by simp) (by simp)).setThread t _
  | cons frame frames =>
    rw [dequeue_some hframes]
    exact (h.leave hframes).setThread t _

theorem Balanced.tryPop {capacity : ℕ} (h : Balanced capacity r) :
    Balanced capacity (r.triedPop r.queue.tryPop) := by
  unfold QueueState.tryPop
  cases hframes : r.queue.frames with
  | nil =>
    rw [dequeue_none hframes]
    dsimp only
    split_ifs with hclosed
    · have hended := h.record_same [.popped (.error ())] (q := r.queue) rfl rfl rfl rfl rfl rfl
      exact hended (by simp) (by simp [Event.isClose, Event.isFrame, Event.isPushOk])
    · have hnothing := h.record_same [.popped (.ok none)] (q := r.queue) rfl rfl rfl rfl rfl rfl
      exact hnothing (by simp) (by simp [Event.isClose, Event.isFrame, Event.isPushOk])
  | cons frame frames =>
    rw [dequeue_some hframes]
    exact h.leave hframes

theorem Balanced.close_drain {capacity : ℕ} (h : Balanced capacity r) :
    Balanced capacity (r.record (r.queue.close .drain) [] [] [.closed .drain]) := by
  refine h.record h.stamped h.bounded (by simp [QueueState.close]) ?_ h.enqueued h.dequeued
    (fun _ => rfl) (fun _ he => he) (le_refl 1) ?_
  · exact (max_eq_left h.reached).symm
  · simp [QueueState.close, Event.isDiscard, Event.isPushOk, Event.isFrame]

theorem Balanced.close_discard {capacity : ℕ} (h : Balanced capacity r) :
    Balanced capacity (r.record (r.queue.close .discard) []
      (r.queue.frames.map .removed) [.closed .discard]) := by
  have hsame : ∀ {β : Type} (f : QueueState α → β), (∀ n reason, f { r.queue with
      closed := true, frames := [], enqueuedAt := [], dropTotal := n,
      latestErrorReason := reason } = f { r.queue with
      closed := true, frames := [], enqueuedAt := [] }) →
      f (r.queue.close .discard) = f { r.queue with
      closed := true, frames := [], enqueuedAt := [] } := by
    intro β f hf
    simp only [QueueState.close]
    split_ifs
    · exact hf _ _
    · rfl
  have hframes : (r.queue.close .discard).frames = [] := hsame QueueState.frames fun _ _ => rfl
  have hclosed : (r.queue.close .discard).closed = true := hsame QueueState.closed fun _ _ => rfl
  have hnone : (r.queue.frames.map Departure.removed).filterMap Departure.toConsumer = [] := by
    simp [List.filterMap_map, Function.comp_def, Departure.toConsumer]
  refine h.record ?_ ?_ ?_ ?_ ?_ ?_ (fun _ => hclosed) (fun _ _ => hframes) (le_refl 1) ?_
  · have hstamps : (r.queue.close .discard).enqueuedAt = [] :=
      hsame QueueState.enqueuedAt fun _ _ => rfl
    rw [hframes, hstamps]
    rfl
  · rw [hframes]
    exact Nat.zero_le _
  · simp [hframes, Function.comp_def, Departure.frame]
  · rw [hframes, hsame QueueState.highWatermark fun _ _ => rfl]
    simp
  · exact (hsame QueueState.enqueueTotal fun _ _ => rfl).trans h.enqueued
  · rw [hnone]
    exact (hsame QueueState.dequeueTotal fun _ _ => rfl).trans h.dequeued
  · simp [hframes, hclosed, Event.isPushOk, Event.isFrame]

theorem balanced_start {capacity : ℕ} : Balanced capacity (Run.start : Run α) where
  stamped := rfl
  bounded := Nat.zero_le _
  fifo := rfl
  watermark := rfl
  reached := le_refl 0
  enqueued := rfl
  dequeued := rfl
  closes := by simp [Run.start]
  discards := by simp [Run.start]
  noPush := .nil
  noFrame := .nil

theorem Balanced.step {r' : Run α} (h : Balanced inner.policy.capacity r) {a : Label α}
    (hs : r.step inner a = some r') : Balanced inner.policy.capacity r' := by
  cases a with
  | push t frame now =>
    simp only [Run.step] at hs
    split at hs
    · exact Option.some.inj hs ▸ h.push t frame now
    · cases hs
  | pushWoken t now =>
    simp only [Run.step] at hs
    split at hs
    · next frame blockedAt _ => exact Option.some.inj hs ▸ h.pushWoken t frame blockedAt now
    · cases hs
  | pop t =>
    simp only [Run.step] at hs
    split at hs
    · exact Option.some.inj hs ▸ h.pop t
    · cases hs
  | popWoken t =>
    simp only [Run.step] at hs
    split at hs
    · exact Option.some.inj hs ▸ h.pop t
    · cases hs
  | tryPop t =>
    simp only [Run.step] at hs
    split at hs
    · exact Option.some.inj hs ▸ h.tryPop
    · cases hs
  | close mode =>
    cases mode with
    | drain => exact Option.some.inj hs ▸ h.close_drain
    | discard => exact Option.some.inj hs ▸ h.close_discard
  | recordDrop reason =>
    exact Option.some.inj hs ▸ h.record_same [] rfl rfl rfl rfl rfl rfl (by simp) (by simp)
  | recordSignal =>
    exact Option.some.inj hs ▸ h.record_same [] rfl rfl rfl rfl rfl rfl (by simp) (by simp)
  | recordError reason =>
    exact Option.some.inj hs ▸ h.record_same [] rfl rfl rfl rfl rfl rfl (by simp) (by simp)

theorem balanced_reachable (hr : (sharing inner).Reachable r) :
    Balanced inner.policy.capacity r := by
  refine hr.invariant ?_ fun _ _ _ _ hb hs => hb.step hs
  rintro _ rfl
  exact balanced_start

theorem filterMap_toConsumer_sublist (left : List (Departure α)) :
    (left.filterMap Departure.toConsumer).Sublist (left.map Departure.frame) := by
  induction left with
  | nil => exact .slnil
  | cons departure left ih =>
    cases departure with
    | popped frame => exact ih.cons_cons frame
    | removed frame => exact ih.cons frame

theorem toConsumer_of_none_removed {left : List (Departure α)}
    (h : left.filterMap Departure.fromQueue = []) :
    left.filterMap Departure.toConsumer = left.map Departure.frame := by
  induction left with
  | nil => rfl
  | cons departure left ih =>
    cases departure with
    | popped frame => exact congrArg (frame :: ·) (ih h)
    | removed frame => cases h

theorem length_departed (left : List (Departure α)) :
    left.length = (left.filterMap Departure.toConsumer).length +
      (left.filterMap Departure.fromQueue).length := by
  induction left with
  | nil => rfl
  | cons departure left ih =>
    cases departure <;>
      simp only [List.filterMap_cons, Departure.toConsumer, Departure.fromQueue,
        List.length_cons, ih] <;> omega

/-- Conservation and order: time stamps and frames go together within the capacity, the
watermark is the greatest length so far, every frame that entered was popped, removed or is
still there, consumers get the accepted frames in order, and a close is final. -/
structure Conserved (inner : QueueInner α) (r : Run α) : Prop where
  stamped : r.queue.frames.length = r.queue.enqueuedAt.length
  bounded : r.queue.frames.length ≤ inner.policy.capacity
  watermark : r.queue.highWatermark = r.lengths.foldr max 0
  balance : r.queue.enqueueTotal < 2 ^ 64 - 1 → r.queue.enqueueTotal =
    r.queue.dequeueTotal + r.queue.frames.length + r.removedFrames.length
  subsequence : r.poppedFrames.Sublist r.accepted
  inOrder : r.removedFrames = [] → r.poppedFrames <+: r.accepted
  noPush : r.log.Pairwise fun a b => a.isClose = true → b.isPushOk = false
  noFrame : r.log.Pairwise fun a b => a.isDiscard = true → b.isFrame = false

theorem conserved_reachable (hr : (sharing inner).Reachable r) : Conserved inner r := by
  have h := balanced_reachable hr
  have hlength := congrArg List.length h.fifo
  rw [List.length_append, List.length_map, length_departed] at hlength
  constructor
  case stamped => exact h.stamped
  case bounded => exact h.bounded
  case watermark => exact h.watermark
  case balance =>
    intro hsmall
    have henqueued := h.enqueued
    have hdequeued := h.dequeued
    unfold counted at henqueued hdequeued
    unfold Run.poppedFrames at hdequeued
    unfold Run.removedFrames
    omega
  case subsequence =>
    rw [h.fifo]
    exact (filterMap_toConsumer_sublist r.departed).trans (List.sublist_append_left _ _)
  case inOrder =>
    intro hnone
    rw [h.fifo, Run.poppedFrames, toConsumer_of_none_removed hnone]
    exact List.prefix_append _ _
  case noPush => exact h.noPush
  case noFrame => exact h.noFrame

/-- One slot, a producer that blocks. -/
def blockingInner : QueueInner ℕ := ⟨⟨1, .block, Nat.one_pos⟩, fun _ => (0, 0)⟩

/-- A producer blocks on the full queue, a consumer frees it, and the queue is closed twice. -/
def blockedPush : List (Label ℕ) :=
  [.push 0 7 0, .push 1 8 1, .tryPop 2, .pushWoken 1 5, .close .discard, .close .drain, .tryPop 2]

theorem conserved_blockedPush : ∃ r, Conserved blockingInner r ∧
    r.accepted = [7, 8] ∧ r.poppedFrames = [7] ∧ r.removedFrames = [8] := by
  obtain ⟨r, hr, hp⟩ := Transition.System.exists_reachable_of_run (M := sharing blockingInner) rfl
    blockedPush (fun r => decide (r.accepted = [7, 8]) && decide (r.poppedFrames = [7]) &&
      decide (r.removedFrames = [8])) (by decide +kernel)
  simp only [Bool.and_eq_true, decide_eq_true_eq] at hp
  exact ⟨r, conserved_reachable hr, hp.1.1, hp.1.2, hp.2⟩

end Muxiva.Queue
