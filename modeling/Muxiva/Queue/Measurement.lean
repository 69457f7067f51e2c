import Mathlib.Algebra.Order.BigOperators.Group.List
import Muxiva.Audio.Scan
import Muxiva.Ffi.RoundTrip
import Muxiva.Queue.Model

/-! What an edge queue measures of the frames it accepts, against what the frames say of
themselves. -/
set_option linter.all false
namespace Muxiva.Queue
open Muxiva.Runtime (saturatingAdd DrainMode)

section Totals
variable {α : Type}

/-- The payload bytes and the audio duration counted so far. -/
def QueueState.totals (q : QueueState α) : ℕ × ℕ := (q.payloadBytesTotal, q.audioDurationNsTotal)

/-- What saturating counters make of the measures of `frames`. -/
def measured (inner : QueueInner α) (frames : List α) : ℕ × ℕ :=
  (min (frames.map fun f => (inner.frameMeasurement f).1).sum (2 ^ 64 - 1),
    min (frames.map fun f => (inner.frameMeasurement f).2).sum (2 ^ 64 - 1))

/-- The frame of this `push` has entered the queue. -/
def Turn.enters : Turn → Bool
  | .returned (.ok .enqueued) | .returned (.ok .enqueuedAfterDroppingOldest) => true
  | _ => false

variable (inner : QueueInner α)

theorem measured_append (frames : List α) (frame : α) :
    measured inner (frames ++ [frame]) =
      (saturatingAdd (measured inner frames).1 (inner.frameMeasurement frame).1,
        saturatingAdd (measured inner frames).2 (inner.frameMeasurement frame).2) := by
  have hmin : ∀ a b : ℕ, min (a + b) (2 ^ 64 - 1) = saturatingAdd (min a (2 ^ 64 - 1)) b := by
    intro a b
    unfold saturatingAdd
    omega
  simp only [measured, List.map_append, List.map_singleton, List.sum_append, List.sum_singleton,
    hmin]

theorem totals_enqueue (q : QueueState α) (frame : α) (now : ℕ) :
    (q.enqueue inner frame now).totals =
      (saturatingAdd q.totals.1 (inner.frameMeasurement frame).1,
        saturatingAdd q.totals.2 (inner.frameMeasurement frame).2) := rfl

theorem totals_addBlockedDuration (q : QueueState α) (blockedAt : Option ℕ) (now : ℕ) :
    (q.addBlockedDuration blockedAt now).totals = q.totals := by
  cases blockedAt with
  | none => rfl
  | some started => rfl

theorem totals_dequeue (q : QueueState α) : q.dequeue.2.totals = q.totals := by
  unfold QueueState.dequeue
  split <;> rfl

theorem totals_close (q : QueueState α) (mode : DrainMode) : (q.close mode).totals = q.totals := by
  cases mode with
  | drain => rfl
  | discard =>
    unfold QueueState.close
    dsimp only
    split_ifs <;> rfl

/-- A turn of `push` counts its frame exactly when the frame enters. -/
theorem totals_pushTurn (q : QueueState α) (frame : α) (blockedAt : Option ℕ) (now : ℕ) :
    (q.pushTurn inner frame blockedAt now).2.totals =
      if (q.pushTurn inner frame blockedAt now).1.enters then
        (saturatingAdd q.totals.1 (inner.frameMeasurement frame).1,
          saturatingAdd q.totals.2 (inner.frameMeasurement frame).2)
      else q.totals := by
  by_cases hfull : q.frames.length = inner.policy.capacity
  · cases hoverflow : inner.policy.overflow <;>
      simp [QueueState.pushTurn, hfull, hoverflow, Turn.enters, QueueState.totals,
        QueueState.enqueue, QueueState.setReason]
  · simp [QueueState.pushTurn, hfull, Turn.enters, totals_enqueue, totals_addBlockedDuration]

theorem totals_push (q : QueueState α) (frame : α) (now : ℕ) :
    (q.push inner frame now).2.totals =
      if (q.push inner frame now).1.enters then
        (saturatingAdd q.totals.1 (inner.frameMeasurement frame).1,
          saturatingAdd q.totals.2 (inner.frameMeasurement frame).2)
      else q.totals := by
  unfold QueueState.push
  cases q.closed with
  | true => rfl
  | false => exact totals_pushTurn inner q frame none now

theorem totals_pushWoken (q : QueueState α) (frame : α) (blockedAt now : ℕ) :
    (q.pushWoken inner frame blockedAt now).2.totals =
      if (q.pushWoken inner frame blockedAt now).1.enters then
        (saturatingAdd q.totals.1 (inner.frameMeasurement frame).1,
          saturatingAdd q.totals.2 (inner.frameMeasurement frame).2)
      else q.totals := by
  unfold QueueState.pushWoken
  cases q.closed with
  | true => rfl
  | false => exact totals_pushTurn inner q frame (some blockedAt) now

theorem pushed_accepted (r : Run α) (t : ℕ) (frame : α) (turn : Turn) (q : QueueState α) :
    (r.pushed t frame (turn, q)).queue = q ∧
      (r.pushed t frame (turn, q)).accepted = r.accepted ++ if turn.enters then [frame] else [] := by
  unfold Run.pushed Turn.enters
  split <;> simp_all [Run.setThread, Run.record]

variable {inner} {r : Run α}

/-- The counters are the measures of the accepted frames. -/
def Run.Measured (inner : QueueInner α) (r : Run α) : Prop :=
  r.queue.totals = measured inner r.accepted

theorem Run.Measured.pushed (h : r.Measured inner) (t : ℕ) (frame : α) {turn : Turn}
    {q : QueueState α} (hq : q.totals = if turn.enters then
      (saturatingAdd r.queue.totals.1 (inner.frameMeasurement frame).1,
        saturatingAdd r.queue.totals.2 (inner.frameMeasurement frame).2) else r.queue.totals) :
    (r.pushed t frame (turn, q)).Measured inner := by
  obtain ⟨hqueue, haccepted⟩ := pushed_accepted r t frame turn q
  unfold Run.Measured at h ⊢
  rw [hqueue, haccepted, hq]
  split_ifs
  · rw [measured_append, h]
  · rw [List.append_nil, h]

theorem Run.Measured.same (h : r.Measured inner) {r' : Run α}
    (htotals : r'.queue.totals = r.queue.totals) (haccepted : r'.accepted = r.accepted) :
    r'.Measured inner := by
  unfold Run.Measured at h ⊢
  rw [htotals, haccepted, h]

theorem popped_same (r : Run α) (t : ℕ) (x : Option (Except Unit α) × QueueState α) :
    (r.popped t x).queue = x.2 ∧ (r.popped t x).accepted = r.accepted := by
  unfold Run.popped
  split <;> simp [Run.setThread, Run.record]

theorem triedPop_same (r : Run α) (x : Except Unit (Option α) × QueueState α) :
    (r.triedPop x).queue = x.2 ∧ (r.triedPop x).accepted = r.accepted := by
  unfold Run.triedPop
  split <;> simp [Run.record]

theorem totals_pop (q : QueueState α) : q.pop.2.totals = q.totals := by
  have hdequeue := totals_dequeue q
  unfold QueueState.pop
  split <;> rename_i hq <;> rw [hq] at hdequeue <;> exact hdequeue

theorem totals_tryPop (q : QueueState α) : q.tryPop.2.totals = q.totals := by
  have hdequeue := totals_dequeue q
  unfold QueueState.tryPop
  split <;> rename_i hq <;> rw [hq] at hdequeue <;> exact hdequeue

theorem Run.Measured.popped (h : r.Measured inner) (t : ℕ) :
    (r.popped t r.queue.pop).Measured inner := by
  obtain ⟨hqueue, haccepted⟩ := popped_same r t r.queue.pop
  exact h.same (by rw [hqueue, totals_pop]) haccepted

/-- No step but an entering push touches the counters. -/
theorem Run.Measured.step {r' : Run α} (h : r.Measured inner) {a : Label α}
    (hs : r.step inner a = some r') : r'.Measured inner := by
  cases a with
  | push t frame now =>
    simp only [Run.step] at hs
    split at hs
    · exact Option.some.inj hs ▸ h.pushed t frame (totals_push inner r.queue frame now)
    · cases hs
  | pushWoken t now =>
    simp only [Run.step] at hs
    split at hs
    · next frame blockedAt _ =>
      exact Option.some.inj hs ▸ h.pushed t frame (totals_pushWoken inner r.queue frame blockedAt now)
    · cases hs
  | pop t =>
    simp only [Run.step] at hs
    split at hs
    · exact Option.some.inj hs ▸ h.popped t
    · cases hs
  | popWoken t =>
    simp only [Run.step] at hs
    split at hs
    · exact Option.some.inj hs ▸ h.popped t
    · cases hs
  | tryPop t =>
    simp only [Run.step] at hs
    split at hs
    · obtain ⟨hqueue, haccepted⟩ := triedPop_same r r.queue.tryPop
      exact Option.some.inj hs ▸ h.same (by rw [hqueue, totals_tryPop]) haccepted
    · cases hs
  | close mode =>
    exact Option.some.inj hs ▸ h.same (totals_close r.queue mode) (by simp [Run.record])
  | recordDrop reason => exact Option.some.inj hs ▸ h.same rfl (by simp [Run.record])
  | recordSignal => exact Option.some.inj hs ▸ h.same rfl (by simp [Run.record])
  | recordError reason => exact Option.some.inj hs ▸ h.same rfl (by simp [Run.record])

theorem measured_reachable (hr : (sharing inner).Reachable r) : r.Measured inner := by
  refine hr.invariant ?_ fun _ _ _ _ hm hs => hm.step hs
  rintro _ rfl
  rfl

end Totals

/-- A pointwise smaller sum is equal exactly when every term is. -/
theorem sum_map_eq_iff {α : Type} {f g : α → ℕ} {xs : List α} (h : ∀ x ∈ xs, f x ≤ g x) :
    (xs.map f).sum = (xs.map g).sum ↔ ∀ x ∈ xs, f x = g x := by
  induction xs with
  | nil => simp
  | cons x xs ih =>
    have hx := h x List.mem_cons_self
    have hrest := ih fun y hy => h y (List.mem_cons_of_mem _ hy)
    have hle := List.sum_le_sum fun y hy => h y (List.mem_cons_of_mem x hy)
    simp only [List.map_cons, List.sum_cons, List.forall_mem_cons, ← hrest]
    omega

section Frames
open Muxiva.Ffi (FramePayload VideoData)
open Muxiva.Audio (AudioData durationNs)

variable {M E : Type}

/-- `u64::try_from` of a length, or the largest `u64`. -/
def toU64 (length : ℕ) : ℕ := min length (2 ^ 64 - 1)

/-- The rate of `AudioData` is never zero, so `checked_div` is a division. -/
def frameMeasurement (frame : Ffi.Frame M E) : ℕ × ℕ :=
  match frame.payload with
  | .audio data =>
    (toU64 data.buffer.length, min (data.samplesPerChannel * 10 ^ 9) (2 ^ 64 - 1) / data.sampleRateHz)
  | .byte data => (toU64 data.buffer.length, 0)
  | .text text => (toU64 text.utf8ByteSize, 0)
  | _ => (0, 0)

def payloadByteLen (frame : Ffi.Frame M E) : Option ℕ :=
  match frame.payload with
  | .audio data => some data.buffer.length
  | .video data => some data.video.buffer.length
  | .text text => some text.utf8ByteSize
  | .byte data => some data.buffer.length
  | .signal _ _ => none
  | .event _ => none

/-- `AudioData::duration_ns` of an audio frame. -/
def audioDurationNs (frame : Ffi.Frame M E) : ℕ :=
  match frame.payload with
  | .audio data => data.durationNs
  | _ => 0

/-- The bytes of the accepted frames by their own account. -/
def payloadSum (frames : List (Ffi.Frame M E)) : ℕ :=
  (frames.map fun f => (payloadByteLen f).getD 0).sum

/-- The duration of the accepted audio frames by their own account. -/
def durationSum (frames : List (Ffi.Frame M E)) : ℕ := (frames.map audioDurationNs).sum

def IsVideo (frame : Ffi.Frame M E) : Prop := ∃ data, frame.payload = .video data

/-- An audio frame whose samples in nanoseconds do not fit in `u64` before the division. -/
def SaturatesSamples (frame : Ffi.Frame M E) : Prop :=
  ∃ data, frame.payload = .audio data ∧ 2 ^ 64 ≤ data.samplesPerChannel * 10 ^ 9

/-- Both totals of a queue are those of the frames it accepted, where these fit in `u64`. -/
structure Run.ExactMetrics (r : Run (Ffi.Frame M E)) : Prop where
  payload : payloadSum r.accepted < 2 ^ 64 →
    r.queue.payloadBytesTotal = payloadSum r.accepted
  audio : durationSum r.accepted < 2 ^ 64 →
    r.queue.audioDurationNsTotal = durationSum r.accepted

/-- Video has at least one row of at least one pixel. -/
theorem video_buffer_pos (data : VideoData) : 0 < data.video.buffer.length := by
  obtain ⟨video, hbuilt⟩ := data
  cases hbuilt with
  | rgba8 h =>
    obtain ⟨⟨hwidth, hheight⟩, -, hstride, -, hlength, rfl⟩ := Ffi.Video.rgba8_eq_ok.mp h
    rw [hlength]
    exact Nat.mul_pos (by omega) (by omega)
  | yuv420p h =>
    obtain ⟨⟨⟨hwidth, hheight⟩, -⟩, ⟨hstride, -⟩, -, hlength, rfl⟩ := Ffi.Video.yuv420p_eq_ok.mp h
    have hplane := Nat.mul_pos (show 0 < _ from (Nat.pos_of_ne_zero hwidth).trans_le hstride)
      (Nat.pos_of_ne_zero hheight)
    dsimp only
    omega

theorem measured_bytes (frame : Ffi.Frame M E) :
    (frameMeasurement frame).1 ≤ (payloadByteLen frame).getD 0 ∧
      ((payloadByteLen frame).getD 0 < 2 ^ 64 →
        ((frameMeasurement frame).1 = (payloadByteLen frame).getD 0 ↔ ¬ IsVideo frame)) := by
  unfold frameMeasurement payloadByteLen IsVideo toU64
  cases hpayload : frame.payload with
  | video data =>
    have hpos := video_buffer_pos data
    simp only [Option.getD_some, FramePayload.video.injEq, exists_eq', not_true_eq_false, iff_false]
    omega
  | audio data => simp; omega
  | text text => simp; omega
  | byte data => simp; omega
  | signal name source => simp
  | event topic => simp

/-- What does not fit before the division is too large by more than the rate, so the saturated
quotient is too small. -/
theorem measured_duration (frame : Ffi.Frame M E) :
    (frameMeasurement frame).2 ≤ audioDurationNs frame ∧
      ((frameMeasurement frame).2 = audioDurationNs frame ↔ ¬ SaturatesSamples frame) := by
  unfold frameMeasurement audioDurationNs SaturatesSamples
  cases hpayload : frame.payload with
  | audio data =>
    have heq : data.durationNs = data.samplesPerChannel * 10 ^ 9 / data.sampleRateHz :=
      data.durationNs_eq.1
    obtain ⟨hlow, hhigh⟩ := data.rate
    simp only [FramePayload.audio.injEq, exists_eq_left', heq]
    by_cases hfits : data.samplesPerChannel * 10 ^ 9 < 2 ^ 64
    · rw [min_eq_left (by omega)]
      exact ⟨le_refl _, iff_of_true rfl (by omega)⟩
    · rw [min_eq_right (by omega)]
      have hmore : 2 ^ 64 - 1 + data.sampleRateHz ≤ data.samplesPerChannel * 10 ^ 9 := by omega
      have hlt : (2 ^ 64 - 1) / data.sampleRateHz <
          data.samplesPerChannel * 10 ^ 9 / data.sampleRateHz := by
        calc (2 ^ 64 - 1) / data.sampleRateHz
            < (2 ^ 64 - 1) / data.sampleRateHz + 1 := Nat.lt_succ_self _
          _ = (2 ^ 64 - 1 + data.sampleRateHz) / data.sampleRateHz :=
              (Nat.add_div_right _ (by omega)).symm
          _ ≤ data.samplesPerChannel * 10 ^ 9 / data.sampleRateHz := Nat.div_le_div_right hmore
      exact ⟨hlt.le, iff_of_false hlt.ne (by omega)⟩
  | video data => simp
  | text text => simp
  | byte data => simp
  | signal name source => simp
  | event topic => simp

/-- The totals of a queue are exact as long as they fit in `u64`, precisely when the accepted
frames hold no video and no audio whose samples saturate. -/
theorem payload_metrics {policy : QueuePolicy} {r : Run (Ffi.Frame M E)}
    (hr : (sharing ⟨policy, frameMeasurement⟩).Reachable r) : r.ExactMetrics ↔
      (payloadSum r.accepted < 2 ^ 64 → ∀ f ∈ r.accepted, ¬ IsVideo f) ∧
      (durationSum r.accepted < 2 ^ 64 → ∀ f ∈ r.accepted, ¬ SaturatesSamples f) := by
  have htotals := measured_reachable hr
  have hbytes : r.queue.payloadBytesTotal =
      min (r.accepted.map fun f => (frameMeasurement f).1).sum (2 ^ 64 - 1) :=
    congrArg Prod.fst htotals
  have haudio : r.queue.audioDurationNsTotal =
      min (r.accepted.map fun f => (frameMeasurement f).2).sum (2 ^ 64 - 1) :=
    congrArg Prod.snd htotals
  have hpayload : payloadSum r.accepted < 2 ^ 64 →
      (r.queue.payloadBytesTotal = payloadSum r.accepted ↔ ∀ f ∈ r.accepted, ¬ IsVideo f) := by
    intro hfits
    have hle := List.sum_le_sum fun f (_ : f ∈ r.accepted) => (measured_bytes f).1
    have hsum := sum_map_eq_iff fun f (_ : f ∈ r.accepted) => (measured_bytes f).1
    unfold payloadSum at hfits ⊢
    rw [hbytes, min_eq_left (by omega), hsum]
    refine forall₂_congr fun f hf => (measured_bytes f).2 ?_
    exact (List.single_le_sum (by simp) _ (List.mem_map_of_mem hf)).trans_lt hfits
  have hduration : durationSum r.accepted < 2 ^ 64 →
      (r.queue.audioDurationNsTotal = durationSum r.accepted ↔
        ∀ f ∈ r.accepted, ¬ SaturatesSamples f) := by
    intro hfits
    have hle := List.sum_le_sum fun f (_ : f ∈ r.accepted) => (measured_duration f).1
    have hsum := sum_map_eq_iff fun f (_ : f ∈ r.accepted) => (measured_duration f).1
    unfold durationSum at hfits ⊢
    rw [haudio, min_eq_left (by omega), hsum]
    exact forall₂_congr fun f _ => (measured_duration f).2
  constructor
  · rintro ⟨hp, ha⟩
    exact ⟨fun h => (hpayload h).mp (hp h), fun h => (hduration h).mp (ha h)⟩
  · rintro ⟨hp, ha⟩
    exact ⟨fun h => (hpayload h).mpr (hp h), fun h => (hduration h).mpr (ha h)⟩

end Frames

/-- One pixel. -/
def onePixel : Ffi.VideoData where
  video := ⟨[1, 2, 3, 4], 1, 1, .rgba8, .rgba8 ⟨0, 4, 4, 1⟩⟩
  built := @Ffi.Video.Built.rgba8 [1, 2, 3, 4] 1 1 4 _ rfl

def sampledPolicy : QueuePolicy := ⟨2, .dropNewest, Nat.two_pos⟩

/-- A text of two bytes is counted. -/
theorem payload_metrics_text : ∃ r : Run (Ffi.Frame (List ℕ) (List ℕ)),
    r.queue.payloadBytesTotal = 2 ∧ r.ExactMetrics := by
  let text : Ffi.Frame (List ℕ) (List ℕ) := ⟨Ffi.sampleHeader .text, .text "hi", rfl⟩
  let inner : QueueInner (Ffi.Frame (List ℕ) (List ℕ)) := ⟨sampledPolicy, frameMeasurement⟩
  have hr : (sharing inner).Reachable (Run.start.pushed 0 text (QueueState.new.push inner text 0)) :=
    .step (a := .push 0 text 0) (.init rfl) trivial rfl
  refine ⟨_, by decide +kernel, (payload_metrics hr).mpr ⟨fun _ f hf => ?_, fun _ f hf => ?_⟩⟩
  · obtain rfl : f = text := List.mem_singleton.mp hf
    rintro ⟨data, hdata⟩
    cases hdata
  · obtain rfl : f = text := List.mem_singleton.mp hf
    rintro ⟨data, hdata, -⟩
    cases hdata

/-- A queue that holds a pixel of four bytes says it holds none. -/
theorem payload_metrics_video : ¬ ∀ (policy : QueuePolicy)
    (r : Run (Ffi.Frame (List ℕ) (List ℕ))),
    (sharing ⟨policy, frameMeasurement⟩).Reachable r → r.ExactMetrics := by
  intro hall
  let video : Ffi.Frame (List ℕ) (List ℕ) := ⟨Ffi.sampleHeader .video, .video onePixel, rfl⟩
  let inner : QueueInner (Ffi.Frame (List ℕ) (List ℕ)) := ⟨sampledPolicy, frameMeasurement⟩
  have hr : (sharing inner).Reachable (Run.start.pushed 0 video (QueueState.new.push inner video 0)) :=
    .step (a := .push 0 video 0) (.init rfl) trivial rfl
  have hexact := (hall sampledPolicy _ hr).payload (by decide +kernel)
  exact absurd hexact (by decide +kernel)

end Muxiva.Queue
