import Mathlib.Order.Lattice
import Muxiva.Xiaozhi.Gateway

/-! What a reset discards. `publish_audio` cuts its frames under the lock and queues them after it,
the sender holds a packet while it sends it and a tail while it encodes it: PCM that is in nobody's
queue when the reset looks comes back behind it. -/
set_option linter.all false
namespace Muxiva.Xiaozhi

open Transition.System

/-- No byte is of a call begun before the first `floor`. -/
def Newer (floor : ℕ) (pcm : List PcmByte) : Prop := ∀ b ∈ pcm, floor ≤ b.call

instance (floor : ℕ) (pcm : List PcmByte) : Decidable (Newer floor pcm) :=
  inferInstanceAs (Decidable (∀ b ∈ pcm, floor ≤ b.call))

theorem Newer.mono {floor floor' : ℕ} {pcm : List PcmByte} (h : Newer floor pcm)
    (hle : floor' ≤ floor) : Newer floor' pcm :=
  fun b hb => hle.trans (h b hb)

/-- The PCM of the packet in the sender's hands. -/
def Sender.sending : Sender → List PcmByte
  | .sendsPacket packet => packet.pcm
  | _ => []

namespace Gateway

/-- The step brings no PCM past a reset: what is queued is newer than the resets that have emptied
the queue, and a reset returns with no older packet in the sender's hands. -/
def discards (s : Gateway) : Action → Prop
  | .caller n _ =>
    match s.callers n with
    | .publishQueues (frame :: _) => Newer s.drained frame
    | .resetForgets before => Newer before s.sender.sending
    | _ => True
  | .sender _ =>
    match s.sender with
    | .queuesTail tail => Newer s.drained tail
    | _ => True
  | _ => True

instance (s : Gateway) : ∀ a, Decidable (s.discards a)
  | .connect _ | .disconnect | .stop | .call _ _ => instDecidableTrue
  | .caller n _ => by
    dsimp only [discards]
    cases s.callers n with
    | publishQueues frames => cases frames <;> infer_instance
    | _ => infer_instance
  | .sender _ => by
    dsimp only [discards]
    cases s.sender <;> infer_instance

/-- Behind each barrier there is only newer PCM. -/
structure Fresh (s : Gateway) : Prop where
  returned : s.returned ≤ s.drained
  resets : ∀ n before, s.callers n = .resetClears before ∨ s.callers n = .resetForgets before →
    before ≤ s.drained
  egress : ∀ p ∈ s.egress, Newer s.drained p.pcm
  sending : Newer s.returned s.sender.sending
  sent : ∀ p floor, .packet p floor ∈ s.sent → Newer floor p.pcm

theorem fresh_new : Fresh .new := by
  constructor
  · exact le_refl _
  · intro n before h
    simp [Gateway.new] at h
  · simp [Gateway.new]
  · simp [Gateway.new, Sender.sending, Newer]
  · simp [Gateway.new]

variable {c : Config} {s s' : Gateway} {n : ℕ} {pc : Caller}

/-- A step that moves no packet. -/
theorem Fresh.frame (h : Fresh s) (hcallers : s'.callers = s.callers)
    (hegress : s'.egress = s.egress) (hdrained : s'.drained = s.drained)
    (hreturned : s'.returned = s.returned) (hsender : s'.sender.sending = [] ∨
      s'.sender = s.sender) (hsent : s'.sent = s.sent) : Fresh s' := by
  constructor
  · rw [hreturned, hdrained]
    exact h.returned
  · rw [hcallers, hdrained]
    exact h.resets
  · rw [hegress, hdrained]
    exact h.egress
  · rw [hreturned]
    rcases hsender with hsender | hsender
    · rw [hsender]
      simp [Newer]
    · rw [hsender]
      exact h.sending
  · rw [hsent]
    exact h.sent

/-- A caller goes on without passing a barrier of a reset. -/
theorem Fresh.moveTo (h : Fresh s)
    (hpc : ∀ before, pc ≠ .resetClears before ∧ pc ≠ .resetForgets before) :
    Fresh (s.moveTo n pc) := by
  obtain ⟨hreturned, hresets, hegress, hsending, hsent⟩ := h
  refine ⟨hreturned, ?_, hegress, hsending, hsent⟩
  intro m before hm
  unfold Gateway.moveTo at hm
  by_cases hmn : m = n
  · subst hmn
    simp only [Function.update_self] at hm
    rcases hm with hm | hm
    · exact absurd hm (hpc before).1
    · exact absurd hm (hpc before).2
  · simp only [Function.update_of_ne hmn] at hm
    exact hresets m before hm

theorem Fresh.encodeAndQueue (h : Fresh s) {pcm : List PcmByte} (hpcm : Newer s.drained pcm)
    (opus : Option (List UInt8)) : Fresh (s.encodeAndQueue c pcm opus).1 := by
  unfold Gateway.encodeAndQueue
  cases opus with
  | none => exact h
  | some opus =>
    dsimp only
    split_ifs with hroom
    · obtain ⟨hreturned, hresets, hegress, hsending, hsent⟩ := h
      refine ⟨hreturned, hresets, ?_, hsending, hsent⟩
      intro p hp
      rcases List.mem_append.mp hp with hp | hp
      · exact hegress p hp
      · rw [List.mem_singleton.mp hp]
        exact hpcm
    · exact h.frame rfl rfl rfl rfl (.inr rfl) rfl

theorem Fresh.call (h : Fresh s) {operation : Operation} (hs : s.call n operation = some s') :
    Fresh s' := by
  unfold Gateway.call at hs
  cases hpc : s.callers n with
  | idle =>
    cases operation with
    | publishAudio pcm =>
      simp only [hpc, Option.some.injEq] at hs
      subst hs
      apply Fresh.moveTo
      · exact h.frame rfl rfl rfl rfl (.inr rfl) rfl
      · simp
    | publishMessage payload | resetEgress =>
      simp only [hpc, Option.some.injEq] at hs
      subst hs
      exact h.moveTo (by simp)
  | _ =>
    rw [hpc] at hs
    cases hs

/-- A reset empties the queue: nothing in it is older than the calls it is to discard. -/
theorem Fresh.drain (h : Fresh s) {before : ℕ} (hegress : s.egress = []) :
    Fresh ({ s with drained := max s.drained before }.moveTo n (.resetClears before)) := by
  constructor
  · exact h.returned.trans (le_max_left _ _)
  · intro m before' hm
    unfold Gateway.moveTo at hm ⊢
    by_cases hmn : m = n
    · subst hmn
      simp only [Function.update_self, Caller.resetClears.injEq, reduceCtorEq, or_false] at hm
      rw [← hm]
      exact le_max_right _ _
    · simp only [Function.update_of_ne hmn] at hm
      exact (h.resets m before' hm).trans (le_max_left _ _)
  · intro p hp
    change p ∈ s.egress at hp
    rw [hegress] at hp
    cases hp
  · exact h.sending
  · exact h.sent

theorem Fresh.stepCaller (h : Fresh s) {io : Io} (hc : s.discards (.caller n io))
    (hs : s.stepCaller c n io = some s') : Fresh s' := by
  unfold Gateway.stepCaller at hs
  unfold discards at hc
  cases hpc : s.callers n with
  | idle =>
    rw [hpc] at hs
    cases hs
  | publishChecks call pcm | messageChecks payload | messageBuilds payload =>
    simp only [hpc, Option.some.injEq] at hs
    subst hs
    apply h.moveTo
    intro before
    split_ifs <;> simp
  | publishExtends call pcm | publishMarks frames =>
    simp only [hpc, Option.some.injEq] at hs
    subst hs
    apply Fresh.moveTo
    · exact h.frame rfl rfl rfl rfl (.inr rfl) rfl
    · simp
  | publishQueues frames =>
    cases frames with
    | nil =>
      simp only [hpc, Option.some.injEq] at hs
      subst hs
      exact h.moveTo (by simp)
    | cons frame frames =>
      simp only [hpc, Option.some.injEq] at hs hc
      subst hs
      exact (h.encodeAndQueue hc io.opus).moveTo (by simp)
  | messageMarks message =>
    simp only [hpc] at hs
    split at hs
    all_goals
      cases hs
      apply Fresh.moveTo
      · exact h.frame rfl rfl rfl rfl (.inr rfl) rfl
      · simp
  | messagePuts message =>
    simp only [hpc] at hs
    split_ifs at hs
    all_goals
      cases hs
      apply Fresh.moveTo
      · exact h.frame rfl rfl rfl rfl (.inr rfl) rfl
      · simp
  | resetDrains before =>
    simp only [hpc] at hs
    split at hs
    · rename_i hegress
      cases hs
      exact h.drain hegress
    · rename_i packet egress hegress
      cases hs
      obtain ⟨hreturned, hresets, hqueue, hsending, hsent⟩ := h
      refine ⟨hreturned, hresets, ?_, hsending, hsent⟩
      intro p hp
      apply hqueue p
      rw [hegress]
      exact List.mem_cons_of_mem _ hp
  | resetClears before =>
    simp only [hpc, Option.some.injEq] at hs
    subst hs
    have hbefore := h.resets n before (.inl hpc)
    obtain ⟨hreturned, hresets, hegress, hsending, hsent⟩ := h
    refine ⟨hreturned, ?_, hegress, hsending, hsent⟩
    intro m before' hm
    unfold Gateway.moveTo at hm
    by_cases hmn : m = n
    · subst hmn
      simp only [Function.update_self, Caller.resetForgets.injEq, reduceCtorEq, false_or] at hm
      rw [← hm]
      exact hbefore
    · simp only [Function.update_of_ne hmn] at hm
      exact hresets m before' hm
  | resetForgets before =>
    simp only [hpc, Option.some.injEq] at hs hc
    subst hs
    apply Fresh.moveTo
    · have hbefore := h.resets n before (.inr hpc)
      refine ⟨max_le h.returned hbefore, h.resets, h.egress, ?_, h.sent⟩
      intro b hb
      exact max_le (h.sending b hb) (hc b hb)
    · simp

theorem Fresh.stepSender (h : Fresh s) {io : Io} (hc : s.discards (.sender io))
    (hs : s.stepSender c io = some s') : Fresh s' := by
  unfold Gateway.stepSender at hs
  unfold discards at hc
  cases hpc : s.sender with
  | top | readsPlayback | startsPlayback | marksPacket | takesStop | endsPlayback =>
    simp only [hpc, Option.some.injEq] at hs
    subst hs
    refine h.frame rfl rfl rfl rfl (.inl ?_) rfl
    first | rfl | (split_ifs <;> rfl) | (cases s.ttsStopMessage <;> rfl)
  | drainsMessages =>
    simp only [hpc] at hs
    split at hs
    all_goals
      cases hs
      exact h.frame rfl rfl rfl rfl (.inl rfl) rfl
  | judgesStop =>
    simp only [hpc] at hs
    cases hstop : s.ttsStopMessage with
    | none =>
      simp only [hstop, Option.some.injEq] at hs
      subst hs
      exact h.frame rfl rfl rfl rfl (.inl rfl) rfl
    | some message =>
      simp only [hstop] at hs
      split_ifs at hs
      all_goals
        cases hs
        exact h.frame rfl rfl rfl rfl (.inl rfl) rfl
  | sendsMessage message | sendsStop message =>
    simp only [hpc] at hs
    split_ifs at hs
    · cases hs
      obtain ⟨hreturned, hresets, hegress, -, hsent⟩ := h
      refine ⟨hreturned, hresets, hegress, by simp [Sender.sending, Newer], ?_⟩
      intro p floor hp
      exact hsent p floor (by simpa using hp)
    · cases hs
      exact h.frame rfl rfl rfl rfl (.inl rfl) rfl
  | checksPrebuffer playbackStarted shortReplyReady =>
    simp only [hpc] at hs
    split_ifs at hs
    all_goals
      cases hs
      exact h.frame rfl rfl rfl rfl (.inl rfl) rfl
  | takesPacket =>
    simp only [hpc] at hs
    split at hs
    · cases hs
      exact h.frame rfl rfl rfl rfl (.inl rfl) rfl
    · rename_i packet egress hegress
      cases hs
      have hpacket := h.egress packet (by rw [hegress]; exact List.mem_cons_self)
      refine ⟨h.returned, h.resets, ?_, hpacket.mono h.returned, h.sent⟩
      intro p hp
      exact h.egress p (by rw [hegress]; exact List.mem_cons_of_mem _ hp)
  | sendsPacket packet =>
    simp only [hpc] at hs
    split_ifs at hs
    · cases hs
      have hpacket := h.sending
      rw [hpc] at hpacket
      refine ⟨h.returned, h.resets, h.egress, by simp [Sender.sending, Newer], ?_⟩
      intro p floor hp
      rcases List.mem_append.mp hp with hp | hp
      · exact h.sent p floor hp
      · cases List.mem_singleton.mp hp
        exact hpacket
    · cases hs
      exact h.frame rfl rfl rfl rfl (.inl rfl) rfl
  | flushesTail =>
    simp only [hpc] at hs
    split_ifs at hs
    all_goals
      cases hs
      exact h.frame rfl rfl rfl rfl (.inl rfl) rfl
  | queuesTail tail =>
    simp only [hpc, Option.some.injEq] at hs hc
    subst hs
    refine (h.encodeAndQueue hc io.opus).frame rfl rfl rfl rfl (.inl ?_) rfl
    split_ifs <;> rfl
  | exited =>
    simp only [hpc] at hs
    cases hs

theorem Fresh.step (h : Fresh s) {a : Action} (hc : s.discards a)
    (hs : s.step c a = some s') : Fresh s' := by
  cases a with
  | connect clientId | disconnect | stop =>
    cases hs
    exact h.frame rfl rfl rfl rfl (.inr rfl) rfl
  | call n operation => exact h.call hs
  | caller n io => exact h.stepCaller hc hs
  | sender io => exact h.stepSender hc hs

end Gateway

/-- A clock, a transport and an encoder that always answer. -/
def Io.answering (now : ℤ) : Io := ⟨now, true, some []⟩

/-- `publish_audio` has cut its frame when the reset comes, and queues it after the reset has
returned. -/
def staleRun : List Action :=
  let io := Io.answering 0
  [Action.connect "", .call 0 (.publishAudio (List.replicate Config.default.pcmFrameBytes 1)),
    .caller 0 io, .caller 0 io,
    .call 1 .resetEgress, .caller 1 io, .caller 1 io, .caller 1 io,
    .caller 0 io, .caller 0 io, .caller 0 io] ++
  [Action.call 1 (.publishMessage ⟨some "tts", some "stop", none, []⟩), .caller 1 io, .caller 1 io,
    .caller 1 io] ++
  List.replicate 8 (Action.sender io)

/-- The reset comes first. -/
def freshRun : List Action :=
  let io := Io.answering 0
  [Action.connect "", .call 1 .resetEgress, .caller 1 io, .caller 1 io, .caller 1 io,
    .call 0 (.publishAudio (List.replicate Config.default.pcmFrameBytes 1)),
    .caller 0 io, .caller 0 io, .caller 0 io, .caller 0 io, .caller 0 io] ++
  [Action.call 1 (.publishMessage ⟨some "tts", some "stop", none, []⟩), .caller 1 io, .caller 1 io,
    .caller 1 io] ++
  List.replicate 8 (Action.sender io)

def Sent.stale : Sent → Bool
  | .message _ => false
  | .packet p returned => !decide (Newer returned p.pcm)

end Muxiva.Xiaozhi
