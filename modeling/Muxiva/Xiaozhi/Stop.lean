import Muxiva.Lib.Until
import Muxiva.Xiaozhi.Gateway

/-! When a requested stop is sent. The two timers are read only where the queue was found empty,
and the prebuffer gate lets the sender come there only once playback has started. -/
set_option linter.all false
namespace Muxiva.Xiaozhi

open Transition

/-- One iteration of `_ws_sender` by itself. -/
abbrev Iterates (c : Config) : (ℕ → Io) → Gateway → Gateway → Prop :=
  Until (Gateway.stepSender c) fun s => s.sender = .top

/-- A stop is pending, nothing is queued, and both timers have run out at every reading of the
clock; sends and the encoder succeed. -/
structure StopDue (c : Config) (answers : ℕ → Io) (s : Gateway) : Prop where
  running : s.stopped = false
  client : s.hasClient
  pending : s.ttsStopMessage.isSome
  empty : s.egress = []
  quiet : ∀ i, c.playbackStopGraceMs ≤
    (answers i).now - max s.ttsLastAudioAt s.ttsLastPacketSentAt
  timeout : ∀ i, c.noAudioStopTimeoutMs ≤ (answers i).now - s.ttsStopRequestedAt
  sends : ∀ i, (answers i).sent
  encodes : ∀ i, (answers i).opus.isSome

/-- Between `s` and `t` the pending stop was sent. -/
def SendsStop (s t : Gateway) : Prop :=
  ∃ message, s.ttsStopMessage = some message ∧ t.ttsStopMessage = none ∧
    .message message ∈ t.sent.drop s.sent.length

/-- Between `s` and `t` the partial frame became the packet in the queue. -/
def MovesTail (s t : Gateway) : Prop :=
  s.egressPcm ≠ [] ∧ t.egressPcm = [] ∧ ∃ opus, t.egress = [⟨opus, s.egressPcm⟩]

namespace StopDue

variable {c : Config} {answers : ℕ → Io} {s : Gateway}

theorem shift (h : StopDue c answers s) : StopDue c (fun i => answers (i + 1)) s :=
  ⟨h.running, h.client, h.pending, h.empty, fun i => h.quiet (i + 1), fun i => h.timeout (i + 1),
    fun i => h.sends (i + 1), fun i => h.encodes (i + 1)⟩

/-- The messages and the sender's place do not matter. -/
theorem congr (h : StopDue c answers s) (messages : List Payload) (sent : List Sent)
    (sender : Sender) : StopDue c answers { s with messages, sent, sender } :=
  ⟨h.running, h.client, h.pending, h.empty, h.quiet, h.timeout, h.sends, h.encodes⟩

/-- The messages go out first. -/
theorem drains {Q : Gateway → Prop} {messages : List Payload} :
    ∀ {answers : ℕ → Io} {s : Gateway}, StopDue c answers s → s.messages = messages →
      s.sender = .drainsMessages →
      (∀ answers, StopDue c answers s → ∃ t, Iterates c answers { s with
        messages := []
        sent := s.sent ++ messages.map .message
        sender := .readsPlayback } t ∧ Q t) →
      ∃ t, Iterates c answers s t ∧ Q t := by
  induction messages with
  | nil =>
    intro answers s h hmessages hsender hnext
    apply Until.exists_next (u := { s with sender := .readsPlayback })
    · simp [Gateway.stepSender, hsender, hmessages]
    · simp
    · have hrest := hnext _ h.shift
      rw [List.map_nil, List.append_nil, ← hmessages] at hrest
      exact hrest
  | cons message messages ih =>
    intro answers s h hmessages hsender hnext
    apply Until.exists_next (u := { s with messages, sender := .sendsMessage message })
    · simp [Gateway.stepSender, hsender, hmessages]
    · simp
    apply Until.exists_next (u := { s with
      messages
      sent := s.sent ++ [Sent.message message]
      sender := .drainsMessages })
    · have hclient : s.ws.isSome := h.client
      simp [Gateway.stepSender, Gateway.hasClient, hclient, h.sends]
    · simp
    apply ih (h.shift.shift.congr messages (s.sent ++ [Sent.message message]) .drainsMessages)
      rfl rfl
    intro answers h'
    have hrest := hnext answers (h'.congr s.messages s.sent s.sender)
    simpa using hrest

/-- Before playback has started the gate sends the loop back to its top. -/
theorem waits (h : StopDue c answers s) (hsender : s.sender = .readsPlayback)
    (hstarted : s.ttsPlaybackStarted = false) :
    ∃ t, Iterates c answers s t ∧ t.ttsStopMessage = s.ttsStopMessage ∧ t.egress = [] := by
  have hgate : 0 < c.prebufferFrames := by
    unfold Config.prebufferFrames Config.frames
    omega
  apply Until.exists_next (u := { s with
    sender := .checksPrebuffer false (s.ttsAudioSeen && s.ttsStopMessage.isSome) })
  · simp [Gateway.stepSender, hsender, hstarted]
  · simp
  · refine ⟨{ s with sender := .top }, .last ?_ rfl, rfl, h.empty⟩
    simp [Gateway.stepSender, h.empty, hgate]

/-- The stop goes out and playback is over. -/
theorem sendsStop {message : Payload} (hsender : s.sender = .sendsStop message)
    (hclient : s.ws.isSome) (hsends : ∀ i, (answers i).sent) (hnone : s.ttsStopMessage = none) :
    ∃ t, Iterates c answers s t ∧ t.ttsStopMessage = none ∧
      t.sent = s.sent ++ [Sent.message message] := by
  apply Until.exists_next (u := { s with
    sent := s.sent ++ [Sent.message message]
    sender := .endsPlayback })
  · simp [Gateway.stepSender, hsender, Gateway.hasClient, hclient, hsends]
  · simp
  · refine ⟨{ s with
      sent := s.sent ++ [Sent.message message]
      ttsPlaybackStarted := false
      ttsAudioSeen := false
      sender := .top }, .last ?_ rfl, hnone, rfl⟩
    simp [Gateway.stepSender]

/-- After playback has started the tail is queued, or else the stop goes out. -/
theorem acts (h : StopDue c answers s) (hsender : s.sender = .readsPlayback)
    (hstarted : s.ttsPlaybackStarted) {message : Payload}
    (hmessage : s.ttsStopMessage = some message) :
    ∃ t, Iterates c answers s t ∧
      (t.ttsStopMessage = none ∧ t.sent = s.sent ++ [Sent.message message] ∨ MovesTail s t) := by
  have hroom : 0 < c.egressFrames := by
    unfold Config.egressFrames Config.frames
    omega
  apply Until.exists_next (u := { s with
    sender := .checksPrebuffer true (s.ttsAudioSeen && s.ttsStopMessage.isSome) })
  · simp [Gateway.stepSender, hsender, hstarted]
  · simp
  apply Until.exists_next (u := { s with sender := .takesPacket })
  · simp [Gateway.stepSender]
  · simp
  apply Until.exists_next (u := { s with sender := .judgesStop })
  · simp [Gateway.stepSender, h.empty]
  · simp
  have hquiet := h.quiet 3
  have htimeout := h.timeout 3
  by_cases hseen : s.ttsAudioSeen
  · apply Until.exists_next (u := { s with sender := .flushesTail })
    · simp [Gateway.stepSender, hmessage, Gateway.audioDrained, hseen, hquiet]
    · simp
    by_cases htail : s.egressPcm = []
    · apply Until.exists_next (u := { s with sender := .takesStop })
      · simp [Gateway.stepSender, htail]
      · simp
      apply Until.exists_next (u := { s with
        ttsStopMessage := none
        ttsStopRequestedAt := 0
        sender := .sendsStop message })
      · simp [Gateway.stepSender, hmessage]
      · simp
      obtain ⟨t, ht, hnone, hsent⟩ := sendsStop (c := c) (s := { s with
        ttsStopMessage := none
        ttsStopRequestedAt := 0
        sender := .sendsStop message }) rfl h.client (fun i => h.sends (i + 6)) rfl
      exact ⟨t, ht, .inl ⟨hnone, hsent⟩⟩
    · apply Until.exists_next (u := { s with egressPcm := [], sender := .queuesTail s.egressPcm })
      · simp [Gateway.stepSender, htail]
      · simp
      obtain ⟨opus, hopus⟩ := Option.isSome_iff_exists.mp (h.encodes 5)
      refine ⟨{ s with egressPcm := [], egress := [⟨opus, s.egressPcm⟩], sender := .top },
        .last ?_ rfl, .inr ⟨htail, rfl, opus, rfl⟩⟩
      simp [Gateway.stepSender, Gateway.encodeAndQueue, hopus, h.empty, hroom]
  · apply Until.exists_next (u := { s with
      ttsStopMessage := none
      ttsStopRequestedAt := 0
      sender := .sendsStop message })
    · simp [Gateway.stepSender, hmessage, Gateway.audioDrained, Gateway.audioNeverArrived, hseen,
        htimeout]
    · simp
    obtain ⟨t, ht, hnone, hsent⟩ := sendsStop (c := c) (s := { s with
      ttsStopMessage := none
      ttsStopRequestedAt := 0
      sender := .sendsStop message }) rfl h.client (fun i => h.sends (i + 4)) rfl
    exact ⟨t, ht, .inl ⟨hnone, hsent⟩⟩

/-- From the top the sender goes through the messages to the prebuffer gate. -/
theorem enters (h : StopDue c answers s) (hsender : s.sender = .top) {Q : Gateway → Prop}
    (hnext : ∀ answers, StopDue c answers s → ∃ t, Iterates c answers { s with
      messages := []
      sent := s.sent ++ s.messages.map .message
      sender := .readsPlayback } t ∧ Q t) :
    ∃ t, Iterates c answers s t ∧ Q t := by
  apply Until.exists_next (u := { s with sender := .drainsMessages })
  · simp [Gateway.stepSender, hsender, h.running]
  · simp
  apply drains (h.shift.congr s.messages s.sent .drainsMessages) rfl rfl
  intro answers h'
  exact hnext answers (h'.congr s.messages s.sent s.sender)

theorem idles (h : StopDue c answers s) (hsender : s.sender = .top)
    (hstarted : s.ttsPlaybackStarted = false) :
    ∃ t, Iterates c answers s t ∧ ¬(SendsStop s t ∨ MovesTail s t) := by
  apply h.enters hsender
  intro answers h'
  obtain ⟨t, ht, hstop, hegress⟩ :=
    (h'.congr [] (s.sent ++ s.messages.map .message) .readsPlayback).waits rfl hstarted
  refine ⟨t, ht, ?_⟩
  rintro (⟨message, hmessage, hnone, -⟩ | ⟨-, -, opus, hmoved⟩)
  · rw [hstop] at hnone
    exact absurd (hmessage.symm.trans hnone) (Option.some_ne_none message)
  · rw [hegress] at hmoved
    cases hmoved

theorem proceeds (h : StopDue c answers s) (hsender : s.sender = .top)
    (hstarted : s.ttsPlaybackStarted) :
    ∃ t, Iterates c answers s t ∧ (SendsStop s t ∨ MovesTail s t) := by
  obtain ⟨message, hmessage⟩ := Option.isSome_iff_exists.mp h.pending
  apply h.enters hsender
  intro answers h'
  obtain ⟨t, ht, hacts⟩ :=
    (h'.congr [] (s.sent ++ s.messages.map .message) .readsPlayback).acts rfl hstarted hmessage
  refine ⟨t, ht, hacts.imp ?_ id⟩
  rintro ⟨hnone, hsent⟩
  refine ⟨message, hmessage, hnone, ?_⟩
  rw [hsent, List.append_assoc, List.drop_left]
  simp

end StopDue

/-- A due stop goes out, or the tail moves on, in one iteration exactly when playback has started;
without it the iteration does neither. -/
theorem stop_sent_iff (c : Config) (answers : ℕ → Io) (s : Gateway) (hsender : s.sender = .top)
    (h : StopDue c answers s) :
    (∃ t, Iterates c answers s t) ∧
    ∀ t, Iterates c answers s t → (SendsStop s t ∨ MovesTail s t ↔ s.ttsPlaybackStarted) := by
  cases hstarted : s.ttsPlaybackStarted with
  | false =>
    obtain ⟨t, ht, hnot⟩ := h.idles hsender hstarted
    refine ⟨⟨t, ht⟩, ?_⟩
    intro t' ht'
    rw [← ht.unique ht']
    simpa using hnot
  | true =>
    obtain ⟨t, ht, hacts⟩ := h.proceeds hsender hstarted
    refine ⟨⟨t, ht⟩, ?_⟩
    intro t' ht'
    rw [← ht.unique ht']
    simpa using hacts

/-- Playback has started and a stop is pending. -/
def drainedGateway : Gateway :=
  { Gateway.new with
    ws := some ""
    ttsAudioSeen := true
    ttsPlaybackStarted := true
    ttsStopMessage := some ⟨some "tts", some "stop", some "", []⟩ }

theorem stopDue_of_zero {s : Gateway} (hrunning : s.stopped = false) (hclient : s.hasClient)
    (hpending : s.ttsStopMessage.isSome) (hempty : s.egress = []) (haudio : s.ttsLastAudioAt = 0)
    (hpacket : s.ttsLastPacketSentAt = 0) (hrequested : s.ttsStopRequestedAt = 0) :
    StopDue .default (fun _ => ⟨5000, true, some []⟩) s := by
  refine ⟨hrunning, hclient, hpending, hempty, ?_, ?_, fun _ => rfl, fun _ => rfl⟩
  · intro i
    rw [haudio, hpacket]
    decide
  · intro i
    rw [hrequested]
    decide

theorem stop_sent_drained :
    drainedGateway.ttsPlaybackStarted ∧ ∃ t, Iterates .default (fun _ => ⟨5000, true, some []⟩)
      drainedGateway t ∧ (SendsStop drainedGateway t ∨ MovesTail drainedGateway t) := by
  obtain ⟨⟨t, ht⟩, hall⟩ := stop_sent_iff .default _ drainedGateway rfl
    (stopDue_of_zero rfl rfl rfl rfl rfl rfl rfl)
  exact ⟨rfl, t, ht, (hall t ht).mpr rfl⟩

/-- A reply without audio: its stop stays pending when every timer has run out. -/
theorem stop_stuck : ∃ s, (gatewaySystem .default).Reachable s ∧ s.sender = .top ∧
    StopDue .default (fun _ => ⟨5000, true, some []⟩) s ∧
    ∃ t, Iterates .default (fun _ => ⟨5000, true, some []⟩) s t ∧
      ¬(SendsStop s t ∨ MovesTail s t) := by
  obtain ⟨s, hr, hs⟩ := System.exists_reachable_of_run (M := gatewaySystem .default)
    (s := .new) rfl
    [.connect "", .call 0 (.publishMessage ⟨some "tts", some "stop", none, []⟩),
      .caller 0 ⟨0, true, none⟩, .caller 0 ⟨0, true, none⟩, .caller 0 ⟨0, true, none⟩]
    (fun s => s.sender == .top && !s.stopped && s.ws.isSome && s.ttsStopMessage.isSome &&
      s.egress.isEmpty && s.ttsLastAudioAt == 0 && s.ttsLastPacketSentAt == 0 &&
      s.ttsStopRequestedAt == 0 && !s.ttsPlaybackStarted) (by decide +kernel)
  simp only [Bool.and_eq_true, beq_iff_eq, Bool.not_eq_true', List.isEmpty_iff] at hs
  obtain ⟨⟨⟨⟨⟨⟨⟨⟨hsender, hrunning⟩, hclient⟩, hpending⟩, hempty⟩, haudio⟩, hpacket⟩, hrequested⟩,
    hstarted⟩ := hs
  have hdue := stopDue_of_zero hrunning hclient hpending hempty haudio hpacket hrequested
  exact ⟨s, hr, hsender, hdue, hdue.idles hsender hstarted⟩

end Muxiva.Xiaozhi
