import Muxiva.Qwen.Session

/-! The PCM on its way to the provider: chunks of one size, in order, nothing lost, and never so
much held back that another chunk could be sent. -/
set_option linter.all false
namespace Muxiva.Qwen

open Transition Transition.System

def Entry.appended : Entry → Option (List UInt8)
  | .append pcm => some pcm
  | _ => none

/-- The chunks sent. -/
def appended (log : List Entry) : List (List UInt8) := log.filterMap Entry.appended

theorem appended_append (log more : List Entry) :
    appended (log ++ more) = appended log ++ appended more := List.filterMap_append

theorem appended_reaction (c : RealtimeConfig) (log : List Entry) (e : ServerEvent) (n : ℕ) :
    appended (.received e :: (reaction c log e).take n) = [] := by
  unfold appended
  rw [List.filterMap_cons_none rfl, List.filterMap_eq_nil_iff]
  intro x hx
  have hreaction := reaction_reacts c log e x (List.mem_of_mem_take hx)
  cases x with
  | append pcm => cases hreaction
  | _ => rfl

namespace RealtimeSession

/-- The node holds what was accepted and not sent, and its counters are right. -/
structure Held (node : QwenAudioRealtimeNode) (sent : List (List UInt8)) (accepted : List UInt8) :
    Prop where
  audio : sent.flatten ++ node.inputAudio = accepted
  count : node.audioChunksSent = sent.length
  bytes : node.audioBytesSent = sent.flatten.length

structure Fed (c : RealtimeConfig) (s : RealtimeSession) : Prop where
  sizes : ∀ pcm ∈ appended s.log, (pcm.length : ℤ) = c.chunkBytes
  begun : (appended s.log).flatten <+: s.accepted
  held : s.phase.halted = false → Held s.node (appended s.log) s.accepted
  short : s.phase = .rest ∨ s.phase = .polls →
    s.node.inputAudio = [] ∨ (s.node.inputAudio.length : ℤ) < c.chunkBytes
  valid : s.phase = .chunks → 0 < c.chunkBytes ∧ c.chunkBytes ≤ 64 * 1024

variable {c : RealtimeConfig} {s s' : RealtimeSession}

theorem fed_new : Fed c .new :=
  ⟨nofun, List.nil_prefix, fun _ => ⟨rfl, rfl, rfl⟩, fun _ => .inl rfl, nofun⟩

theorem carryOut_phase (s : RealtimeSession) (o : Outcome) (taken : ℕ) (next : RealtimePhase)
    (h : (s.carryOut o taken next).phase.halted = false) :
    (s.carryOut o taken next).phase = next ∧ o.raises = none ∧
      (s.carryOut o taken next).node = o.node ∧ (s.carryOut o taken next).log = s.log ++ o.effects := by
  obtain ⟨htaken, hraises⟩ := carryOut_halted s o taken next h
  refine ⟨?_, hraises, carryOut_node s next htaken, ?_⟩
  · rw [carryOut, if_pos htaken, hraises]
  · rw [carryOut_log, List.take_of_length_le htaken]

theorem carryOut_accepted (s : RealtimeSession) (o : Outcome) (taken : ℕ) (next : RealtimePhase) :
    (s.carryOut o taken next).accepted = s.accepted := by
  unfold carryOut
  split <;> rfl

theorem fed_carryOut {o : Outcome} {taken : ℕ} {next : RealtimePhase}
    (hsizes : ∀ pcm ∈ appended (s.log ++ o.effects.take taken), (pcm.length : ℤ) = c.chunkBytes)
    (hbegun : (appended (s.log ++ o.effects.take taken)).flatten <+: s.accepted)
    (hheld : o.raises = none → Held o.node (appended (s.log ++ o.effects)) s.accepted)
    (hshort : o.raises = none → next = .rest ∨ next = .polls →
      o.node.inputAudio = [] ∨ (o.node.inputAudio.length : ℤ) < c.chunkBytes)
    (hvalid : o.raises = none → next = .chunks → 0 < c.chunkBytes ∧ c.chunkBytes ≤ 64 * 1024) :
    Fed c (s.carryOut o taken next) := by
  have hphase := carryOut_phase s o taken next
  constructor
  · rw [carryOut_log]
    exact hsizes
  · rw [carryOut_log, carryOut_accepted]
    exact hbegun
  · intro hrunning
    obtain ⟨-, hraises, hnode, hlog⟩ := hphase hrunning
    rw [hnode, hlog, carryOut_accepted]
    exact hheld hraises
  · intro hat
    obtain ⟨hnext, hraises, hnode, -⟩ := hphase (by rcases hat with h | h <;> rw [h] <;> rfl)
    rw [hnode]
    rw [hnext] at hat
    exact hshort hraises hat
  · intro hat
    obtain ⟨hnext, hraises, -, -⟩ := hphase (by rw [hat]; rfl)
    rw [hnext] at hat
    exact hvalid hraises hat

theorem Fed.process (h : Fed c s) (hrest : s.phase = .rest) (sampleRateHz channels : ℕ)
    (data : List UInt8) (taken : ℕ) : Fed c (s.process c sampleRateHz channels data taken) := by
  obtain ⟨haudio, hchunks, hbytes⟩ := h.held (by rw [hrest]; rfl)
  have hsilent : ∀ xs : List Entry, appended xs = [] → appended (s.log ++ xs) = appended s.log := by
    intro xs hxs
    rw [appended_append, hxs, List.append_nil]
  have hmetrics : appended [recordInputMetrics data] = [] := rfl
  have htake : appended ([recordInputMetrics data].take taken) = [] := by
    cases taken with
    | zero => rfl
    | succ n =>
      rw [List.take_of_length_le (by simp)]
      rfl
  by_cases hprepared : s.node.prepared = true
  · by_cases hformat : sampleRateHz = 16000 ∧ channels = 1
    · rw [RealtimeSession.process, if_pos ⟨hprepared, hformat⟩, QwenAudioRealtimeNode.takeFrame,
        hprepared, if_neg (by simp), if_neg (by simp [hformat])]
      apply fed_carryOut
      · rw [hsilent _ htake]
        exact h.sizes
      · rw [hsilent _ htake]
        exact h.begun.trans (List.prefix_append _ _)
      · intro _
        rw [hsilent _ hmetrics]
        refine ⟨?_, hchunks, hbytes⟩
        rw [← List.append_assoc, haudio]
      · exact fun _ => nofun
      · intro hraises _
        by_contra hbad
        rw [if_pos (by omega)] at hraises
        cases hraises
    · have htakes : s.node.takeFrame c sampleRateHz channels data = ⟨s.node, [], some .inputFormat⟩ := by
        rw [QwenAudioRealtimeNode.takeFrame, hprepared, if_neg (by simp), if_pos]
        by_contra hboth
        rw [not_or, not_ne_iff, not_ne_iff] at hboth
        exact hformat hboth
      rw [RealtimeSession.process, htakes, if_neg (fun hall => hformat hall.2), List.append_nil]
      apply fed_carryOut
      · rw [List.take_nil, List.append_nil]
        exact h.sizes
      · rw [List.take_nil, List.append_nil]
        exact h.begun
      · exact nofun
      · exact nofun
      · exact nofun
  · have htakes : s.node.takeFrame c sampleRateHz channels data = ⟨s.node, [], some .notPrepared⟩ := by
      rw [QwenAudioRealtimeNode.takeFrame, if_pos (by simpa using hprepared)]
    rw [RealtimeSession.process, htakes, if_neg (fun hall => hprepared hall.1), List.append_nil]
    apply fed_carryOut
    · rw [List.take_nil, List.append_nil]
      exact h.sizes
    · rw [List.take_nil, List.append_nil]
      exact h.begun
    · exact nofun
    · exact nofun
    · exact nofun

theorem Fed.send (h : Fed c s) (hchunk : s.hasChunk c = true) (taken : ℕ) :
    Fed c (s.carryOut (s.node.sendChunk c) taken .chunks) := by
  simp only [hasChunk, Bool.and_eq_true, decide_eq_true_eq] at hchunk
  obtain ⟨hphase, hlong⟩ := hchunk
  obtain ⟨hpos, hmax⟩ := h.valid hphase
  obtain ⟨haudio, hchunks, hbytes⟩ := h.held (by rw [hphase]; rfl)
  have hlength : (s.node.inputAudio.take c.chunkBytes.toNat).length = c.chunkBytes.toNat := by
    rw [List.length_take]
    omega
  have happend : audioAppend (s.node.inputAudio.take c.chunkBytes.toNat) =
      .ok (.append (s.node.inputAudio.take c.chunkBytes.toNat)) := by
    rw [audioAppend, if_neg]
    rintro (hnil | hbig)
    · rw [hnil, List.length_nil] at hlength
      omega
    · omega
  have hcut := List.take_append_drop c.chunkBytes.toNat s.node.inputAudio
  generalize hpcm : s.node.inputAudio.take c.chunkBytes.toNat = chunk at hlength happend hcut
  have hsend : s.node.sendChunk c =
      ⟨{ s.node with
          inputAudio := s.node.inputAudio.drop c.chunkBytes.toNat
          audioChunksSent := s.node.audioChunksSent + 1
          audioBytesSent := s.node.audioBytesSent + chunk.length },
        [.append chunk, .chunkMetrics chunk.length], none⟩ := by
    simp only [QwenAudioRealtimeNode.sendChunk, hpcm, happend]
  have hboth : appended (s.log ++ [Entry.append chunk, .chunkMetrics chunk.length]) =
      appended s.log ++ [chunk] := appended_append _ _
  have hbegun : ((appended s.log) ++ [chunk]).flatten <+: s.accepted := by
    rw [List.flatten_append, List.flatten_singleton, ← haudio, ← hcut]
    exact (List.prefix_append_right_inj _).mpr (List.prefix_append _ _)
  have hone : appended (s.log ++ [Entry.append chunk, .chunkMetrics chunk.length].take taken) =
      appended s.log ∨
      appended (s.log ++ [Entry.append chunk, .chunkMetrics chunk.length].take taken) =
        appended s.log ++ [chunk] := by
    rcases taken with - | - | taken
    · left
      rw [List.take_zero, List.append_nil]
    · exact .inr (appended_append _ _)
    · right
      rw [List.take_of_length_le (by simp)]
      exact hboth
  rw [hsend]
  apply fed_carryOut
  · rcases hone with hone | hone
    · rw [hone]
      exact h.sizes
    · rw [hone, List.forall_mem_append]
      refine ⟨h.sizes, ?_⟩
      intro pcm hmem
      rw [List.mem_singleton.mp hmem]
      omega
  · rcases hone with hone | hone
    · rw [hone]
      exact h.begun
    · rw [hone]
      exact hbegun
  · intro _
    rw [hboth]
    constructor
    · rw [List.flatten_append, List.flatten_singleton, List.append_assoc, hcut]
      exact haudio
    · rw [List.length_append, List.length_singleton, ← hchunks]
    · rw [List.flatten_append, List.flatten_singleton, List.length_append, ← hbytes]
  · intro _ hat
    rcases hat with hat | hat
    all_goals cases hat
  · exact fun _ _ => ⟨hpos, hmax⟩

theorem onEvent_input (c : RealtimeConfig) (node : QwenAudioRealtimeNode) (e : ServerEvent) :
    (node.onEvent c e).node.inputAudio = node.inputAudio ∧
      (node.onEvent c e).node.audioChunksSent = node.audioChunksSent ∧
      (node.onEvent c e).node.audioBytesSent = node.audioBytesSent := by
  cases e with
  | speechStarted =>
    simp only [QwenAudioRealtimeNode.onEvent, QwenAudioRealtimeNode.speechStarted]
    split <;> exact ⟨rfl, rfl, rfl⟩
  | audioDelta audio =>
    simp only [QwenAudioRealtimeNode.onEvent, QwenAudioRealtimeNode.audioDelta]
    split
    · exact ⟨rfl, rfl, rfl⟩
    · cases audio with
      | none => exact ⟨rfl, rfl, rfl⟩
      | some pcm =>
        dsimp only
        split <;> exact ⟨rfl, rfl, rfl⟩
  | textDelta delta =>
    simp only [QwenAudioRealtimeNode.onEvent, QwenAudioRealtimeNode.textDelta]
    split <;> exact ⟨rfl, rfl, rfl⟩
  | error code message =>
    simp only [QwenAudioRealtimeNode.onEvent, QwenAudioRealtimeNode.onError]
    split <;> exact ⟨rfl, rfl, rfl⟩
  | transcriptDelta text stash =>
    simp only [QwenAudioRealtimeNode.onEvent]
    split <;> exact ⟨rfl, rfl, rfl⟩
  | transcriptCompleted transcript =>
    simp only [QwenAudioRealtimeNode.onEvent]
    split <;> exact ⟨rfl, rfl, rfl⟩
  | _ => exact ⟨rfl, rfl, rfl⟩

theorem Fed.event (h : Fed c s) (hexplained : Explained c s) (hhalted : s.phase.halted = false)
    (hshort : s.node.inputAudio = [] ∨ (s.node.inputAudio.length : ℤ) < c.chunkBytes)
    (e : ServerEvent) (taken : ℕ) : Fed c (s.poll c (.event e) taken) := by
  obtain ⟨haudio, hchunks, hbytes⟩ := h.held hhalted
  obtain ⟨hinput, hcount, hsum⟩ := onEvent_input c s.node e
  have heffects := ((hexplained.tracks hhalted).onEvent e (c := c)).effects
  have hsame : ∀ n, appended ((s.log ++ [Entry.received e]) ++ (s.node.onEvent c e).effects.take n) =
      appended s.log := by
    intro n
    have hreaction := appended_reaction c s.log e n
    rw [← heffects] at hreaction
    rw [List.append_assoc, appended_append]
    exact (congrArg (appended s.log ++ ·) hreaction).trans (List.append_nil _)
  have hall : appended ((s.log ++ [Entry.received e]) ++ (s.node.onEvent c e).effects) =
      appended s.log := by
    have hfull := hsame (s.node.onEvent c e).effects.length
    rwa [List.take_length] at hfull
  apply fed_carryOut
  · rw [hsame]
    exact h.sizes
  · rw [hsame]
    exact h.begun
  · intro _
    rw [hall]
    exact ⟨by rw [hinput]; exact haudio, by rw [hcount]; exact hchunks, by rw [hsum]; exact hbytes⟩
  · intro _ _
    rw [hinput]
    exact hshort
  · exact fun _ => nofun

/-- A session that has failed or ended holds nothing any more. -/
theorem Fed.halts (h : Fed c s) (node : QwenAudioRealtimeNode) {phase : RealtimePhase}
    (hhalted : phase.halted = true) : Fed c ⟨node, phase, s.log, s.accepted⟩ := by
  refine ⟨h.sizes, h.begun, ?_, ?_, ?_⟩
  · intro hfalse
    have hfalse : phase.halted = false := hfalse
    rw [hhalted] at hfalse
    cases hfalse
  · intro hat
    have hat : phase = .rest ∨ phase = .polls := hat
    rcases hat with rfl | rfl
    all_goals cases hhalted
  · intro hat
    have hat : phase = .chunks := hat
    rw [hat] at hhalted
    cases hhalted

theorem Fed.step (h : Fed c s) (hexplained : Explained c s) {a : RealtimeAction}
    (hs : RealtimeSession.step c s a = some s') : Fed c s' := by
  cases a with
  | prepare =>
    simp only [RealtimeSession.step] at hs
    split_ifs at hs
    cases hs
    exact ⟨h.sizes, h.begun, fun hhalted => ⟨(h.held hhalted).audio, (h.held hhalted).count,
      (h.held hhalted).bytes⟩, h.short, h.valid⟩
  | process sampleRateHz channels data taken =>
    simp only [RealtimeSession.step] at hs
    split_ifs at hs with hrest
    cases hs
    exact h.process hrest sampleRateHz channels data taken
  | send taken =>
    simp only [RealtimeSession.step] at hs
    split_ifs at hs with hchunk
    cases hs
    exact h.send hchunk taken
  | poll polled taken =>
    simp only [RealtimeSession.step] at hs
    split_ifs at hs with hpolls
    cases hs
    have hhalted : s.phase.halted = false := by
      rcases hpolls with hphase | ⟨hphase, -⟩
      all_goals
        rw [hphase]
        rfl
    have hshort : s.node.inputAudio = [] ∨ (s.node.inputAudio.length : ℤ) < c.chunkBytes := by
      rcases hpolls with hphase | ⟨hphase, hnone⟩
      · exact h.short (.inr hphase)
      · right
        simp only [hasChunk, hphase, decide_true, Bool.true_and, decide_eq_false_iff_not] at hnone
        omega
    cases polled with
    | event e => exact h.event hexplained hhalted hshort e taken
    | raises => exact h.halts s.node rfl
    | done =>
      refine ⟨h.sizes, h.begun, fun _ => h.held hhalted, fun _ => hshort, ?_⟩
      intro hat
      cases hat
  | finish =>
    simp only [RealtimeSession.step] at hs
    split at hs
    next =>
      cases hs
      exact h.halts _ rfl
    next =>
      cases hs
      exact h.halts _ rfl
    next => cases hs

end RealtimeSession

/-- In every run the provider is sent chunks of exactly the configured size whose bytes are, one
after another, a beginning of the PCM accepted; and between two calls the node holds exactly the
bytes behind them, too few for another chunk, and has counted the chunks and their bytes. -/
theorem input_chunked (c : RealtimeConfig) (s : RealtimeSession)
    (hr : (audioRealtime c).Reachable s) :
    (∀ pcm ∈ appended s.log, (pcm.length : ℤ) = c.chunkBytes) ∧
    (appended s.log).flatten <+: s.accepted ∧
    (s.phase = .rest →
      (appended s.log).flatten ++ s.node.inputAudio = s.accepted ∧
      (s.node.inputAudio = [] ∨ (s.node.inputAudio.length : ℤ) < c.chunkBytes) ∧
      s.node.audioChunksSent = (appended s.log).length ∧
      s.node.audioBytesSent = (appended s.log).flatten.length) := by
  have hfed : s.Fed c := by
    apply hr.invariant
    · rintro s rfl
      exact RealtimeSession.fed_new
    · intro s a s' hreachable h hs
      exact h.step (explained_of_reachable hreachable) hs
  refine ⟨hfed.sizes, hfed.begun, ?_⟩
  intro hrest
  obtain ⟨haudio, hchunks, hbytes⟩ := hfed.held (by rw [hrest]; rfl)
  exact ⟨haudio, hfed.short (.inl hrest), hchunks, hbytes⟩

/-- Two frames of 20 bytes in chunks of 32. -/
def chunkRun : List RealtimeAction :=
  [.prepare, .process 16000 1 (List.replicate 20 1) 1, .poll .done 0,
    .process 16000 1 (List.replicate 20 2) 1, .send 2, .poll .done 0]

theorem input_chunked_sample : ∃ s, (audioRealtime ⟨1, id⟩).Reachable s ∧
    (appended s.log).length = 1 ∧
    (appended s.log).flatten ++ s.node.inputAudio = List.replicate 20 1 ++ List.replicate 20 2 := by
  obtain ⟨s, hr, hs⟩ := exists_reachable_of_run (M := audioRealtime ⟨1, id⟩) (s := .new) rfl chunkRun
    (fun s => s.phase = .rest ∧ (appended s.log).length = 1 ∧
      s.accepted = List.replicate 20 1 ++ List.replicate 20 2)
    (by decide +kernel)
  obtain ⟨hrest, hlength, haccepted⟩ := of_decide_eq_true hs
  obtain ⟨haudio, -, -, -⟩ := (input_chunked ⟨1, id⟩ s hr).2.2 hrest
  exact ⟨s, hr, hlength, haudio.trans haccepted⟩

end Muxiva.Qwen
