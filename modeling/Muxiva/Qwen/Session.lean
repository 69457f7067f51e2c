import Muxiva.Lib.History
import Muxiva.Qwen.Responses

/-! Whole runs of the realtime node, with any frames, any events and any failures. -/
set_option linter.all false
namespace Muxiva.Qwen

open Transition Transition.System

/-- What only an event of the provider brings about. -/
def Entry.isReaction : Entry → Bool
  | .received _ => false
  | .append _ => false
  | .inputMetrics _ _ _ => false
  | .chunkMetrics _ => false
  | _ => true

def RealtimePhase.halted : RealtimePhase → Bool
  | .failed _ => true
  | .ended => true
  | _ => false

/-- Behind each event stands what it calls for, all of it unless the node came to its end there. -/
def Answered (c : RealtimeConfig) (log : List Entry) (halted : Bool) : Prop :=
  ∀ before e after, log = before ++ .received e :: after →
    reaction c before e <+: after ∧ ¬Faults c before e ∨
      halted = true ∧ after <+: reaction c before e

/-- The entry is part of what the last event calls for. -/
def Caused (c : RealtimeConfig) (before : List Entry) (x : Entry) : Prop :=
  x.isReaction = true → ∃ earlier e done, before = earlier ++ Entry.received e :: done ∧
    done ++ [x] <+: reaction c earlier e

/-- Entries that have nothing to do with the provider's events. -/
def Entry.isInput : Entry → Bool
  | .append _ => true
  | .inputMetrics _ _ _ => true
  | .chunkMetrics _ => true
  | _ => false

variable {c : RealtimeConfig} {log more : List Entry} {halted : Bool}

theorem Answered.input (h : Answered c log false) (hinput : ∀ x ∈ more, x.isInput = true) :
    Answered c (log ++ more) halted := by
  intro before e after heq
  rcases append_eq_append_cons heq with ⟨rest, hlog, rfl⟩ | ⟨skipped, -, hmore⟩
  · rcases h before e rest hlog with ⟨hpre, hfaults⟩ | ⟨hfalse, -⟩
    · exact .inl ⟨hpre.trans (List.prefix_append _ _), hfaults⟩
    · cases hfalse
  · have hfalse := hinput (.received e) (by rw [hmore]; simp)
    cases hfalse

theorem reaction_reacts (c : RealtimeConfig) (log : List Entry) (e : ServerEvent) :
    ∀ x ∈ reaction c log e, x.isReaction = true := by
  cases e with
  | audioDelta audio =>
    cases audio with
    | none =>
      intro x hx
      cases hx
    | some pcm =>
      rw [reaction]
      split <;> simp [Entry.isReaction]
  | responseCreated =>
    intro x hx
    cases hx
  | other =>
    intro x hx
    cases hx
  | speechStopped => simp [reaction, emitEvent, Entry.isReaction]
  | transcriptFailed message => simp [reaction, emitEvent, Entry.isReaction]
  | _ =>
    rw [reaction]
    split <;> simp [emitEvent, Entry.isReaction]

theorem Answered.react (h : Answered c log false) {e : ServerEvent} {effects : List Entry}
    (heffects : effects <+: reaction c log e)
    (hall : effects = reaction c log e ∧ ¬Faults c log e ∨ halted = true) :
    Answered c (log ++ .received e :: effects) halted := by
  intro before e' after heq
  rcases append_eq_append_cons heq with ⟨rest, hlog, rfl⟩ | ⟨skipped, rfl, hmore⟩
  · rcases h before e' rest hlog with ⟨hpre, hfaults⟩ | ⟨hfalse, -⟩
    · exact .inl ⟨hpre.trans (List.prefix_append _ _), hfaults⟩
    · cases hfalse
  · cases skipped with
    | nil =>
      cases hmore
      rw [List.append_nil]
      rcases hall with ⟨rfl, hfaults⟩ | hhalted
      · exact .inl ⟨List.prefix_refl _, hfaults⟩
      · exact .inr ⟨hhalted, heffects⟩
    | cons first skipped =>
      obtain ⟨-, htail⟩ := List.cons.inj hmore
      have hmem : Entry.received e' ∈ effects := by
        rw [htail]
        simp
      have hfalse := reaction_reacts c log e _ (heffects.subset hmem)
      cases hfalse

theorem caused_react (h : EachEntry (Caused c) log) {e : ServerEvent} {effects : List Entry}
    (heffects : effects <+: reaction c log e) :
    EachEntry (Caused c) (log ++ .received e :: effects) := by
  refine h.append fun before x after hmore hreaction => ?_
  cases before with
  | nil =>
    cases hmore
    cases hreaction
  | cons first before =>
    obtain ⟨rfl, rfl⟩ := List.cons.inj hmore
    refine ⟨log, e, before, rfl, ?_⟩
    refine List.IsPrefix.trans ?_ heffects
    exact ⟨after, by rw [List.append_assoc]; rfl⟩

theorem caused_input (h : EachEntry (Caused c) log) (hinput : ∀ x ∈ more, x.isInput = true) :
    EachEntry (Caused c) (log ++ more) := by
  refine h.append fun before x after hmore hreaction => ?_
  have hx := hinput x (by rw [hmore]; simp)
  cases x with
  | append pcm => cases hreaction
  | inputMetrics peak meanAbsolute nonSilent => cases hreaction
  | chunkMetrics bytes => cases hreaction
  | _ => cases hx

namespace RealtimeSession

structure Explained (c : RealtimeConfig) (s : RealtimeSession) : Prop where
  tracks : s.phase.halted = false → Tracks s.node s.log
  answered : Answered c s.log s.phase.halted
  caused : EachEntry (Caused c) s.log

variable {s s' : RealtimeSession}

theorem carryOut_halted (s : RealtimeSession) (o : Outcome) (taken : ℕ) (next : RealtimePhase) :
    (s.carryOut o taken next).phase.halted = false →
      o.effects.length ≤ taken ∧ o.raises = none := by
  unfold carryOut
  split_ifs with htaken
  · cases hraises : o.raises with
    | none => exact fun _ => ⟨htaken, rfl⟩
    | some failure => exact nofun
  · exact nofun

theorem carryOut_log (s : RealtimeSession) (o : Outcome) (taken : ℕ) (next : RealtimePhase) :
    (s.carryOut o taken next).log = s.log ++ o.effects.take taken := by
  unfold carryOut
  split_ifs with htaken
  · rw [List.take_of_length_le htaken]
  · rfl

theorem carryOut_node (s : RealtimeSession) {o : Outcome} {taken : ℕ} (next : RealtimePhase)
    (h : o.effects.length ≤ taken) : (s.carryOut o taken next).node = o.node := by
  rw [carryOut, if_pos h]

theorem Explained.event (h : Explained c s) (hhalted : s.phase.halted = false) (e : ServerEvent)
    (taken : ℕ) : Explained c (s.poll c (.event e) taken) := by
  have hreacts := (h.tracks hhalted).onEvent e (c := c)
  have hlog : (s.poll c (.event e) taken).log =
      s.log ++ .received e :: (reaction c s.log e).take taken := by
    rw [← hreacts.effects]
    change (RealtimeSession.carryOut _ _ _ _).log = _
    rw [carryOut_log, List.append_assoc]
    rfl
  have hdone : (s.poll c (.event e) taken).phase.halted = false →
      (s.node.onEvent c e).effects.length ≤ taken ∧ (s.node.onEvent c e).raises = none :=
    carryOut_halted _ _ _ _
  have hanswered : Answered c s.log false := by
    rw [← hhalted]
    exact h.answered
  constructor
  · intro hrunning
    obtain ⟨htaken, hraises⟩ := hdone hrunning
    have hnode : (s.poll c (.event e) taken).node = (s.node.onEvent c e).node :=
      carryOut_node _ _ htaken
    rw [hlog, hnode, ← hreacts.effects, List.take_of_length_le htaken]
    exact hreacts.tracks hraises
  · rw [hlog]
    refine hanswered.react (List.take_prefix _ _) ?_
    cases hphase : (s.poll c (.event e) taken).phase.halted with
    | true => exact .inr rfl
    | false =>
      obtain ⟨htaken, hraises⟩ := hdone hphase
      rw [hreacts.effects] at htaken
      exact .inl ⟨List.take_of_length_le htaken, hreacts.raises.mp hraises⟩
  · rw [hlog]
    exact caused_react h.caused (List.take_prefix _ _)

/-- A step of the input side leaves the fields about responses alone. -/
theorem Explained.carryOut (h : Explained c s) (hhalted : s.phase.halted = false) {o : Outcome}
    {next : RealtimePhase} (hinput : ∀ x ∈ o.effects, x.isInput = true)
    (hsame : o.node.responseFields = s.node.responseFields) (taken : ℕ) :
    Explained c (s.carryOut o taken next) := by
  have hanswered : Answered c s.log false := by
    rw [← hhalted]
    exact h.answered
  have htake : ∀ x ∈ o.effects.take taken, x.isInput = true :=
    fun x hx => hinput x (List.mem_of_mem_take hx)
  constructor
  · intro hrunning
    obtain ⟨htaken, -⟩ := carryOut_halted s o taken next hrunning
    rw [carryOut_node s next htaken, carryOut_log]
    refine (h.tracks hhalted).quiet ?_ hsame
    intro x hx
    have hx := htake x hx
    cases x with
    | append pcm => rfl
    | inputMetrics peak meanAbsolute nonSilent => rfl
    | chunkMetrics bytes => rfl
    | _ => cases hx
  · rw [carryOut_log]
    exact hanswered.input htake
  · rw [carryOut_log]
    exact caused_input h.caused htake

theorem Explained.idle (h : Explained c s) (hhalted : s.phase.halted = false)
    (node : QwenAudioRealtimeNode) (hsame : node.responseFields = s.node.responseFields)
    (phase : RealtimePhase) (accepted : List UInt8) :
    Explained c ⟨node, phase, s.log, accepted⟩ := by
  have hlog : s.log ++ [] = s.log := List.append_nil _
  have hquiet : ∀ x ∈ ([] : List Entry), x.isQuiet = true := nofun
  have hinput : ∀ x ∈ ([] : List Entry), x.isInput = true := nofun
  have hanswered : Answered c s.log false := by
    rw [← hhalted]
    exact h.answered
  constructor
  · intro _
    have htracks := (h.tracks hhalted).quiet hquiet hsame
    rwa [hlog] at htracks
  · have hagain : Answered c (s.log ++ []) phase.halted := hanswered.input hinput
    rwa [hlog] at hagain
  · exact h.caused

theorem takeFrame_spec (c : RealtimeConfig) (node : QwenAudioRealtimeNode)
    (sampleRateHz channels : ℕ) (data : List UInt8) :
    (∀ x ∈ (node.takeFrame c sampleRateHz channels data).effects, x.isInput = true) ∧
      (node.takeFrame c sampleRateHz channels data).node.responseFields = node.responseFields := by
  unfold QwenAudioRealtimeNode.takeFrame
  split_ifs <;> simp [QwenAudioRealtimeNode.responseFields, recordInputMetrics, Entry.isInput]

theorem sendChunk_spec (c : RealtimeConfig) (node : QwenAudioRealtimeNode) :
    (∀ x ∈ (node.sendChunk c).effects, x.isInput = true) ∧
      (node.sendChunk c).node.responseFields = node.responseFields := by
  simp only [QwenAudioRealtimeNode.sendChunk, audioAppend]
  split_ifs <;> simp [QwenAudioRealtimeNode.responseFields, Entry.isInput]

theorem Explained.step (h : Explained c s) {a : RealtimeAction}
    (hs : RealtimeSession.step c s a = some s') : Explained c s' := by
  cases a with
  | prepare =>
    simp only [RealtimeSession.step] at hs
    split_ifs at hs with hrest
    cases hs
    exact h.idle (by rw [hrest]; rfl) { s.node with prepared := true } rfl s.phase s.accepted
  | process sampleRateHz channels data taken =>
    simp only [RealtimeSession.step] at hs
    split_ifs at hs with hrest
    cases hs
    have hhalted : s.phase.halted = false := by
      rw [hrest]
      rfl
    obtain ⟨hinput, hsame⟩ := takeFrame_spec c s.node sampleRateHz channels data
    have hidle := h.idle hhalted s.node rfl s.phase (s.accepted ++
      if s.node.prepared ∧ sampleRateHz = 16000 ∧ channels = 1 then data else [])
    exact hidle.carryOut hhalted hinput hsame taken
  | send taken =>
    simp only [RealtimeSession.step] at hs
    split_ifs at hs with hchunk
    cases hs
    have hhalted : s.phase.halted = false := by
      simp only [hasChunk, Bool.and_eq_true, decide_eq_true_eq] at hchunk
      rw [hchunk.1]
      rfl
    obtain ⟨hinput, hsame⟩ := sendChunk_spec c s.node
    exact h.carryOut hhalted hinput hsame taken
  | poll polled taken =>
    simp only [RealtimeSession.step] at hs
    split_ifs at hs with hpolls
    cases hs
    have hhalted : s.phase.halted = false := by
      rcases hpolls with hphase | ⟨hphase, -⟩
      all_goals
        rw [hphase]
        rfl
    cases polled with
    | event e => exact h.event hhalted e taken
    | raises => exact h.idle hhalted s.node rfl (.failed .transport) s.accepted
    | done => exact h.idle hhalted s.node rfl .rest s.accepted
  | finish =>
    simp only [RealtimeSession.step] at hs
    split at hs
    next hphase =>
      cases hs
      exact h.idle (by rw [hphase]; rfl) { s.node with prepared := false } rfl .ended s.accepted
    next failure hphase =>
      cases hs
      refine ⟨nofun, ?_, h.caused⟩
      have hanswered := h.answered
      rw [hphase] at hanswered
      exact hanswered
    next => cases hs

end RealtimeSession

theorem explained_of_reachable {s : RealtimeSession} (hr : (audioRealtime c).Reachable s) :
    s.Explained c := by
  apply hr.invariant
  · rintro s rfl
    exact ⟨fun _ => tracks_new, fun before e after h => by simp [RealtimeSession.new] at h,
      EachEntry.nil _⟩
  · intro s a s' _ h hs
    exact h.step hs

/-- In every run the node does about an event what `reaction` says of the log before it, completely
and in order, and goes on; only at the end of its life can a reaction be cut short, or the event be
one that it must fail on. And whatever it says to the graph or to the provider, other than the audio
it forwards, is part of such a reaction. -/
theorem reactions (c : RealtimeConfig) (s : RealtimeSession) (hr : (audioRealtime c).Reachable s) :
    (∀ before e after, s.log = before ++ .received e :: after →
      reaction c before e <+: after ∧ ¬Faults c before e ∨
        s.phase.halted = true ∧ after <+: reaction c before e) ∧
    ∀ before (x : Entry) after, s.log = before ++ x :: after → x.isReaction = true →
      ∃ earlier e done, before = earlier ++ Entry.received e :: done ∧
        done ++ [x] <+: reaction c earlier e :=
  ⟨(explained_of_reachable hr).answered, (explained_of_reachable hr).caused⟩

/-- A response that is cancelled, and one that is completed. -/
def bargeRun : List RealtimeAction :=
  [.prepare, .process 16000 1 [1, 0] 1, .poll (.event .responseCreated) 0,
    .poll (.event (.textDelta ['a'])) 2, .poll (.event .speechStarted) 6,
    .poll (.event (.textDelta ['b'])) 0, .poll (.event .responseDone) 0,
    .poll (.event .responseCreated) 0, .poll (.event (.textDelta ['c'])) 2,
    .poll (.event (.audioDelta (some [1, 2]))) 1, .poll (.event .responseDone) 2, .poll .done 0]

theorem reactions_sample : ∃ s, (audioRealtime ⟨1, id⟩).Reachable s ∧ s.phase = .rest ∧
    reaction ⟨1, id⟩ (s.log.take 5) .speechStarted <+: s.log.drop 6 := by
  obtain ⟨s, hr, hs⟩ := exists_reachable_of_run (M := audioRealtime ⟨1, id⟩) (s := .new) rfl bargeRun
    (fun s => s.phase = .rest ∧ s.log = s.log.take 5 ++ .received .speechStarted :: s.log.drop 6)
    (by decide +kernel)
  obtain ⟨hrest, hlog⟩ := of_decide_eq_true hs
  refine ⟨s, hr, hrest, ?_⟩
  rcases (reactions ⟨1, id⟩ s hr).1 _ _ _ hlog with ⟨hpre, -⟩ | ⟨hhalted, -⟩
  · exact hpre
  · rw [hrest] at hhalted
    cases hhalted

theorem append_singleton_prefix_cons {α : Type*} {a x : α} {done rest : List α}
    (h : done ++ [x] <+: a :: rest) :
    done = [] ∧ x = a ∨ ∃ done', done = a :: done' ∧ done' ++ [x] <+: rest := by
  cases done with
  | nil =>
    obtain ⟨heq, -⟩ := List.cons_prefix_cons.mp h
    exact .inl ⟨rfl, heq⟩
  | cons b done =>
    obtain ⟨rfl, hrest⟩ := List.cons_prefix_cons.mp h
    exact .inr ⟨done, rfl, hrest⟩

/-- The entries that pass a response on. -/
def Entry.isOutput : Entry → Bool
  | .audio _ => true
  | .text _ => true
  | .event (.responseCompleted _ _) => true
  | .notification (.responseCompleted _ _) => true
  | .notification (.responseDelta _) => true
  | _ => false

/-- What an entry says about the log before it. -/
structure Justified (before : List Entry) (x : Entry) : Prop where
  output : x.isOutput = true → ¬Cancelled before
  cancel : x = .cancel → Speaking before
  completed : ∀ text audioBytes, x = .event (.responseCompleted text audioBytes) →
    text = spokenText before ∧ audioBytes = heardBytes before
  race : x.isRaceIgnored = true → MayRace before

/-- Most entries say nothing about it. -/
theorem Justified.of_other {before : List Entry} {x : Entry} (houtput : x.isOutput = false)
    (hcancel : x ≠ .cancel) (hrace : x.isRaceIgnored = false) : Justified before x := by
  refine ⟨?_, fun h => absurd h hcancel, ?_, ?_⟩
  · rw [houtput]
    exact nofun
  · rintro text audioBytes rfl
    cases houtput
  · rw [hrace]
    exact nofun

theorem Justified.of_output {earlier done : List Entry} {e : ServerEvent} {x : Entry}
    (hnot : ¬Cancelled earlier) (hcreated : ∀ y ∈ Entry.received e :: done, y.isCreated = false)
    (hdone : .cancel ∉ done) (hcancel : x ≠ .cancel) (hrace : x.isRaceIgnored = false)
    (hcompleted : ∀ text audioBytes, x = .event (.responseCompleted text audioBytes) →
      done = [] ∧ text = spokenText earlier ∧ audioBytes = heardBytes earlier) :
    Justified (earlier ++ .received e :: done) x := by
  refine ⟨fun _ => ?_, fun h => absurd h hcancel, ?_, ?_⟩
  · rw [cancelled_append hcreated]
    rintro (hc | hc)
    · exact hnot hc
    · rcases List.mem_cons.mp hc with heq | hmem
      · cases heq
      · exact hdone hmem
  · intro text audioBytes hx
    obtain ⟨rfl, htext, hbytes⟩ := hcompleted text audioBytes hx
    rw [spokenText_append hcreated, heardBytes_append hcreated]
    exact ⟨htext.trans (List.append_nil _).symm, hbytes⟩
  · rw [hrace]
    exact nofun

theorem reaction_justified {earlier done : List Entry} {e : ServerEvent} {x : Entry}
    (h : done ++ [x] <+: reaction c earlier e) : Justified (earlier ++ .received e :: done) x := by
  have hmem : x ∈ reaction c earlier e := h.subset (by simp)
  cases e with
  | responseDone =>
    rw [reaction] at h
    split at h
    next => simp at h
    next hnot =>
      have hcreated : ∀ y ∈ [Entry.received .responseDone], y.isCreated = false := by decide
      rcases append_singleton_prefix_cons h with ⟨rfl, rfl⟩ | ⟨done', rfl, hrest⟩
      · refine Justified.of_output hnot hcreated List.not_mem_nil Entry.noConfusion rfl ?_
        intro text audioBytes heq
        cases heq
        exact ⟨rfl, rfl, rfl⟩
      · rcases append_singleton_prefix_cons hrest with ⟨rfl, rfl⟩ | ⟨done', rfl, hrest⟩
        · refine Justified.of_output hnot ?_ (by simp) Entry.noConfusion rfl
            fun _ _ => Entry.noConfusion
          simp [Entry.isCreated]
        · simp at hrest
  | speechStarted =>
    rw [reaction] at h
    split at h
    next hspeaking =>
      rcases append_singleton_prefix_cons h with ⟨rfl, rfl⟩ | ⟨done', rfl, hrest⟩
      · refine ⟨fun hfalse => absurd hfalse Bool.false_ne_true, fun _ => ?_,
          fun _ _ => Entry.noConfusion, fun hfalse => absurd hfalse Bool.false_ne_true⟩
        rw [speaking_append (by decide)]
        exact ⟨hspeaking, by decide, by decide⟩
      · have hx : x ∈ _ := hrest.subset (by simp)
        have hother : ∀ y ∈ [Entry.signal] ++ emitEvent .speechStarted ++ emitEvent .bargeIn,
            y.isOutput = false ∧ y ≠ .cancel ∧ y.isRaceIgnored = false := by decide
        obtain ⟨houtput, hcancel, hrace⟩ := hother x hx
        exact Justified.of_other houtput hcancel hrace
    next =>
      have hother : ∀ y ∈ [Entry.signal] ++ emitEvent .speechStarted,
          y.isOutput = false ∧ y ≠ .cancel ∧ y.isRaceIgnored = false := by decide
      obtain ⟨houtput, hcancel, hrace⟩ := hother x (h.subset (by simp))
      exact Justified.of_other houtput hcancel hrace
  | audioDelta audio =>
    cases audio with
    | none => cases hmem
    | some pcm =>
      rw [reaction] at h
      split at h
      next hp =>
        rcases append_singleton_prefix_cons h with ⟨rfl, rfl⟩ | ⟨done', rfl, hrest⟩
        · exact Justified.of_output hp.1 (by simp [Entry.isCreated]) List.not_mem_nil
            Entry.noConfusion rfl fun _ _ => Entry.noConfusion
        · simp at hrest
      next => simp at h
  | textDelta delta =>
    rw [reaction] at h
    split at h
    next => simp at h
    next hnot =>
      have hnot : ¬Cancelled earlier := fun hc => hnot (.inl hc)
      rcases append_singleton_prefix_cons h with ⟨rfl, rfl⟩ | ⟨done', rfl, hrest⟩
      · exact Justified.of_output hnot (by simp [Entry.isCreated]) List.not_mem_nil
          Entry.noConfusion rfl fun _ _ => Entry.noConfusion
      · rcases append_singleton_prefix_cons hrest with ⟨rfl, rfl⟩ | ⟨done', rfl, hrest⟩
        · exact Justified.of_output hnot (by simp [Entry.isCreated]) (by simp) Entry.noConfusion rfl
            fun _ _ => Entry.noConfusion
        · simp at hrest
  | error code message =>
    rw [reaction] at h
    split at h
    next hrace =>
      rcases append_singleton_prefix_cons h with ⟨rfl, rfl⟩ | ⟨done', rfl, hrest⟩
      · refine ⟨fun hfalse => absurd hfalse Bool.false_ne_true, Entry.noConfusion,
          fun _ _ => Entry.noConfusion, fun _ => ?_⟩
        rw [mayRace_append (by simp [Entry.isCreated])]
        exact ⟨.inl hrace.1.1, hrace.1.2, by simp [Entry.isRaceIgnored]⟩
      · simp at hrest
    next => simp at h
  | responseCreated => cases hmem
  | other => cases hmem
  | speechStopped =>
    rcases List.mem_pair.mp hmem with rfl | rfl
    all_goals exact Justified.of_other rfl Entry.noConfusion rfl
  | transcriptFailed message =>
    rcases List.mem_pair.mp hmem with rfl | rfl
    all_goals exact Justified.of_other rfl Entry.noConfusion rfl
  | transcriptDelta text stash =>
    rw [reaction] at hmem
    split at hmem
    next => cases hmem
    next =>
      rcases List.mem_pair.mp hmem with rfl | rfl
      all_goals exact Justified.of_other rfl Entry.noConfusion rfl
  | transcriptCompleted transcript =>
    rw [reaction] at hmem
    split at hmem
    next => cases hmem
    next =>
      rcases List.mem_pair.mp hmem with rfl | rfl
      all_goals exact Justified.of_other rfl Entry.noConfusion rfl

/-- Barge-in. From a cancellation to the next `response.created` no audio, text, delta or completion
of a response is passed on; a response is cancelled only while the provider speaks, so at most once;
a completion carries all the text and counts all the audio emitted for its response; and an error is
overlooked only where a cancellation may have come too late, and only once for each. -/
theorem barge_in (c : RealtimeConfig) (s : RealtimeSession) (hr : (audioRealtime c).Reachable s)
    (before : List Entry) (x : Entry) (after : List Entry) (hlog : s.log = before ++ x :: after) :
    (x.isOutput = true → ¬Cancelled before) ∧
    (x = .cancel → Speaking before) ∧
    (∀ text audioBytes, x = .event (.responseCompleted text audioBytes) →
      text = spokenText before ∧ audioBytes = heardBytes before) ∧
    (x.isRaceIgnored = true → MayRace before) := by
  have hjustified : Justified before x := by
    by_cases hreaction : x.isReaction = true
    · obtain ⟨earlier, e, done, rfl, hpre⟩ :=
        (explained_of_reachable hr).caused before x after hlog hreaction
      exact reaction_justified hpre
    · cases x with
      | received e => exact Justified.of_other rfl nofun rfl
      | append pcm => exact Justified.of_other rfl nofun rfl
      | inputMetrics peak meanAbsolute nonSilent => exact Justified.of_other rfl nofun rfl
      | chunkMetrics bytes => exact Justified.of_other rfl nofun rfl
      | _ => exact absurd rfl hreaction
  exact ⟨hjustified.output, hjustified.cancel, hjustified.completed, hjustified.race⟩

theorem barge_in_sample : ∃ s, (audioRealtime ⟨1, id⟩).Reachable s ∧
    ¬Cancelled (s.log.take 21) ∧ spokenText (s.log.take 21) = ['c'] ∧
      heardBytes (s.log.take 21) = 2 := by
  obtain ⟨s, hr, hs⟩ := exists_reachable_of_run (M := audioRealtime ⟨1, id⟩) (s := .new) rfl bargeRun
    (fun s => s.log = s.log.take 21 ++ .event (.responseCompleted ['c'] 2) :: s.log.drop 22)
    (by decide +kernel)
  have hbarge := barge_in ⟨1, id⟩ s hr _ _ _ (of_decide_eq_true hs)
  obtain ⟨htext, hbytes⟩ := hbarge.2.2.1 _ _ rfl
  exact ⟨s, hr, hbarge.1 rfl, htext.symm, hbytes.symm⟩

end Muxiva.Qwen
