import Muxiva.Qwen.AudioRealtime

/-! What the node says is a function of what it has read and said before. A response is what lies
behind the last `response.created`; once the node has cancelled it nothing of it is passed on. -/
set_option linter.all false
namespace Muxiva.Qwen

def Entry.isCreated (e : Entry) : Bool := e = .received .responseCreated

/-- The entries behind the last `response.created`. -/
def response (log : List Entry) : List Entry := log.rtakeWhile fun e => !e.isCreated

def Entry.spoken : Entry → Text
  | .text t => t
  | _ => []

def Entry.heard : Entry → ℕ
  | .audio pcm => pcm.length
  | _ => 0

def Entry.isRaceIgnored : Entry → Bool
  | .raceIgnored _ => true
  | _ => false

/-- The text emitted for the response. -/
def spokenText (log : List Entry) : Text := (response log).flatMap Entry.spoken

/-- The bytes of audio emitted for the response. -/
def heardBytes (log : List Entry) : ℕ := ((response log).map Entry.heard).sum

def Cancelled (log : List Entry) : Prop := .cancel ∈ response log

/-- The provider is speaking, as far as the node knows. -/
def Speaking (log : List Entry) : Prop :=
  Entry.received .responseCreated ∈ log ∧ Entry.received .responseDone ∉ response log ∧ ¬Cancelled log

/-- The provider may still turn the cancellation down, and has not done so. -/
def MayRace (log : List Entry) : Prop :=
  Cancelled log ∧ ∀ e ∈ response log, e.isRaceIgnored = false

def Playable (pcm : List UInt8) : Prop := pcm ≠ [] ∧ pcm.length ≤ 256 * 1024 ∧ pcm.length % 2 = 0

instance (log : List Entry) : Decidable (Cancelled log) := inferInstanceAs (Decidable (_ ∈ _))
instance (log : List Entry) : Decidable (Speaking log) := inferInstanceAs (Decidable (_ ∧ _ ∧ _))
instance (log : List Entry) : Decidable (MayRace log) := inferInstanceAs (Decidable (_ ∧ _))
instance (pcm : List UInt8) : Decidable (Playable pcm) := inferInstanceAs (Decidable (_ ∧ _ ∧ _))

/-- What the node does about an event, given what it has read and done before. -/
def reaction (c : RealtimeConfig) (before : List Entry) : ServerEvent → List Entry
  | .responseCreated | .other | .audioDelta none => []
  | .responseDone =>
    if Cancelled before then []
    else emitEvent (.responseCompleted (spokenText before) (heardBytes before))
  | .speechStarted =>
    if Speaking before then
      [Entry.cancel, .signal] ++ emitEvent .speechStarted ++ emitEvent .bargeIn
    else [Entry.signal] ++ emitEvent .speechStarted
  | .speechStopped => emitEvent .speechStopped
  | .audioDelta (some pcm) => if ¬Cancelled before ∧ Playable pcm then [.audio pcm] else []
  | .textDelta delta =>
    if Cancelled before ∨ delta = [] then []
    else [.text delta, .notification (.responseDelta delta)]
  | .transcriptDelta text stash =>
    if text ++ stash = [] then []
    else [.preview (text ++ stash), .notification (.transcriptPreview (text ++ stash))]
  | .transcriptCompleted transcript =>
    if transcript = [] then []
    else [.transcript transcript, .notification (.transcriptCompleted transcript)]
  | .transcriptFailed message => emitEvent (.transcriptFailed (message.take 512))
  | .error code message =>
    if MayRace before ∧ c.isCancelRace (code.take 128) (message.take 512) then
      [.raceIgnored (code.take 128)]
    else []

/-- The events that end the node. -/
def Faults (c : RealtimeConfig) (before : List Entry) : ServerEvent → Prop
  | .audioDelta audio => ¬Cancelled before ∧ ∀ pcm, audio = some pcm → ¬Playable pcm
  | .error code message =>
    ¬(MayRace before ∧ c.isCancelRace (code.take 128) (message.take 512))
  | _ => False

theorem response_append {log more : List Entry} (h : ∀ e ∈ more, e.isCreated = false) :
    response (log ++ more) = response log ++ more := by
  unfold response List.rtakeWhile
  rw [List.reverse_append, List.takeWhile_append_of_pos, List.reverse_append, List.reverse_reverse]
  intro e he
  rw [h e (List.mem_reverse.mp he)]
  rfl

theorem response_created (log : List Entry) :
    response (log ++ [Entry.received .responseCreated]) = [] := by
  rw [response, List.rtakeWhile_concat]
  rfl

/-- Nothing that begins, ends or cancels a response, or that turns a cancellation down. -/
def Entry.isCalm : Entry → Bool
  | .received .responseCreated => false
  | .received .responseDone => false
  | .cancel => false
  | .raceIgnored _ => false
  | _ => true

/-- The fields about the response. -/
def QwenAudioRealtimeNode.responseFields (node : QwenAudioRealtimeNode) :
    Bool × Bool × Bool × Text × ℕ :=
  (node.responseActive, node.cancelPending, node.discardResponseOutput, node.responseText,
    node.responseAudioBytes)

/-- The node's fields say what the log says. -/
structure Tracks (node : QwenAudioRealtimeNode) (log : List Entry) : Prop where
  active : node.responseActive = true ↔ Speaking log
  discard : node.discardResponseOutput = true ↔ Cancelled log
  pending : node.cancelPending = true ↔ MayRace log
  races : ¬Cancelled log → ∀ e ∈ response log, e.isRaceIgnored = false
  text : node.responseText = spokenText log
  bytes : node.responseAudioBytes = heardBytes log

variable {c : RealtimeConfig} {node : QwenAudioRealtimeNode} {log more : List Entry}

theorem tracks_new : Tracks .new [] := by
  constructor
  · exact ⟨nofun, fun h => absurd h.1 (by simp)⟩
  · exact ⟨nofun, nofun⟩
  · exact ⟨nofun, fun h => absurd h.1 (by simp [Cancelled, response])⟩
  · exact fun _ => nofun
  · rfl
  · rfl

theorem cancelled_append (h : ∀ e ∈ more, e.isCreated = false) :
    Cancelled (log ++ more) ↔ Cancelled log ∨ .cancel ∈ more := by
  rw [Cancelled, response_append h, List.mem_append]
  rfl

theorem speaking_append (h : ∀ e ∈ more, e.isCreated = false) : Speaking (log ++ more) ↔
    Speaking log ∧ Entry.received .responseDone ∉ more ∧ .cancel ∉ more := by
  have hcreated : Entry.received .responseCreated ∉ more := by
    intro hmem
    have hfalse := h _ hmem
    cases hfalse
  rw [Speaking, Speaking, cancelled_append h, response_append h, List.mem_append, List.mem_append]
  grind

theorem mayRace_append (h : ∀ e ∈ more, e.isCreated = false) : MayRace (log ++ more) ↔
    (Cancelled log ∨ .cancel ∈ more) ∧ (∀ e ∈ response log, e.isRaceIgnored = false) ∧
      ∀ e ∈ more, e.isRaceIgnored = false := by
  rw [MayRace, cancelled_append h, response_append h, List.forall_mem_append]

theorem spokenText_append (h : ∀ e ∈ more, e.isCreated = false) :
    spokenText (log ++ more) = spokenText log ++ more.flatMap Entry.spoken := by
  rw [spokenText, response_append h, List.flatMap_append]
  rfl

theorem heardBytes_append (h : ∀ e ∈ more, e.isCreated = false) :
    heardBytes (log ++ more) = heardBytes log + (more.map Entry.heard).sum := by
  rw [heardBytes, response_append h, List.map_append, List.sum_append]
  rfl

theorem Tracks.append {node' : QwenAudioRealtimeNode} (h : Tracks node log)
    (hcalm : ∀ e ∈ more, e.isCalm = true)
    (hactive : node'.responseActive = node.responseActive)
    (hpending : node'.cancelPending = node.cancelPending)
    (hdiscard : node'.discardResponseOutput = node.discardResponseOutput)
    (htext : node'.responseText = node.responseText ++ more.flatMap Entry.spoken)
    (hbytes : node'.responseAudioBytes = node.responseAudioBytes + (more.map Entry.heard).sum) :
    Tracks node' (log ++ more) := by
  have hmore : ∀ e ∈ more, e.isCreated = false := by
    intro e he
    by_contra hcreated
    have heq : e = .received .responseCreated := by simpa [Entry.isCreated] using hcreated
    have hfalse := hcalm e he
    rw [heq] at hfalse
    cases hfalse
  have hdone : Entry.received .responseDone ∉ more := by
    intro hmem
    have hfalse := hcalm _ hmem
    cases hfalse
  have hcancel : Entry.cancel ∉ more := by
    intro hmem
    have hfalse := hcalm _ hmem
    cases hfalse
  have hrace : ∀ e ∈ more, e.isRaceIgnored = false := by
    intro e he
    have hq := hcalm e he
    cases e with
    | raceIgnored code => cases hq
    | _ => rfl
  constructor
  · rw [hactive, h.active, speaking_append hmore]
    grind
  · rw [hdiscard, h.discard, cancelled_append hmore]
    grind
  · rw [hpending, h.pending, mayRace_append hmore, MayRace]
    grind
  · rw [cancelled_append hmore, response_append hmore, List.forall_mem_append]
    intro hnot
    exact ⟨h.races fun hc => hnot (.inl hc), hrace⟩
  · rw [htext, h.text, spokenText_append hmore]
  · rw [hbytes, h.bytes, heardBytes_append hmore]

/-- Nothing of a response and nothing about one. -/
def Entry.isQuiet : Entry → Bool
  | .text _ => false
  | .audio _ => false
  | e => e.isCalm

theorem Tracks.quiet {node' : QwenAudioRealtimeNode} (h : Tracks node log)
    (hquiet : ∀ e ∈ more, e.isQuiet = true)
    (hsame : node'.responseFields = node.responseFields) : Tracks node' (log ++ more) := by
  simp only [QwenAudioRealtimeNode.responseFields, Prod.mk.injEq] at hsame
  obtain ⟨hactive, hpending, hdiscard, htext, hbytes⟩ := hsame
  refine h.append ?_ hactive hpending hdiscard ?_ ?_
  · intro e he
    have hq := hquiet e he
    cases e with
    | text t => cases hq
    | audio pcm => cases hq
    | _ => exact hq
  · have hspoken : more.flatMap Entry.spoken = [] := by
      rw [List.flatMap_eq_nil_iff]
      intro e he
      have hq := hquiet e he
      cases e with
      | text t => cases hq
      | _ => rfl
    rw [htext, hspoken, List.append_nil]
  · have hheard : (more.map Entry.heard).sum = 0 := by
      rw [List.sum_eq_zero_iff_forall_eq_nat]
      intro n hn
      obtain ⟨e, he, rfl⟩ := List.mem_map.mp hn
      have hq := hquiet e he
      cases e with
      | audio pcm => cases hq
      | _ => rfl
    rw [hbytes, hheard, Nat.add_zero]

theorem Tracks.created (node : QwenAudioRealtimeNode) (log : List Entry) :
    Tracks (node.onEvent c .responseCreated).node (log ++ [Entry.received .responseCreated]) := by
  have hnil := response_created log
  have hnot : ¬Cancelled (log ++ [Entry.received .responseCreated]) := by
    rw [Cancelled, hnil]
    exact List.not_mem_nil
  constructor
  · refine ⟨fun _ => ⟨by simp, ?_, hnot⟩, fun _ => rfl⟩
    rw [hnil]
    exact List.not_mem_nil
  · exact ⟨nofun, fun h => absurd h hnot⟩
  · exact ⟨nofun, fun h => absurd h.1 hnot⟩
  · rw [hnil]
    exact fun _ => nofun
  · rw [spokenText, hnil]
    rfl
  · rw [heardBytes, hnil]
    rfl

/-- What an event does: the effects are those the log calls for, it raises where it must, and
otherwise the fields follow the log. -/
structure Reacts (c : RealtimeConfig) (log : List Entry) (e : ServerEvent) (o : Outcome) : Prop where
  effects : o.effects = reaction c log e
  raises : o.raises = none ↔ ¬Faults c log e
  tracks : o.raises = none → Tracks o.node (log ++ .received e :: o.effects)

theorem Reacts.quiet {e : ServerEvent} {effects : List Entry} (h : Tracks node log)
    (hquiet : ∀ x ∈ Entry.received e :: effects, x.isQuiet = true)
    (heffects : effects = reaction c log e) (hfaults : ¬Faults c log e) :
    Reacts c log e ⟨node, effects, none⟩ :=
  ⟨heffects, ⟨fun _ => hfaults, fun _ => rfl⟩, fun _ => h.quiet hquiet rfl⟩

theorem Reacts.speechStarted (h : Tracks node log) :
    Reacts c log .speechStarted node.speechStarted := by
  unfold QwenAudioRealtimeNode.speechStarted
  by_cases hactive : node.responseActive = true
  · have hspeaking := h.active.mp hactive
    rw [if_pos hactive]
    refine ⟨?_, ⟨fun _ => id, fun _ => rfl⟩, fun _ => ?_⟩
    · rw [reaction, if_pos hspeaking]
    · have hmore : ∀ e ∈ Entry.received .speechStarted ::
          ([Entry.cancel, .signal] ++ emitEvent .speechStarted ++ emitEvent .bargeIn),
          e.isCreated = false := by decide
      have hno : ¬Cancelled log := hspeaking.2.2
      constructor
      · rw [speaking_append hmore]
        exact ⟨nofun, fun hs => absurd hs.2.2 (by decide)⟩
      · rw [cancelled_append hmore]
        exact ⟨fun _ => .inr (by decide), fun _ => rfl⟩
      · rw [mayRace_append hmore]
        exact ⟨fun _ => ⟨.inr (by decide), h.races hno, by decide⟩, fun _ => rfl⟩
      · rw [cancelled_append hmore]
        exact fun hnot => absurd (.inr (by decide)) hnot
      · rw [spokenText_append hmore]
        exact h.text.trans (List.append_nil _).symm
      · rw [heardBytes_append hmore]
        exact h.bytes
  · rw [if_neg hactive]
    refine Reacts.quiet h (by decide) ?_ id
    rw [reaction, if_neg (mt h.active.mpr hactive)]

theorem Reacts.responseDone (h : Tracks node log) :
    Reacts c log .responseDone (node.onEvent c .responseDone) := by
  have heffects : (node.onEvent c .responseDone).effects = reaction c log .responseDone := by
    by_cases hdiscard : node.discardResponseOutput = true
    · rw [reaction, if_pos (h.discard.mp hdiscard)]
      exact if_pos hdiscard
    · rw [reaction, if_neg (mt h.discard.mpr hdiscard), ← h.text, ← h.bytes]
      exact if_neg hdiscard
  have hother : ∀ x ∈ reaction c log .responseDone, x.isQuiet = true := by
    rw [reaction]
    split
    · exact nofun
    · intro x hx
      rcases List.mem_pair.mp hx with rfl | rfl
      · rfl
      · rfl
  have hlog : log ++ Entry.received .responseDone :: reaction c log .responseDone =
      (log ++ [Entry.received .responseDone]) ++ reaction c log .responseDone := by
    rw [List.append_assoc]
    rfl
  refine ⟨heffects, ⟨fun _ => id, fun _ => rfl⟩, fun _ => ?_⟩
  rw [heffects, hlog]
  refine Tracks.quiet ?_ hother rfl
  have hmore : ∀ e ∈ [Entry.received .responseDone], e.isCreated = false := by decide
  have hrace : ∀ e ∈ [Entry.received .responseDone], e.isRaceIgnored = false := by decide
  constructor
  · rw [speaking_append hmore]
    exact ⟨nofun, fun hs => absurd (List.mem_singleton_self _) hs.2.1⟩
  · rw [cancelled_append hmore, or_iff_left (by decide)]
    exact h.discard
  · rw [mayRace_append hmore, or_iff_left (by decide), and_iff_left hrace]
    exact h.pending
  · rw [cancelled_append hmore, or_iff_left (by decide), response_append hmore,
      List.forall_mem_append]
    exact fun hnot => ⟨h.races hnot, hrace⟩
  · rw [spokenText_append hmore]
    exact h.text.trans (List.append_nil _).symm
  · rw [heardBytes_append hmore]
    exact h.bytes

theorem Reacts.audioDelta (h : Tracks node log) (audio : Option (List UInt8)) :
    Reacts c log (.audioDelta audio) (node.audioDelta audio) := by
  unfold QwenAudioRealtimeNode.audioDelta
  by_cases hdiscard : node.discardResponseOutput = true
  · have hcancelled := h.discard.mp hdiscard
    rw [if_pos hdiscard]
    refine Reacts.quiet h (by simp [Entry.isQuiet, Entry.isCalm]) ?_ (fun hf => hf.1 hcancelled)
    cases audio with
    | none => rfl
    | some pcm => rw [reaction, if_neg (fun hp => hp.1 hcancelled)]
  · have hnot := mt h.discard.mpr hdiscard
    rw [if_neg hdiscard]
    cases audio with
    | none => exact ⟨rfl, ⟨nofun, fun hf => absurd ⟨hnot, nofun⟩ hf⟩, nofun⟩
    | some pcm =>
      dsimp only
      by_cases hbad : pcm = [] ∨ 256 * 1024 < pcm.length ∨ pcm.length % 2 ≠ 0
      · have hunplayable : ¬Playable pcm := by
          rintro ⟨hne, hle, heven⟩
          rcases hbad with hnil | hlong | hodd
          · exact hne hnil
          · omega
          · exact hodd heven
        rw [if_pos hbad]
        refine ⟨?_, ⟨nofun, fun hf => absurd ⟨hnot, ?_⟩ hf⟩, nofun⟩
        · rw [reaction, if_neg (fun hp => hunplayable hp.2)]
        · intro pcm' heq
          cases heq
          exact hunplayable
      · have hplayable : Playable pcm := by
          obtain ⟨hne, hrest⟩ := not_or.mp hbad
          obtain ⟨hle, heven⟩ := not_or.mp hrest
          exact ⟨hne, Nat.not_lt.mp hle, not_ne_iff.mp heven⟩
        rw [if_neg hbad]
        refine ⟨?_, ⟨fun _ hf => hf.2 pcm rfl hplayable, fun _ => rfl⟩, fun _ => ?_⟩
        · rw [reaction, if_pos ⟨hnot, hplayable⟩]
        · exact h.append (by simp [Entry.isCalm]) rfl rfl rfl (List.append_nil _).symm
            (by simp [Entry.heard])

theorem Reacts.textDelta (h : Tracks node log) (delta : Text) :
    Reacts c log (.textDelta delta) (node.textDelta delta) := by
  unfold QwenAudioRealtimeNode.textDelta
  have hiff : node.discardResponseOutput = true ∨ delta = [] ↔ Cancelled log ∨ delta = [] :=
    or_congr_left h.discard
  by_cases hskip : node.discardResponseOutput = true ∨ delta = []
  · rw [if_pos hskip]
    refine Reacts.quiet h (by simp [Entry.isQuiet, Entry.isCalm]) ?_ id
    rw [reaction, if_pos (hiff.mp hskip)]
  · rw [if_neg hskip]
    refine ⟨?_, ⟨fun _ => id, fun _ => rfl⟩, fun _ => ?_⟩
    · rw [reaction, if_neg (mt hiff.mpr hskip)]
    · exact h.append (by simp [Entry.isCalm]) rfl rfl rfl (by simp [Entry.spoken]) rfl

theorem Reacts.onError (h : Tracks node log) (code message : Text) :
    Reacts c log (.error code message) (node.onError c code message) := by
  unfold QwenAudioRealtimeNode.onError
  have hiff : (node.cancelPending && c.isCancelRace (code.take 128) (message.take 512)) = true ↔
      MayRace log ∧ c.isCancelRace (code.take 128) (message.take 512) = true := by
    rw [Bool.and_eq_true]
    exact and_congr_left fun _ => h.pending
  by_cases hrace : (node.cancelPending && c.isCancelRace (code.take 128) (message.take 512)) = true
  · have hmay := hiff.mp hrace
    rw [if_pos hrace]
    refine ⟨?_, ⟨fun _ hf => hf hmay, fun _ => rfl⟩, fun _ => ?_⟩
    · rw [reaction, if_pos hmay]
    · have hmore : ∀ e ∈ [Entry.received (.error code message), .raceIgnored (code.take 128)],
          e.isCreated = false := by simp [Entry.isCreated]
      constructor
      · rw [speaking_append hmore, and_iff_left (by simp)]
        exact h.active
      · rw [cancelled_append hmore, or_iff_left (by simp)]
        exact h.discard
      · rw [mayRace_append hmore]
        refine ⟨nofun, fun hstill => ?_⟩
        have hfalse := hstill.2.2 (.raceIgnored (code.take 128)) (by simp)
        cases hfalse
      · rw [cancelled_append hmore, or_iff_left (by simp)]
        exact fun hnot => absurd hmay.1.1 hnot
      · rw [spokenText_append hmore]
        exact h.text.trans (List.append_nil _).symm
      · rw [heardBytes_append hmore]
        exact h.bytes
  · have hnot := mt hiff.mpr hrace
    rw [if_neg hrace]
    refine ⟨?_, ⟨nofun, fun hf => absurd hnot hf⟩, nofun⟩
    rw [reaction, if_neg hnot]

theorem Tracks.onEvent (h : Tracks node log) (e : ServerEvent) :
    Reacts c log e (node.onEvent c e) := by
  cases e with
  | responseCreated => exact ⟨rfl, ⟨fun _ => id, fun _ => rfl⟩, fun _ => Tracks.created node log⟩
  | responseDone => exact Reacts.responseDone h
  | speechStarted => exact Reacts.speechStarted h
  | speechStopped => exact Reacts.quiet h (by decide) rfl id
  | audioDelta audio => exact Reacts.audioDelta h audio
  | textDelta delta => exact Reacts.textDelta h delta
  | transcriptDelta text stash =>
    rw [QwenAudioRealtimeNode.onEvent]
    split
    next hnil => exact Reacts.quiet h (by simp [Entry.isQuiet, Entry.isCalm]) (by rw [reaction, if_pos hnil]) id
    next hne => exact Reacts.quiet h (by simp [Entry.isQuiet, Entry.isCalm]) (by rw [reaction, if_neg hne]) id
  | transcriptCompleted transcript =>
    rw [QwenAudioRealtimeNode.onEvent]
    split
    next hnil => exact Reacts.quiet h (by simp [Entry.isQuiet, Entry.isCalm]) (by rw [reaction, if_pos hnil]) id
    next hne => exact Reacts.quiet h (by simp [Entry.isQuiet, Entry.isCalm]) (by rw [reaction, if_neg hne]) id
  | transcriptFailed message => exact Reacts.quiet h (by simp [Entry.isQuiet, Entry.isCalm, emitEvent]) rfl id
  | error code message => exact Reacts.onError h code message
  | other => exact Reacts.quiet h (by decide) rfl id

end Muxiva.Qwen
