import Mathlib.Data.List.Induction
import Muxiva.Tts.Barrier

/-! What is emitted: audio of texts admitted since the last cancellation, and a drained event once
no text is pending, with the frames emitted for its sequence. -/
set_option linter.all false
namespace Muxiva.Tts

open QwenTtsRealtimeNode Transition.System

variable {c : Config} {s s' : QwenTtsRealtimeNode}

/-- The frames counted are those emitted, up to a drained event that is about to be emitted. -/
structure Counted (s : QwenTtsRealtimeNode) : Prop where
  counting : s.phase.counting → ∀ sequence, s.emittedAudioFrames sequence = framesSince sequence s.log
  emitting : ∀ generation sequence audioFrames,
    s.phase = .emitsDrained generation sequence audioFrames →
      audioFrames = framesSince sequence s.log ∧ s.emittedAudioFrames sequence = 0 ∧
      ∀ other, other ≠ sequence → s.emittedAudioFrames other = framesSince other s.log

/-- A step away from a place where the frames are counted, without a frame. -/
theorem Counted.congr (h : Counted s) (hlog : ∀ sequence, framesSince sequence s'.log =
      framesSince sequence s.log) (hframes : s'.emittedAudioFrames = s.emittedAudioFrames)
    (hcounting : s'.phase.counting → s.phase.counting)
    (hemits : ∀ generation sequence audioFrames,
      s'.phase ≠ .emitsDrained generation sequence audioFrames) : Counted s' := by
  constructor
  · intro hphase sequence
    rw [hframes, hlog]
    exact h.counting (hcounting hphase) sequence
  · intro generation sequence audioFrames hphase
    exact absurd hphase (hemits _ _ _)

theorem Counted.same (h : Counted s) (hlog : s'.log = s.log)
    (hframes : s'.emittedAudioFrames = s.emittedAudioFrames) (hphase : s'.phase = s.phase) :
    Counted s' := by
  constructor
  · rw [hphase, hlog, hframes]
    exact h.counting
  · rw [hphase, hlog, hframes]
    exact h.emitting

theorem Move.counted (h : Move s s') (hs : Counted s) : Counted s' := by
  cases h with
  | idles h => exact hs.congr (fun _ => rfl) rfl h.counting h.emits
  | admits hphase =>
    exact hs.congr (by simp) rfl (fun _ => by rw [hphase]; trivial) (by simp)
  | putsJob hphase =>
    exact hs.congr (fun _ => rfl) rfl (fun _ => by rw [hphase]; trivial) (by simp)
  | refuses hphase => exact hs.congr (by simp) rfl False.elim (by simp)
  | dropsResult hphase =>
    exact hs.congr (fun _ => rfl) rfl (fun _ => by rw [hphase]; trivial) (by simp)
  | @emitsAudio left result results pcm hphase =>
    constructor
    · intro _ sequence
      have hold := hs.counting (by rw [hphase]; trivial)
      simp only [framesSince_audio]
      split_ifs with heq
      · rw [← heq, Function.update_self, hold]
      · rw [Function.update_of_ne (fun h => heq h.symm), hold]
    · intro generation sequence audioFrames hnext
      cases hnext
  | failsAudio hphase =>
    constructor
    · exact False.elim
    · intro generation sequence audioFrames hnext
      cases hnext
  | completes hphase =>
    exact hs.congr (by simp) rfl (fun _ => by rw [hphase]; trivial) (by simp)
  | @settles now sequence _ _ _ hphase =>
    have hold := hs.counting (by rw [hphase]; trivial)
    constructor
    · exact False.elim
    · intro generation sequence' audioFrames hnext
      cases hnext
      refine ⟨hold sequence, by simp, ?_⟩
      intro other hother
      simp only [Function.update_of_ne hother]
      exact hold other
  | @drained generation sequence audioFrames hphase =>
    obtain ⟨hframes, hzero, hothers⟩ := hs.emitting _ _ _ hphase
    constructor
    · intro _ other
      simp only [framesSince_drained]
      split_ifs with heq
      · rw [← heq]
        exact hzero
      · exact hothers other fun h => heq h.symm
    · intro generation sequence audioFrames hnext
      cases hnext
  | finishes => exact hs.congr (fun _ => rfl) rfl False.elim (by simp)
  | invalidates =>
    unfold QwenTtsRealtimeNode.invalidate
    constructor
    · simp
    · simp
  | clears => exact hs.same rfl rfl rfl
  | stops hphase =>
    refine hs.congr (fun _ => rfl) rfl ?_ (by simp)
    intro _
    cases hp : s.phase <;> simp [hp, Phase.clearing, Phase.counting] at hphase ⊢
  | walks => exact hs.same rfl rfl rfl
  | takesJob => exact hs.same rfl rfl rfl
  | takesNone => exact hs.same rfl rfl rfl
  | offers => exact hs.same rfl rfl rfl

theorem reachable_counted (hr : (ttsSystem c).Reachable s) : Counted s := by
  refine hr.invariant (I := Counted) ?_ ?_
  · rintro _ rfl
    constructor <;> simp [QwenTtsRealtimeNode.new, framesSince]
  · intro s a s' _ hi hstep
    exact (step_moves hstep).counted hi

/-- `closing` is set by `on_finish`, after which no callback begins. -/
theorem Move.finishing (h : Move s s') (hs : s.closing → s.phase.finishing) :
    s'.closing → s'.phase.finishing := by
  cases h with
  | idles h => exact fun hclosing => h.finishing (hs hclosing)
  | admits hphase =>
    rw [hphase] at hs
    exact fun hclosing => (hs hclosing).elim
  | putsJob hphase =>
    rw [hphase] at hs
    exact fun hclosing => (hs hclosing).elim
  | refuses hphase =>
    rw [hphase] at hs
    exact fun hclosing => (hs hclosing).elim
  | dropsResult hphase =>
    rw [hphase] at hs
    exact fun hclosing => (hs hclosing).elim
  | emitsAudio hphase =>
    rw [hphase] at hs
    exact fun hclosing => (hs hclosing).elim
  | failsAudio hphase =>
    rw [hphase] at hs
    exact fun hclosing => (hs hclosing).elim
  | completes hphase =>
    rw [hphase] at hs
    exact fun hclosing => (hs hclosing).elim
  | settles hphase =>
    rw [hphase] at hs
    exact fun hclosing => (hs hclosing).elim
  | drained hphase =>
    rw [hphase] at hs
    exact fun hclosing => (hs hclosing).elim
  | finishes => exact fun _ => trivial
  | @invalidates closeTransport finishes hphase =>
    rw [hphase] at hs
    intro hclosing
    have hfinishing := hs hclosing
    cases finishes with
    | true => trivial
    | false => exact hfinishing.elim
  | clears => exact hs
  | stops => exact fun _ => trivial
  | walks => exact hs
  | takesJob => exact hs
  | takesNone => exact hs
  | offers => exact hs

theorem reachable_finishing (hr : (ttsSystem c).Reachable s) : s.closing → s.phase.finishing := by
  refine hr.invariant (I := fun s => s.closing → s.phase.finishing) ?_ ?_
  · rintro _ rfl hclosing
    cases hclosing
  · intro s a s' _ hi hstep
    exact (step_moves hstep).finishing hi

/-- A drained event is emitted once every text admitted in its generation has been drained, with the
frames emitted for its sequence; and audio is of a text admitted since the last cancellation. -/
def Faithful (before : List Entry) : Entry → Prop
  | .drained _ sequence audioFrames =>
    undrained before = [] ∧ audioFrames = framesSince sequence before
  | .audio job _ _ => job ∈ admittedSince before
  | _ => True

theorem Move.faithful (h : Move s s') (hk : Known s) (hc : Counted s)
    (hb : s.closing = false → Balanced s) (hf : s.closing → s.phase.finishing) :
    s'.log = s.log ∨ ∃ entry, s'.log = s.log ++ [entry] ∧ Faithful s.log entry := by
  cases h with
  | admits => exact .inr ⟨_, rfl, trivial⟩
  | refuses => exact .inr ⟨_, rfl, trivial⟩
  | @emitsAudio left result results pcm hphase hresults hcurrent =>
    refine .inr ⟨_, rfl, ?_⟩
    exact (hk.results result (by simp [hresults])).admitted hcurrent
  | completes => exact .inr ⟨_, rfl, trivial⟩
  | drained hphase =>
    refine .inr ⟨_, rfl, ?_⟩
    have hopen : s.closing = false := by
      cases hclosing : s.closing with
      | false => rfl
      | true =>
        have hfinishing := hf hclosing
        rw [hphase] at hfinishing
        exact hfinishing.elim
    have hbalanced := hb hopen
    have hzero := hbalanced.judged (by rw [hphase]; trivial)
    refine ⟨?_, (hc.emitting _ _ _ hphase).1⟩
    apply List.eq_nil_of_length_eq_zero
    rw [← hbalanced.pending, hzero]
  | invalidates => exact .inr ⟨_, rfl, trivial⟩
  | _ => exact .inl rfl

theorem reachable_faithful (hr : (ttsSystem c).Reachable s) : EachEntry Faithful s.log := by
  refine hr.eachEntry (fun s => s.log) ?_ ?_
  · rintro _ rfl
    rfl
  · intro s a s' hr hstep
    exact (step_moves hstep).faithful (reachable_known hr) (reachable_counted hr)
      (reachable_balanced hr) (reachable_finishing hr)

theorem mem_of_admittedSince {before after : List Entry} {job : ℕ}
    (h : job ∈ admittedSince (before ++ .cancelled :: after)) : .admitted job ∈ after := by
  induction after using List.reverseRecOn with
  | nil => simp [admittedSince] at h
  | append_singleton after entry ih =>
    rw [← List.cons_append, ← List.append_assoc] at h
    rw [List.mem_append]
    cases entry with
    | admitted job' =>
      rw [admittedSince_admitted, List.mem_append, List.mem_singleton] at h
      rcases h with h | rfl
      · exact .inl (ih h)
      · exact .inr (by simp)
    | cancelled => simp [admittedSince] at h
    | refused =>
      rw [admittedSince_refused] at h
      exact .inl (ih h)
    | completed =>
      rw [admittedSince_completed] at h
      exact .inl (ih h)
    | audio =>
      rw [admittedSince_audio] at h
      exact .inl (ih h)
    | drained =>
      rw [admittedSince_drained] at h
      exact .inl (ih h)

/-- The texts admitted, in their order. -/
def admissions (log : List Entry) : List ℕ :=
  log.filterMap fun entry =>
    match entry with
    | .admitted job => some job
    | _ => none

theorem mem_admissions {log : List Entry} {job : ℕ} (h : .admitted job ∈ log) :
    job ∈ admissions log :=
  List.mem_filterMap.mpr ⟨_, h, rfl⟩

theorem Move.admissions (h : Move s s') (hs : admissions s.log = List.range s.nextJob) :
    admissions s'.log = List.range s'.nextJob := by
  cases h with
  | admits =>
    rw [List.range_succ, ← hs]
    simp [Tts.admissions]
  | refuses => simpa [Tts.admissions] using hs
  | emitsAudio => simpa [Tts.admissions] using hs
  | completes => simpa [Tts.admissions] using hs
  | drained => simpa [Tts.admissions] using hs
  | invalidates => simpa [Tts.admissions, QwenTtsRealtimeNode.invalidate] using hs
  | _ => exact hs

theorem reachable_admissions (hr : (ttsSystem c).Reachable s) :
    admissions s.log = List.range s.nextJob := by
  refine hr.invariant (I := fun s => admissions s.log = List.range s.nextJob) ?_ ?_
  · rintro _ rfl
    rfl
  · intro s a s' _ hi hstep
    exact (step_moves hstep).admissions hi

/-- A text is admitted once. -/
theorem not_admitted_before (hr : (ttsSystem c).Reachable s) (before middle after : List Entry)
    {job : ℕ} (hlog : s.log = before ++ middle ++ after) (hmem : .admitted job ∈ middle) :
    .admitted job ∉ before := by
  intro hbefore
  have hnodup : (admissions s.log).Nodup := by
    rw [reachable_admissions hr]
    exact List.nodup_range
  have hsplit : admissions s.log = admissions before ++ admissions middle ++ admissions after := by
    rw [hlog]
    simp [admissions]
  rw [hsplit, List.nodup_append] at hnodup
  have hfront := List.nodup_append.mp hnodup.1
  exact hfront.2.2 job (mem_admissions hbefore) job (mem_admissions hmem) rfl

def sampleConfig : Config where
  maxResultsPerWakeup := 64
  endOfTurnGraceMs := 0
  connectRetries := 3
  isDecimal := Char.isDigit

end Muxiva.Tts
