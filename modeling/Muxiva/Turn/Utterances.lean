import Muxiva.Turn.Generations

/-! One cancellation for each utterance. A preview cancels at most once between the start of
activity and the transcript, and the transcript cancels itself when no preview has. -/
set_option linter.all false
namespace Muxiva.Turn

open Transition.System VoiceTurnController

/-- Transcripts and starts of activity bound the utterances. -/
def Entry.bounds (e : Entry) : Bool := e.callback.isTranscript || e.callback.startsActivity

/-- The entries after the last transcript or start of activity. -/
def sinceBoundary : List Entry → List Entry
  | [] => []
  | e :: log => if log.any Entry.bounds then sinceBoundary log else if e.bounds then log else e :: log

/-- A cancellation that a preview or a transcript commits. -/
def Decision.ofUtterance (d : Decision) : Bool :=
  d.reason = .validatedPartial || d.reason = .newTurn

def utteranceCancellations (log : List Entry) : ℕ := (cancellations log).countP Decision.ofUtterance

def Entry.Admitted (e : Entry) : Prop := ∃ text, Output.prompt text ∈ e.outputs

def Entry.Ignored (e : Entry) : Prop := ∃ d, Output.event .turnUtteranceIgnored d ∈ e.outputs

/-- The last boundary of the log is a transcript. -/
def AfterTranscript (log : List Entry) : Prop :=
  ∃ (earlier : List Entry) (transcript : Entry) (later : List Entry),
    log = earlier ++ transcript :: later ∧
    transcript.callback.isTranscript = true ∧
    ∀ e ∈ later, e.callback.startsActivity = false

theorem sinceBoundary_append_singleton (log : List Entry) (e : Entry) :
    sinceBoundary (log ++ [e]) = if e.bounds then [] else sinceBoundary log ++ [e] := by
  induction log with
  | nil =>
    cases h : e.bounds with
    | true => simp [sinceBoundary, h]
    | false => simp [sinceBoundary, h]
  | cons first log ih =>
    rw [List.cons_append, sinceBoundary, ih, sinceBoundary, List.any_append]
    cases h : e.bounds with
    | true => simp [h]
    | false =>
      by_cases hany : log.any Entry.bounds = true
      · simp [h, hany]
      · by_cases hfirst : first.bounds = true
        · simp [h, hany, hfirst]
        · simp [h, hany, hfirst]

theorem utteranceCancellations_append_singleton (log : List Entry) (e : Entry) :
    utteranceCancellations (log ++ [e]) =
      utteranceCancellations log + e.cancellations.countP Decision.ofUtterance := by
  unfold utteranceCancellations
  rw [cancellations_append_singleton, List.countP_append]

theorem cancelled_of_bounds {log : List Entry} {e : Entry} (h : e.bounds = true) :
    utteranceCancellations (sinceBoundary (log ++ [e])) = 0 := by
  rw [sinceBoundary_append_singleton, if_pos h]
  rfl

theorem cancelled_of_not_bounds {log : List Entry} {e : Entry} (h : e.bounds = false) :
    utteranceCancellations (sinceBoundary (log ++ [e])) =
      utteranceCancellations (sinceBoundary log) + e.cancellations.countP Decision.ofUtterance := by
  rw [sinceBoundary_append_singleton, h, if_neg Bool.false_ne_true,
    utteranceCancellations_append_singleton]

theorem afterTranscript_append_singleton {log : List Entry} {e : Entry} :
    AfterTranscript (log ++ [e]) ↔
      e.callback.isTranscript = true ∨ AfterTranscript log ∧ e.callback.startsActivity = false := by
  constructor
  · rintro ⟨earlier, transcript, later, hlog, htranscript, hlater⟩
    rcases later.eq_nil_or_concat with rfl | ⟨later, last, rfl⟩
    · obtain ⟨-, hsingle⟩ := List.append_inj' hlog rfl
      cases hsingle
      exact .inl htranscript
    · rw [List.concat_eq_append] at hlog hlater
      rw [← List.cons_append, ← List.append_assoc] at hlog
      obtain ⟨rfl, hsingle⟩ := List.append_inj' hlog rfl
      cases hsingle
      refine .inr ⟨⟨earlier, transcript, later, rfl, htranscript, ?_⟩, hlater e (by simp)⟩
      intro e' he'
      exact hlater e' (by simp [he'])
  · rintro (he | ⟨⟨earlier, transcript, later, rfl, htranscript, hlater⟩, he⟩)
    · exact ⟨log, e, [], rfl, he, by simp⟩
    · refine ⟨earlier, transcript, later ++ [e], by simp, htranscript, ?_⟩
      intro e' he'
      rcases List.mem_append.mp he' with he' | he'
      · exact hlater e' he'
      · obtain rfl := List.mem_singleton.mp he'
        exact he

/-- What the current utterance has cancelled so far. -/
structure Utterance (t : Turns) (log : List Entry) : Prop where
  cancelled : utteranceCancellations (sinceBoundary log) = if t.early.isSome then 1 else 0
  closed : t.windowOpen = false → t.early = none
  gate : AfterTranscript log → t.windowOpen = false

theorem Utterance.move {t t' : Turns} {log : List Entry} {e : Entry} (h : Utterance t log)
    (hmove : Move t e.callback t' e.outputs) : Utterance t' (log ++ [e]) := by
  obtain ⟨before, callback, outputs⟩ := e
  simp only at hmove
  obtain ⟨hcancelled, hclosed, hgate⟩ := h
  constructor
  · cases hmove with
    | activity input hstart =>
      have hbounds : Entry.bounds ⟨before, .process .activityIn input, [.forward]⟩ = false := hstart
      rw [cancelled_of_not_bounds hbounds]
      exact hcancelled
    | activityStart input hstart => exact cancelled_of_bounds hstart
    | preview input =>
      rw [cancelled_of_not_bounds rfl]
      exact hcancelled
    | earlyCancel input turnId hopen hearly =>
      rw [cancelled_of_not_bounds rfl, hcancelled, hearly]
      rfl
    | ignored input turnId reason => exact cancelled_of_bounds rfl
    | admittedEarly input turnId generation text hearly => exact cancelled_of_bounds rfl
    | admittedNew input turnId text hearly => exact cancelled_of_bounds rfl
    | interrupt turnId =>
      rw [cancelled_of_not_bounds rfl]
      exact hcancelled
  · cases hmove with
    | activity input hstart => exact hclosed
    | activityStart input hstart => exact nofun
    | preview input => exact hclosed
    | earlyCancel input turnId hopen hearly =>
      intro hfalse
      rw [show t.windowOpen = false from hfalse] at hopen
      cases hopen
    | ignored input turnId reason => exact fun _ => rfl
    | admittedEarly input turnId generation text hearly => exact fun _ => rfl
    | admittedNew input turnId text hearly => exact fun _ => rfl
    | interrupt turnId => exact hclosed
  · rw [afterTranscript_append_singleton]
    rintro (htranscript | ⟨hafter, hquiet⟩)
    · cases hmove with
      | activity input hstart => cases htranscript
      | activityStart input hstart => cases htranscript
      | preview input => cases htranscript
      | earlyCancel input turnId hopen hearly => cases htranscript
      | ignored input turnId reason => rfl
      | admittedEarly input turnId generation text hearly => rfl
      | admittedNew input turnId text hearly => rfl
      | interrupt turnId => cases htranscript
    · have hwindow := hgate hafter
      cases hmove with
      | activity input hstart => exact hwindow
      | activityStart input hstart =>
        rw [show (Callback.process .activityIn input).startsActivity = false from hquiet] at hstart
        cases hstart
      | preview input => exact hwindow
      | earlyCancel input turnId hopen hearly => exact hwindow
      | ignored input turnId reason => rfl
      | admittedEarly input turnId generation text hearly => rfl
      | admittedNew input turnId text hearly => rfl
      | interrupt turnId => exact hwindow

section Run

variable {toLowercase : Char → Text} {s : State}

theorem reachable_utterance (hr : (controllerSystem toLowercase).Reachable s) :
    Utterance s.controller.turns s.log := by
  refine hr.invariant (I := fun s => Utterance s.controller.turns s.log) ?_ ?_
  · rintro s ⟨⟨-, hopen, -, -, hearly⟩, hlog⟩
    rw [hlog]
    refine ⟨?_, fun _ => hearly, ?_⟩
    · rw [show s.controller.turns.early = none from hearly]
      rfl
    · intro
      exact hopen
  · intro s a s' _ ih hstep
    obtain ⟨outputs, hlog, hmove⟩ := step_entry hstep
    rw [hlog]
    exact Utterance.move ih hmove

/-- A transcript is admitted after exactly one cancellation, its own or a preview's, or ignored
after at most one. -/
theorem Utterance.transcript {t t' : Turns} {log : List Entry} {e : Entry} (h : Utterance t log)
    (hmove : Move t e.callback t' e.outputs) (htranscript : e.callback.isTranscript = true) :
    e.Admitted ∧ ¬ e.Ignored ∧ utteranceCancellations (sinceBoundary log ++ [e]) = 1 ∨
      e.Ignored ∧ ¬ e.Admitted ∧ utteranceCancellations (sinceBoundary log ++ [e]) ≤ 1 := by
  rw [utteranceCancellations_append_singleton, h.cancelled]
  obtain ⟨before, callback, outputs⟩ := e
  simp only at hmove htranscript
  cases hmove with
  | activity input hstart => cases htranscript
  | activityStart input hstart => cases htranscript
  | preview input => cases htranscript
  | earlyCancel input turnId hopen hearly => cases htranscript
  | interrupt turnId => cases htranscript
  | ignored input turnId reason =>
    refine .inr ⟨⟨decisionPayload t.generation turnId reason, by simp⟩, ?_, ?_⟩
    · rintro ⟨text, hmem⟩
      simp at hmem
    · simp only [Entry.cancellations, Output.cancellation, List.filterMap_cons, List.filterMap_nil,
        List.countP_nil]
      split_ifs <;> omega
  | admittedEarly input turnId generation text hearly =>
    refine .inl ⟨⟨text, by simp [admittedOutputs]⟩, ?_, ?_⟩
    · rintro ⟨d, hmem⟩
      simp [admittedOutputs] at hmem
    · rw [hearly]
      rfl
  | admittedNew input turnId text hearly =>
    refine .inl ⟨⟨text, by simp [admittedOutputs]⟩, ?_, ?_⟩
    · rintro ⟨d, hmem⟩
      simp [admittedOutputs] at hmem
    · rw [hearly]
      rfl

theorem Utterance.preview {t t' : Turns} {log : List Entry} {e : Entry} (h : Utterance t log)
    (hmove : Move t e.callback t' e.outputs) (hpreview : e.callback.isPreview = true)
    (hafter : AfterTranscript log) : e.cancellations = [] := by
  have hwindow := h.gate hafter
  obtain ⟨before, callback, outputs⟩ := e
  simp only at hmove hpreview
  cases hmove with
  | preview input => rfl
  | earlyCancel input turnId hopen hearly =>
    rw [hwindow] at hopen
    cases hopen
  | activity input hstart => cases hpreview
  | activityStart input hstart => cases hpreview
  | ignored input turnId reason => cases hpreview
  | admittedEarly input turnId generation text hearly => cases hpreview
  | admittedNew input turnId text hearly => cases hpreview
  | interrupt turnId => cases hpreview

/-- In every run each transcript is admitted after exactly one cancellation of its utterance or
ignored after at most one, and a preview behind its transcript cancels nothing. -/
theorem one_cancellation (hr : (controllerSystem toLowercase).Reachable s) :
    EachEntry (fun before e =>
      (e.callback.isTranscript = true →
        e.Admitted ∧ ¬ e.Ignored ∧ utteranceCancellations (sinceBoundary before ++ [e]) = 1 ∨
        e.Ignored ∧ ¬ e.Admitted ∧ utteranceCancellations (sinceBoundary before ++ [e]) ≤ 1) ∧
      (e.callback.isPreview = true → AfterTranscript before → e.cancellations = [])) s.log := by
  refine hr.eachEntry State.log (fun s (h : (controllerSystem toLowercase).init s) => h.2) ?_
  intro s a s' hs hstep
  obtain ⟨outputs, hlog, hmove⟩ := step_entry hstep
  have hutterance := reachable_utterance hs
  exact .inr ⟨_, hlog, hutterance.transcript hmove, hutterance.preview hmove⟩

theorem one_cancellation_utterance : ∃ s, (controllerSystem asciiLowercase).Reachable s ∧
    s.log.length = 3 ∧
    EachEntry (fun before e =>
      (e.callback.isTranscript = true →
        e.Admitted ∧ ¬ e.Ignored ∧ utteranceCancellations (sinceBoundary before ++ [e]) = 1 ∨
        e.Ignored ∧ ¬ e.Admitted ∧ utteranceCancellations (sinceBoundary before ++ [e]) ≤ 1) ∧
      (e.callback.isPreview = true → AfterTranscript before → e.cancellations = [])) s.log := by
  obtain ⟨s, hs, htest⟩ := exists_reachable_of_run (M := controllerSystem asciiLowercase)
    (s := ⟨eager, []⟩) ⟨⟨rfl, rfl, rfl, rfl, rfl⟩, rfl⟩ (utterance [])
    (fun s => s.log.length = 3) (by decide +kernel)
  exact ⟨s, hs, of_decide_eq_true htest, one_cancellation hs⟩

end Run

end Muxiva.Turn
