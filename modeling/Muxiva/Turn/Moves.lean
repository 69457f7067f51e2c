import Muxiva.Lib.Fallible
import Muxiva.Turn.Controller

/-! What a callback can do to the generation, the preview window and the early generation, and what
it emits. -/
set_option linter.all false
namespace Muxiva.Turn

theorem emit_ok {context : Context} {outputs outputs' : List Output} {output : Output}
    (h : emit context outputs output = .ok outputs') : outputs' = outputs ++ [output] := by
  unfold emit at h
  split at h
  · cases h
  · cases h
    rfl

namespace Callback

/-- The start of voice activity on the activity port. -/
def startsActivity : Callback → Bool
  | .process .activityIn (some ⟨_, .event true⟩) => true
  | _ => false

def isPreview : Callback → Bool
  | .process .previewIn _ => true
  | _ => false

def isTranscript : Callback → Bool
  | .process .transcriptIn _ => true
  | _ => false

end Callback

namespace VoiceTurnController

theorem emitEvent_ok {context : Context} {outputs outputs' : List Output} {topic : Topic}
    {d : Decision} (h : emitEvent context outputs topic d = .ok outputs') :
    outputs' = outputs ++ [Output.notification topic d, .event topic d] := by
  obtain ⟨middle, hfirst, h⟩ := Fallible.bind_eq_ok.mp h
  rw [emit_ok h, emit_ok hfirst, List.append_assoc]
  rfl

theorem commitCancellation_ok {self next : VoiceTurnController} {turnId : ℕ} {context : Context}
    {outputs outputs' : List Output} {reason : Reason}
    (h : self.commitCancellation turnId context outputs reason = .ok (next, outputs')) :
    next = self.nextGeneration ∧
      outputs' = outputs ++
        [Output.signal (decisionPayload self.nextGeneration.generation turnId reason)] := by
  obtain ⟨middle, hemit, h⟩ := Fallible.bind_eq_ok.mp h
  cases h
  exact ⟨rfl, emit_ok hemit⟩

/-- What an admitted turn emits. -/
def admittedOutputs (generation turnId : ℕ) (text : Text) : List Output :=
  let d := decisionPayload generation turnId .admitted
  [.prompt text, .transcript text, .notification .turnStarted d, .event .turnStarted d,
    .notification .turnUtteranceCommitted d, .event .turnUtteranceCommitted d]

/-- The three fields the generations depend on. -/
structure Turns where
  generation : ℕ
  windowOpen : Bool
  early : Option ℕ

def turns (self : VoiceTurnController) : Turns :=
  ⟨self.generation, self.previewWindowOpen, self.earlyCancelGeneration⟩

def Turns.next (t : Turns) : ℕ := min (t.generation + 1) u64Max

/-- The moves of the controller. -/
inductive Move (t : Turns) : Callback → Turns → List Output → Prop where
  | activity (input : Option Input) (h : (Callback.process .activityIn input).startsActivity = false) :
      Move t (.process .activityIn input) t [.forward]
  | activityStart (input : Option Input) (h : (Callback.process .activityIn input).startsActivity = true) :
      Move t (.process .activityIn input) { t with windowOpen := true, early := none } [.forward]
  | preview (input : Option Input) : Move t (.process .previewIn input) t []
  | earlyCancel (input : Option Input) (turnId : ℕ) (hopen : t.windowOpen = true)
      (hearly : t.early = none) :
      Move t (.process .previewIn input) { t with generation := t.next, early := some t.next }
        [.signal (decisionPayload t.next turnId .validatedPartial)]
  | ignored (input : Option Input) (turnId : ℕ) (reason : Reason) :
      Move t (.process .transcriptIn input) { t with windowOpen := false, early := none }
        [.notification .turnUtteranceIgnored (decisionPayload t.generation turnId reason),
          .event .turnUtteranceIgnored (decisionPayload t.generation turnId reason)]
  | admittedEarly (input : Option Input) (turnId generation : ℕ) (text : Text)
      (hearly : t.early = some generation) :
      Move t (.process .transcriptIn input) { t with windowOpen := false, early := none }
        (admittedOutputs generation turnId text)
  | admittedNew (input : Option Input) (turnId : ℕ) (text : Text) (hearly : t.early = none) :
      Move t (.process .transcriptIn input)
        { generation := t.next, windowOpen := false, early := none }
        (.signal (decisionPayload t.next turnId .newTurn) :: admittedOutputs t.next turnId text)
  | interrupt (turnId : ℕ) :
      Move t (.signal turnId) { t with generation := t.next }
        [.signal (decisionPayload t.next turnId .authoritativeInterrupt),
          .notification .turnCancelled (decisionPayload t.next turnId .authoritativeInterrupt),
          .event .turnCancelled (decisionPayload t.next turnId .authoritativeInterrupt)]

variable {toLowercase : Char → Text} {self self' : VoiceTurnController} {context : Context}
  {outputs : List Output}

variable (toLowercase self) in
theorem observePreview_turns (text : Text) : (self.observePreview toLowercase text).2.turns =
    self.turns := by
  unfold observePreview
  split_ifs
  · rfl
  · rfl

variable (toLowercase self) in
theorem observePreview_confirmed (text : Text)
    (h : (self.observePreview toLowercase text).1 = true) :
    self.previewWindowOpen = true ∧ self.earlyCancelGeneration = none := by
  unfold observePreview at h
  by_cases hconsume : self.canConsumePreview toLowercase text = true
  · simp only [canConsumePreview, Bool.and_eq_true, Option.isNone_iff_eq_none] at hconsume
    exact hconsume.1
  · rw [if_pos (by simpa using hconsume)] at h
    cases h

theorem processTranscript_move {turnId : ℕ} {text : Text} {input : Option Input}
    (h : self.processTranscript toLowercase turnId text context = .ok (self', outputs)) :
    Move self.turns (.process .transcriptIn input) self'.turns outputs := by
  unfold processTranscript at h
  simp only at h
  split at h
  · rename_i reason _
    obtain ⟨middle, hevent, h⟩ := Fallible.bind_eq_ok.mp h
    cases h
    rw [emitEvent_ok hevent]
    exact .ignored input turnId reason
  obtain ⟨⟨generation, committed, start⟩, hcommit, h⟩ := Fallible.bind_eq_ok.mp h
  obtain ⟨o₁, h₁, h⟩ := Fallible.bind_eq_ok.mp h
  obtain ⟨o₂, h₂, h⟩ := Fallible.bind_eq_ok.mp h
  obtain ⟨o₃, h₃, h⟩ := Fallible.bind_eq_ok.mp h
  obtain ⟨o₄, h₄, h⟩ := Fallible.bind_eq_ok.mp h
  cases h
  have houtputs : outputs = start ++ admittedOutputs generation turnId (trim text) := by
    rw [emitEvent_ok h₄, emitEvent_ok h₃, emit_ok h₂, emit_ok h₁]
    simp [admittedOutputs]
  rw [houtputs]
  unfold takeGeneration at hcommit
  split at hcommit
  · rename_i hearly
    cases hcommit
    exact .admittedEarly input turnId generation _ hearly
  · rename_i hearly
    obtain ⟨⟨next, emitted⟩, hnext, hcommit⟩ := Fallible.bind_eq_ok.mp hcommit
    cases hcommit
    obtain ⟨rfl, rfl⟩ := commitCancellation_ok hnext
    have hnone : self.earlyCancelGeneration = none := hearly
    have hmove := Move.admittedNew (t := self.turns) input turnId (trim text) hearly
    simpa [turns, nextGeneration, clearPreview, Turns.next, hnone] using hmove

/-- Every callback that succeeds is one of the moves. -/
theorem call_move {c : Callback} (h : self.call toLowercase c context = .ok (self', outputs)) :
    Move self.turns c self'.turns outputs := by
  cases c with
  | signal turnId =>
    obtain ⟨⟨next, emitted⟩, hnext, h⟩ := Fallible.bind_eq_ok.mp h
    obtain ⟨final, hevent, h⟩ := Fallible.bind_eq_ok.mp h
    cases h
    obtain ⟨rfl, rfl⟩ := commitCancellation_ok hnext
    rw [emitEvent_ok hevent]
    exact .interrupt turnId
  | process port input =>
    unfold call onProcess at h
    cases input with
    | none => cases h
    | some input =>
      obtain ⟨sequenceId, payload⟩ := input
      cases port with
      | unknown => cases h
      | transcriptIn =>
        cases payload with
        | text text => exact processTranscript_move h
        | event _ => cases h
        | other => cases h
      | activityIn =>
        cases payload with
        | text _ => cases h
        | other => cases h
        | event activityStarted =>
          obtain ⟨emitted, hemit, h⟩ := Fallible.bind_eq_ok.mp h
          cases h
          rw [emit_ok hemit]
          cases activityStarted with
          | true => exact .activityStart _ rfl
          | false => exact .activity _ rfl
      | previewIn =>
        cases payload with
        | event _ => cases h
        | other => cases h
        | text text =>
          simp only at h
          have hturns := observePreview_turns toLowercase self text
          have hconfirmed := observePreview_confirmed toLowercase self text
          generalize self.observePreview toLowercase text = observed at *
          obtain ⟨confirmed, observed⟩ := observed
          simp only at h hturns hconfirmed
          cases confirmed with
          | false =>
            cases h
            rw [hturns]
            exact .preview _
          | true =>
            obtain ⟨⟨next, emitted⟩, hnext, h⟩ := Fallible.bind_eq_ok.mp h
            cases h
            obtain ⟨rfl, rfl⟩ := commitCancellation_ok hnext
            obtain ⟨hopen, hearly⟩ := hconfirmed rfl
            have hmove := Move.earlyCancel (t := self.turns) (some ⟨sequenceId, .text text⟩)
              sequenceId hopen hearly
            rw [← hturns] at hmove
            rw [← hturns]
            exact hmove

end VoiceTurnController
end Muxiva.Turn
