import Mathlib.Algebra.Group.Int.Defs
import Mathlib.Algebra.GroupWithZero.Nat
import Mathlib.Data.Int.Notation
import Muxiva.Graph.Types
import Muxiva.Lib.System
import Muxiva.Lib.Text

/-! `VoiceTurnController`: activity events, previews, transcripts and interrupt signals in,
cancellations and admitted turns out. Texts are lists of characters; the table of lower-case
characters is a parameter. -/
set_option linter.all false
namespace Muxiva.Turn

def punctuation : Text := "，。！？、,.!?…~～;；:：'\"“”‘’（）()[]【】<>《》*_—-".toList

/-- `normalize_voice_utterance`. -/
def normalizeVoiceUtterance (toLowercase : Char → Text) (value : Text) : Text :=
  (value.filter fun c => !isWhitespace c && !punctuation.contains c).flatMap toLowercase

structure VoiceTurnController where
  ignoreFillers : Bool
  minimumCharacters : ℕ
  earlyCancelPreviewHits : ℕ
  allowlist : List Text
  ignored : List Text
  generation : ℕ
  previewWindowOpen : Bool
  previewCandidate : Option Text
  previewHits : ℕ
  earlyCancelGeneration : Option ℕ

inductive Reason where
  | empty
  | configured
  | previewTooShort
  | validatedPartial
  | newTurn
  | admitted
  | authoritativeInterrupt
  deriving DecidableEq, Repr

/-- The event topics of the controller; the cancellation is both a signal and an event. -/
inductive Topic where
  | turnCancelled
  | turnStarted
  | turnUtteranceCommitted
  | turnUtteranceIgnored
  deriving DecidableEq, Repr

/-- `decision_payload`. -/
structure Decision where
  generation : ℤ
  turnId : ℤ
  reason : Reason
  deriving DecidableEq, Repr

inductive Output where
  | forward
  | signal (decision : Decision)
  | notification (topic : Topic) (decision : Decision)
  | event (topic : Topic) (decision : Decision)
  | prompt (text : Text)
  | transcript (text : Text)
  deriving DecidableEq, Repr

/-- What the controller reads of a frame. -/
inductive Payload where
  | text (text : Text)
  | event (activityStarted : Bool)
  | other
  deriving DecidableEq, Repr

structure Input where
  sequenceId : ℕ
  payload : Payload
  deriving DecidableEq, Repr

inductive InputPort where
  | activityIn
  | previewIn
  | transcriptIn
  | unknown
  deriving DecidableEq, Repr

/-- Whether the context refuses an output after those it has taken, for a limit, a missing route or
a stopped bus; a frame that cannot be derived counts as refused. -/
abbrev Context := List Output → Output → Option MuxivaError

def emit (context : Context) (outputs : List Output) (output : Output) :
    Except MuxivaError (List Output) :=
  match context outputs output with
  | some e => .error e
  | none => .ok (outputs ++ [output])

def u64Max : ℕ := 2 ^ 64 - 1
def u8Max : ℕ := 2 ^ 8 - 1

/-- `i64::try_from(..).unwrap_or(i64::MAX)`. -/
def clampI64 (n : ℕ) : ℤ := if n < 2 ^ 63 then (n : ℤ) else 2 ^ 63 - 1

def nodeError (code message : String) : MuxivaError := ⟨.internal, code, message⟩

namespace VoiceTurnController

variable (toLowercase : Char → Text) (self : VoiceTurnController)

def ignoredReason (text : Text) : Option Reason :=
  let normalized := normalizeVoiceUtterance toLowercase text
  if normalized.isEmpty then some .empty
  else if self.ignoreFillers && self.ignored.contains normalized then some .configured
  else none

def previewRejectionReason (text : Text) : Option Reason :=
  match self.ignoredReason toLowercase text with
  | some reason => some reason
  | none =>
    let normalized := normalizeVoiceUtterance toLowercase text
    if normalized.length < self.minimumCharacters && !self.allowlist.contains normalized then
      some .previewTooShort
    else none

def canConsumePreview (text : Text) : Bool :=
  self.previewWindowOpen && self.earlyCancelGeneration.isNone &&
    (self.previewRejectionReason toLowercase text).isNone

def observePreview (text : Text) : Bool × VoiceTurnController :=
  if !self.canConsumePreview toLowercase text then (false, self)
  else
    let normalized := normalizeVoiceUtterance toLowercase text
    let compatible := self.previewCandidate.any fun previous =>
      previous.isPrefixOf normalized || normalized.isPrefixOf previous
    let hits := if compatible then min (self.previewHits + 1) u8Max else 1
    (self.earlyCancelPreviewHits ≤ hits || self.allowlist.contains normalized,
      { self with previewCandidate := some normalized, previewHits := hits })

def nextGeneration : VoiceTurnController :=
  { self with generation := min (self.generation + 1) u64Max }

def decisionPayload (generation turnId : ℕ) (reason : Reason) : Decision :=
  ⟨clampI64 generation, clampI64 turnId, reason⟩

def emitEvent (context : Context) (outputs : List Output) (topic : Topic) (payload : Decision) :
    Except MuxivaError (List Output) := do
  let outputs ← emit context outputs (.notification topic payload)
  emit context outputs (.event topic payload)

/-- `commit_cancellation`; the new generation is the one of the controller it returns. -/
def commitCancellation (turnId : ℕ) (context : Context) (outputs : List Output) (reason : Reason) :
    Except MuxivaError (VoiceTurnController × List Output) := do
  let next := self.nextGeneration
  let outputs ← emit context outputs (.signal (decisionPayload next.generation turnId reason))
  return (next, outputs)

def clearPreview : VoiceTurnController := { self with previewCandidate := none, previewHits := 0 }

/-- The early generation if a preview has taken one, else a new one. -/
def takeGeneration (turnId : ℕ) (context : Context) :
    Except MuxivaError (ℕ × VoiceTurnController × List Output) :=
  match self.earlyCancelGeneration with
  | some generation => .ok (generation, { self with earlyCancelGeneration := none }, [])
  | none => do
    let (next, outputs) ← self.commitCancellation turnId context [] .newTurn
    return (next.generation, next, outputs)

/-- The callback for `transcript_in`. -/
def processTranscript (turnId : ℕ) (text : Text) (context : Context) :
    Except MuxivaError (VoiceTurnController × List Output) := do
  let self := { self with previewWindowOpen := false }
  let text := trim text
  match self.ignoredReason toLowercase text with
  | some reason =>
    let self := { self.clearPreview with earlyCancelGeneration := none }
    let outputs ← emitEvent context [] .turnUtteranceIgnored
      (decisionPayload self.generation turnId reason)
    return (self, outputs)
  | none =>
    let (generation, self, outputs) ← self.takeGeneration turnId context
    let self := self.clearPreview
    let outputs ← emit context outputs (.prompt text)
    let outputs ← emit context outputs (.transcript text)
    let payload := decisionPayload generation turnId .admitted
    let outputs ← emitEvent context outputs .turnStarted payload
    let outputs ← emitEvent context outputs .turnUtteranceCommitted payload
    return (self, outputs)

def onProcess (port : InputPort) (input : Option Input) (context : Context) :
    Except MuxivaError (VoiceTurnController × List Output) :=
  match input with
  | none => .error (nodeError "MUXIVA-VOICE-TURN-INPUT" "voice turn controller requires input")
  | some input =>
    match port with
    | .activityIn =>
      match input.payload with
      | .event activityStarted => do
        let self := if activityStarted then
            { self.clearPreview with earlyCancelGeneration := none, previewWindowOpen := true }
          else self
        let outputs ← emit context [] .forward
        return (self, outputs)
      | _ => .error
          ⟨.validation, "MUXIVA-FRM-TYPE-MISMATCH", "frame header, payload, or expected type differs"⟩
    | .previewIn =>
      match input.payload with
      | .text text => do
        let (confirmed, self) := self.observePreview toLowercase text
        if !confirmed then return (self, [])
        let (self, outputs) ←
          self.commitCancellation input.sequenceId context [] .validatedPartial
        return ({ self with earlyCancelGeneration := some self.generation }, outputs)
      | _ => .error (nodeError "MUXIVA-VOICE-TURN-TYPE" "preview must be text")
    | .transcriptIn =>
      match input.payload with
      | .text text => self.processTranscript toLowercase input.sequenceId text context
      | _ => .error (nodeError "MUXIVA-VOICE-TURN-TYPE" "transcript must be text")
    | .unknown => .error (nodeError "MUXIVA-VOICE-TURN-PORT"
        "voice turn controller received an unknown data port")

def onSignal (turnId : ℕ) (context : Context) :
    Except MuxivaError (VoiceTurnController × List Output) := do
  let (self, outputs) ← self.commitCancellation turnId context [] .authoritativeInterrupt
  let outputs ← emitEvent context outputs .turnCancelled
    (decisionPayload self.generation turnId .authoritativeInterrupt)
  return (self, outputs)

end VoiceTurnController

inductive Callback where
  | process (port : InputPort) (input : Option Input)
  | signal (turnId : ℕ)
  deriving DecidableEq

def VoiceTurnController.call (toLowercase : Char → Text) (self : VoiceTurnController) :
    Callback → Context → Except MuxivaError (VoiceTurnController × List Output)
  | .process port input, context => self.onProcess toLowercase port input context
  | .signal turnId, context => self.onSignal turnId context

/-- One callback of a run: the controller before it, and what it emitted. -/
structure Entry where
  before : VoiceTurnController
  callback : Callback
  outputs : List Output

structure State where
  controller : VoiceTurnController
  log : List Entry

/-- As `create` makes it. -/
def VoiceTurnController.Fresh (self : VoiceTurnController) : Prop :=
  self.generation = 0 ∧ self.previewWindowOpen = false ∧ self.previewCandidate = none ∧
    self.previewHits = 0 ∧ self.earlyCancelGeneration = none

/-- The runs in which every callback returns `Ok`. -/
def controllerSystem (toLowercase : Char → Text) : Transition.System State (Callback × Context) where
  init s := s.controller.Fresh ∧ s.log = []
  step s a :=
    match s.controller.call toLowercase a.1 a.2 with
    | .error _ => none
    | .ok (controller, outputs) =>
      some ⟨controller, s.log ++ [⟨s.controller, a.1, outputs⟩]⟩

end Muxiva.Turn
