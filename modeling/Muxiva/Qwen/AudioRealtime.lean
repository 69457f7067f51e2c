import Mathlib
import Muxiva.Lib.System
import Muxiva.Lib.Text

/-! `QwenAudioRealtimeNode`: PCM goes to the provider in chunks of one size, and what the provider
says comes back as frames and events. `on_process` is cut at its two loops: a step takes a frame,
sends a chunk, or handles what one round of `poll` yields. Base64 and lower case are parameters. -/
set_option linter.all false
namespace Muxiva.Qwen

/-- An event of the provider, as far as the node reads it; the audio of a delta is what its base64
decodes to. -/
inductive ServerEvent where
  | responseCreated
  | responseDone
  | speechStarted
  | speechStopped
  | audioDelta (audio : Option (List UInt8))
  | textDelta (delta : Text)
  | transcriptDelta (text stash : Text)
  | transcriptCompleted (transcript : Text)
  | transcriptFailed (message : Text)
  | error (code message : Text)
  | other
  deriving DecidableEq, Repr

/-- The topics under `muxiva.voice`, with their payloads. -/
inductive Notice where
  | speechStarted
  | speechStopped
  | bargeIn
  | responseDelta (text : Text)
  | responseCompleted (text : Text) (audioBytes : ℕ)
  | transcriptPreview (text : Text)
  | transcriptCompleted (text : Text)
  | transcriptFailed (message : Text)
  deriving DecidableEq, Repr

/-- What the node reads, sends, emits and logs. -/
inductive Entry where
  | received (event : ServerEvent)
  | append (pcm : List UInt8)
  | cancel
  | inputMetrics (peak meanAbsolute : ℕ) (nonSilent : Bool)
  | chunkMetrics (bytes : ℕ)
  | signal
  | event (notice : Notice)
  | notification (notice : Notice)
  | audio (pcm : List UInt8)
  | text (text : Text)
  | preview (text : Text)
  | transcript (text : Text)
  | raceIgnored (code : Text)
  deriving DecidableEq, Repr

inductive Failure where
  | notPrepared
  | inputFormat
  | inputChunkMs
  | audioChunk
  | transport
  | base64
  | audioSize
  | node (code message : Text)
  | refused
  deriving DecidableEq, Repr

structure RealtimeConfig where
  inputChunkMs : ℤ
  lower : Text → Text

structure QwenAudioRealtimeNode where
  prepared : Bool
  responseActive : Bool
  cancelPending : Bool
  discardResponseOutput : Bool
  inputAudio : List UInt8
  inputFramesReceived : ℕ
  audioChunksSent : ℕ
  audioBytesSent : ℕ
  responseText : Text
  responseAudioBytes : ℕ
  deriving DecidableEq, Repr

/-- The node after a piece of a callback, the effects in their order, and the exception raised
behind them. -/
structure Outcome where
  node : QwenAudioRealtimeNode
  effects : List Entry
  raises : Option Failure

/-- `chunk_bytes`. -/
def RealtimeConfig.chunkBytes (c : RealtimeConfig) : ℤ := 16000 * 1 * 2 * c.inputChunkMs / 1000

/-- `int.from_bytes(.., "little", signed=True)` of two bytes. -/
def sample (low high : UInt8) : ℤ :=
  let n := low.toNat + 256 * high.toNat
  if n < 32768 then (n : ℤ) else (n : ℤ) - 65536

def magnitudes : List UInt8 → List ℕ
  | low :: high :: pcm => (sample low high).natAbs :: magnitudes pcm
  | _ => []

/-- `_record_input_metrics`. -/
def recordInputMetrics (pcm : List UInt8) : Entry :=
  let ms := magnitudes pcm
  let peak := ms.foldl max 0
  .inputMetrics peak (if ms.length = 0 then 0 else ms.sum / ms.length) (256 ≤ peak)

/-- `audio_append`. -/
def audioAppend (pcm : List UInt8) : Except Failure Entry :=
  if pcm = [] ∨ 256 * 1024 < pcm.length then .error .audioChunk else .ok (.append pcm)

def goneMarkers : List Text :=
  ["conversation has no active response", "no active response", "response is not active",
    "response not found", "response already done", "response already completed"].map String.toList

/-- `_is_cancel_race`. -/
def RealtimeConfig.isCancelRace (c : RealtimeConfig) (code message : Text) : Bool :=
  let detail := c.lower (code ++ [' '] ++ message)
  let responseIsGone := goneMarkers.any fun marker => marker <:+: detail
  let cancelRequestRejected := decide ("cancel".toList <:+: detail) ||
    c.lower code = "invalid_value".toList || c.lower code = "invalid_request_error".toList
  responseIsGone && cancelRequestRejected

/-- `_emit_event`. -/
def emitEvent (notice : Notice) : List Entry := [.event notice, .notification notice]

namespace QwenAudioRealtimeNode
variable (c : RealtimeConfig) (self : QwenAudioRealtimeNode)

/-- The node before `on_prepare`. -/
def new : QwenAudioRealtimeNode where
  prepared := false
  responseActive := false
  cancelPending := false
  discardResponseOutput := false
  inputAudio := []
  inputFramesReceived := 0
  audioChunksSent := 0
  audioBytesSent := 0
  responseText := []
  responseAudioBytes := 0

def speechStarted : Outcome :=
  if self.responseActive then
    { node := { self with
        responseActive := false
        cancelPending := true
        discardResponseOutput := true }
      effects := [Entry.cancel, .signal] ++ emitEvent .speechStarted ++ emitEvent .bargeIn
      raises := none }
  else ⟨self, [Entry.signal] ++ emitEvent .speechStarted, none⟩

def audioDelta (audio : Option (List UInt8)) : Outcome :=
  if self.discardResponseOutput then ⟨self, [], none⟩
  else
    match audio with
    | none => ⟨self, [], some .base64⟩
    | some pcm =>
      if pcm = [] ∨ 256 * 1024 < pcm.length ∨ pcm.length % 2 ≠ 0 then ⟨self, [], some .audioSize⟩
      else
        ⟨{ self with responseAudioBytes := self.responseAudioBytes + pcm.length }, [.audio pcm], none⟩

def textDelta (delta : Text) : Outcome :=
  if self.discardResponseOutput ∨ delta = [] then ⟨self, [], none⟩
  else
    ⟨{ self with responseText := self.responseText ++ delta },
      [.text delta, .notification (.responseDelta delta)], none⟩

def onError (code message : Text) : Outcome :=
  let code := code.take 128
  let message := message.take 512
  if self.cancelPending && c.isCancelRace code message then
    ⟨{ self with cancelPending := false }, [.raceIgnored code], none⟩
  else ⟨self, [], some (.node code message)⟩

/-- The body of the loop over `poll`. -/
def onEvent : ServerEvent → Outcome
  | .responseCreated =>
    { node := { self with
        responseActive := true
        cancelPending := false
        discardResponseOutput := false
        responseText := []
        responseAudioBytes := 0 }
      effects := []
      raises := none }
  | .responseDone =>
    ⟨{ self with responseActive := false },
      if self.discardResponseOutput then []
      else emitEvent (.responseCompleted self.responseText self.responseAudioBytes), none⟩
  | .speechStarted => self.speechStarted
  | .speechStopped => ⟨self, emitEvent .speechStopped, none⟩
  | .audioDelta audio => self.audioDelta audio
  | .textDelta delta => self.textDelta delta
  | .transcriptDelta text stash =>
    if text ++ stash = [] then ⟨self, [], none⟩
    else
      ⟨self, [.preview (text ++ stash), .notification (.transcriptPreview (text ++ stash))], none⟩
  | .transcriptCompleted transcript =>
    if transcript = [] then ⟨self, [], none⟩
    else ⟨self, [.transcript transcript, .notification (.transcriptCompleted transcript)], none⟩
  | .transcriptFailed message => ⟨self, emitEvent (.transcriptFailed (message.take 512)), none⟩
  | .error code message => self.onError c code message
  | .other => ⟨self, [], none⟩

/-- `on_process` up to its first loop. -/
def takeFrame (sampleRateHz channels : ℕ) (data : List UInt8) : Outcome :=
  if !self.prepared then ⟨self, [], some .notPrepared⟩
  else if sampleRateHz ≠ 16000 ∨ channels ≠ 1 then ⟨self, [], some .inputFormat⟩
  else
    { node := { self with
        inputFramesReceived := self.inputFramesReceived + 1
        inputAudio := self.inputAudio ++ data }
      effects := [recordInputMetrics data]
      raises := if c.chunkBytes ≤ 0 ∨ 64 * 1024 < c.chunkBytes then some .inputChunkMs else none }

/-- One turn of the first loop. -/
def sendChunk : Outcome :=
  let chunk := self.inputAudio.take c.chunkBytes.toNat
  let rest := { self with inputAudio := self.inputAudio.drop c.chunkBytes.toNat }
  match audioAppend chunk with
  | .error failure => ⟨rest, [], some failure⟩
  | .ok event =>
    { node := { rest with
        audioChunksSent := self.audioChunksSent + 1
        audioBytesSent := self.audioBytesSent + chunk.length }
      effects := [event, .chunkMetrics chunk.length]
      raises := none }

end QwenAudioRealtimeNode

/-- Where `on_process` stands. -/
inductive RealtimePhase where
  | rest
  | chunks
  | polls
  | failed (failure : Failure)
  | ended
  deriving DecidableEq, Repr

/-- What a round of `poll` yields. -/
inductive Polled where
  | event (event : ServerEvent)
  | raises
  | done
  deriving DecidableEq, Repr

/-- `taken` is how many effects succeed before the transport or the context refuses one. -/
inductive RealtimeAction where
  | prepare
  | process (sampleRateHz channels : ℕ) (data : List UInt8) (taken : ℕ)
  | send (taken : ℕ)
  | poll (polled : Polled) (taken : ℕ)
  | finish
  deriving DecidableEq, Repr

/-- The node, where it stands, what it has done so far, and the PCM it was given. -/
structure RealtimeSession where
  node : QwenAudioRealtimeNode
  phase : RealtimePhase
  log : List Entry
  accepted : List UInt8
  deriving DecidableEq, Repr

namespace RealtimeSession
variable (c : RealtimeConfig) (s : RealtimeSession)

def new : RealtimeSession := ⟨.new, .rest, [], []⟩

/-- An exception ends the node, so that its fields do not matter after one. -/
def carryOut (outcome : Outcome) (taken : ℕ) (next : RealtimePhase) : RealtimeSession :=
  if outcome.effects.length ≤ taken then
    { s with
      node := outcome.node
      log := s.log ++ outcome.effects
      phase := match outcome.raises with
        | some failure => .failed failure
        | none => next }
  else { s with log := s.log ++ outcome.effects.take taken, phase := .failed .refused }

def process (sampleRateHz channels : ℕ) (data : List UInt8) (taken : ℕ) : RealtimeSession :=
  { s with
    accepted := s.accepted ++ if s.node.prepared ∧ sampleRateHz = 16000 ∧ channels = 1 then data else []
  }.carryOut (s.node.takeFrame c sampleRateHz channels data) taken .chunks

def poll (polled : Polled) (taken : ℕ) : RealtimeSession :=
  match polled with
  | .event event =>
    { s with log := s.log ++ [Entry.received event] }.carryOut (s.node.onEvent c event) taken .polls
  | .raises => { s with phase := .failed .transport }
  | .done => { s with phase := .rest }

/-- Whether the first loop goes on. -/
def hasChunk : Bool := s.phase = .chunks && c.chunkBytes ≤ s.node.inputAudio.length

def step : RealtimeAction → Option RealtimeSession
  | .prepare =>
    if s.phase = .rest then some { s with node := { s.node with prepared := true } } else none
  | .process sampleRateHz channels data taken =>
    if s.phase = .rest then some (s.process c sampleRateHz channels data taken) else none
  | .send taken =>
    if s.hasChunk c then some (s.carryOut (s.node.sendChunk c) taken .chunks) else none
  | .poll polled taken =>
    if s.phase = .polls ∨ s.phase = .chunks ∧ s.hasChunk c = false then
      some (s.poll c polled taken)
    else none
  | .finish =>
    match s.phase with
    | .rest | .failed _ => some { s with node := { s.node with prepared := false }, phase := .ended }
    | _ => none

end RealtimeSession

open Transition in
def audioRealtime (c : RealtimeConfig) : System RealtimeSession RealtimeAction where
  init s := s = .new
  step := RealtimeSession.step c

end Muxiva.Qwen
