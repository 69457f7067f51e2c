import Mathlib.Data.Int.Notation
import Mathlib.Logic.Function.Basic
import Muxiva.Lib.System

/-! `XiaozhiGateway`: the callers of `publish_audio`, `publish_message` and `reset_egress`, and the
task `_ws_sender`. A step is a section under one lock, one operation on a queue or one send. The
pacing of the packets is left out: it decides when the sender goes on, never what it does. -/
set_option linter.all false
namespace Muxiva.Xiaozhi

/-- What `__init__` reads of the configuration; the codec refuses an empty frame. -/
structure Config where
  sampleRate : ℕ
  frameDurationMs : ℕ
  playbackPrebufferMs : ℕ
  playbackQueueMs : ℕ
  playbackStopGraceMs : ℕ
  playbackNoAudioStopTimeoutMs : ℕ
  frame_pos : 0 < sampleRate * frameDurationMs / 1000

namespace Config

def default : Config where
  sampleRate := 16000
  frameDurationMs := 60
  playbackPrebufferMs := 1200
  playbackQueueMs := 120000
  playbackStopGraceMs := 1000
  playbackNoAudioStopTimeoutMs := 5000
  frame_pos := by decide

variable (c : Config)

def prebufferMs : ℕ := max c.frameDurationMs c.playbackPrebufferMs

def queueMs : ℕ := max c.prebufferMs c.playbackQueueMs

def noAudioStopTimeoutMs : ℕ := max c.playbackStopGraceMs c.playbackNoAudioStopTimeoutMs

/-- `max(1, math.ceil(ms / frame_duration_ms))`. -/
def frames (ms : ℕ) : ℕ := max 1 ((ms + c.frameDurationMs - 1) / c.frameDurationMs)

def prebufferFrames : ℕ := c.frames c.prebufferMs

def egressFrames : ℕ := c.frames c.queueMs

def messagesSize : ℕ := 256

def pcmFrameBytes : ℕ := c.sampleRate * c.frameDurationMs / 1000 * 2

end Config

/-- A byte of PCM, with the number of the `publish_audio` call it was passed to. -/
structure PcmByte where
  value : UInt8
  call : ℕ
  deriving DecidableEq, Repr

/-- An Opus packet, with the PCM it was encoded from. -/
structure Packet where
  opus : List UInt8
  pcm : List PcmByte
  deriving DecidableEq, Repr

structure Payload where
  type : Option String
  state : Option String
  sessionId : Option String
  other : List (String × String)
  deriving DecidableEq, Repr

inductive TtsState where
  | start
  | stop
  deriving DecidableEq, Repr

def Payload.ttsState (payload : Payload) : Option TtsState :=
  if payload.type = some "tts" then
    if payload.state = some "start" then some .start
    else if payload.state = some "stop" then some .stop
    else none
  else none

/-- What went to the device, a packet with the number of calls that resets which have returned
were to discard. -/
inductive Sent where
  | message (message : Payload)
  | packet (packet : Packet) (returned : ℕ)
  deriving DecidableEq, Repr

/-- Where a caller's thread is. A reset carries the number of `publish_audio` calls begun before. -/
inductive Caller where
  | idle
  | publishChecks (call : ℕ) (pcm : List UInt8)
  | publishExtends (call : ℕ) (pcm : List UInt8)
  | publishMarks (frames : List (List PcmByte))
  | publishQueues (frames : List (List PcmByte))
  | messageChecks (payload : Payload)
  | messageBuilds (payload : Payload)
  | messageMarks (message : Payload)
  | messagePuts (message : Payload)
  | resetDrains (before : ℕ)
  | resetClears (before : ℕ)
  | resetForgets (before : ℕ)
  deriving DecidableEq, Repr

/-- Where `_ws_sender` is, with its local variables. -/
inductive Sender where
  | top
  | drainsMessages
  | sendsMessage (message : Payload)
  | readsPlayback
  | checksPrebuffer (playbackStarted shortReplyReady : Bool)
  | startsPlayback
  | takesPacket
  | sendsPacket (packet : Packet)
  | marksPacket
  | judgesStop
  | flushesTail
  | queuesTail (tail : List PcmByte)
  | takesStop
  | sendsStop (message : Payload)
  | endsPlayback
  | exited
  deriving DecidableEq, Repr

structure Gateway where
  ws : Option String
  stopped : Bool
  egress : List Packet
  messages : List Payload
  egressDropCount : ℕ
  egressPcm : List PcmByte
  ttsAudioSeen : Bool
  ttsLastAudioAt : ℤ
  ttsLastPacketSentAt : ℤ
  ttsStopMessage : Option Payload
  ttsStopRequestedAt : ℤ
  ttsPlaybackStarted : Bool
  callers : ℕ → Caller
  sender : Sender
  /-- The `publish_audio` calls begun. -/
  calls : ℕ
  /-- The calls begun before some reset that has emptied the egress queue. -/
  drained : ℕ
  /-- The calls begun before some reset that has returned. -/
  returned : ℕ
  sent : List Sent

/-- What a step is answered from outside: the clock in milliseconds, whether a send succeeds, and
the packet of the encoder. -/
structure Io where
  now : ℤ
  sent : Bool
  opus : Option (List UInt8)
  deriving DecidableEq, Repr

inductive Operation where
  | publishAudio (pcm : List UInt8)
  | publishMessage (payload : Payload)
  | resetEgress
  deriving DecidableEq, Repr

inductive Action where
  | connect (clientId : String)
  | disconnect
  | stop
  | call (caller : ℕ) (operation : Operation)
  | caller (caller : ℕ) (io : Io)
  | sender (io : Io)
  deriving DecidableEq, Repr

/-- The whole frames at the front of the buffer, and what is left; there are never more of them than
bytes. -/
def cutFrames (size : ℕ) : ℕ → List PcmByte → List (List PcmByte) × List PcmByte
  | 0, pcm => ([], pcm)
  | fuel + 1, pcm =>
    if size ≤ pcm.length then
      let rest := cutFrames size fuel (pcm.drop size)
      (pcm.take size :: rest.1, rest.2)
    else ([], pcm)

/-- The loop keeps every byte in order and leaves less than a frame. -/
theorem cutFrames_spec {size : ℕ} (hsize : 0 < size) :
    ∀ {fuel : ℕ} {pcm : List PcmByte}, pcm.length ≤ fuel →
      (cutFrames size fuel pcm).1.flatten ++ (cutFrames size fuel pcm).2 = pcm ∧
      (∀ frame ∈ (cutFrames size fuel pcm).1, frame.length = size) ∧
      (cutFrames size fuel pcm).2.length < size := by
  intro fuel
  induction fuel with
  | zero =>
    intro pcm hfuel
    have hnil : pcm.length = 0 := by omega
    refine ⟨rfl, by simp [cutFrames], ?_⟩
    rw [cutFrames, hnil]
    exact hsize
  | succ fuel ih =>
    intro pcm hfuel
    unfold cutFrames
    split_ifs with hframe
    · have hdrop : (pcm.drop size).length ≤ fuel := by
        rw [List.length_drop]
        omega
      obtain ⟨hflatten, hframes, hrest⟩ := ih hdrop
      refine ⟨?_, ?_, hrest⟩
      · rw [List.flatten_cons, List.append_assoc, hflatten, List.take_append_drop]
      · intro frame hmem
        rcases List.mem_cons.mp hmem with rfl | hmem
        · simp [hframe]
        · exact hframes frame hmem
    · exact ⟨rfl, by simp, Nat.lt_of_not_le hframe⟩

namespace Gateway

variable (c : Config) (s : Gateway)

def hasClient : Bool := s.ws.isSome

def moveTo (n : ℕ) (pc : Caller) : Gateway :=
  { s with callers := Function.update s.callers n pc }

/-- `_encode_and_queue`, with what it returns. -/
def encodeAndQueue (pcm : List PcmByte) (opus : Option (List UInt8)) : Gateway × Bool :=
  match opus with
  | none => (s, false)
  | some opus =>
    if s.egress.length < c.egressFrames then
      ({ s with egress := s.egress ++ [⟨opus, pcm⟩] }, true)
    else ({ s with egressDropCount := s.egressDropCount + 1 }, false)

def call (n : ℕ) (operation : Operation) : Option Gateway :=
  match s.callers n with
  | .idle =>
    match operation with
    | .publishAudio pcm =>
      some ({ s with calls := s.calls + 1 }.moveTo n (.publishChecks s.calls pcm))
    | .publishMessage payload => some (s.moveTo n (.messageChecks payload))
    | .resetEgress => some (s.moveTo n (.resetDrains s.calls))
  | _ => none

def stepCaller (n : ℕ) (io : Io) : Option Gateway :=
  match s.callers n with
  | .idle => none
  | .publishChecks call pcm =>
    some (s.moveTo n (if s.hasClient then .publishExtends call pcm else .idle))
  | .publishExtends call pcm =>
    let buffer := s.egressPcm ++ pcm.map (⟨·, call⟩)
    let frames := cutFrames c.pcmFrameBytes buffer.length buffer
    some ({ s with egressPcm := frames.2 }.moveTo n (.publishMarks frames.1))
  | .publishMarks frames =>
    some ({ s with
      ttsAudioSeen := true
      ttsLastAudioAt := io.now }.moveTo n (.publishQueues frames))
  | .publishQueues [] => some (s.moveTo n .idle)
  | .publishQueues (frame :: frames) =>
    some ((s.encodeAndQueue c frame io.opus).1.moveTo n (.publishQueues frames))
  | .messageChecks payload =>
    some (s.moveTo n (if s.hasClient then .messageBuilds payload else .idle))
  | .messageBuilds payload =>
    let sessionId := payload.sessionId.getD (s.ws.getD "")
    let message := { payload with sessionId := some sessionId }
    let pc := if message.ttsState.isSome then .messageMarks message else .messagePuts message
    some (s.moveTo n pc)
  | .messageMarks message =>
    match message.ttsState with
    | some .stop =>
      some ({ s with
        ttsStopMessage := some message
        ttsStopRequestedAt := io.now }.moveTo n .idle)
    | some .start =>
      some ({ s with
        ttsAudioSeen := false
        ttsLastAudioAt := 0
        ttsLastPacketSentAt := 0
        ttsStopMessage := none
        ttsStopRequestedAt := 0
        ttsPlaybackStarted := false }.moveTo n (.messagePuts message))
    | none => some (s.moveTo n (.messagePuts message))
  | .messagePuts message =>
    if s.messages.length < Config.messagesSize then
      some ({ s with messages := s.messages ++ [message] }.moveTo n .idle)
    else some (s.moveTo n .idle)
  | .resetDrains before =>
    match s.egress with
    | [] => some ({ s with drained := max s.drained before }.moveTo n (.resetClears before))
    | _ :: egress => some { s with egress }
  | .resetClears before => some ({ s with egressPcm := [] }.moveTo n (.resetForgets before))
  | .resetForgets before =>
    some ({ s with
      ttsStopMessage := none
      ttsStopRequestedAt := 0
      ttsAudioSeen := false
      ttsLastAudioAt := 0
      ttsLastPacketSentAt := 0
      ttsPlaybackStarted := false
      returned := max s.returned before }.moveTo n .idle)

def audioDrained (now : ℤ) : Bool :=
  s.ttsAudioSeen && decide (c.playbackStopGraceMs ≤
    now - max s.ttsLastAudioAt s.ttsLastPacketSentAt)

def audioNeverArrived (now : ℤ) : Bool :=
  !s.ttsAudioSeen && decide (c.noAudioStopTimeoutMs ≤ now - s.ttsStopRequestedAt)

/-- One step of `_ws_sender`; the ways back to the top of its loop go through a sleep. -/
def stepSender (io : Io) : Option Gateway :=
  match s.sender with
  | .top => some { s with sender := if s.stopped then .exited else .drainsMessages }
  | .drainsMessages =>
    match s.messages with
    | [] => some { s with sender := .readsPlayback }
    | message :: messages => some { s with messages, sender := .sendsMessage message }
  | .sendsMessage message =>
    if s.hasClient && io.sent then
      some { s with sent := s.sent ++ [.message message], sender := .drainsMessages }
    else some { s with sender := .drainsMessages }
  | .readsPlayback =>
    let shortReplyReady := s.ttsAudioSeen && s.ttsStopMessage.isSome
    some { s with sender := .checksPrebuffer s.ttsPlaybackStarted shortReplyReady }
  | .checksPrebuffer playbackStarted shortReplyReady =>
    if playbackStarted then some { s with sender := .takesPacket }
    else if s.egress.length < c.prebufferFrames ∧ ¬(0 < s.egress.length ∧ shortReplyReady) then
      some { s with sender := .top }
    else some { s with sender := .startsPlayback }
  | .startsPlayback => some { s with ttsPlaybackStarted := true, sender := .takesPacket }
  | .takesPacket =>
    match s.egress with
    | [] => some { s with sender := .judgesStop }
    | packet :: egress => some { s with egress, sender := .sendsPacket packet }
  | .sendsPacket packet =>
    if s.hasClient && io.sent then
      some { s with sent := s.sent ++ [.packet packet s.returned], sender := .marksPacket }
    else some { s with sender := .top }
  | .marksPacket => some { s with ttsLastPacketSentAt := io.now, sender := .top }
  | .judgesStop =>
    match s.ttsStopMessage with
    | none => some { s with sender := .top }
    | some message =>
      if s.audioDrained c io.now then some { s with sender := .flushesTail }
      else if s.audioNeverArrived c io.now then
        some { s with
          ttsStopMessage := none
          ttsStopRequestedAt := 0
          sender := .sendsStop message }
      else some { s with sender := .top }
  | .flushesTail =>
    if s.egressPcm.isEmpty then some { s with sender := .takesStop }
    else some { s with egressPcm := [], sender := .queuesTail s.egressPcm }
  | .queuesTail tail =>
    let queued := s.encodeAndQueue c tail io.opus
    some { queued.1 with sender := if queued.2 then .top else .takesStop }
  | .takesStop =>
    let sender := s.ttsStopMessage.elim .top .sendsStop
    some { s with ttsStopMessage := none, ttsStopRequestedAt := 0, sender }
  | .sendsStop message =>
    if s.hasClient && io.sent then
      some { s with sent := s.sent ++ [.message message], sender := .endsPlayback }
    else some { s with sender := .top }
  | .endsPlayback =>
    some { s with ttsPlaybackStarted := false, ttsAudioSeen := false, sender := .top }
  | .exited => none

/-- Connecting and disconnecting are the assignments of `_ws_handler`; the resets it makes, like
those for `abort`, are calls like any other. -/
def step : Action → Option Gateway
  | .connect clientId => some { s with ws := some clientId }
  | .disconnect => some { s with ws := none }
  | .stop => some { s with stopped := true }
  | .call n operation => s.call n operation
  | .caller n io => s.stepCaller c n io
  | .sender io => s.stepSender c io

end Gateway

def Gateway.new : Gateway where
  ws := none
  stopped := false
  egress := []
  messages := []
  egressDropCount := 0
  egressPcm := []
  ttsAudioSeen := false
  ttsLastAudioAt := 0
  ttsLastPacketSentAt := 0
  ttsStopMessage := none
  ttsStopRequestedAt := 0
  ttsPlaybackStarted := false
  callers := fun _ => .idle
  sender := .top
  calls := 0
  drained := 0
  returned := 0
  sent := []

def gatewaySystem (c : Config) : Transition.System Gateway Action where
  init s := s = .new
  step := Gateway.step c

end Muxiva.Xiaozhi
