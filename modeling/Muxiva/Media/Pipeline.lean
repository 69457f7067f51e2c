import Muxiva.Lib.Machine
import Muxiva.Lib.System

/-! The media `Pipeline`: admission, the checks around the backend, and the audio timeline. What a
backend answers is an argument of the call. A call is `none` where signed arithmetic overflows. -/
set_option linter.all false
namespace Muxiva.Media

open Machine

/-- `invalid` is any other value of the underlying byte. -/
inductive AudioSampleFormat where
  | u8
  | i16le
  | i24le
  | i32le
  | f32le
  | f64le
  | invalid (raw : UInt8)
  deriving DecidableEq, Repr

inductive PixelFormat where
  | rgba8
  | i420
  | invalid (raw : UInt8)
  deriving DecidableEq, Repr

structure AudioSpec where
  sampleRateHz : UInt32
  channels : UInt16
  sampleFormat : AudioSampleFormat
  deriving DecidableEq, Repr

structure PackedAudioView where
  data : Option (List UInt8)
  size : UInt64
  spec : AudioSpec
  samplesPerChannel : UInt64
  timestampNs : Int64
  deriving DecidableEq

structure OwnedAudioFrame where
  bytes : List UInt8
  spec : AudioSpec
  samplesPerChannel : UInt64
  timestampNs : Int64
  deriving DecidableEq

def OwnedAudioFrame.empty (frame : OwnedAudioFrame) : Bool := frame.samplesPerChannel = 0

structure VideoSpec where
  width : UInt32
  height : UInt32
  pixelFormat : PixelFormat
  deriving DecidableEq, Repr

structure PackedVideoView where
  data : Option (List UInt8)
  size : UInt64
  spec : VideoSpec
  timestampNs : Int64
  deriving DecidableEq

structure OwnedVideoFrame where
  bytes : List UInt8
  spec : VideoSpec
  timestampNs : Int64
  deriving DecidableEq

structure Status where
  code : ℤ
  message : String
  deriving DecidableEq, Repr

def Status.success : Status := ⟨0, ""⟩

def invalidArgument : ℤ := -2001
def busyCode : ℤ := -2002
def oversized : ℤ := -2003
def backendFailure : ℤ := -2004

def sampleWidth : AudioSampleFormat → UInt64
  | .u8 => 1
  | .i16le => 2
  | .i24le => 3
  | .i32le => 4
  | .f32le => 4
  | .f64le => 8
  | .invalid _ => 0

def validAudioSpec (spec : AudioSpec) : Bool :=
  spec.sampleRateHz ≥ 1 && spec.sampleRateHz ≤ 768000 && spec.channels ≥ 1 && spec.channels ≤ 64 &&
    sampleWidth spec.sampleFormat ≠ 0

def audioSize (spec : AudioSpec) (samples : UInt64) : Option UInt64 :=
  if samples = 0 then none
  else
    (checkedProduct samples spec.channels.toUInt64).bind fun count =>
      checkedProduct count (sampleWidth spec.sampleFormat)

def videoSize (spec : VideoSpec) : Option UInt64 :=
  if spec.width = 0 ∨ spec.height = 0 then none
  else
    (checkedProduct spec.width.toUInt64 spec.height.toUInt64).bind fun pixels =>
      if spec.pixelFormat = .rgba8 then checkedProduct pixels 4
      else if spec.width % 2 ≠ 0 ∨ spec.height % 2 ≠ 0 then none
      else if pixels > 18446744073709551615 - pixels / 2 then none
      else some (pixels + pixels / 2)

def durationNs (samples : UInt64) (rate : UInt32) : Option Int64 :=
  if rate = 0 ∨ samples > 9223372036854775807 then none
  else
    let whole := samples / rate.toUInt64
    let remainder := samples % rate.toUInt64
    if whole > 9223372036854775807 / 1000000000 then none
    else
      let value := whole * 1000000000 + remainder * 1000000000 / rate.toUInt64
      if value > 9223372036854775807 then none else some value.toInt64

def distance (left right : Int64) : UInt64 :=
  if left ≥ right then left.toUInt64 - right.toUInt64 else right.toUInt64 - left.toUInt64

structure PipelineConfig where
  maxFrameBytes : UInt64
  audioTimestampTolerance : Int64
  deriving DecidableEq

structure Pipeline where
  config : PipelineConfig
  audioFrames : UInt64
  videoFrames : UInt64
  outputBytes : UInt64
  invalidRejected : UInt64
  oversizedRejected : UInt64
  busyRejected : UInt64
  backendFailures : UInt64
  timestampDiscontinuities : UInt64
  hasAudioTimestamp : Bool
  nextAudioTimestamp : Int64
  hasAudioSpec : Bool
  audioFlushing : Bool
  audioInputSpec : AudioSpec
  audioOutputSpec : AudioSpec
  deriving DecidableEq

inductive BackendRequest where
  | convertAudio (input : PackedAudioView) (outputSpec : AudioSpec) (maxOutputBytes : UInt64)
  | flushAudio (outputSpec : AudioSpec) (maxOutputBytes : UInt64)
  | convertVideo (input : PackedVideoView) (outputSpec : VideoSpec) (maxOutputBytes : UInt64)
  | reset
  deriving DecidableEq

/-- `asked` is what went to the backend, `audio` and `video` what is left in `*output`. -/
structure Reply where
  status : Status
  asked : Option BackendRequest
  audio : Option OwnedAudioFrame
  video : Option OwnedVideoFrame
  deriving DecidableEq

/-- A refusal before the backend is asked. -/
def Reply.refused (code : ℤ) (message : String) : Reply := ⟨⟨code, message⟩, none, none, none⟩

/-- A failure after the backend was asked. -/
def Reply.failed (code : ℤ) (message : String) (asked : BackendRequest) : Reply :=
  ⟨⟨code, message⟩, some asked, none, none⟩

/-- The code a backend returns and what it left in the frame it was given. -/
structure AudioAnswer where
  result : ℤ
  converted : OwnedAudioFrame
  deriving DecidableEq

structure VideoAnswer where
  result : ℤ
  converted : OwnedVideoFrame
  deriving DecidableEq

namespace Pipeline

/-- `Impl` as its constructor leaves it. -/
def fresh (config : PipelineConfig) : Pipeline where
  config
  audioFrames := 0
  videoFrames := 0
  outputBytes := 0
  invalidRejected := 0
  oversizedRejected := 0
  busyRejected := 0
  backendFailures := 0
  timestampDiscontinuities := 0
  hasAudioTimestamp := false
  nextAudioTimestamp := 0
  hasAudioSpec := false
  audioFlushing := false
  audioInputSpec := ⟨0, 0, .i16le⟩
  audioOutputSpec := ⟨0, 0, .i16le⟩

def create (config : PipelineConfig) : Except Status Pipeline :=
  if config.maxFrameBytes = 0 ∨ config.maxFrameBytes > 512 * 1024 * 1024 ∨
      config.audioTimestampTolerance < 0 then
    .error ⟨invalidArgument, "invalid media pipeline configuration"⟩
  else .ok (fresh config)

variable (p : Pipeline)

/-- `Admission`, where another call holds the flag. -/
def rejectBusy : Pipeline × Reply :=
  ({ p with busyRejected := p.busyRejected + 1 }, .refused busyCode "media pipeline is busy")

/-- The timestamp of a converted frame, and the discontinuity it may be. -/
def placeAudio (inputTimestamp : Int64) : Pipeline × Int64 :=
  if p.hasAudioTimestamp then
    if distance inputTimestamp p.nextAudioTimestamp ≤ p.config.audioTimestampTolerance.toUInt64 then
      (p, p.nextAudioTimestamp)
    else
      ({ p with timestampDiscontinuities := p.timestampDiscontinuities + 1 }, inputTimestamp)
  else (p, inputTimestamp)

/-- `duration > 0 && timestamp > max - duration`. -/
def runsOver (timestamp duration : Int64) : Option Bool :=
  if duration > 0 then
    (subSigned Int64.maxValue duration).map fun limit => timestamp > limit
  else some false

/-- The end of both audio calls: the timeline moves past the frame, or the call ends as
`overflowed`. -/
def advance (converted : OwnedAudioFrame) (rate : UInt32) (expected : UInt64)
    (asked : BackendRequest) (overflowed : Pipeline × Reply) : Option (Pipeline × Reply) :=
  match durationNs converted.samplesPerChannel rate with
  | none => some overflowed
  | some duration =>
    (runsOver converted.timestampNs duration).bind fun exceeds =>
      if exceeds then some overflowed
      else
        (addSigned converted.timestampNs duration).map fun next =>
          ({ p with
              nextAudioTimestamp := next
              hasAudioTimestamp := true
              audioFrames := p.audioFrames + 1
              outputBytes := p.outputBytes + expected },
            ⟨.success, some asked, some converted, none⟩)

/-- `convert_audio` from where the backend has returned a frame that is not empty. -/
def acceptAudio (input : PackedAudioView) (outputSpec : AudioSpec) (converted : OwnedAudioFrame)
    (asked : BackendRequest) : Option (Pipeline × Reply) :=
  let failed := { p with backendFailures := p.backendFailures + 1 }
  let expected := audioSize converted.spec converted.samplesPerChannel
  if converted.spec ≠ outputSpec ∨ expected.map UInt64.toNat ≠ some converted.bytes.length then
    some (failed, .failed backendFailure "audio backend returned an invalid frame" asked)
  else
    let expected := expected.getD 0
    if expected > p.config.maxFrameBytes then
      some ({ p with oversizedRejected := p.oversizedRejected + 1 },
        .failed oversized "audio output exceeds media budget" asked)
    else
      let (p, timestamp) := p.placeAudio input.timestampNs
      p.advance { converted with timestampNs := timestamp } outputSpec.sampleRateHz expected asked
        ({ p with backendFailures := p.backendFailures + 1 },
          .failed backendFailure "audio timestamp arithmetic overflowed" asked)

def convertAudio (held : Bool) (input : PackedAudioView) (outputSpec : AudioSpec)
    (hasOutput : Bool) (answer : AudioAnswer) : Option (Pipeline × Reply) :=
  let invalid := { p with invalidRejected := p.invalidRejected + 1 }
  if hasOutput = false then some (p, .refused invalidArgument "audio output is null")
  else if held then some p.rejectBusy
  else if validAudioSpec input.spec = false ∨ validAudioSpec outputSpec = false ∨
      audioSize input.spec input.samplesPerChannel ≠ some input.size ∨ input.data = none then
    some (invalid, .refused invalidArgument "invalid packed audio frame")
  else if input.size > p.config.maxFrameBytes then
    some ({ p with oversizedRejected := p.oversizedRejected + 1 },
      .refused oversized "audio input exceeds media budget")
  else if p.audioFlushing ∨ p.hasAudioSpec ∧
      (p.audioInputSpec ≠ input.spec ∨ p.audioOutputSpec ≠ outputSpec) then
    some (invalid, .refused invalidArgument
      "audio stream format changed or was flushed; reset is required")
  else
    let asked := BackendRequest.convertAudio input outputSpec p.config.maxFrameBytes
    if answer.result ≠ 0 then
      some ({ p with backendFailures := p.backendFailures + 1 },
        .failed answer.result "audio backend conversion failed" asked)
    else
      let p := { p with
        hasAudioSpec := true
        audioInputSpec := input.spec
        audioOutputSpec := outputSpec }
      if answer.converted.empty then
        let converted := { answer.converted with
          bytes := []
          spec := outputSpec
          timestampNs := if p.hasAudioTimestamp then p.nextAudioTimestamp else input.timestampNs }
        some (p, ⟨.success, some asked, some converted, none⟩)
      else p.acceptAudio input outputSpec answer.converted asked

def flushAudio (held : Bool) (outputSpec : AudioSpec) (hasOutput : Bool) (answer : AudioAnswer) :
    Option (Pipeline × Reply) :=
  if hasOutput = false ∨ validAudioSpec outputSpec = false then
    some (p, .refused invalidArgument "invalid audio flush request")
  else if held then some p.rejectBusy
  else if p.hasAudioSpec ∧ p.audioOutputSpec ≠ outputSpec then
    some ({ p with invalidRejected := p.invalidRejected + 1 },
      .refused invalidArgument "audio flush format does not match the stream")
  else
    let p := { p with audioFlushing := p.hasAudioSpec }
    let asked := BackendRequest.flushAudio outputSpec p.config.maxFrameBytes
    if answer.result ≠ 0 then
      some ({ p with backendFailures := p.backendFailures + 1 },
        .failed answer.result "audio backend flush failed" asked)
    else
      let converted := { answer.converted with
        spec := outputSpec
        timestampNs := if p.hasAudioTimestamp then p.nextAudioTimestamp else 0 }
      if converted.empty then
        some (p, ⟨.success, some asked, some { converted with bytes := [] }, none⟩)
      else
        let expected := audioSize outputSpec converted.samplesPerChannel
        if expected.map UInt64.toNat ≠ some converted.bytes.length ∨
            expected.getD 0 > p.config.maxFrameBytes then
          some ({ p with backendFailures := p.backendFailures + 1 },
            .failed backendFailure "audio backend returned an invalid flush frame" asked)
        else
          p.advance converted outputSpec.sampleRateHz (expected.getD 0) asked
            (p, .failed backendFailure "audio flush timestamp overflowed" asked)

def convertVideo (held : Bool) (input : PackedVideoView) (outputSpec : VideoSpec)
    (hasOutput : Bool) (answer : VideoAnswer) : Pipeline × Reply :=
  if hasOutput = false then (p, .refused invalidArgument "video output is null")
  else if held then p.rejectBusy
  else
    let outputSize := videoSize outputSpec
    if videoSize input.spec ≠ some input.size ∨ input.data = none ∨ outputSize = none then
      ({ p with invalidRejected := p.invalidRejected + 1 },
        .refused invalidArgument "invalid packed video frame")
    else if input.size > p.config.maxFrameBytes ∨ outputSize.getD 0 > p.config.maxFrameBytes then
      ({ p with oversizedRejected := p.oversizedRejected + 1 },
        .refused oversized "video frame exceeds media budget")
    else
      let asked := BackendRequest.convertVideo input outputSpec p.config.maxFrameBytes
      let failed := { p with backendFailures := p.backendFailures + 1 }
      if answer.result ≠ 0 then
        (failed, .failed answer.result "video backend conversion failed" asked)
      else if answer.converted.spec ≠ outputSpec ∨
          answer.converted.bytes.length ≠ (outputSize.getD 0).toNat then
        (failed, .failed backendFailure "video backend returned an invalid frame" asked)
      else
        ({ p with
            videoFrames := p.videoFrames + 1
            outputBytes := p.outputBytes + outputSize.getD 0 },
          ⟨.success, some asked, none,
            some { answer.converted with timestampNs := input.timestampNs }⟩)

def reset (held : Bool) : Pipeline × Reply :=
  if held then p.rejectBusy
  else
    ({ p with
        hasAudioTimestamp := false
        nextAudioTimestamp := 0
        hasAudioSpec := false
        audioFlushing := false },
      ⟨.success, some .reset, none, none⟩)

end Pipeline

/-- A call with what decides its course: whether another call holds the flag, whether `output` is
null, what the backend answers. -/
inductive Call where
  | convertAudio (held : Bool) (input : PackedAudioView) (outputSpec : AudioSpec) (hasOutput : Bool)
    (answer : AudioAnswer)
  | flushAudio (held : Bool) (outputSpec : AudioSpec) (hasOutput : Bool) (answer : AudioAnswer)
  | convertVideo (held : Bool) (input : PackedVideoView) (outputSpec : VideoSpec) (hasOutput : Bool)
    (answer : VideoAnswer)
  | reset (held : Bool)

def Pipeline.step (p : Pipeline) : Call → Option (Pipeline × Reply)
  | .convertAudio held input outputSpec hasOutput answer =>
    p.convertAudio held input outputSpec hasOutput answer
  | .flushAudio held outputSpec hasOutput answer => p.flushAudio held outputSpec hasOutput answer
  | .convertVideo held input outputSpec hasOutput answer =>
    some (p.convertVideo held input outputSpec hasOutput answer)
  | .reset held => some (p.reset held)

/-- A call that returned, with the pipeline before and after. -/
structure Exchange where
  before : Pipeline
  call : Call
  reply : Reply
  after : Pipeline

structure MediaRun where
  pipeline : Pipeline
  exchanges : List Exchange

def mediaSystem : Transition.System MediaRun Call where
  init s := (∃ config, Pipeline.create config = .ok s.pipeline) ∧ s.exchanges = []
  step s call := (s.pipeline.step call).map fun (after, reply) =>
    ⟨after, s.exchanges ++ [⟨s.pipeline, call, reply, after⟩]⟩

end Muxiva.Media
