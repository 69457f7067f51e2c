import Muxiva.Ffi.Types
import Muxiva.Lib.Bytes
import Muxiva.Runtime.Queue

/-! What the media dump writes: an artifact for each source and format, within a budget for the
artifact and one for the session. Files can be created and written. -/
set_option linter.all false
namespace Muxiva.Studio

open Muxiva.Audio (AudioData AudioLayout PcmSampleFormat)
open Muxiva.Ffi (FramePayload Video VideoData VideoLayout VideoPlane)
open Muxiva.Runtime (saturatingAdd)
open Bytes (File)

def maxSessionBytes : ℕ := 256 * 1024 * 1024

def maxArtifactBytes : ℕ := 64 * 1024 * 1024

inductive FrameObservationDirection where
  | input
  | output
  deriving DecidableEq, Repr

structure CapturedFrame where
  nodeId : String
  port : String
  direction : FrameObservationDirection
  frame : FramePayload

structure VideoDetails where
  width : ℕ
  height : ℕ
  pixelFormat : String
  frameBytes : ℕ
  planes : List VideoPlane
  deriving DecidableEq

inductive ArtifactSpecification where
  | audio (sampleRateHz channels : ℕ) (sampleFormat : PcmSampleFormat)
  | video (details : VideoDetails)
  deriving DecidableEq

structure MediaArtifact where
  id : String
  nodeId : String
  direction : String
  port : String
  kind : String
  format : String
  fileName : String
  contentType : String
  frames : ℕ
  bytes : ℕ
  durationMs : ℕ
  playable : Bool
  ready : Bool
  truncated : Bool
  details : ArtifactSpecification
  deriving DecidableEq

structure MediaSessionStatus where
  runId : String
  status : String
  bytes : ℕ
  frames : ℕ
  truncated : Bool
  lastError : Option String
  artifacts : List MediaArtifact

inductive ArtifactWriterKind where
  | audio (sampleRateHz channels : ℕ) (sampleFormat : PcmSampleFormat)
  | video
  deriving DecidableEq, Repr

structure ArtifactWriter where
  file : File
  metadata : MediaArtifact
  kind : ArtifactWriterKind
  dataBytes : ℕ
  durationNs : ℕ

/-- `writers` stands in the order of creation. Only the order in which `finish` walks them depends
on it. -/
structure SessionWriter where
  status : MediaSessionStatus
  writers : List (String × ArtifactWriter)
  nextArtifact : ℕ

def directionName : FrameObservationDirection → String
  | .input => "input"
  | .output => "output"

/-- The derived `Debug`. -/
def debugFormat : PcmSampleFormat → String
  | .u8 => "U8"
  | .i16Le => "I16Le"
  | .i24Le => "I24Le"
  | .i32Le => "I32Le"
  | .f32Le => "F32Le"
  | .f64Le => "F64Le"

/-- The derived `Debug`, in lower case. -/
def formatName : PcmSampleFormat → String
  | .u8 => "u8"
  | .i16Le => "i16le"
  | .i24Le => "i24le"
  | .i32Le => "i32le"
  | .f32Le => "f32le"
  | .f64Le => "f64le"

/-- JSON objects write their keys in order. -/
def planeJson (plane : VideoPlane) : String :=
  "\x7b\"offset\":" ++ plane.offset.repr ++ ",\"row_bytes\":" ++ plane.rowBytes.repr ++
    ",\"rows\":" ++ plane.rows.repr ++ ",\"stride\":" ++ plane.stride.repr ++ "\x7d"

def planesJson (planes : List VideoPlane) : String :=
  "[" ++ String.intercalate "," (planes.map planeJson) ++ "]"

def videoDetails (data : Video) : String × List VideoPlane :=
  match data.layout with
  | .rgba8 plane => ("rgba8", [plane])
  | .yuv420p y u v => ("yuv420p", [y, u, v])

namespace ArtifactSpecification

def audioKey (captured : CapturedFrame) (data : AudioData) : String :=
  captured.nodeId ++ "|" ++ directionName captured.direction ++ "|" ++ captured.port ++ "|audio|" ++
    data.sampleRateHz.repr ++ "|" ++ data.channels.repr ++ "|" ++ debugFormat data.sampleFormat

def videoKey (captured : CapturedFrame) (data : Video) : String :=
  captured.nodeId ++ "|" ++ directionName captured.direction ++ "|" ++ captured.port ++ "|video|" ++
    data.width.repr ++ "|" ++ data.height.repr ++ "|" ++ (videoDetails data).1 ++ "|" ++
    data.buffer.length.repr ++ "|" ++ planesJson (videoDetails data).2

def fromCapture (captured : CapturedFrame) : Option (String × ArtifactSpecification) :=
  match captured.frame with
  | .audio data =>
    some (audioKey captured data, .audio data.sampleRateHz data.channels data.sampleFormat)
  | .video data =>
    some (videoKey captured data.video, .video {
      width := data.video.width
      height := data.video.height
      pixelFormat := (videoDetails data.video).1
      frameBytes := data.video.buffer.length
      planes := (videoDetails data.video).2 })
  | _ => none

end ArtifactSpecification

/-- `to_string` of the error. -/
def failureText : Audio.Failure → String
  | .error e => "[" ++ e.code ++ "] " ++ e.message
  | .capacityOverflow => "capacity overflow"

/-- A sample is cut out of its plane, which holds it. -/
def interleavedAudio (data : AudioData) : Except String (List UInt8) :=
  if data.layout = .interleaved then .ok data.buffer
  else
    match (List.range data.channels).mapM data.planeBytes with
    | .error e => .error (failureText e)
    | .ok planes =>
      .ok ((List.range data.samplesPerChannel).flatMap fun sample =>
        (planes.take data.channels).flatMap fun plane =>
          Bytes.slice plane (sample * data.sampleFormat.bytesPerSample)
            data.sampleFormat.bytesPerSample)

/-- The 44 bytes `write_wav_header` writes. -/
def wavHeader (sampleRateHz channels : ℕ) (sampleFormat : PcmSampleFormat) (dataBytes : ℕ) :
    Except String (List UInt8) :=
  let bits := sampleFormat.bytesPerSample * 8
  let formatCode := match sampleFormat with
    | .f32Le | .f64Le => 3
    | _ => 1
  let blockAlign := channels * (bits / 8)
  let byteRate := sampleRateHz * blockAlign
  if 2 ^ 32 ≤ dataBytes then .error "WAV data exceeds 4 GiB"
  else if 2 ^ 16 ≤ bits then .error "invalid WAV sample width"
  else if 2 ^ 16 ≤ blockAlign then .error "invalid WAV block alignment"
  else if 2 ^ 32 ≤ byteRate then .error "invalid WAV byte rate"
  else .ok (Utf8.bytes "RIFF" ++ Bytes.le 4 (min (dataBytes + 36) (2 ^ 32 - 1)) ++
    Utf8.bytes "WAVEfmt " ++ Bytes.le 4 16 ++ Bytes.le 2 formatCode ++ Bytes.le 2 channels ++
    Bytes.le 4 sampleRateHz ++ Bytes.le 4 byteRate ++ Bytes.le 2 blockAlign ++ Bytes.le 2 bits ++
    Utf8.bytes "data" ++ Bytes.le 4 dataBytes)

namespace ArtifactWriterKind

def of : ArtifactSpecification → ArtifactWriterKind
  | .audio sampleRateHz channels sampleFormat => .audio sampleRateHz channels sampleFormat
  | .video _ => .video

/-- The bytes in front of the data. -/
def headerBytes : ArtifactWriterKind → ℕ
  | .audio _ _ _ => 44
  | .video => 0

/-- Writes the header at the cursor, if the kind has one. -/
def writeHeader (kind : ArtifactWriterKind) (file : File) (dataBytes : ℕ) : Except String File :=
  match kind with
  | .audio sampleRateHz channels sampleFormat =>
    (wavHeader sampleRateHz channels sampleFormat dataBytes).map file.writeAll
  | .video => .ok file

end ArtifactWriterKind

namespace ArtifactWriter

def new (id : String) (captured : CapturedFrame) (specification : ArtifactSpecification) :
    Except String ArtifactWriter :=
  let kind := ArtifactWriterKind.of specification
  let (extension, contentType, format, name) := match specification with
    | .audio _ _ sampleFormat => ("wav", "audio/wav", formatName sampleFormat, "audio")
    | .video details => ("rawvideo", "application/octet-stream", details.pixelFormat, "video")
  (kind.writeHeader File.create 0).map fun file =>
    { file
      metadata := {
        id
        nodeId := captured.nodeId
        direction := directionName captured.direction
        port := captured.port
        kind := name
        format
        fileName := id ++ "." ++ extension
        contentType
        frames := 0
        bytes := kind.headerBytes
        durationMs := 0
        playable := true
        ready := false
        truncated := false
        details := specification }
      kind
      dataBytes := 0
      durationNs := 0 }

/-- The bytes a frame adds to an artifact of this kind, and how long they play. -/
def encode (kind : ArtifactWriterKind) (frame : FramePayload) : Except String (List UInt8 × ℕ) :=
  match kind, frame with
  | .audio _ _ _, .audio data => (interleavedAudio data).map fun bytes => (bytes, data.durationNs)
  | .video, .video data => .ok (data.video.buffer, 0)
  | _, _ => .error "media artifact received an incompatible Frame"

def writeFrame (w : ArtifactWriter) (frame : FramePayload) (remainingSession : ℕ) :
    ArtifactWriter × Except String ℕ :=
  match encode w.kind frame with
  | .error e => (w, .error e)
  | .ok (bytes, durationNs) =>
    let allowed := min (maxArtifactBytes - w.dataBytes) remainingSession
    if allowed < bytes.length then
      ({ w with metadata := { w.metadata with truncated := true } }, .ok 0)
    else
      let dataBytes := saturatingAdd w.dataBytes bytes.length
      let durationNs := saturatingAdd w.durationNs durationNs
      ({ w with
          file := w.file.writeAll bytes
          dataBytes
          durationNs
          metadata := { w.metadata with
            frames := saturatingAdd w.metadata.frames 1
            bytes := dataBytes + w.kind.headerBytes
            durationMs := durationNs / 1000000 } }, .ok bytes.length)

def finish (w : ArtifactWriter) : ArtifactWriter × Except String Unit :=
  match w.kind with
  | .audio _ _ _ =>
    match w.kind.writeHeader (w.file.seekStart 0) w.dataBytes with
    | .error e => ({ w with file := w.file.seekStart 0 }, .error e)
    | .ok file => ({ w with file, metadata := { w.metadata with ready := true } }, .ok ())
  | .video =>
    let durationMs := if 1 < w.metadata.frames ∧ w.metadata.durationMs = 0 then
        min (w.metadata.frames * 33) (2 ^ 64 - 1)
      else w.metadata.durationMs
    ({ w with metadata := { w.metadata with durationMs, ready := true } }, .ok ())

end ArtifactWriter

/-- `format!("media-{:04}", number)`. -/
def artifactId (number : ℕ) : String :=
  let digits := Nat.toDigits 10 number
  "media-" ++ String.ofList (List.replicate (4 - digits.length) '0' ++ digits)

/-- The entry with the id of `metadata` becomes `metadata`. -/
def refresh (metadata : MediaArtifact) : List MediaArtifact → List MediaArtifact
  | [] => []
  | item :: rest =>
    if item.id = metadata.id then metadata :: rest else item :: refresh metadata rest

/-- What a key is mapped to is replaced. -/
def replaceWriter (key : String) (writer : ArtifactWriter) :
    List (String × ArtifactWriter) → List (String × ArtifactWriter)
  | [] => []
  | entry :: rest =>
    if entry.1 = key then (key, writer) :: rest else entry :: replaceWriter key writer rest

namespace SessionWriter

def new (runId : String) : SessionWriter where
  status := {
    runId
    status := "running"
    bytes := 0
    frames := 0
    truncated := false
    lastError := none
    artifacts := [] }
  writers := []
  nextArtifact := 0

variable (s : SessionWriter)

def truncate : SessionWriter := { s with status := { s.status with truncated := true } }

def fail (e : String) : SessionWriter := { s with status := { s.status with lastError := some e } }

/-- The first frame of a key opens its artifact; `error` where `capture` then returns. -/
def openArtifact (key : String) (captured : CapturedFrame)
    (specification : ArtifactSpecification) : Except SessionWriter SessionWriter :=
  if (s.writers.lookup key).isSome then .ok s
  else
    let s := { s with nextArtifact := s.nextArtifact + 1 }
    match ArtifactWriter.new (artifactId s.nextArtifact) captured specification with
    | .error e => .error (s.fail e)
    | .ok writer =>
      .ok { s with
        status := { s.status with artifacts := s.status.artifacts ++ [writer.metadata] }
        writers := s.writers ++ [(key, writer)] }

/-- The rest of `capture`, with an artifact for the key. -/
def writeArtifact (key : String) (frame : FramePayload) : SessionWriter :=
  match s.writers.lookup key with
  | none => s
  | some writer =>
    let (writer, result) := writer.writeFrame frame (maxSessionBytes - s.status.bytes)
    let s := { s with writers := replaceWriter key writer s.writers }
    let s := match result with
      | .error e => s.fail e
      | .ok written =>
        { s with status := { s.status with
            bytes := saturatingAdd s.status.bytes written
            frames := if written ≠ 0 then saturatingAdd s.status.frames 1 else s.status.frames
            artifacts := refresh writer.metadata s.status.artifacts } }
    if writer.metadata.truncated ∨ maxSessionBytes ≤ s.status.bytes then s.truncate else s

def capture (captured : CapturedFrame) : SessionWriter :=
  if maxSessionBytes ≤ s.status.bytes then s.truncate
  else
    match ArtifactSpecification.fromCapture captured with
    | none => s
    | some (key, specification) =>
      match s.openArtifact key captured specification with
      | .error s => s
      | .ok s => s.writeArtifact key captured.frame

/-- One turn of the loop of `finish`. -/
def finishArtifact (key : String) (writer : ArtifactWriter) : SessionWriter :=
  let (writer, result) := writer.finish
  let s := match result with
    | .error e => s.fail e
    | .ok _ => s
  { s with
    writers := replaceWriter key writer s.writers
    status := { s.status with artifacts := refresh writer.metadata s.status.artifacts } }

/-- The manifest is then written. -/
def finish : SessionWriter :=
  let s := s.writers.foldl (fun s (key, writer) => s.finishArtifact key writer) s
  { s with status := { s.status with
      status := if s.status.lastError.isSome then "completed-with-errors" else "completed" } }

/-- The session after these frames. -/
def captureAll (runId : String) (frames : List CapturedFrame) : SessionWriter :=
  frames.foldl capture (new runId)

end SessionWriter

end Muxiva.Studio
