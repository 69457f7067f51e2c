import Muxiva.Ffi.Abi
import Muxiva.Ffi.Types

/-! Frames across the C boundary: the view a foreign node borrows, the copy of a view that comes
back, and the frame built from the copy. -/
set_option linter.all false
namespace Muxiva.Ffi

open Muxiva.Audio (AudioData AudioLayout ClockKind PcmSampleFormat Result SequenceId Timestamp
  checkedAdd checkedMul)

structure FrameHeaderView where
  abiVersion : ℕ
  structSize : ℕ
  frameType : ℕ
  clockKind : ℕ
  timestampNs : Timestamp
  sequenceId : SequenceId
  frameId : StrView
  clockDomainId : StrView
  streamId : StrView
  traceId : StrView
  reserved : List ℕ

structure AudioPayload where
  sampleRateHz : ℕ
  channels : ℕ
  sampleFormat : ℕ
  layout : ℕ
  reserved0 : ℕ
  samplesPerChannel : ℕ
  bytes : BytesView
  reserved : List ℕ

structure VideoPayload where
  width : ℕ
  height : ℕ
  pixelFormat : ℕ
  planeCount : ℕ
  bytes : BytesView
  reserved : List ℕ

structure TextPayload where
  text : StrView
  mediaType : StrView
  reserved : List ℕ

structure BytePayload where
  bytes : BytesView
  mediaType : StrView
  reserved : List ℕ

structure SignalPayload where
  signalName : StrView
  sourceNodeId : StrView
  value : BytesView
  reserved : List ℕ

structure EventPayload where
  topic : StrView
  value : BytesView
  reserved : List ℕ

/-- The members of the union, each as it is read. -/
structure PayloadUnion where
  audio : AudioPayload
  video : VideoPayload
  text : TextPayload
  bytes : BytePayload
  signal : SignalPayload
  event : EventPayload

structure FrameView where
  header : FrameHeaderView
  payload : PayloadUnion

/-- `size_of::<FrameHeader>()`. -/
def headerSize : ℕ := 128

/-- The zeroed union. -/
def emptyPayload : PayloadUnion where
  audio := ⟨0, 0, 0, 0, 0, 0, .null, [0, 0]⟩
  video := ⟨0, 0, 0, 0, .null, [0, 0, 0, 0]⟩
  text := ⟨.null, .null, [0, 0]⟩
  bytes := ⟨.null, .null, [0, 0]⟩
  signal := ⟨.null, .null, .null, [0, 0]⟩
  event := ⟨.null, .null, [0, 0]⟩

def invalid (message : String) : FfiError := .validation "MUXIVA-FFI-FRAME" message

variable {α ε : Type}

def mapErr (f : ε → FfiError) : Except ε α → Except FfiError α
  | .ok a => .ok a
  | .error e => .error (f e)

/-- A check that ends the function with an error. -/
def require (condition : Prop) [Decidable condition] (e : FfiError) : Except FfiError Unit :=
  if condition then .ok () else .error e

def okOr (e : FfiError) : Option α → Except FfiError α
  | some a => .ok a
  | none => .error e

structure OwnedHeader where
  frameType : ℕ
  clockKind : ℕ
  timestampNs : Timestamp
  sequenceId : SequenceId
  frameId : String
  clockDomainId : String
  streamId : String
  traceId : String
  deriving DecidableEq

inductive OwnedPayload where
  | audio (bytes : List UInt8) (sampleRateHz channels sampleFormat layout samplesPerChannel : ℕ)
  | video (bytes : List UInt8) (width height pixelFormat planeCount : ℕ)
  | text (text : String)
  | byte (bytes : List UInt8) (mediaType : Option String)
  | signal (value : List UInt8)
  | event (value : List UInt8)
  deriving DecidableEq

structure OwnedFrame where
  header : OwnedHeader
  payload : OwnedPayload
  deriving DecidableEq

def OwnedFrame.copiedPayloadLen (frame : OwnedFrame) : ℕ :=
  match frame.payload with
  | .audio bytes .. | .video bytes .. | .byte bytes _ | .signal bytes | .event bytes => bytes.length
  | .text text => text.utf8ByteSize

/-- The bytes of one sample, by `sample_format`. -/
def widths : List ℕ := [0, 1, 2, 3, 4, 4, 8]

/-- The bytes an audio payload must have. -/
def audioBytes (value : AudioPayload) (width : ℕ) : Except FfiError ℕ :=
  okOr (invalid "audio byte-count arithmetic overflow")
    ((checkedMul value.samplesPerChannel value.channels).bind (checkedMul · width))

/-- `u32::checked_mul`. -/
def checkedMulU32 (a b : ℕ) : Option ℕ := if a * b < 2 ^ 32 then some (a * b) else none

/-- The bytes a video payload must have. -/
def videoBytes (value : VideoPayload) (pixels : ℕ) : Except FfiError ℕ :=
  let overflow := invalid "video byte-count arithmetic overflow"
  if value.pixelFormat = 1 ∧ value.planeCount = 1 then okOr overflow (checkedMul pixels 4)
  else if value.pixelFormat = 2 ∧ value.planeCount = 3 ∧ value.width % 2 = 0 ∧ value.height % 2 = 0 then
    okOr overflow (checkedAdd pixels (pixels / 2))
  else .error (invalid "unsupported video pixel format or plane count")

def copyAudio (value : AudioPayload) : Except FfiError OwnedPayload := do
  require (value.reserved0 = 0 ∧ value.reserved = [0, 0]) (invalid "audio reserved fields must be zero")
  require ((1 ≤ value.sampleRateHz ∧ value.sampleRateHz ≤ 768000) ∧
      (1 ≤ value.channels ∧ value.channels ≤ 1024) ∧
      (1 ≤ value.sampleFormat ∧ value.sampleFormat ≤ 6) ∧ (1 ≤ value.layout ∧ value.layout ≤ 2) ∧
      value.samplesPerChannel ≠ 0) (invalid "invalid audio shape or enum value")
  let expected ← audioBytes value (widths.getD value.sampleFormat 0)
  require (expected = value.bytes.len) (invalid "audio byte length does not match its shape")
  let bytes ← mapErr invalid (copyBytes value.bytes)
  return .audio bytes value.sampleRateHz value.channels value.sampleFormat value.layout
    value.samplesPerChannel

def copyVideo (value : VideoPayload) : Except FfiError OwnedPayload := do
  require (value.reserved = [0, 0, 0, 0] ∧ value.width ≠ 0 ∧ value.height ≠ 0)
    (invalid "invalid video payload")
  let pixels ← okOr (invalid "video dimension arithmetic overflow")
    (checkedMulU32 value.width value.height)
  let expected ← videoBytes value pixels
  require (expected = value.bytes.len) (invalid "video byte length does not match its tight layout")
  let bytes ← mapErr invalid (copyBytes value.bytes)
  return .video bytes value.width value.height value.pixelFormat value.planeCount

def copyText (value : TextPayload) : Except FfiError OwnedPayload := do
  require (value.reserved = [0, 0]) (invalid "text reserved fields must be zero")
  let _mediaType ← mapErr invalid (copyUtf8 value.mediaType)
  let text ← mapErr invalid (copyUtf8 value.text)
  return .text text

def copyByte (value : BytePayload) : Except FfiError OwnedPayload := do
  require (value.reserved = [0, 0]) (invalid "byte reserved fields must be zero")
  let mediaType ← mapErr invalid (copyUtf8 value.mediaType)
  let bytes ← mapErr invalid (copyBytes value.bytes)
  return .byte bytes (if mediaType.utf8ByteSize = 0 then none else some mediaType)

def copySignal (value : SignalPayload) : Except FfiError OwnedPayload := do
  require (value.reserved = [0, 0]) (invalid "signal reserved fields must be zero")
  let _name ← mapErr invalid (copyStr value.signalName true)
  let _source ← mapErr invalid (copyStr value.sourceNodeId true)
  let bytes ← mapErr invalid (copyBytes value.value)
  return .signal bytes

def copyEvent (value : EventPayload) : Except FfiError OwnedPayload := do
  require (value.reserved = [0, 0]) (invalid "event reserved fields must be zero")
  let _topic ← mapErr invalid (copyStr value.topic true)
  let bytes ← mapErr invalid (copyBytes value.value)
  return .event bytes

def copyPayload (frame : FrameView) : Except FfiError OwnedPayload :=
  match frame.header.frameType with
  | 1 => copyAudio frame.payload.audio
  | 2 => copyVideo frame.payload.video
  | 3 => copyText frame.payload.text
  | 4 => copyByte frame.payload.bytes
  | 5 => copySignal frame.payload.signal
  | 6 => copyEvent frame.payload.event
  | _ => .error (invalid "unknown frame type")

/-- `none` is a pointer that is null or unaligned; an aligned one is readable. -/
def copyFrame (pointer : Option FrameView) : Except FfiError OwnedFrame := do
  let frame ← okOr (invalid "frame pointer is null or unaligned") pointer
  require (frame.header.abiVersion = abiVersion ∧ frame.header.structSize = headerSize)
    (.abi "frame header version or size does not match v1")
  require (frame.header.reserved = [0, 0, 0, 0])
    (invalid "frame header reserved fields must be zero")
  require (1 ≤ frame.header.clockKind ∧ frame.header.clockKind ≤ 3) (invalid "unknown clock kind")
  let frameId ← mapErr invalid (copyStr frame.header.frameId true)
  let clockDomainId ← mapErr invalid (copyStr frame.header.clockDomainId true)
  let streamId ← mapErr invalid (copyStr frame.header.streamId true)
  let traceId ← mapErr invalid (copyStr frame.header.traceId true)
  let payload ← copyPayload frame
  return {
    header := {
      frameType := frame.header.frameType
      clockKind := frame.header.clockKind
      timestampNs := frame.header.timestampNs
      sequenceId := frame.header.sequenceId
      frameId, clockDomainId, streamId, traceId }
    payload }

def clockKindOf : ℕ → Except FfiError ClockKind
  | 1 => .ok .monotonic
  | 2 => .ok .mediaRelative
  | 3 => .ok .wallClock
  | _ => .error (invalid "unknown clock kind")

def pcmSampleFormat : ℕ → Except FfiError PcmSampleFormat
  | 1 => .ok .u8
  | 2 => .ok .i16Le
  | 3 => .ok .i24Le
  | 4 => .ok .i32Le
  | 5 => .ok .f32Le
  | 6 => .ok .f64Le
  | _ => .error (invalid "invalid PCM format")

def audioLayout : ℕ → Except FfiError AudioLayout
  | 1 => .ok .interleaved
  | 2 => .ok .planar
  | _ => .error (invalid "invalid audio layout")

/-- The header of the runtime for the fields that cross the boundary. -/
def rustHeader {M E : Type} [EmptyCollection M] [EmptyCollection E] (frameId : String)
    (timestamp : Timestamp) (clockDomainId : String) (clock : ClockKind) (sequenceId : SequenceId)
    (streamId traceId : String) (frameType : FrameType) (message : String) :
    Except FfiError (FrameHeader M E) := do
  let frameId ← mapErr (fun _ => invalid "invalid frame ID") (Identifier.new frameId)
  let clockDomainId ← mapErr (fun _ => invalid "invalid clock domain ID")
    (Identifier.new clockDomainId)
  let streamId ← mapErr (fun _ => invalid "invalid stream ID") (Identifier.new streamId)
  let traceId ← mapErr (fun _ => invalid "invalid trace ID") (Identifier.new traceId)
  mapErr (fun _ => invalid message) (FrameHeader.new frameId timestamp ⟨clockDomainId, clock⟩
    sequenceId streamId traceId frameType ∅ ∅ [])

/-- Both sides of the boundary lay video out without padding. -/
def tightVideo (buffer : List UInt8) (width height pixelFormat planeCount : ℕ)
    (rgbaMessage yuvMessage message : String) : Except FfiError VideoData :=
  if pixelFormat = 1 ∧ planeCount = 1 then do
    let stride ← okOr (invalid "invalid RGBA8 video stride") (checkedMul width 4)
    mapErr (fun _ => invalid rgbaMessage) (VideoData.rgba8 buffer width height stride)
  else if pixelFormat = 2 ∧ planeCount = 3 then
    mapErr (fun _ => invalid yuvMessage)
      (VideoData.yuv420p buffer width height width (width / 2) (width / 2))
  else .error (invalid message)

namespace OwnedFrame

def rustFrameType : ℕ → Except FfiError FrameType
  | 1 => .ok .audio
  | 2 => .ok .video
  | 3 => .ok .text
  | 4 => .ok .byte
  | _ => .error (invalid "graph port payload must be audio, video, text, or byte")

def rustPayload : OwnedPayload → Except FfiError FramePayload
  | .text text => .ok (.text text)
  | .byte bytes none => .ok (.byte ⟨bytes, none⟩)
  | .byte bytes (some mediaType) => do
    let mediaType ← mapErr (fun _ => invalid "invalid media type") (MediaType.new mediaType)
    return .byte ⟨bytes, some mediaType⟩
  | .audio bytes sampleRateHz channels sampleFormat layout samplesPerChannel => do
    let format ← pcmSampleFormat sampleFormat
    let layout ← audioLayout layout
    let data ← mapErr (fun _ => invalid "invalid audio frame")
      (AudioData.new bytes sampleRateHz channels format layout samplesPerChannel)
    return .audio data
  | .video bytes width height pixelFormat planeCount => do
    let data ← tightVideo bytes width height pixelFormat planeCount "invalid RGBA8 video"
      "invalid I420 video" "unsupported C++ graph video layout"
    return .video data
  | .signal _ | .event _ => .error (invalid "control frames cannot use graph data ports")

def intoRust {M E : Type} [EmptyCollection M] [EmptyCollection E] (frame : OwnedFrame) :
    Except FfiError (Frame M E) := do
  let clock ← clockKindOf frame.header.clockKind
  let frameType ← rustFrameType frame.header.frameType
  let header ← rustHeader frame.header.frameId frame.header.timestampNs frame.header.clockDomainId
    clock frame.header.sequenceId frame.header.streamId frame.header.traceId frameType
    "invalid frame header"
  let payload ← rustPayload frame.payload
  mapErr (fun _ => invalid "invalid frame") (Frame.new header payload)

end OwnedFrame

def clockKindCode : ClockKind → ℕ
  | .monotonic => 1
  | .mediaRelative => 2
  | .wallClock => 3

def sampleFormatCode : PcmSampleFormat → ℕ
  | .u8 => 1
  | .i16Le => 2
  | .i24Le => 3
  | .i32Le => 4
  | .f32Le => 5
  | .f64Le => 6

def frameTypeCode : FrameType → ℕ
  | .audio => 1
  | .video => 2
  | .text => 3
  | .byte => 4
  | .signal => 5
  | .event => 6

def headerView {M E : Type} (header : FrameHeader M E) (frameType : ℕ) : FrameHeaderView where
  abiVersion := abiVersion
  structSize := headerSize
  frameType := frameType
  clockKind := clockKindCode header.clockDomain.kind
  timestampNs := header.timestamp
  sequenceId := header.sequenceId
  frameId := strView header.frameId.value
  clockDomainId := strView header.clockDomain.id.value
  streamId := strView header.streamId.value
  traceId := strView header.traceId.value
  reserved := [0, 0, 0, 0]

def audioPayload (data : AudioData) : AudioPayload where
  sampleRateHz := data.sampleRateHz
  channels := data.channels
  sampleFormat := sampleFormatCode data.sampleFormat
  layout := if data.layout = .planar then 2 else 1
  reserved0 := 0
  samplesPerChannel := data.samplesPerChannel
  bytes := .of data.buffer
  reserved := [0, 0]

def videoPayload (data : Video) : Except FfiError VideoPayload := do
  let codes ← match data.pixelFormat, data.layout with
    | .rgba8, .rgba8 _ => .ok (1, 1)
    | .yuv420p, .yuv420p _ _ _ => .ok (2, 3)
    | _, _ => .error (invalid "video pixel format and layout disagree")
  return {
    width := data.width
    height := data.height
    pixelFormat := codes.1
    planeCount := codes.2
    bytes := .of data.buffer
    reserved := [0, 0, 0, 0] }

def bytePayload (data : ByteData) : BytePayload where
  bytes := .of data.buffer
  mediaType := match data.mediaType with
    | none => .null
    | some mediaType => strView mediaType.value
  reserved := [0, 0]

/-- `borrowed_frame_view`, and `borrowed_text_view` for a text. -/
def borrowedFrameView {M E : Type} (frame : Frame M E) : Except FfiError FrameView := do
  let payload ← match frame.payload with
    | .audio data => .ok { emptyPayload with audio := audioPayload data }
    | .video data => do
      let video ← videoPayload data.video
      .ok { emptyPayload with video := video }
    | .text text => .ok { emptyPayload with text := ⟨strView text, .null, [0, 0]⟩ }
    | .byte data => .ok { emptyPayload with bytes := bytePayload data }
    | .signal name source =>
      .ok { emptyPayload with signal := ⟨strView name, strView source, .null, [0, 0]⟩ }
    | .event topic => .ok { emptyPayload with event := ⟨strView topic, .null, [0, 0]⟩ }
  return ⟨headerView frame.header (frameTypeCode frame.payload.frameType), payload⟩

end Muxiva.Ffi
