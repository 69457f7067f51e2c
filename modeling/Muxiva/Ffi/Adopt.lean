import Muxiva.Ffi.RoundTrip
import Muxiva.Lib.Owning

/-! Payloads whose allocation changes hands: `ForeignPayloadOwner` and `adopt_owned_frame`, the way
into the runtime that copies no payload. -/
namespace Muxiva.Ffi

open Fallible Owning
open Muxiva.Audio (AudioData checkedAdd checkedMul)

/-- `payloadOwner` is `none` for null; `releasePayload` says if there is a callback. -/
structure OwnedNamedFrameView where
  outputPort : StrView
  frame : FrameView
  payloadOwner : Option ℕ
  releasePayload : Bool
  reserved : List ℕ

/-- `data` is what `as_ref` returns; dropping the owner calls the callback on `owner`. -/
structure ForeignPayloadOwner where
  data : List UInt8
  owner : ℕ

def payloadBytesView (frame : FrameView) : Except FfiError BytesView :=
  match frame.header.frameType with
  | 1 => .ok frame.payload.audio.bytes
  | 2 => .ok frame.payload.video.bytes
  | 4 => .ok frame.payload.bytes.bytes
  | _ => .error (invalid "owned emission must be Audio, Video, or Byte")

namespace ForeignPayloadOwner

/-- The bytes behind the pointer; an empty payload has none, whatever the pointer is. -/
def pinned (bytes : BytesView) : Except FfiError (List UInt8) :=
  if bytes.len = 0 then .ok []
  else okOr (invalid "owned emission has a null payload") (bytes.data.map (·.take bytes.len))

/-- The part of `from_view` that runs under the release guard. -/
def validate (view : OwnedNamedFrameView) (owner : ℕ) : Except FfiError ForeignPayloadOwner := do
  let bytes ← payloadBytesView view.frame
  let data ← pinned bytes
  require (view.reserved = [0, 0]) (invalid "owned emission reserved fields must be zero")
  require (bytes.len ≤ maxCopyBytes) (invalid "owned emission exceeds the maximum Frame payload")
  return ⟨data, owner⟩

def fromView (view : OwnedNamedFrameView) : Outcome ℕ FfiError ForeignPayloadOwner :=
  match view.payloadOwner, view.releasePayload with
  | none, _ => .fail (invalid "owned emission has no payload owner")
  | some _, false => .fail (invalid "owned emission has no payload release callback")
  | some owner, true => scope owner (validate view owner)

end ForeignPayloadOwner

def validateAudioPayload (value : AudioPayload) (actualLen : ℕ) : Except FfiError Unit := do
  require (value.reserved0 = 0 ∧ value.reserved = [0, 0]) (invalid "audio reserved fields must be zero")
  require ((1 ≤ value.sampleRateHz ∧ value.sampleRateHz ≤ 768000) ∧
    (1 ≤ value.channels ∧ value.channels ≤ 1024) ∧ value.samplesPerChannel ≠ 0)
    (invalid "invalid audio shape")
  let width ← okOr (invalid "invalid PCM format") ((widths[value.sampleFormat]?).filter (· ≠ 0))
  let expected ← audioBytes value width
  require (expected = actualLen ∧ 1 ≤ value.layout ∧ value.layout ≤ 2)
    (invalid "audio byte length or layout is invalid")

def validateVideoPayload (value : VideoPayload) (actualLen : ℕ) : Except FfiError Unit := do
  require (value.reserved = [0, 0, 0, 0] ∧ value.width ≠ 0 ∧ value.height ≠ 0)
    (invalid "invalid video payload")
  let pixels ← okOr (invalid "video dimension arithmetic overflow")
    (checkedMulU32 value.width value.height)
  let expected ← videoBytes value pixels
  require (expected = actualLen) (invalid "video byte length does not match its layout")

def ownedFrameType : ℕ → Except FfiError FrameType
  | 1 => .ok .audio
  | 2 => .ok .video
  | 4 => .ok .byte
  | _ => .error (invalid "owned emission must be Audio, Video, or Byte")

/-- An identifier of the header, copied and checked. -/
def ownedId (view : StrView) (message : String) : Except FfiError Identifier := do
  let value ← mapErr invalid (copyStr view true)
  mapErr (fun _ => invalid message) (Identifier.new value)

def ownedMediaType (mediaType : String) : Except FfiError (Option MediaType) :=
  if mediaType.utf8ByteSize = 0 then .ok none
  else (mapErr (fun _ => invalid "invalid media type") (MediaType.new mediaType)).map some

variable {M E : Type} [EmptyCollection M] [EmptyCollection E]

def ownedRustHeader (header : FrameHeaderView) : Except FfiError (FrameHeader M E) := do
  let clock ← clockKindOf header.clockKind
  let frameType ← ownedFrameType header.frameType
  let frameId ← ownedId header.frameId "invalid frame ID"
  let clockDomainId ← ownedId header.clockDomainId "invalid clock domain ID"
  let streamId ← ownedId header.streamId "invalid stream ID"
  let traceId ← ownedId header.traceId "invalid trace ID"
  mapErr (fun _ => invalid "invalid owned frame header") (FrameHeader.new frameId header.timestampNs
    ⟨clockDomainId, clock⟩ header.sequenceId streamId traceId frameType ∅ ∅ [])

/-- The match comes after the frame type was checked. -/
def ownedPayload (frame : FrameView) (buffer : List UInt8) : Except FfiError FramePayload :=
  match frame.header.frameType with
  | 1 => do
    let value := frame.payload.audio
    validateAudioPayload value buffer.length
    let format ← pcmSampleFormat value.sampleFormat
    let layout ← audioLayout value.layout
    let data ← mapErr (fun _ => invalid "invalid owned audio frame")
      (AudioData.new buffer value.sampleRateHz value.channels format layout value.samplesPerChannel)
    return .audio data
  | 2 => do
    let value := frame.payload.video
    validateVideoPayload value buffer.length
    let data ← tightVideo buffer value.width value.height value.pixelFormat value.planeCount
      "invalid owned RGBA8 video" "invalid owned I420 video" "unsupported owned video layout"
    return .video data
  | _ => do
    let value := frame.payload.bytes
    require (value.reserved = [0, 0]) (invalid "byte reserved fields must be zero")
    let mediaType ← mapErr invalid (copyUtf8 value.mediaType)
    let mediaType ← ownedMediaType mediaType
    return .byte ⟨buffer, mediaType⟩

/-- The owner moves into the buffer once the header is built; an early return drops the one or the
other. -/
def adoptOwnedFrame (pointer : Option FrameView) (owner : ForeignPayloadOwner) :
    Outcome ℕ FfiError (Frame M E) :=
  scope owner.owner do
    let frame ← okOr (invalid "owned frame pointer is null or unaligned") pointer
    require (frame.header.abiVersion = abiVersion ∧ frame.header.structSize = headerSize)
      (.abi "owned frame header version or size does not match v1")
    require (frame.header.reserved = [0, 0, 0, 0])
      (invalid "owned frame header reserved fields must be zero")
    let header ← ownedRustHeader frame.header
    let payload ← ownedPayload frame owner.data
    mapErr (fun _ => invalid "invalid owned frame") (Frame.new header payload)

end Muxiva.Ffi
