import Muxiva.Audio.Types
import Muxiva.Lib.Text
import Muxiva.Lib.Utf8

/-! Frames as both sides of the C boundary see them: identifiers and media types that passed their
check, video that one of its two constructors built, and headers with the type of their payload. -/
set_option linter.all false
namespace Muxiva.Ffi

open Muxiva.Audio (AudioData AudioLayout ClockKind PcmSampleFormat Result SequenceId Timestamp
  arithmeticError checkedAdd checkedMul failWith orElse)

inductive IdentifierError where
  | empty
  | tooLong
  | leadingOrTrailingWhitespace
  | containsControlCharacter
  deriving DecidableEq, Repr

def validateIdentifier (value : String) : Except IdentifierError Unit :=
  if value.utf8ByteSize = 0 then .error .empty
  else if 255 < value.utf8ByteSize then .error .tooLong
  else if trim value.toList ≠ value.toList then .error .leadingOrTrailingWhitespace
  else if value.toList.any Utf8.isControlChar then .error .containsControlCharacter
  else .ok ()

/-- `FrameId`, `StreamId`, `TraceId` and `ClockDomainId`. -/
@[ext]
structure Identifier where
  value : String
  valid : validateIdentifier value = .ok ()
  deriving DecidableEq

def Identifier.new (value : String) : Except IdentifierError Identifier :=
  match h : validateIdentifier value with
  | .ok () => .ok ⟨value, h⟩
  | .error e => .error e

def isMediaToken (c : Char) : Bool :=
  c.isAlphanum || ['!', '#', '$', '&', '^', '_', '.', '+', '-'].contains c

/-- `str::split_once`. -/
def splitOnce (separator : Char) (text : Text) : Option (Text × Text) :=
  match text.span (· ≠ separator) with
  | (_, []) => none
  | (before, _ :: after) => some (before, after)

def isValidMediaType (value : String) : Bool :=
  if value.utf8ByteSize = 0 || 127 < value.utf8ByteSize || !value.toList.all (·.toNat < 128) then false
  else
    match splitOnce '/' value.toList with
    | none => false
    | some (typeName, subtype) =>
      !typeName.isEmpty && !subtype.isEmpty && typeName.all isMediaToken && subtype.all isMediaToken

@[ext]
structure MediaType where
  value : String
  valid : isValidMediaType value = true

def MediaType.new (value : String) : Result MediaType :=
  if h : isValidMediaType value = true then .ok ⟨value, h⟩
  else .error (failWith "MUXIVA-FRM-MEDIA-TYPE"
    "media type must contain one valid ASCII type/subtype pair")

inductive PixelFormat where
  | rgba8
  | yuv420p
  deriving DecidableEq, Repr

structure VideoPlane where
  offset : ℕ
  stride : ℕ
  rowBytes : ℕ
  rows : ℕ
  deriving DecidableEq, Repr

inductive VideoLayout where
  | rgba8 (plane : VideoPlane)
  | yuv420p (y u v : VideoPlane)
  deriving DecidableEq, Repr

/-- The fields of `VideoData`. -/
structure Video where
  buffer : List UInt8
  width : ℕ
  height : ℕ
  pixelFormat : PixelFormat
  layout : VideoLayout
  deriving DecidableEq, Repr

namespace Video

def checkedSizeProduct (left right : ℕ) : Result ℕ := orElse arithmeticError (checkedMul left right)

def checkedSizeSum (left right : ℕ) : Result ℕ := orElse arithmeticError (checkedAdd left right)

def dimensionsError : Audio.Failure :=
  failWith "MUXIVA-FRM-VIDEO-DIMENSIONS" "video dimensions are invalid for the pixel format"

def validateNonzeroDimensions (width height : ℕ) : Result Unit :=
  if width = 0 ∨ height = 0 then .error dimensionsError else .ok ()

def validateYuv420pDimensions (width height : ℕ) : Result Unit := do
  validateNonzeroDimensions width height
  if width % 2 ≠ 0 ∨ height % 2 ≠ 0 then .error dimensionsError else .ok ()

def validateStride (stride rowBytes : ℕ) : Result Unit :=
  if stride < rowBytes then
    .error (failWith "MUXIVA-FRM-VIDEO-STRIDE" "video stride is smaller than its plane row width")
  else .ok ()

/-- The error also carries both lengths as context. -/
def validatePayloadLength (buffer : List UInt8) (expectedBytes : ℕ) : Result Unit :=
  if buffer.length ≠ expectedBytes then
    .error (failWith "MUXIVA-FRM-VIDEO-LENGTH"
      "video payload length does not match its declared layout")
  else .ok ()

/-- `VideoData::rgba8`. -/
def rgba8 (buffer : List UInt8) (width height stride : ℕ) : Result Video := do
  validateNonzeroDimensions width height
  let rowBytes ← checkedSizeProduct width 4
  validateStride stride rowBytes
  let planeBytes ← checkedSizeProduct stride height
  validatePayloadLength buffer planeBytes
  return ⟨buffer, width, height, .rgba8, .rgba8 ⟨0, stride, rowBytes, height⟩⟩

/-- `VideoData::yuv420p`. -/
def yuv420p (buffer : List UInt8) (width height yStride uStride vStride : ℕ) : Result Video := do
  validateYuv420pDimensions width height
  validateStride yStride width
  validateStride uStride (width / 2)
  validateStride vStride (width / 2)
  let yBytes ← checkedSizeProduct yStride height
  let uBytes ← checkedSizeProduct uStride (height / 2)
  let vBytes ← checkedSizeProduct vStride (height / 2)
  let vOffset ← checkedSizeSum yBytes uBytes
  let totalBytes ← checkedSizeSum vOffset vBytes
  validatePayloadLength buffer totalBytes
  return ⟨buffer, width, height, .yuv420p,
    .yuv420p ⟨0, yStride, width, height⟩ ⟨yBytes, uStride, width / 2, height / 2⟩
      ⟨vOffset, vStride, width / 2, height / 2⟩⟩

/-- What the constructors return. -/
inductive Built : Video → Prop where
  | rgba8 {buffer : List UInt8} {width height stride : ℕ} {video : Video}
      (h : Video.rgba8 buffer width height stride = .ok video) : Built video
  | yuv420p {buffer : List UInt8} {width height yStride uStride vStride : ℕ} {video : Video}
      (h : Video.yuv420p buffer width height yStride uStride vStride = .ok video) : Built video

end Video

@[ext]
structure VideoData where
  video : Video
  built : video.Built

namespace VideoData

def rgba8 (buffer : List UInt8) (width height stride : ℕ) : Result VideoData :=
  match h : Video.rgba8 buffer width height stride with
  | .ok video => .ok ⟨video, .rgba8 h⟩
  | .error e => .error e

def yuv420p (buffer : List UInt8) (width height yStride uStride vStride : ℕ) : Result VideoData :=
  match h : Video.yuv420p buffer width height yStride uStride vStride with
  | .ok video => .ok ⟨video, .yuv420p h⟩
  | .error e => .error e

end VideoData

structure ByteData where
  buffer : List UInt8
  mediaType : Option MediaType

/-- The structured values of signals and events do not cross the boundary. -/
inductive FramePayload where
  | audio (data : AudioData)
  | video (data : VideoData)
  | text (text : String)
  | byte (data : ByteData)
  | signal (name source : String)
  | event (topic : String)

def FramePayload.frameType : FramePayload → FrameType
  | .audio _ => .audio
  | .video _ => .video
  | .text _ => .text
  | .byte _ => .byte
  | .signal _ _ => .signal
  | .event _ => .event

structure ClockDomain where
  id : Identifier
  kind : ClockKind

/-- `M` and `E` are the metadata and the extensions; of the lineage only the parents are looked at. -/
structure FrameHeader (M E : Type) where
  frameId : Identifier
  timestamp : Timestamp
  clockDomain : ClockDomain
  sequenceId : SequenceId
  streamId : Identifier
  traceId : Identifier
  frameType : FrameType
  metadata : M
  extensions : E
  lineage : List Identifier
  acyclic : frameId ∉ lineage

variable {M E : Type}

def FrameHeader.new (frameId : Identifier) (timestamp : Timestamp) (clockDomain : ClockDomain)
    (sequenceId : SequenceId) (streamId traceId : Identifier) (frameType : FrameType) (metadata : M)
    (extensions : E) (lineage : List Identifier) : Result (FrameHeader M E) :=
  if h : frameId ∈ lineage then
    .error (failWith "MUXIVA-FRM-LINEAGE-CYCLE" "a frame cannot name itself as a lineage parent")
  else .ok
    { frameId, timestamp, clockDomain, sequenceId, streamId, traceId, frameType, metadata, extensions
      lineage, acyclic := h }

/-- The six wrappers: a header, and a payload of its type. -/
structure Frame (M E : Type) where
  header : FrameHeader M E
  payload : FramePayload
  typed : header.frameType = payload.frameType

/-- `Frame::new`. The error also carries both types as context. -/
def Frame.new (header : FrameHeader M E) (payload : FramePayload) : Result (Frame M E) :=
  if h : header.frameType = payload.frameType then .ok ⟨header, payload, h⟩
  else .error (failWith "MUXIVA-FRM-TYPE-MISMATCH" "frame header, payload, or expected type differs")

end Muxiva.Ffi
