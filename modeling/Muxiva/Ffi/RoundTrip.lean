import Mathlib.Tactic.Ring
import Muxiva.Ffi.Frame

/-! A frame that is borrowed and copied back. The strides of a video do not cross the boundary, so a
video comes back when it has no padding. -/
set_option linter.all false
namespace Muxiva.Ffi

open Fallible
open Muxiva.Audio (AudioData ClockKind PcmSampleFormat checkedAdd_some checkedMul checkedMul_some
  orElse_eq_ok orElse_some)

variable {α ε M E : Type}

@[simp]
theorem mapErr_ok (f : ε → FfiError) (a : α) : mapErr f (.ok a) = .ok a := rfl

@[simp]
theorem mapErr_error (f : ε → FfiError) (e : ε) :
    mapErr f (.error e : Except ε α) = .error (f e) := rfl

theorem mapErr_eq_ok {f : ε → FfiError} {x : Except ε α} {a : α} :
    mapErr f x = .ok a ↔ x = .ok a := by
  cases x with
  | error e => simp
  | ok b => simp

@[simp]
theorem okOr_some (e : FfiError) (a : α) : okOr e (some a) = .ok a := rfl

theorem require_pos {p : Prop} [Decidable p] (h : p) (e : FfiError) : require p e = .ok () := if_pos h

theorem require_neg {p : Prop} [Decidable p] (h : ¬ p) (e : FfiError) : require p e = .error e :=
  if_neg h

theorem require_eq_ok {p : Prop} [Decidable p] {e : FfiError} {u : Unit} :
    require p e = .ok u ↔ p := by
  unfold require
  split_ifs with h
  · simp [h]
  · simp [h]

theorem copyBytes_of {bytes : List UInt8} (h : bytes.length ≤ maxCopyBytes) :
    copyBytes (.of bytes) = .ok bytes := by
  unfold copyBytes BytesView.of
  rw [if_neg (by simpa using h)]
  split_ifs with hempty
  · rw [List.length_eq_zero_iff.mp hempty]
  · simp

theorem copyUtf8_strView {value : String} (h : value.utf8ByteSize ≤ maxCopyBytes) :
    copyUtf8 (strView value) = .ok value := by
  unfold copyUtf8 strView
  rw [copyBytes_of (by simpa using h)]
  simp

theorem copyUtf8_null : copyUtf8 .null = .ok "" := by
  unfold copyUtf8 copyBytes BytesView.null
  simp only [maxCopyBytes, if_true]
  rfl

namespace Identifier

/-- The four rules of an identifier. -/
theorem rules (i : Identifier) : i.value.utf8ByteSize ≠ 0 ∧ i.value.utf8ByteSize ≤ 255 ∧
    trim i.value.toList = i.value.toList ∧ i.value.toList.any Utf8.isControlChar = false := by
  have hvalid := i.valid
  unfold validateIdentifier at hvalid
  split_ifs at hvalid with hempty hlong htrim hcontrol
  exact ⟨hempty, by omega, not_not.mp htrim, by simpa using hcontrol⟩

@[simp]
theorem new_value (i : Identifier) : Identifier.new i.value = .ok i := by
  unfold Identifier.new
  split
  · rfl
  · rename_i e he
    rw [i.valid] at he
    cases he

end Identifier

/-- What names a frame on this side is accepted by the checks of the copy. -/
@[simp]
theorem copyStr_identifier (i : Identifier) : copyStr (strView i.value) true = .ok i.value := by
  obtain ⟨hempty, hlong, htrim, hcontrol⟩ := i.rules
  have hbytes : (Utf8.bytes i.value).any Utf8.isAsciiControl = false := by
    by_contra h
    rw [Utf8.control_byte (by simpa using h)] at hcontrol
    cases hcontrol
  unfold copyStr
  rw [copyUtf8_strView (by unfold maxCopyBytes; omega)]
  simp only [ok_bind]
  rw [if_neg (by simpa using hempty), if_neg]
  rintro (hbad | hbad | hbad)
  · omega
  · exact hbad htrim
  · rw [hbytes] at hbad
    cases hbad

namespace MediaType

@[simp]
theorem new_value (m : MediaType) : MediaType.new m.value = .ok m := by
  unfold MediaType.new
  rw [dif_pos m.valid]

theorem sizes (m : MediaType) : m.value.utf8ByteSize ≠ 0 ∧ m.value.utf8ByteSize ≤ 127 := by
  have hvalid := m.valid
  unfold isValidMediaType at hvalid
  split_ifs at hvalid with hbad
  simp only [Bool.or_eq_true, decide_eq_true_eq, not_or, not_lt] at hbad
  exact ⟨hbad.1.1, hbad.1.2⟩

end MediaType

/-- Audio is built again from what it holds. -/
theorem audioData_new (d : AudioData) :
    AudioData.new d.buffer d.sampleRateHz d.channels d.sampleFormat d.layout d.samplesPerChannel =
      .ok d := by
  have hbytes := AudioData.expectedBytes_eq d.sampleFormat d.fits
  unfold AudioData.new
  rw [dif_neg (not_not.mpr d.rate), dif_neg (not_not.mpr d.channelCount), dif_neg d.nonempty,
    Audio.Result.attachBind_ok hbytes, Audio.Result.attachBind_ok d.duration,
    dif_neg (not_not.mpr d.length)]

/-- No plane has padding. -/
def VideoLayout.Tight : VideoLayout → Prop
  | .rgba8 plane => plane.stride = plane.rowBytes
  | .yuv420p y u v => y.stride = y.rowBytes ∧ u.stride = u.rowBytes ∧ v.stride = v.rowBytes

namespace Video

theorem checkedSizeProduct_eq_ok {a b n : ℕ} :
    checkedSizeProduct a b = .ok n ↔ a * b < 2 ^ 64 ∧ n = a * b :=
  AudioData.checkedProduct_eq_ok

theorem checkedSizeSum_eq_ok {a b n : ℕ} :
    checkedSizeSum a b = .ok n ↔ a + b < 2 ^ 64 ∧ n = a + b := by
  unfold checkedSizeSum
  rw [orElse_eq_ok]
  exact Audio.checkedAdd_eq_some

theorem validateNonzeroDimensions_eq_ok {width height : ℕ} {u : Unit} :
    validateNonzeroDimensions width height = .ok u ↔ width ≠ 0 ∧ height ≠ 0 := by
  unfold validateNonzeroDimensions
  split_ifs with h
  · simp only [false_iff]
    omega
  · simp only [true_iff]
    omega

theorem validateStride_eq_ok {stride rowBytes : ℕ} {u : Unit} :
    validateStride stride rowBytes = .ok u ↔ rowBytes ≤ stride := by
  unfold validateStride
  split_ifs with h
  · simp only [false_iff]
    omega
  · simp only [true_iff]
    omega

theorem validatePayloadLength_eq_ok {buffer : List UInt8} {expectedBytes : ℕ} {u : Unit} :
    validatePayloadLength buffer expectedBytes = .ok u ↔ buffer.length = expectedBytes := by
  unfold validatePayloadLength
  split_ifs with h
  · simp [h]
  · simp [not_not.mp h]

variable {buffer : List UInt8} {width height : ℕ} {video : Video}

theorem rgba8_eq_ok {stride : ℕ} :
    rgba8 buffer width height stride = .ok video ↔
      (width ≠ 0 ∧ height ≠ 0) ∧ width * 4 < 2 ^ 64 ∧ width * 4 ≤ stride ∧
        stride * height < 2 ^ 64 ∧ buffer.length = stride * height ∧
        video = ⟨buffer, width, height, .rgba8, .rgba8 ⟨0, stride, width * 4, height⟩⟩ := by
  unfold rgba8
  simp only [bind_eq_ok, validateNonzeroDimensions_eq_ok, checkedSizeProduct_eq_ok,
    validateStride_eq_ok, validatePayloadLength_eq_ok, pure, Except.pure, Except.ok.injEq]
  constructor
  · rintro ⟨-, hdimensions, n, ⟨hwidth, rfl⟩, -, hstride, m, ⟨hplane, rfl⟩, -, hlength, rfl⟩
    exact ⟨hdimensions, hwidth, hstride, hplane, hlength, rfl⟩
  · rintro ⟨hdimensions, hwidth, hstride, hplane, hlength, rfl⟩
    exact ⟨(), hdimensions, _, ⟨hwidth, rfl⟩, (), hstride, _, ⟨hplane, rfl⟩, (), hlength, rfl⟩

theorem yuv420p_eq_ok {yStride uStride vStride : ℕ} :
    yuv420p buffer width height yStride uStride vStride = .ok video ↔
      ((width ≠ 0 ∧ height ≠ 0) ∧ width % 2 = 0 ∧ height % 2 = 0) ∧
        (width ≤ yStride ∧ width / 2 ≤ uStride ∧ width / 2 ≤ vStride) ∧
        yStride * height + uStride * (height / 2) + vStride * (height / 2) < 2 ^ 64 ∧
        buffer.length = yStride * height + uStride * (height / 2) + vStride * (height / 2) ∧
        video = ⟨buffer, width, height, .yuv420p,
          .yuv420p ⟨0, yStride, width, height⟩ ⟨yStride * height, uStride, width / 2, height / 2⟩
            ⟨yStride * height + uStride * (height / 2), vStride, width / 2, height / 2⟩⟩ := by
  have heven {u : Unit} : (if width % 2 ≠ 0 ∨ height % 2 ≠ 0 then .error dimensionsError
      else .ok () : Audio.Result Unit) = .ok u ↔ width % 2 = 0 ∧ height % 2 = 0 := by
    split_ifs with h
    · simp only [false_iff]
      omega
    · simp only [true_iff]
      omega
  unfold yuv420p validateYuv420pDimensions
  simp only [bind_eq_ok, validateNonzeroDimensions_eq_ok, checkedSizeProduct_eq_ok, heven,
    checkedSizeSum_eq_ok, validateStride_eq_ok, validatePayloadLength_eq_ok, pure, Except.pure,
    Except.ok.injEq]
  constructor
  · rintro ⟨-, ⟨-, hdimensions, heven⟩, -, hy, -, hu, -, hv, n, ⟨-, rfl⟩, m, ⟨-, rfl⟩, k, ⟨-, rfl⟩,
      l, ⟨-, rfl⟩, t, ⟨htotal, rfl⟩, -, hlength, rfl⟩
    exact ⟨⟨hdimensions, heven⟩, ⟨hy, hu, hv⟩, htotal, hlength, rfl⟩
  · rintro ⟨⟨hdimensions, heven⟩, ⟨hy, hu, hv⟩, htotal, hlength, rfl⟩
    exact ⟨(), ⟨(), hdimensions, heven⟩, (), hy, (), hu, (), hv, _, ⟨by omega, rfl⟩,
      _, ⟨by omega, rfl⟩, _, ⟨by omega, rfl⟩, _, ⟨by omega, rfl⟩, _, ⟨htotal, rfl⟩, (), hlength, rfl⟩

end Video

namespace VideoData

theorem rgba8_eq_ok {buffer : List UInt8} {width height stride : ℕ} {d : VideoData}
    (h : Video.rgba8 buffer width height stride = .ok d.video) :
    rgba8 buffer width height stride = .ok d := by
  unfold rgba8
  split
  · rename_i video hvideo
    rw [h] at hvideo
    cases hvideo
    rfl
  · rename_i e he
    rw [h] at he
    cases he

theorem yuv420p_eq_ok {buffer : List UInt8} {width height yStride uStride vStride : ℕ} {d : VideoData}
    (h : Video.yuv420p buffer width height yStride uStride vStride = .ok d.video) :
    yuv420p buffer width height yStride uStride vStride = .ok d := by
  unfold yuv420p
  split
  · rename_i video hvideo
    rw [h] at hvideo
    cases hvideo
    rfl
  · rename_i e he
    rw [h] at he
    cases he

end VideoData

/-- What `copy_video` makes of a view of `bytes`, once it knows the tight length. -/
theorem copyVideo_of {width height pixelFormat planeCount : ℕ} {bytes : List UInt8} (expected : ℕ)
    (hdimensions : width ≠ 0 ∧ height ≠ 0) (hpixels : width * height < 2 ^ 32)
    (hlength : bytes.length ≤ maxCopyBytes)
    (hexpected : videoBytes ⟨width, height, pixelFormat, planeCount, .of bytes, [0, 0, 0, 0]⟩
      (width * height) = .ok expected) :
    copyVideo ⟨width, height, pixelFormat, planeCount, .of bytes, [0, 0, 0, 0]⟩ =
      if expected = bytes.length then .ok (.video bytes width height pixelFormat planeCount)
      else .error (invalid "video byte length does not match its tight layout") := by
  unfold copyVideo
  rw [require_pos ⟨rfl, hdimensions⟩]
  simp only [ok_bind, checkedMulU32, if_pos hpixels, okOr_some, hexpected, copyBytes_of hlength,
    mapErr_ok]
  unfold require BytesView.of
  split_ifs <;> rfl

/-- A packed video: the copy is the video itself, or refused for its padding. -/
theorem copyVideo_rgba8 {d : VideoData} {buffer : List UInt8} {width height stride : ℕ}
    (h : Video.rgba8 buffer width height stride = .ok d.video)
    (hlength : d.video.buffer.length ≤ maxCopyBytes) :
    ∃ payload, videoPayload d.video = .ok payload ∧
      (d.video.layout.Tight → copyVideo payload >>= OwnedFrame.rustPayload = .ok (.video d)) ∧
      (¬ d.video.layout.Tight →
        copyVideo payload = .error (invalid "video byte length does not match its tight layout")) := by
  obtain ⟨hdimensions, hwidth, hstride, -, hbuffer, hvideo⟩ := Video.rgba8_eq_ok.mp h
  rw [hvideo] at hlength ⊢
  simp only at hlength
  refine ⟨⟨width, height, 1, 1, .of buffer, [0, 0, 0, 0]⟩, rfl, ?_⟩
  have hmono : width * 4 * height ≤ stride * height := Nat.mul_le_mul_right height hstride
  have hquad : width * height * 4 = width * 4 * height := by ring
  have hsmall : width * height * 4 ≤ maxCopyBytes := by omega
  unfold maxCopyBytes at hsmall
  rw [copyVideo_of (width * height * 4) hdimensions (by omega) hlength (by
    unfold videoBytes
    simp only [and_self, if_true]
    rw [checkedMul_some (by omega)]
    rfl)]
  constructor
  · intro htight
    have htight : stride = width * 4 := htight
    subst htight
    rw [if_pos (by omega)]
    have htwin := VideoData.rgba8_eq_ok h
    simp only [ok_bind, OwnedFrame.rustPayload, tightVideo, and_self, if_true,
      checkedMul_some hwidth, okOr_some, htwin, mapErr_ok]
    rfl
  · intro hpadded
    have hpadded : stride ≠ width * 4 := hpadded
    have hlt : width * 4 * height < stride * height :=
      Nat.mul_lt_mul_of_pos_right (by omega) (by omega)
    rw [if_neg (by omega)]

theorem copyVideo_yuv420p {d : VideoData} {buffer : List UInt8}
    {width height yStride uStride vStride : ℕ}
    (h : Video.yuv420p buffer width height yStride uStride vStride = .ok d.video)
    (hlength : d.video.buffer.length ≤ maxCopyBytes) :
    ∃ payload, videoPayload d.video = .ok payload ∧
      (d.video.layout.Tight → copyVideo payload >>= OwnedFrame.rustPayload = .ok (.video d)) ∧
      (¬ d.video.layout.Tight →
        copyVideo payload = .error (invalid "video byte length does not match its tight layout")) := by
  obtain ⟨⟨hdimensions, hwidth, hheight⟩, ⟨hy, hu, hv⟩, -, hbuffer, hvideo⟩ :=
    Video.yuv420p_eq_ok.mp h
  rw [hvideo] at hlength ⊢
  simp only at hlength
  refine ⟨⟨width, height, 2, 3, .of buffer, [0, 0, 0, 0]⟩, rfl, ?_⟩
  -- in halves of both dimensions, the three planes have 4, 1 and 1 parts
  obtain ⟨a, rfl⟩ : ∃ a, width = 2 * a := ⟨width / 2, by omega⟩
  obtain ⟨b, rfl⟩ : ∃ b, height = 2 * b := ⟨height / 2, by omega⟩
  have ha : 2 * a / 2 = a := by omega
  have hb : 2 * b / 2 = b := by omega
  rw [ha] at hu hv
  rw [hb] at hbuffer
  have hyBytes : 2 * a * (2 * b) ≤ yStride * (2 * b) := Nat.mul_le_mul_right _ hy
  have huBytes : a * b ≤ uStride * b := Nat.mul_le_mul_right _ hu
  have hvBytes : a * b ≤ vStride * b := Nat.mul_le_mul_right _ hv
  have hquad : 2 * a * (2 * b) = 4 * (a * b) := by ring
  have hsmall : 6 * (a * b) ≤ maxCopyBytes := by omega
  unfold maxCopyBytes at hsmall
  rw [copyVideo_of (6 * (a * b)) hdimensions (by omega) hlength (by
    unfold videoBytes
    simp only [hwidth, hheight, and_self, if_true]
    rw [if_neg (by decide), Audio.checkedAdd_some (by omega)]
    exact congrArg Except.ok (by omega))]
  constructor
  · rintro ⟨hyTight, huTight, hvTight⟩
    have hyTight : yStride = 2 * a := hyTight
    have huTight : uStride = a := huTight.trans ha
    have hvTight : vStride = a := hvTight.trans ha
    rw [hyTight, huTight, hvTight] at h hbuffer
    rw [if_pos (by omega)]
    have htwin := VideoData.yuv420p_eq_ok h
    simp only [ok_bind, OwnedFrame.rustPayload, tightVideo, and_self, if_true, ha, htwin, mapErr_ok]
    rfl
  · intro hpadded
    have hstrict : 2 * a < yStride ∨ a < uStride ∨ a < vStride := by
      by_contra hnone
      apply hpadded
      refine ⟨?_, ?_, ?_⟩
      · show yStride = 2 * a
        omega
      · show uStride = 2 * a / 2
        omega
      · show vStride = 2 * a / 2
        omega
    have hpos : 0 < b := by omega
    have hlt : 6 * (a * b) < yStride * (2 * b) + uStride * b + vStride * b := by
      rcases hstrict with hlt | hlt | hlt
      · have hbytes : 2 * a * (2 * b) < yStride * (2 * b) :=
          Nat.mul_lt_mul_of_pos_right hlt (by omega)
        omega
      · have hbytes : a * b < uStride * b := Nat.mul_lt_mul_of_pos_right hlt hpos
        omega
      · have hbytes : a * b < vStride * b := Nat.mul_lt_mul_of_pos_right hlt hpos
        omega
    rw [if_neg (by omega)]

theorem pcmSampleFormat_code (format : PcmSampleFormat) :
    pcmSampleFormat (sampleFormatCode format) = .ok format := by
  cases format <;> rfl

theorem audioLayout_code (layout : Audio.AudioLayout) :
    audioLayout (if layout = .planar then 2 else 1) = .ok layout := by
  cases layout <;> rfl

theorem clockKindOf_code (kind : ClockKind) : clockKindOf (clockKindCode kind) = .ok kind := by
  cases kind <;> rfl

theorem clockKindCode_range (kind : ClockKind) : 1 ≤ clockKindCode kind ∧ clockKindCode kind ≤ 3 := by
  cases kind <;> decide

theorem copyAudio_audio (d : AudioData) (hlength : d.buffer.length ≤ maxCopyBytes) :
    copyAudio (audioPayload d) >>= OwnedFrame.rustPayload = .ok (.audio d) := by
  have hcode : (1 ≤ sampleFormatCode d.sampleFormat ∧ sampleFormatCode d.sampleFormat ≤ 6) ∧
      widths.getD (sampleFormatCode d.sampleFormat) 0 = d.sampleFormat.bytesPerSample := by
    cases d.sampleFormat <;> decide
  have hlayout : 1 ≤ (if d.layout = .planar then 2 else 1) ∧
      (if d.layout = .planar then 2 else 1) ≤ 2 := by
    split_ifs <;> decide
  have hproduct := AudioData.samples_lt d.sampleFormat d.fits
  have hbytes : audioBytes (audioPayload d) d.sampleFormat.bytesPerSample = .ok d.buffer.length := by
    unfold audioBytes audioPayload
    simp only [checkedMul_some hproduct, Option.bind_some, checkedMul_some d.fits, okOr_some, d.length]
  have hcopy : copyAudio (audioPayload d) = .ok (.audio d.buffer d.sampleRateHz d.channels
      (sampleFormatCode d.sampleFormat) (if d.layout = .planar then 2 else 1)
      d.samplesPerChannel) := by
    unfold copyAudio
    rw [require_pos ⟨rfl, rfl⟩, require_pos ⟨d.rate, d.channelCount, hcode.1, hlayout, d.nonempty⟩]
    simp only [ok_bind]
    have hwidth : widths.getD (audioPayload d).sampleFormat 0 = d.sampleFormat.bytesPerSample := hcode.2
    rw [hwidth, hbytes]
    simp only [ok_bind]
    rw [require_pos (show d.buffer.length = (audioPayload d).bytes.len from rfl)]
    simp only [ok_bind, audioPayload, copyBytes_of hlength, mapErr_ok]
    rfl
  rw [hcopy]
  simp only [ok_bind, OwnedFrame.rustPayload, pcmSampleFormat_code, audioLayout_code, audioData_new,
    mapErr_ok]
  rfl

theorem copyText_text {text : String} (hlength : text.utf8ByteSize ≤ maxCopyBytes) :
    copyText ⟨strView text, .null, [0, 0]⟩ >>= OwnedFrame.rustPayload = .ok (.text text) := by
  unfold copyText
  rw [require_pos rfl, copyUtf8_null, copyUtf8_strView hlength]
  rfl

theorem copyByte_byte (d : ByteData) (hlength : d.buffer.length ≤ maxCopyBytes) :
    copyByte (bytePayload d) >>= OwnedFrame.rustPayload = .ok (.byte d) := by
  obtain ⟨buffer, mediaType⟩ := d
  have hbytes : copyBytes (.of buffer) = .ok buffer := copyBytes_of hlength
  unfold copyByte bytePayload
  rw [require_pos rfl]
  cases mediaType with
  | none =>
    simp only [ok_bind, copyUtf8_null, mapErr_ok, hbytes]
    rfl
  | some mediaType =>
    obtain ⟨hnonempty, hsize⟩ := mediaType.sizes
    have hname : copyUtf8 (strView mediaType.value) = .ok mediaType.value :=
      copyUtf8_strView (by unfold maxCopyBytes; omega)
    simp only [ok_bind, hname, mapErr_ok, hbytes, pure, Except.pure, if_neg hnonempty,
      OwnedFrame.rustPayload, MediaType.new_value]

namespace FramePayload

/-- The payloads of the ports of a graph. -/
def IsData : FramePayload → Prop
  | .audio _ | .video _ | .text _ | .byte _ => True
  | .signal _ _ | .event _ => False

/-- The length of the payload in bytes. -/
def size : FramePayload → ℕ
  | .audio data => data.buffer.length
  | .video data => data.video.buffer.length
  | .text value => value.utf8ByteSize
  | .byte data => data.buffer.length
  | .signal _ _ | .event _ => 0

/-- A video has no padding. -/
def Tight : FramePayload → Prop
  | .video data => data.video.layout.Tight
  | _ => True

end FramePayload

/-- Two frames say the same, their metadata, extensions and lineage apart. -/
structure Frame.Agrees (a b : Frame M E) : Prop where
  frameId : a.header.frameId = b.header.frameId
  streamId : a.header.streamId = b.header.streamId
  traceId : a.header.traceId = b.header.traceId
  clockDomain : a.header.clockDomain = b.header.clockDomain
  timestamp : a.header.timestamp = b.header.timestamp
  sequenceId : a.header.sequenceId = b.header.sequenceId
  frameType : a.header.frameType = b.header.frameType
  payload : a.payload = b.payload

def ownedHeader (header : FrameHeader M E) : OwnedHeader where
  frameType := frameTypeCode header.frameType
  clockKind := clockKindCode header.clockDomain.kind
  timestampNs := header.timestamp
  sequenceId := header.sequenceId
  frameId := header.frameId.value
  clockDomainId := header.clockDomain.id.value
  streamId := header.streamId.value
  traceId := header.traceId.value

/-- The header always comes through; the payload decides. -/
theorem copyFrame_headerView (header : FrameHeader M E) (payload : PayloadUnion) :
    copyFrame (some ⟨headerView header (frameTypeCode header.frameType), payload⟩) =
      (copyPayload ⟨headerView header (frameTypeCode header.frameType), payload⟩).map
        (⟨ownedHeader header, ·⟩) := by
  have hkind : 1 ≤ (headerView header (frameTypeCode header.frameType)).clockKind ∧
      (headerView header (frameTypeCode header.frameType)).clockKind ≤ 3 :=
    clockKindCode_range header.clockDomain.kind
  unfold copyFrame
  simp only [okOr_some, ok_bind]
  rw [require_pos ⟨rfl, rfl⟩, require_pos (show (headerView header _).reserved = [0, 0, 0, 0] from rfl),
    require_pos hkind]
  simp only [ok_bind, headerView, copyStr_identifier, mapErr_ok]
  cases copyPayload _ <;> rfl

variable [EmptyCollection M] [EmptyCollection E]

/-- What is built from the copied header. -/
theorem intoRust_owned {header : FrameHeader M E} {owned : OwnedPayload} {payload : FramePayload}
    (hpayload : OwnedFrame.rustPayload owned = .ok payload) (htyped : header.frameType = payload.frameType)
    (hdata : payload.IsData) :
    ∃ copied : Frame M E, OwnedFrame.intoRust ⟨ownedHeader header, owned⟩ = .ok copied ∧
      copied.Agrees ⟨header, payload, htyped⟩ := by
  have htype : OwnedFrame.rustFrameType (frameTypeCode header.frameType) = .ok header.frameType := by
    rw [htyped]
    cases payload <;> first | rfl | exact hdata.elim
  refine ⟨⟨{ header with metadata := ∅, extensions := ∅, lineage := [], acyclic := by simp }, payload,
    htyped⟩, ?_, by constructor <;> rfl⟩
  unfold OwnedFrame.intoRust
  simp only [ownedHeader, clockKindOf_code, htype, ok_bind, rustHeader, Identifier.new_value,
    mapErr_ok, hpayload]
  unfold FrameHeader.new Frame.new
  rw [dif_neg (by simp)]
  simp only [mapErr_ok, ok_bind]
  rw [dif_pos htyped]
  rfl

/-- A frame of data comes back from the copy as it was lent, except that a video with padding is
refused: the view has no strides. -/
theorem borrowed_frame_copied (frame : Frame M E) (hdata : frame.payload.IsData)
    (hsize : frame.payload.size ≤ maxCopyBytes) :
    ∃ view, borrowedFrameView frame = .ok view ∧
      (frame.payload.Tight → ∃ copied : Frame M E,
        copyFrame (some view) >>= OwnedFrame.intoRust = .ok copied ∧ copied.Agrees frame) ∧
      (¬ frame.payload.Tight →
        copyFrame (some view) = .error (invalid "video byte length does not match its tight layout")) := by
  obtain ⟨header, payload, htyped⟩ := frame
  have hcode : frameTypeCode header.frameType = frameTypeCode payload.frameType := by rw [htyped]
  have hcopied {union : PayloadUnion}
      (h : copyPayload ⟨headerView header (frameTypeCode payload.frameType), union⟩ >>=
        OwnedFrame.rustPayload = .ok payload) :
      ∃ copied : Frame M E,
        copyFrame (some ⟨headerView header (frameTypeCode payload.frameType), union⟩) >>=
          OwnedFrame.intoRust = .ok copied ∧ copied.Agrees ⟨header, payload, htyped⟩ := by
    rw [← hcode] at h ⊢
    obtain ⟨owned, howned, hpayload⟩ := bind_eq_ok.mp h
    obtain ⟨copied, hcopied, hagrees⟩ := intoRust_owned hpayload htyped hdata
    refine ⟨copied, ?_, hagrees⟩
    rw [copyFrame_headerView, howned]
    exact hcopied
  cases payload with
  | audio data =>
    exact ⟨_, rfl, fun _ => hcopied (copyAudio_audio data hsize), fun h => (h trivial).elim⟩
  | text text => exact ⟨_, rfl, fun _ => hcopied (copyText_text hsize), fun h => (h trivial).elim⟩
  | byte data =>
    exact ⟨_, rfl, fun _ => hcopied (copyByte_byte data hsize), fun h => (h trivial).elim⟩
  | video data =>
    have hvideo : ∃ payload, videoPayload data.video = .ok payload ∧
        (data.video.layout.Tight →
          copyVideo payload >>= OwnedFrame.rustPayload = .ok (.video data)) ∧
        (¬ data.video.layout.Tight → copyVideo payload =
          .error (invalid "video byte length does not match its tight layout")) := by
      cases data.built with
      | rgba8 h => exact copyVideo_rgba8 h hsize
      | yuv420p h => exact copyVideo_yuv420p h hsize
    obtain ⟨video, hview, htight, hpadded⟩ := hvideo
    refine ⟨⟨headerView header 2, { emptyPayload with video := video }⟩, ?_, ?_, ?_⟩
    · simp only [borrowedFrameView, hview, ok_bind]
      rfl
    · exact fun h => hcopied (htight h)
    · intro h
      have hrefused := copyFrame_headerView header { emptyPayload with video := video }
      rw [hcode] at hrefused
      exact hrefused.trans (congrArg (Except.map _) (hpadded h))
  | signal name source => exact hdata.elim
  | event topic => exact hdata.elim

/-- A header with names of one letter. -/
def sampleHeader (frameType : FrameType) : FrameHeader (List ℕ) (List ℕ) where
  frameId := ⟨"f", by decide +kernel⟩
  timestamp := .zero
  clockDomain := ⟨⟨"c", by decide +kernel⟩, .monotonic⟩
  sequenceId := .zero
  streamId := ⟨"s", by decide +kernel⟩
  traceId := ⟨"t", by decide +kernel⟩
  frameType := frameType
  metadata := []
  extensions := []
  lineage := []
  acyclic := by simp

/-- A text, which comes back. -/
theorem borrowed_frame_copied_text : ∃ view copied,
    borrowedFrameView (⟨sampleHeader .text, .text "hi", rfl⟩ : Frame (List ℕ) (List ℕ)) = .ok view ∧
      copyFrame (some view) >>= OwnedFrame.intoRust = .ok copied ∧
      copied.Agrees ⟨sampleHeader .text, .text "hi", rfl⟩ := by
  obtain ⟨view, hview, hcopied, -⟩ := borrowed_frame_copied
    (⟨sampleHeader .text, .text "hi", rfl⟩ : Frame (List ℕ) (List ℕ)) trivial (by decide +kernel)
  obtain ⟨copied, hcopied, hagrees⟩ := hcopied trivial
  exact ⟨view, copied, hview, hcopied, hagrees⟩

/-- One pixel in a row of 8 bytes. -/
def paddedVideo : VideoData where
  video := ⟨[1, 2, 3, 4, 0, 0, 0, 0], 1, 1, .rgba8, .rgba8 ⟨0, 8, 4, 1⟩⟩
  built := @Video.Built.rgba8 [1, 2, 3, 4, 0, 0, 0, 0] 1 1 8 _ rfl

/-- A view of padded pixels is lent, and its copy refused. -/
theorem padded_video_refused :
    let frame : Frame (List ℕ) (List ℕ) := ⟨sampleHeader .video, .video paddedVideo, rfl⟩
    frame.payload.IsData ∧ frame.payload.size ≤ maxCopyBytes ∧
      ∃ view, borrowedFrameView frame = .ok view ∧
        ¬ ∃ copied : Frame (List ℕ) (List ℕ),
          copyFrame (some view) >>= OwnedFrame.intoRust = .ok copied := by
  refine ⟨trivial, by decide +kernel, _, rfl, ?_⟩
  rintro ⟨copied, hcopied⟩
  obtain ⟨owned, howned, -⟩ := bind_eq_ok.mp hcopied
  have hheader := copyFrame_headerView (sampleHeader .video)
    { emptyPayload with video := ⟨1, 1, 1, 1, .of paddedVideo.video.buffer, [0, 0, 0, 0]⟩ }
  have hpadded := @copyVideo_of 1 1 1 1 paddedVideo.video.buffer 4 (by decide) (by decide)
    (by decide) rfl
  rw [if_neg (by decide)] at hpadded
  have hrefused := hheader.trans (congrArg (Except.map _) hpadded)
  cases howned.symm.trans hrefused

end Muxiva.Ffi
