import Muxiva.Audio.Content
import Muxiva.Ffi.RoundTrip
import Muxiva.Lib.Tiling

/-! The planes of audio and video tile their buffers. -/
set_option linter.all false
namespace Muxiva.Ffi

open Fallible
open Muxiva.Audio (AudioData AudioLayout PcmSampleFormat Result arithmeticError checkedAdd_some
  checkedMul_some failWith orElse orElse_some)

/-- A range of the bytes of a buffer. -/
structure Span where
  start : ℕ
  stop : ℕ
  deriving DecidableEq, Repr

def Span.slice (s : Span) (buffer : List UInt8) : List UInt8 :=
  Bytes.slice buffer s.start (s.stop - s.start)

/-- Ranges within a buffer, disjoint, and with all of its bytes. -/
structure Covers (spans : List Span) (length : ℕ) : Prop where
  within : ∀ s ∈ spans, s.start ≤ s.stop ∧ s.stop ≤ length
  disjoint : spans.Pairwise fun s t => Disjoint (Set.Ico s.start s.stop) (Set.Ico t.start t.stop)
  bytes : ∀ i, i < length ↔ ∃ s ∈ spans, i ∈ Set.Ico s.start s.stop

theorem Covers.of_tiles {spans : List Span} {length : ℕ}
    (h : Tiling.Tiles Span.start Span.stop 0 spans length) : Covers spans length where
  within s hs := ⟨(h.lt hs).le, (h.bounds hs).2⟩
  disjoint := h.disjoint
  bytes i := by
    have hmem := h.mem_iff i
    simp only [Nat.zero_le, true_and] at hmem
    exact hmem.symm

/-- The ranges that `AudioData::plane_bytes` returns, by their index. -/
def audioSpans (d : AudioData) : List Span :=
  match d.layout with
  | .interleaved => [⟨0, d.buffer.length⟩]
  | .planar =>
    let size := d.samplesPerChannel * d.sampleFormat.bytesPerSample
    (List.range d.channels).map fun channel => ⟨channel * size, (channel + 1) * size⟩

theorem equalSpans_tile {size : ℕ} (hsize : 0 < size) (count : ℕ) :
    Tiling.Tiles Span.start Span.stop 0
      ((List.range count).map fun i => ⟨i * size, (i + 1) * size⟩) (count * size) := by
  induction count with
  | zero => exact (Nat.zero_mul size).symm
  | succ count ih =>
    rw [List.range_succ, List.map_append]
    refine ih.append ⟨rfl, ?_, rfl⟩
    exact Nat.mul_lt_mul_of_pos_right (Nat.lt_succ_self count) hsize

section Audio

variable (d : AudioData)

theorem planeSize_pos : 0 < d.samplesPerChannel * d.sampleFormat.bytesPerSample :=
  Nat.mul_pos (Nat.pos_of_ne_zero d.nonempty) d.sampleFormat.bytesPerSample_pos

theorem audio_length :
    d.buffer.length = d.channels * (d.samplesPerChannel * d.sampleFormat.bytesPerSample) := by
  rw [d.length]
  ring

theorem audioSpans_tile : Tiling.Tiles Span.start Span.stop 0 (audioSpans d) d.buffer.length := by
  unfold audioSpans
  cases d.layout with
  | interleaved =>
    refine ⟨rfl, ?_, rfl⟩
    rw [audio_length]
    exact Nat.mul_pos d.channelCount.1 (planeSize_pos d)
  | planar =>
    rw [audio_length]
    exact equalSpans_tile (planeSize_pos d) d.channels

theorem audio_planeBytes {plane : ℕ} {span : Span} (h : (audioSpans d)[plane]? = some span) :
    d.planeBytes plane = .ok (span.slice d.buffer) := by
  unfold audioSpans at h
  cases hlayout : d.layout with
  | interleaved =>
    rw [hlayout] at h
    dsimp only at h
    cases plane with
    | zero =>
      obtain rfl := Option.some.inj h
      unfold AudioData.planeBytes
      rw [hlayout]
      exact congrArg Except.ok (Bytes.slice_all rfl).symm
    | succ plane => simp at h
  | planar =>
    rw [hlayout] at h
    dsimp only at h
    rw [List.getElem?_map, Option.map_eq_some_iff] at h
    obtain ⟨channel, hchannel, rfl⟩ := h
    obtain ⟨hlt, rfl⟩ := List.getElem?_eq_some_iff.mp hchannel
    rw [List.length_range] at hlt
    rw [List.getElem_range, (Audio.planeBytes_eq hlayout hlt).1]
    unfold Span.slice AudioData.plane
    rw [Nat.succ_mul, Nat.add_sub_cancel_left]

/-- There is no other plane. -/
theorem audio_planeBytes_none {plane : ℕ} (h : (audioSpans d)[plane]? = none) :
    ∃ e, d.planeBytes plane = .error e := by
  unfold audioSpans at h
  unfold AudioData.planeBytes
  cases hlayout : d.layout with
  | interleaved =>
    rw [hlayout] at h
    have hne : plane ≠ 0 := by
      rintro rfl
      cases h
    dsimp only
    rw [if_neg hne]
    exact ⟨_, rfl⟩
  | planar =>
    rw [hlayout] at h
    have hle : d.channels ≤ plane := by simpa using h
    dsimp only
    rw [if_pos hle]
    exact ⟨_, rfl⟩

end Audio

/-- The bytes of a plane, padding included. -/
def VideoPlane.span (plane : VideoPlane) : Span :=
  ⟨plane.offset, plane.offset + plane.stride * plane.rows⟩

def VideoLayout.planes : VideoLayout → List VideoPlane
  | .rgba8 plane => [plane]
  | .yuv420p y u v => [y, u, v]

/-- A borrowed plane: where it lies and what is there. -/
structure PlaneRef where
  address : ℕ
  plane : VideoPlane

/-- The planes borrowed from a layout whose planes lie at the addresses given. -/
def VideoLayout.borrowed (layout : VideoLayout) (address : ℕ → ℕ) : List PlaneRef :=
  layout.planes.zipIdx.map fun entry => ⟨address entry.2, entry.1⟩

/-- `VideoData::plane_bytes`; `ptr::eq` compares addresses. -/
def Video.planeBytes (self : Video) (address : ℕ → ℕ) (plane : PlaneRef) :
    Result (List UInt8) := do
  let belongsToLayout := match self.layout with
    | .rgba8 _ => plane.address = address 0
    | .yuv420p _ _ _ =>
      plane.address = address 0 || plane.address = address 1 || plane.address = address 2
  if !belongsToLayout then
    throw (failWith "MUXIVA-FRM-VIDEO-PLANE" "video plane descriptor is not part of the layout")
  let planeBytes ← checkedSizeProduct plane.plane.stride plane.plane.rows
  let stop ← checkedSizeSum plane.plane.offset planeBytes
  orElse arithmeticError
    (if plane.plane.offset ≤ stop ∧ stop ≤ self.buffer.length then
      some (Span.slice ⟨plane.plane.offset, stop⟩ self.buffer)
    else none)

/-- What the constructors establish about the planes. -/
structure Video.Laid (video : Video) : Prop where
  tiles : Tiling.Tiles Span.start Span.stop 0 (video.layout.planes.map VideoPlane.span)
    video.buffer.length
  fits : video.buffer.length < 2 ^ 64
  rows : ∀ plane ∈ video.layout.planes, plane.rowBytes ≤ plane.stride

theorem Video.Built.laid {video : Video} (h : video.Built) : video.Laid := by
  cases h with
  | rgba8 h =>
    obtain ⟨⟨hwidth, hheight⟩, -, hstride, hfits, hlength, rfl⟩ := rgba8_eq_ok.mp h
    have hplane := Nat.mul_pos (show 0 < _ from hstride.trans_lt' (by omega))
      (Nat.pos_of_ne_zero hheight)
    constructor
    · rw [hlength]
      exact ⟨rfl, by simpa [VideoPlane.span] using hplane, Nat.zero_add _⟩
    · rw [hlength]
      exact hfits
    · simpa [VideoLayout.planes] using hstride
  | @yuv420p buffer width height yStride uStride vStride _ h =>
    obtain ⟨⟨⟨hwidth, hheight⟩, hwidth', hheight'⟩, ⟨hy, hu, hv⟩, hfits, hlength, rfl⟩ :=
      yuv420p_eq_ok.mp h
    have hrow {stride width rows : ℕ} (hwidth : 0 < width) (hrows : 0 < rows)
        (hstride : width ≤ stride) : 0 < stride * rows :=
      Nat.mul_pos (hwidth.trans_le hstride) hrows
    have hyBytes := hrow (Nat.pos_of_ne_zero hwidth) (Nat.pos_of_ne_zero hheight) hy
    have hchroma : 0 < width / 2 ∧ 0 < height / 2 := by omega
    have huBytes := hrow hchroma.1 hchroma.2 hu
    have hvBytes := hrow hchroma.1 hchroma.2 hv
    constructor
    · rw [hlength]
      simp only [VideoLayout.planes, List.map_cons, List.map_nil, VideoPlane.span, Tiling.Tiles,
        true_and, and_true]
      omega
    · rw [hlength]
      exact hfits
    · simp only [VideoLayout.planes, List.forall_mem_cons]
      exact ⟨hy, hu, hv, by simp⟩

/-- A plane of the layout is handed out as its range. -/
theorem Video.planeBytes_own {video : Video} (h : video.Laid) (address : ℕ → ℕ) {plane : PlaneRef}
    (hplane : plane ∈ video.layout.borrowed address) :
    video.planeBytes address plane = .ok (plane.plane.span.slice video.buffer) := by
  obtain ⟨⟨own, i⟩, hmem, rfl⟩ := List.mem_map.mp hplane
  obtain ⟨-, hi, hown⟩ := List.mem_zipIdx hmem
  have hspan : own.span ∈ video.layout.planes.map VideoPlane.span := by
    rw [hown]
    exact List.mem_map_of_mem (List.getElem_mem _)
  obtain ⟨-, hstop⟩ := h.tiles.bounds hspan
  have hfits := h.fits
  dsimp only [VideoPlane.span] at hstop
  have hproduct : checkedSizeProduct own.stride own.rows = .ok (own.stride * own.rows) :=
    checkedSizeProduct_eq_ok.mpr ⟨by omega, rfl⟩
  have hsum : checkedSizeSum own.offset (own.stride * own.rows) =
      .ok (own.offset + own.stride * own.rows) := checkedSizeSum_eq_ok.mpr ⟨by omega, rfl⟩
  have hbelongs : (match video.layout with
      | .rgba8 _ => decide (address i = address 0)
      | .yuv420p _ _ _ =>
        address i = address 0 || address i = address 1 || address i = address 2) = true := by
    cases hlayout : video.layout with
    | rgba8 p =>
      rw [hlayout] at hi
      have hzero : i = 0 := by simpa [VideoLayout.planes] using hi
      rw [hzero]
      simp
    | yuv420p y u v =>
      rw [hlayout] at hi
      have hthree : i < 3 := by simpa [VideoLayout.planes] using hi
      have hcases : i = 0 ∨ i = 1 ∨ i = 2 := by omega
      rcases hcases with rfl | rfl | rfl <;> simp
  unfold planeBytes
  dsimp only
  rw [hbelongs]
  simp only [Bool.not_true, Bool.false_eq_true, if_false]
  rw [hproduct, ok_bind, hsum, ok_bind, if_pos ⟨by omega, hstop⟩]
  rfl

theorem length_planeBytes {video : Video} (h : video.Laid) {plane : VideoPlane}
    (hplane : plane ∈ video.layout.planes) :
    (plane.span.slice video.buffer).length = plane.stride * plane.rows := by
  obtain ⟨-, hstop⟩ := h.tiles.bounds (List.mem_map_of_mem hplane)
  have hsize : plane.span.stop - plane.span.start = plane.stride * plane.rows :=
    Nat.add_sub_cancel_left _ _
  unfold Span.slice
  rw [hsize]
  exact Bytes.length_slice hstop

/-- The products and the sum that size an audio buffer and its duration are exact. -/
theorem audioNew_exact {buffer : List UInt8} {rate channels samples : ℕ} {format : PcmSampleFormat}
    {layout : AudioLayout} {d : AudioData}
    (h : AudioData.new buffer rate channels format layout samples = .ok d) :
    buffer.length = samples * channels * format.bytesPerSample ∧
      samples * channels * format.bytesPerSample < 2 ^ 64 ∧
      d.durationNs = samples * 10 ^ 9 / rate := by
  obtain ⟨hbuffer, hrate, hchannels, hformat, -, hsamples⟩ := AudioData.new_fields h
  have hvalue := d.durationNs_eq.1
  rw [hrate, hsamples] at hvalue
  have hlength := d.length
  have hfits := d.fits
  rw [hsamples, hchannels, hformat] at hlength hfits
  rw [hbuffer] at hlength
  exact ⟨hlength, hfits, hvalue⟩

theorem video_of_rgba8 {buffer : List UInt8} {width height stride : ℕ} {d : VideoData}
    (h : VideoData.rgba8 buffer width height stride = .ok d) :
    Video.rgba8 buffer width height stride = .ok d.video := by
  unfold VideoData.rgba8 at h
  split at h
  · rename_i video hvideo
    cases h
    exact hvideo
  · cases h

theorem video_of_yuv420p {buffer : List UInt8} {width height yStride uStride vStride : ℕ}
    {d : VideoData} (h : VideoData.yuv420p buffer width height yStride uStride vStride = .ok d) :
    Video.yuv420p buffer width height yStride uStride vStride = .ok d.video := by
  unfold VideoData.yuv420p at h
  split at h
  · rename_i video hvideo
    cases h
    exact hvideo
  · cases h

/-- The planes of audio and of video tile their buffers and are all handed out, and none of the
arithmetic that places them wraps. -/
theorem planes_tile :
    (∀ d : AudioData, Covers (audioSpans d) d.buffer.length ∧
      (∀ plane span, (audioSpans d)[plane]? = some span →
        d.planeBytes plane = .ok (span.slice d.buffer)) ∧
      ∀ plane, (audioSpans d)[plane]? = none → ∃ e, d.planeBytes plane = .error e) ∧
    (∀ d : VideoData,
      Covers (d.video.layout.planes.map VideoPlane.span) d.video.buffer.length ∧
      (∀ plane ∈ d.video.layout.planes, plane.rowBytes ≤ plane.stride ∧
        (plane.span.slice d.video.buffer).length = plane.stride * plane.rows) ∧
      ∀ address, ∀ plane ∈ d.video.layout.borrowed address,
        d.video.planeBytes address plane = .ok (plane.plane.span.slice d.video.buffer)) ∧
    (∀ buffer rate channels format layout samples d,
      AudioData.new buffer rate channels format layout samples = .ok d →
        buffer.length = samples * channels * format.bytesPerSample ∧
          samples * channels * format.bytesPerSample < 2 ^ 64 ∧
          d.durationNs = samples * 10 ^ 9 / rate) ∧
    (∀ buffer width height stride d, VideoData.rgba8 buffer width height stride = .ok d →
      buffer.length = stride * height ∧ stride * height < 2 ^ 64 ∧ width * 4 < 2 ^ 64 ∧
        d.video.layout = .rgba8 ⟨0, stride, width * 4, height⟩) ∧
    ∀ buffer width height yStride uStride vStride d,
      VideoData.yuv420p buffer width height yStride uStride vStride = .ok d →
        buffer.length = yStride * height + uStride * (height / 2) + vStride * (height / 2) ∧
          yStride * height + uStride * (height / 2) + vStride * (height / 2) < 2 ^ 64 ∧
          d.video.layout = .yuv420p ⟨0, yStride, width, height⟩
            ⟨yStride * height, uStride, width / 2, height / 2⟩
            ⟨yStride * height + uStride * (height / 2), vStride, width / 2, height / 2⟩ := by
  refine ⟨fun d => ?_, fun d => ?_, ?_, ?_, ?_⟩
  · exact ⟨.of_tiles (audioSpans_tile d), fun plane span h => audio_planeBytes d h,
      fun plane h => audio_planeBytes_none d h⟩
  · have hlaid := d.built.laid
    exact ⟨.of_tiles hlaid.tiles,
      fun plane hplane => ⟨hlaid.rows plane hplane, length_planeBytes hlaid hplane⟩,
      fun address plane hplane => Video.planeBytes_own hlaid address hplane⟩
  · intro buffer rate channels format layout samples d h
    exact audioNew_exact h
  · intro buffer width height stride d h
    obtain ⟨-, hwidth, -, hfits, hlength, hvideo⟩ := Video.rgba8_eq_ok.mp (video_of_rgba8 h)
    exact ⟨hlength, hfits, hwidth, by rw [hvideo]⟩
  · intro buffer width height yStride uStride vStride d h
    obtain ⟨-, -, hfits, hlength, hvideo⟩ := Video.yuv420p_eq_ok.mp (video_of_yuv420p h)
    exact ⟨hlength, hfits, by rw [hvideo]⟩

end Muxiva.Ffi
