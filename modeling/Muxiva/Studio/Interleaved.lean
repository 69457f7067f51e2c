import Muxiva.Audio.Payload
import Muxiva.Ffi.RoundTrip
import Muxiva.Studio.Artifacts

/-! What a frame adds to an artifact: the samples one after another whatever their layout, the
picture as it is. The key of the artifact tells audio from video. -/
set_option linter.all false
namespace Muxiva.Studio

open Muxiva.Audio (AudioData AudioLayout PcmSampleFormat planeBytes_eq)
open Muxiva.Ffi (FramePayload Video VideoData VideoLayout VideoPlane)

/-- One sample of one channel. -/
def sampleBytes (data : AudioData) (sample channel : ℕ) : List UInt8 :=
  let index := match data.layout with
    | .interleaved => sample * data.channels + channel
    | .planar => channel * data.samplesPerChannel + sample
  Bytes.slice data.buffer (index * data.sampleFormat.bytesPerSample) data.sampleFormat.bytesPerSample

/-- All samples, those of one moment side by side. -/
def samples (data : AudioData) : List UInt8 :=
  (List.range data.samplesPerChannel).flatMap fun sample =>
    (List.range data.channels).flatMap fun channel => sampleBytes data sample channel

/-- What a frame is worth to its artifact. -/
def payload : FramePayload → List UInt8
  | .audio data => samples data
  | .video data => data.video.buffer
  | _ => []

theorem samples_interleaved {data : AudioData} (hlayout : data.layout = .interleaved) :
    samples data = data.buffer := by
  unfold samples sampleBytes
  rw [hlayout]
  dsimp only
  generalize hwidth : data.sampleFormat.bytesPerSample = width
  have hinner (sample : ℕ) : ((List.range data.channels).flatMap fun channel =>
      Bytes.slice data.buffer ((sample * data.channels + channel) * width) width) =
      Bytes.slice data.buffer (0 + sample * (data.channels * width)) (data.channels * width) := by
    rw [Nat.zero_add, ← Bytes.flatMap_slices]
    congr 1
    funext channel
    congr 1
    ring
  simp only [hinner]
  rw [Bytes.flatMap_slices]
  apply Bytes.slice_all
  rw [data.length, hwidth]
  ring

/-- A planar frame is put together sample by sample; no sample lies outside its plane. -/
theorem interleavedAudio_eq (data : AudioData) : interleavedAudio data = .ok (samples data) := by
  unfold interleavedAudio
  cases hlayout : data.layout with
  | interleaved => rw [if_pos rfl, samples_interleaved hlayout]
  | planar =>
    rw [if_neg nofun]
    generalize hwidth : data.sampleFormat.bytesPerSample = width
    have hplanes : (List.range data.channels).mapM data.planeBytes =
        .ok ((List.range data.channels).map fun channel =>
          Bytes.slice data.buffer (channel * (data.samplesPerChannel * width))
            (data.samplesPerChannel * width)) := by
      apply Fallible.mapM_pure
      intro channel hchannel
      rw [← hwidth]
      exact (planeBytes_eq hlayout (List.mem_range.mp hchannel)).1
    rw [hplanes]
    dsimp only
    rw [List.take_of_length_le (by rw [List.length_map, List.length_range])]
    unfold samples sampleBytes
    rw [hlayout]
    dsimp only
    rw [Except.ok.injEq]
    apply List.flatMap_congr
    intro sample hsample
    rw [List.flatMap_map]
    apply List.flatMap_congr
    intro channel _
    have hinside : sample * width + width ≤ data.samplesPerChannel * width := by
      rw [← Nat.succ_mul]
      exact Nat.mul_le_mul_right _ (List.mem_range.mp hsample)
    rw [Bytes.slice_slice _ hinside, hwidth]
    congr 1
    ring

theorem samples_ne_nil (data : AudioData) : samples data ≠ [] := by
  intro hnil
  have hchannels := data.channelCount.1
  have hsamples := Nat.pos_of_ne_zero data.nonempty
  have hwidth := data.sampleFormat.bytesPerSample_pos
  -- the first sample stands at the start of the buffer in either layout
  have hfirst : sampleBytes data 0 0 = Bytes.slice data.buffer 0 data.sampleFormat.bytesPerSample := by
    unfold sampleBytes
    cases data.layout <;> simp
  have hlong : data.sampleFormat.bytesPerSample ≤ data.buffer.length := by
    rw [data.length]
    exact Nat.le_mul_of_pos_left _ (Nat.mul_pos hsamples hchannels)
  have hzero : sampleBytes data 0 0 = [] := by
    have hrow := List.flatMap_eq_nil_iff.mp hnil 0 (List.mem_range.mpr hsamples)
    exact List.flatMap_eq_nil_iff.mp hrow 0 (List.mem_range.mpr hchannels)
  have hlength : (Bytes.slice data.buffer 0 data.sampleFormat.bytesPerSample).length =
      data.sampleFormat.bytesPerSample := Bytes.length_slice (by omega)
  rw [← hfirst, hzero, List.length_nil] at hlength
  omega

theorem video_ne_nil (data : VideoData) : data.video.buffer ≠ [] := by
  rw [← List.length_pos_iff]
  cases data.built with
  | rgba8 h =>
    obtain ⟨⟨hwidth, hheight⟩, -, hstride, -, hlength, hvideo⟩ := Video.rgba8_eq_ok.mp h
    rw [hvideo]
    dsimp only
    rw [hlength]
    exact Nat.mul_pos (by omega) (by omega)
  | yuv420p h =>
    obtain ⟨⟨⟨hwidth, hheight⟩, -, -⟩, ⟨hstride, -, -⟩, -, hlength, hvideo⟩ :=
      Video.yuv420p_eq_ok.mp h
    rw [hvideo]
    dsimp only
    rw [hlength]
    have hluma := Nat.mul_pos (Nat.lt_of_lt_of_le (Nat.pos_of_ne_zero hwidth) hstride)
      (Nat.pos_of_ne_zero hheight)
    omega

theorem getLast?_toList_append (a : String) {b : String} (h : b.toList ≠ []) :
    (a ++ b).toList.getLast? = b.toList.getLast? := by
  rw [String.toList_append, List.getLast?_append_of_ne_nil _ h]

/-- Video keys end in the bracket of their planes, audio keys in the name of their format. -/
def KeyOf (key : String) (kind : ArtifactWriterKind) : Prop :=
  key.toList.getLast? = some ']' ↔ kind = .video

theorem keyOf_fromCapture {captured : CapturedFrame} {key : String}
    {specification : ArtifactSpecification}
    (h : ArtifactSpecification.fromCapture captured = some (key, specification)) :
    KeyOf key (.of specification) := by
  unfold ArtifactSpecification.fromCapture at h
  unfold KeyOf
  split at h
  · rename_i data hframe
    obtain ⟨rfl, rfl⟩ := Prod.mk.inj (Option.some.inj h)
    have hformat : (debugFormat data.sampleFormat).toList.getLast? ≠ some ']' ∧
        (debugFormat data.sampleFormat).toList ≠ [] := by
      cases data.sampleFormat <;> decide
    unfold ArtifactSpecification.audioKey
    rw [getLast?_toList_append _ hformat.2]
    exact ⟨fun hbracket => absurd hbracket hformat.1, nofun⟩
  · rename_i data hframe
    obtain ⟨rfl, rfl⟩ := Prod.mk.inj (Option.some.inj h)
    unfold ArtifactSpecification.videoKey planesJson
    rw [← String.append_assoc, getLast?_toList_append _ (by decide)]
    exact ⟨fun _ => rfl, fun _ => by decide⟩
  · cases h

/-- The kind of artifact a frame belongs in. -/
def Fits (kind : ArtifactWriterKind) : FramePayload → Prop
  | .audio _ => kind ≠ .video
  | .video _ => kind = .video
  | _ => False

theorem fits_fromCapture {captured : CapturedFrame} {key : String}
    {specification : ArtifactSpecification} {kind : ArtifactWriterKind}
    (h : ArtifactSpecification.fromCapture captured = some (key, specification))
    (hkey : KeyOf key kind) : Fits kind captured.frame := by
  have hown := keyOf_fromCapture h
  unfold KeyOf at hkey hown
  unfold ArtifactSpecification.fromCapture at h
  split at h
  · rename_i data hframe
    obtain ⟨rfl, rfl⟩ := Prod.mk.inj (Option.some.inj h)
    rw [hframe]
    exact fun hvideo => nomatch hown.mp (hkey.mpr hvideo)
  · rename_i data hframe
    obtain ⟨rfl, rfl⟩ := Prod.mk.inj (Option.some.inj h)
    rw [hframe]
    exact hkey.mp (hown.mpr rfl)
  · cases h

theorem encode_ok {kind : ArtifactWriterKind} {frame : FramePayload} (h : Fits kind frame) :
    ∃ durationNs, ArtifactWriter.encode kind frame = .ok (payload frame, durationNs) := by
  cases frame with
  | audio data =>
    cases kind with
    | audio sampleRateHz channels sampleFormat =>
      refine ⟨data.durationNs, ?_⟩
      unfold ArtifactWriter.encode
      dsimp only
      rw [interleavedAudio_eq]
      rfl
    | video => exact absurd rfl h
  | video data =>
    cases h
    exact ⟨0, rfl⟩
  | text _ => exact h.elim
  | byte _ => exact h.elim
  | signal _ _ => exact h.elim
  | event _ => exact h.elim

theorem payload_ne_nil {kind : ArtifactWriterKind} {frame : FramePayload} (h : Fits kind frame) :
    payload frame ≠ [] := by
  cases frame with
  | audio data => exact samples_ne_nil data
  | video data => exact video_ne_nil data
  | text _ => exact h.elim
  | byte _ => exact h.elim
  | signal _ _ => exact h.elim
  | event _ => exact h.elim

end Muxiva.Studio
