import Mathlib.Tactic.Ring
import Muxiva.Audio.Scan
import Muxiva.Lib.Bytes

/-! The payload of a merge: the buffers in order, or plane by plane, as long as the samples of all
parents take. -/
set_option linter.all false
namespace Muxiva.Audio

variable {M E : Type}

def bytesOf (as : List (AudioFrame M E)) : ℕ := (as.map (·.data.buffer.length)).sum

@[simp]
theorem bytesOf_nil : bytesOf ([] : List (AudioFrame M E)) = 0 := rfl

@[simp]
theorem bytesOf_cons (a : AudioFrame M E) (as : List (AudioFrame M E)) :
    bytesOf (a :: as) = a.data.buffer.length + bytesOf as := by
  unfold bytesOf
  simp

structure SameShape (first a : AudioFrame M E) : Prop where
  streamId : a.header.streamId = first.header.streamId
  traceId : a.header.traceId = first.header.traceId
  clockDomain : a.header.clockDomain = first.header.clockDomain
  sampleRateHz : a.data.sampleRateHz = first.data.sampleRateHz
  channels : a.data.channels = first.data.channels
  sampleFormat : a.data.sampleFormat = first.data.sampleFormat
  layout : a.data.layout = first.data.layout

theorem sharesShape_iff {first a : AudioFrame M E} :
    Frame.sharesShape first a = true ↔ SameShape first a := by
  simp only [Frame.sharesShape, Bool.and_eq_true, decide_eq_true_eq]
  constructor
  · rintro ⟨⟨⟨⟨⟨⟨hstream, htrace⟩, hclock⟩, hrate⟩, hchannels⟩, hformat⟩, hlayout⟩
    exact ⟨hstream, htrace, hclock, hrate, hchannels, hformat, hlayout⟩
  · rintro ⟨hstream, htrace, hclock, hrate, hchannels, hformat, hlayout⟩
    exact ⟨⟨⟨⟨⟨⟨hstream, htrace⟩, hclock⟩, hrate⟩, hchannels⟩, hformat⟩, hlayout⟩

theorem Run.sameShape {first : AudioFrame M E} {s n : ℕ} {as : List (AudioFrame M E)}
    (h : Run first s n as) : ∀ a ∈ as, SameShape first a := by
  induction as generalizing s n with
  | nil => simp
  | cons a as ih =>
    obtain ⟨-, hc, hrun⟩ := h
    intro b hb
    rcases List.mem_cons.mp hb with rfl | hb
    · exact sharesShape_iff.mp hc.1
    · exact ih hrun b hb

section Shape

variable {first : AudioFrame M E} {as : List (AudioFrame M E)}

theorem bytesOf_eq (h : ∀ a ∈ as, SameShape first a) :
    bytesOf as =
      samplesOf as * first.data.channels * first.data.sampleFormat.bytesPerSample := by
  induction as with
  | nil => simp
  | cons a as ih =>
    have ha := h a List.mem_cons_self
    rw [bytesOf_cons, samplesOf_cons, ih fun b hb => h b (List.mem_cons_of_mem _ hb),
      a.data.length, ha.channels, ha.sampleFormat]
    ring

theorem totalBytes_eq (as : List (AudioFrame M E)) {sum : ℕ} (hsum : sum < 2 ^ 64) :
    (as.map Frame.audio).foldlM (fun sum parent => do
      let bytes ← parent.audioBytes
      orElse arithmeticError (checkedAdd sum bytes.length)) sum =
      if sum + bytesOf as < 2 ^ 64 then .ok (sum + bytesOf as) else .error arithmeticError := by
  induction as generalizing sum with
  | nil =>
    rw [List.map_nil, List.foldlM_nil, bytesOf_nil, Nat.add_zero, if_pos hsum]
    rfl
  | cons a as ih =>
    have hbytes : (Frame.audio a).audioBytes = .ok a.data.buffer := rfl
    rw [List.map_cons, List.foldlM_cons, hbytes, Fallible.ok_bind, bytesOf_cons, ← Nat.add_assoc]
    by_cases hnext : sum + a.data.buffer.length < 2 ^ 64
    · rw [checkedAdd_some hnext, orElse_some, Fallible.ok_bind, ih hnext]
    · rw [checkedAdd_none hnext, orElse_none, Fallible.error_bind, if_neg]
      omega

theorem joined_interleaved (as : List (AudioFrame M E)) (output : List UInt8) :
    (as.map Frame.audio).foldlM
      (fun output parent => return output ++ (← parent.audioBytes)) output =
      (.ok (output ++ as.flatMap (·.data.buffer)) : Result (List UInt8)) := by
  induction as generalizing output with
  | nil =>
    rw [List.map_nil, List.foldlM_nil, List.flatMap_nil, List.append_nil]
    rfl
  | cons a as ih =>
    rw [List.flatMap_cons, ← List.append_assoc]
    exact ih (output ++ a.data.buffer)

/-- One of the equal parts of a planar buffer. -/
def AudioData.plane (d : AudioData) (channel : ℕ) : List UInt8 :=
  Bytes.slice d.buffer (channel * (d.samplesPerChannel * d.sampleFormat.bytesPerSample))
    (d.samplesPerChannel * d.sampleFormat.bytesPerSample)

theorem planeBytes_eq {d : AudioData} (hlayout : d.layout = .planar) {channel : ℕ}
    (hchannel : channel < d.channels) :
    d.planeBytes channel = .ok (d.plane channel) ∧
      (d.plane channel).length = d.samplesPerChannel * d.sampleFormat.bytesPerSample := by
  unfold AudioData.plane
  generalize hsize : d.samplesPerChannel * d.sampleFormat.bytesPerSample = size
  have hlength : d.buffer.length = d.channels * size := by
    rw [d.length, ← hsize]
    ring
  have hfits : d.channels * size < 2 ^ 64 := by
    have := d.fits
    rw [← d.length, hlength] at this
    exact this
  have hend : (channel + 1) * size ≤ d.channels * size := Nat.mul_le_mul_right _ hchannel
  have hsucc : (channel + 1) * size = channel * size + size := Nat.succ_mul _ _
  have hproduct {a b : ℕ} (h : a * b < 2 ^ 64) : AudioData.checkedProduct a b = .ok (a * b) :=
    AudioData.checkedProduct_eq_ok.mpr ⟨h, rfl⟩
  refine ⟨?_, Bytes.length_slice (by omega)⟩
  unfold AudioData.planeBytes
  rw [hlayout]
  simp only
  rw [if_neg (by omega), hproduct (by omega), Fallible.ok_bind, hsize, hproduct (by omega),
    Fallible.ok_bind, checkedAdd_some (by omega), orElse_some, Fallible.ok_bind, if_pos (by omega),
    orElse_some, Nat.add_sub_cancel_left]
  rfl

/-- One plane of the output. -/
theorem joined_plane {channel : ℕ} (hchannel : channel < first.data.channels)
    (hlayout : first.data.layout = .planar) (h : ∀ a ∈ as, SameShape first a)
    (output : List UInt8) :
    (as.map Frame.audio).foldlM (fun output parent => do
      let audio ← orElse audioMergeTypeError parent.asAudio
      return output ++ (← audio.data.planeBytes channel)) output =
      .ok (output ++ as.flatMap (·.data.plane channel)) := by
  induction as generalizing output with
  | nil =>
    rw [List.map_nil, List.foldlM_nil, List.flatMap_nil, List.append_nil]
    rfl
  | cons a as ih =>
    have ha := h a List.mem_cons_self
    obtain ⟨hbytes, -⟩ := planeBytes_eq (ha.layout.trans hlayout) (ha.channels ▸ hchannel)
    rw [List.map_cons, List.foldlM_cons, List.flatMap_cons, ← List.append_assoc]
    simp only [Frame.asAudio, orElse_some, Fallible.ok_bind, hbytes]
    exact ih (fun b hb => h b (List.mem_cons_of_mem _ hb)) (output ++ a.data.plane channel)

theorem joined_planes (channels : List ℕ) (hchannels : ∀ c ∈ channels, c < first.data.channels)
    (hlayout : first.data.layout = .planar) (h : ∀ a ∈ as, SameShape first a)
    (output : List UInt8) :
    channels.foldlM (fun output channel =>
      (as.map Frame.audio).foldlM (fun output parent => do
        let audio ← orElse audioMergeTypeError parent.asAudio
        return output ++ (← audio.data.planeBytes channel)) output) output =
      .ok (output ++ channels.flatMap fun channel => as.flatMap (·.data.plane channel)) := by
  induction channels generalizing output with
  | nil =>
    rw [List.foldlM_nil, List.flatMap_nil, List.append_nil]
    rfl
  | cons c channels ih =>
    rw [List.foldlM_cons, joined_plane (hchannels c List.mem_cons_self) hlayout h output,
      Fallible.ok_bind, List.flatMap_cons, ← List.append_assoc]
    exact ih (fun d hd => hchannels d (List.mem_cons_of_mem _ hd)) _

/-- The buffers in order, or channel by channel. -/
def joinedPayload (layout : AudioLayout) (channels : ℕ) (as : List (AudioFrame M E)) :
    List UInt8 :=
  match layout with
  | .interleaved => as.flatMap (·.data.buffer)
  | .planar => (List.range channels).flatMap fun channel => as.flatMap (·.data.plane channel)

theorem length_joinedPlane {channel : ℕ} (hchannel : channel < first.data.channels)
    (hlayout : first.data.layout = .planar) (h : ∀ a ∈ as, SameShape first a) :
    (as.flatMap (·.data.plane channel)).length =
      samplesOf as * first.data.sampleFormat.bytesPerSample := by
  induction as with
  | nil => simp
  | cons a as ih =>
    have ha := h a List.mem_cons_self
    obtain ⟨-, hlength⟩ := planeBytes_eq (ha.layout.trans hlayout) (ha.channels ▸ hchannel)
    rw [List.flatMap_cons, List.length_append, hlength, ih fun b hb => h b (List.mem_cons_of_mem _ hb),
      samplesOf_cons, ha.sampleFormat]
    ring

theorem length_joinedPayload (h : ∀ a ∈ as, SameShape first a) :
    (joinedPayload first.data.layout first.data.channels as).length =
      samplesOf as * first.data.channels * first.data.sampleFormat.bytesPerSample := by
  unfold joinedPayload
  cases hlayout : first.data.layout with
  | interleaved =>
    rw [← bytesOf_eq h, List.length_flatMap]
    rfl
  | planar =>
    have hplanes : (List.range first.data.channels).map
          (fun channel => (as.flatMap (·.data.plane channel)).length) =
        (List.range first.data.channels).map fun _ =>
          samplesOf as * first.data.sampleFormat.bytesPerSample :=
      List.map_congr_left fun channel hc =>
        length_joinedPlane (List.mem_range.mp hc) hlayout h
    simp only
    rw [List.length_flatMap, hplanes, List.map_const', List.sum_replicate_nat, List.length_range]
    ring

/-- The payload of parents of one shape; above `isize::MAX` bytes the buffer cannot be allocated. -/
theorem mergeAudioPayload_ok (h : ∀ a ∈ first :: as, SameShape first a)
    (hbytes : bytesOf (first :: as) < 2 ^ 63) :
    Frame.mergeAudioPayload ((first :: as).map .audio) first.data.layout =
      .ok (joinedPayload first.data.layout first.data.channels (first :: as)) := by
  unfold Frame.mergeAudioPayload joinedPayload
  rw [totalBytes_eq _ (by norm_num), if_pos (by omega), Fallible.ok_bind, if_neg (by omega)]
  cases hlayout : first.data.layout with
  | interleaved => exact joined_interleaved (first :: as) []
  | planar =>
    exact joined_planes (List.range first.data.channels) (fun c hc => List.mem_range.mp hc) hlayout
      h []

theorem mergeAudioPayload_error (hbytes : ¬ bytesOf (first :: as) < 2 ^ 63) :
    ∃ e, Frame.mergeAudioPayload ((first :: as).map .audio) first.data.layout = .error e := by
  unfold Frame.mergeAudioPayload
  rw [totalBytes_eq _ (by norm_num)]
  by_cases hsum : 0 + bytesOf (first :: as) < 2 ^ 64
  · rw [if_pos hsum, Fallible.ok_bind, if_pos (by omega)]
    exact ⟨_, rfl⟩
  · rw [if_neg hsum]
    exact ⟨_, rfl⟩

end Shape

end Muxiva.Audio
