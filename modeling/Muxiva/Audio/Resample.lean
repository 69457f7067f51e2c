import Mathlib.Algebra.BigOperators.Ring.List
import Mathlib.Data.BitVec
import Muxiva.Audio.Content
import Muxiva.Lib.Rounding

/-! `AudioResample`: each frame is resampled on its own. What the floating point arithmetic makes of
two neighbouring samples is a parameter. -/
set_option linter.all false
namespace Muxiva.Audio

/-- A node's own error. -/
def nodeError (code message : String) : Failure := .error ⟨.internal, code, message⟩

variable {M E : Type}

/-- `Frame::derive` with an audio payload. -/
def Frame.derive (parent : Frame M E) (newFrameId : FrameId) (timestamp : Timestamp)
    (sequenceId : SequenceId) (origin : TransformOrigin) (reason : String) (payload : AudioData) :
    Result (Frame M E) := do
  if parent.header.frameId = newFrameId then
    throw (failWith "MUXIVA-FRM-DERIVATION-ID"
      "a derived frame must use a different ID from its direct parent")
  let entry ← LineageEntry.new parent.header.frameId origin reason
  let header ← FrameHeader.new newFrameId timestamp parent.header.clockDomain sequenceId
    parent.header.streamId parent.header.traceId .audio parent.header.metadata
    parent.header.extensions (parent.header.lineage ++ [entry])
  Frame.new header payload

structure AudioResample where
  inputRateHz : Option ℕ
  inputChannels : Option ℕ
  targetRateHz : ℕ
  targetChannels : Option ℕ

/-- `i16::from_le_bytes`. -/
def fromLeBytes (low high : UInt8) : BitVec 16 := high.toBitVec ++ low.toBitVec

/-- `i16::to_le_bytes`. -/
def toLeBytes (value : BitVec 16) : List UInt8 :=
  [⟨value.extractLsb' 0 8⟩, ⟨value.extractLsb' 8 8⟩]

/-- The values in a buffer, two bytes each. -/
def pcmValues : List UInt8 → List (BitVec 16)
  | low :: high :: rest => fromLeBytes low high :: pcmValues rest
  | _ => []

def resampledSizeError : Failure :=
  nodeError "MUXIVA-AUDIO-RESAMPLE-SIZE" "resampled audio size overflow"

/-- The length of the output, if it can be computed. -/
def targetSamples (sourceSamples sourceRateHz targetRateHz : ℕ) : Option ℕ :=
  (checkedMul sourceSamples targetRateHz).bind fun value =>
    (checkedAdd value (sourceRateHz / 2)).map (· / sourceRateHz)

section Resampling

-- the value between two neighbours, as the `f64` expression with `value.round() as i16` gives it for
-- the fraction of a numerator and a denominator
variable (interpolate : BitVec 16 → BitVec 16 → ℕ → ℕ → BitVec 16)

/-- The bytes of one output sample of all channels. -/
def resampledAt (values : List (BitVec 16)) (sourceSamples sourceRateHz targetRateHz channels : ℕ)
    (targetIndex : ℕ) : List UInt8 :=
  let numerator := targetIndex * sourceRateHz
  let left := min (numerator / targetRateHz) (sourceSamples - 1)
  let right := min (left + 1) (sourceSamples - 1)
  (List.range channels).flatMap fun channel =>
    toLeBytes (interpolate (values.getD (left * channels + channel) 0)
      (values.getD (right * channels + channel) 0) (numerator % targetRateHz) targetRateHz)

def resamplePcm16 (source : AudioData) (targetRateHz : ℕ) : Result AudioData := do
  let samples ← orElse resampledSizeError
    (targetSamples source.samplesPerChannel source.sampleRateHz targetRateHz)
  if samples = 0 then
    throw (nodeError "MUXIVA-AUDIO-RESAMPLE-SIZE" "resampled audio would contain no samples")
  let values := pcmValues source.buffer
  let capacity ← orElse resampledSizeError
    ((checkedMul samples source.channels).bind (checkedMul · 2))
  if 2 ^ 63 ≤ capacity then throw .capacityOverflow
  let output := (List.range samples).flatMap
    (resampledAt interpolate values source.samplesPerChannel source.sampleRateHz targetRateHz
      source.channels)
  AudioData.new output targetRateHz source.channels .i16Le .interleaved samples

/-- What a call of `on_process` is given: the input, a serial for the new frame, and what `emit`
answers. -/
structure ResampleCall (M E : Type) where
  input : Option (Frame M E)
  nodeId : NodeId
  newFrameId : FrameId
  emit : Frame M E → Result Unit

/-- The format and the configured contract. -/
def AudioResample.checkSource (self : AudioResample) (source : AudioData) : Result Unit :=
  if source.sampleFormat ≠ .i16Le ∨ source.layout ≠ .interleaved then
    .error (nodeError "MUXIVA-AUDIO-RESAMPLE-FORMAT"
      "audio resampler requires interleaved PCM s16le")
  else if self.inputRateHz.any (· ≠ source.sampleRateHz) ∨
      self.inputChannels.any (· ≠ source.channels) ∨
      self.targetChannels.any (· ≠ source.channels) then
    .error (nodeError "MUXIVA-AUDIO-RESAMPLE-CONTRACT"
      "audio frame does not match the configured input/output channel contract")
  else .ok ()

/-- The frame it emits. -/
def AudioResample.onProcess (self : AudioResample) (call : ResampleCall M E) :
    Result (Frame M E) := do
  let input ← orElse (nodeError "MUXIVA-DEMO-INPUT-MISSING" "audio resampler requires audio")
    call.input
  let audio ← orElse
    (failWith "MUXIVA-FRM-TYPE-MISMATCH" "frame header, payload, or expected type differs")
    input.asAudio
  self.checkSource audio.data
  let payload ← (if audio.data.sampleRateHz = self.targetRateHz then .ok audio.data
    else resamplePcm16 interpolate audio.data self.targetRateHz)
  let output ← input.derive call.newFrameId input.header.timestamp input.header.sequenceId
    ⟨some call.nodeId, none, Or.inl rfl⟩ "builtin_audio_resample" payload
  call.emit output
  return output

/-- Calls one after another, each of which returns `Ok`: the frames emitted. The node keeps nothing
from one to the next. -/
def AudioResample.run (self : AudioResample) : List (ResampleCall M E) → Result (List (Frame M E))
  | [] => .ok []
  | call :: calls => do
    let output ← self.onProcess interpolate call
    let outputs ← self.run calls
    return output :: outputs

end Resampling

/-- The samples per channel and the rate of a frame that has audio. -/
def Frame.samples (frame : Frame M E) : ℕ := frame.asAudio.elim 0 (·.data.samplesPerChannel)

def Frame.rate (frame : Frame M E) : Option ℕ := frame.asAudio.map (·.data.sampleRateHz)

def ResampleCall.samples (call : ResampleCall M E) : ℕ := call.input.elim 0 Frame.samples

section Totals

variable {interpolate : BitVec 16 → BitVec 16 → ℕ → ℕ → BitVec 16}

theorem targetSamples_eq {sourceSamples sourceRateHz targetRateHz n : ℕ}
    (h : targetSamples sourceSamples sourceRateHz targetRateHz = some n) :
    n = Rounding.roundDiv (sourceSamples * targetRateHz) sourceRateHz := by
  unfold targetSamples at h
  obtain ⟨product, hproduct, hsum⟩ := Option.bind_eq_some_iff.mp h
  obtain ⟨value, hvalue, rfl⟩ := Option.map_eq_some_iff.mp hsum
  unfold checkedMul at hproduct
  split_ifs at hproduct
  obtain rfl := Option.some.inj hproduct
  rw [(checkedAdd_eq_some.mp hvalue).2]
  rfl

/-- A frame is resampled to its own length, rounded. -/
theorem resamplePcm16_samples {source data : AudioData} {targetRateHz : ℕ}
    (h : resamplePcm16 interpolate source targetRateHz = .ok data) :
    data.samplesPerChannel =
      Rounding.roundDiv (source.samplesPerChannel * targetRateHz) source.sampleRateHz := by
  unfold resamplePcm16 at h
  obtain ⟨samples, hsamples, hrest⟩ := Fallible.bind_eq_ok.mp h
  rw [orElse_eq_ok] at hsamples
  rw [← targetSamples_eq hsamples]
  dsimp only at hrest
  split_ifs at hrest with hzero
  · cases hrest
  obtain ⟨capacity, -, hlast⟩ := Fallible.bind_eq_ok.mp hrest
  split_ifs at hlast with hbig
  · cases hlast
  exact (AudioData.new_fields hlast).2.2.2.2.2

theorem Frame.derive_samples {parent output : Frame M E} {newFrameId : FrameId}
    {timestamp : Timestamp} {sequenceId : SequenceId} {origin : TransformOrigin} {reason : String}
    {payload : AudioData}
    (h : parent.derive newFrameId timestamp sequenceId origin reason payload = .ok output) :
    output.samples = payload.samplesPerChannel := by
  unfold Frame.derive at h
  dsimp only at h
  split_ifs at h
  · cases h
  obtain ⟨entry, -, h⟩ := Fallible.bind_eq_ok.mp h
  obtain ⟨header, -, h⟩ := Fallible.bind_eq_ok.mp h
  unfold Frame.new at h
  split_ifs at h
  cases h
  rfl

/-- What a call that returns `Ok` emits. -/
theorem AudioResample.onProcess_samples {self : AudioResample} {call : ResampleCall M E}
    {output : Frame M E} (h : self.onProcess interpolate call = .ok output) :
    ∃ input rate, call.input = some input ∧ input.rate = some rate ∧ 0 < rate ∧
      output.samples = Rounding.roundDiv (input.samples * self.targetRateHz) rate := by
  unfold AudioResample.onProcess at h
  obtain ⟨input, hinput, hrest⟩ := Fallible.bind_eq_ok.mp h
  obtain ⟨audio, haudio, hrest⟩ := Fallible.bind_eq_ok.mp hrest
  obtain ⟨-, -, hrest⟩ := Fallible.bind_eq_ok.mp hrest
  obtain ⟨payload, hpayload, hrest⟩ := Fallible.bind_eq_ok.mp hrest
  obtain ⟨derived, hderived, hrest⟩ := Fallible.bind_eq_ok.mp hrest
  obtain ⟨-, -, hlast⟩ := Fallible.bind_eq_ok.mp hrest
  cases hlast
  rw [orElse_eq_ok] at hinput haudio
  have hpos : 0 < audio.data.sampleRateHz := audio.data.rate.1
  refine ⟨input, audio.data.sampleRateHz, hinput, by rw [Frame.rate, haudio]; rfl, hpos, ?_⟩
  rw [Frame.derive_samples hderived, Frame.samples, haudio]
  split_ifs at hpayload with hsame
  · cases hpayload
    rw [← hsame]
    exact (Rounding.roundDiv_self _ hpos).symm
  · exact resamplePcm16_samples hpayload

theorem AudioResample.run_samples {self : AudioResample} {calls : List (ResampleCall M E)}
    {outputs : List (Frame M E)} (h : self.run interpolate calls = .ok outputs) {rate : ℕ}
    (hrate : ∀ call ∈ calls, ∀ input ∈ call.input, input.rate = some rate) :
    outputs.map Frame.samples = (calls.map fun call => call.samples * self.targetRateHz).map
      (Rounding.roundDiv · rate) := by
  induction calls generalizing outputs with
  | nil =>
    cases h
    rfl
  | cons call calls ih =>
    obtain ⟨output, hone, hrest⟩ := Fallible.bind_eq_ok.mp h
    obtain ⟨behind, hrun, hlast⟩ := Fallible.bind_eq_ok.mp hrest
    cases hlast
    obtain ⟨input, rate', hinput, hrate', -, hsamples⟩ := AudioResample.onProcess_samples hone
    have hsame := hrate call (by simp) input hinput
    rw [hrate'] at hsame
    obtain rfl := Option.some.inj hsame
    have hcall : call.samples = input.samples := by rw [ResampleCall.samples, hinput]; rfl
    rw [List.map_cons, List.map_cons, List.map_cons, hsamples, hcall,
      ih hrun fun c hc => hrate c (by simp [hc])]

/-- Over frames of one rate the output is off by half a sample for each frame at most. -/
theorem resampled_total {self : AudioResample} {calls : List (ResampleCall M E)}
    {outputs : List (Frame M E)} (h : self.run interpolate calls = .ok outputs) {rate : ℕ}
    (hrate : ∀ call ∈ calls, ∀ input ∈ call.input, input.rate = some rate) :
    |((outputs.map Frame.samples).sum : ℚ) -
        ((calls.map ResampleCall.samples).sum : ℚ) * self.targetRateHz / rate| ≤
      (calls.length : ℚ) / 2 := by
  have hsamples := AudioResample.run_samples h hrate
  match calls with
  | [] =>
    rw [hsamples]
    simp
  | call :: rest =>
    obtain ⟨output, hone, -⟩ := Fallible.bind_eq_ok.mp h
    obtain ⟨input, rate', hinput, hrate', hpos, -⟩ := AudioResample.onProcess_samples hone
    have hsame := hrate call (by simp) input hinput
    rw [hrate'] at hsame
    obtain rfl := Option.some.inj hsame
    have herror := Rounding.sum_roundDiv_error hpos
      ((call :: rest).map fun call => call.samples * self.targetRateHz)
    rw [← hsamples, List.sum_map_mul_right, List.length_map, Nat.cast_mul] at herror
    exact herror

end Totals

/-- One sample of silence at 16 kHz. -/
def shortAudio : AudioData :=
  { buffer := [0, 0], sampleRateHz := 16000, channels := 1, sampleFormat := .i16Le
    layout := .interleaved, samplesPerChannel := 1, durationNs := 62500
    rate := by decide, channelCount := mono_count, nonempty := Nat.one_ne_zero, length := rfl
    fits := by decide, duration := by rfl }

def shortFrame (frameId : FrameId) : Frame Unit Unit :=
  .audio ⟨⟨frameId, .zero, ⟨0, .monotonic⟩, .zero, 0, 0, .audio, (), (), [], acyclic_nil frameId⟩,
    shortAudio⟩

def shortCall (n : ℕ) : ResampleCall Unit Unit := ⟨some (shortFrame n), 0, n + 1, fun _ => .ok ()⟩

def halfResampler : AudioResample := ⟨none, none, 8000, none⟩

/-- Silence is interpolated to silence. -/
def silence (left _right : BitVec 16) (_numerator _denominator : ℕ) : BitVec 16 := left

theorem short_run : ∃ outputs, halfResampler.run silence ((List.range 4).map shortCall) = .ok outputs ∧
    outputs.map Frame.samples = [1, 1, 1, 1] := by
  have hrun : (halfResampler.run silence ((List.range 4).map shortCall)).toOption.map
      (·.map Frame.samples) = some [1, 1, 1, 1] := by decide +kernel
  obtain ⟨outputs, hout, hsamples⟩ := Option.map_eq_some_iff.mp hrun
  refine ⟨outputs, ?_, hsamples⟩
  cases hcase : halfResampler.run silence ((List.range 4).map shortCall) with
  | error e =>
    rw [hcase] at hout
    cases hout
  | ok result =>
    rw [hcase] at hout
    cases hout
    rfl

theorem short_rate : ∀ call ∈ (List.range 4).map shortCall, ∀ input ∈ call.input,
    input.rate = some 16000 := by
  intro call hcall input hinput
  obtain ⟨n, -, rfl⟩ := List.mem_map.mp hcall
  cases hinput
  rfl

theorem resampled_total_short : ∃ outputs,
    halfResampler.run silence ((List.range 4).map shortCall) = .ok outputs ∧
      |((outputs.map Frame.samples).sum : ℚ) -
          ((((List.range 4).map shortCall).map ResampleCall.samples).sum : ℚ) *
            halfResampler.targetRateHz / (16000 : ℕ)| ≤
        (((List.range 4).map shortCall).length : ℚ) / 2 := by
  obtain ⟨outputs, hrun, -⟩ := short_run
  exact ⟨outputs, hrun, resampled_total hrun short_rate⟩

/-- Four frames of one sample, resampled to half their rate, are still four samples. -/
theorem resampled_drift : ∃ outputs,
    halfResampler.run silence ((List.range 4).map shortCall) = .ok outputs ∧
      1 < |((outputs.map Frame.samples).sum : ℚ) -
        ((((List.range 4).map shortCall).map ResampleCall.samples).sum : ℚ) *
          halfResampler.targetRateHz / (16000 : ℕ)| := by
  obtain ⟨outputs, hrun, hsamples⟩ := short_run
  refine ⟨outputs, hrun, ?_⟩
  have htotal : (((List.range 4).map shortCall).map ResampleCall.samples).sum = 4 := by decide +kernel
  rw [hsamples, htotal]
  norm_num [halfResampler]

end Muxiva.Audio
