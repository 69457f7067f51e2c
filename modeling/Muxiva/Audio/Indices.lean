import Muxiva.Audio.Resample

/-! `resample_pcm16` checks the size of its output only. Here every operation of its loop is checked
as well, and none of them fails. -/
set_option linter.all false
namespace Muxiva.Audio

/-- Subtraction of unsigned integers. -/
def checkedSub (a b : ℕ) : Option ℕ := if b ≤ a then some (a - b) else none

/-- `left` and `right`, unless an operation wraps. -/
def neighbours (sourceSamples sourceRateHz targetRateHz targetIndex : ℕ) : Option (ℕ × ℕ) := do
  let numerator ← checkedMul targetIndex sourceRateHz
  let last ← checkedSub sourceSamples 1
  let left := min (numerator / targetRateHz) last
  let next ← checkedAdd left 1
  return (left, min next last)

/-- One element of `source_values`, unless an operation wraps or the index is outside. -/
def valueAt (values : List (BitVec 16)) (sample channels channel : ℕ) : Option (BitVec 16) := do
  let start ← checkedMul sample channels
  let index ← checkedAdd start channel
  values[index]?

section Checked

variable (interpolate : BitVec 16 → BitVec 16 → ℕ → ℕ → BitVec 16)

/-- One turn of the loop. -/
def resampledAtChecked (values : List (BitVec 16))
    (sourceSamples sourceRateHz targetRateHz channels targetIndex : ℕ) : Option (List UInt8) := do
  let numerator ← checkedMul targetIndex sourceRateHz
  let (left, right) ← neighbours sourceSamples sourceRateHz targetRateHz targetIndex
  let bytes ← (List.range channels).mapM fun channel => do
    let leftValue ← valueAt values left channels channel
    let rightValue ← valueAt values right channels channel
    return toLeBytes
      (interpolate leftValue rightValue (numerator % targetRateHz) targetRateHz)
  return bytes.flatten

/-- `resample_pcm16`, and `none` where an unchecked operation wraps or an index is outside. -/
def resamplePcm16Checked (source : AudioData) (targetRateHz : ℕ) : Option (Result AudioData) :=
  match targetSamples source.samplesPerChannel source.sampleRateHz targetRateHz with
  | none => some (.error resampledSizeError)
  | some samples =>
    if samples = 0 then
      some (.error
        (nodeError "MUXIVA-AUDIO-RESAMPLE-SIZE" "resampled audio would contain no samples"))
    else
      match (checkedMul samples source.channels).bind (checkedMul · 2) with
      | none => some (.error resampledSizeError)
      | some capacity =>
        if 2 ^ 63 ≤ capacity then some (.error .capacityOverflow)
        else do
          let output ← (List.range samples).mapM
            (resampledAtChecked interpolate (pcmValues source.buffer) source.samplesPerChannel
              source.sampleRateHz targetRateHz source.channels)
          return AudioData.new output.flatten targetRateHz source.channels .i16Le .interleaved samples

end Checked

theorem length_pcmValues (bytes : List UInt8) : (pcmValues bytes).length = bytes.length / 2 := by
  fun_induction pcmValues bytes with
  | case1 low high rest ih =>
    rw [List.length_cons, ih, List.length_cons, List.length_cons]
    omega
  | case2 bytes h =>
    match bytes with
    | [] => rfl
    | [byte] => simp
    | low :: high :: rest => exact absurd rfl (h low high rest)

/-- Each output sample lies before the end of the input. -/
theorem index_mul_lt {sourceSamples sourceRateHz targetRateHz samples targetIndex : ℕ}
    (h : targetSamples sourceSamples sourceRateHz targetRateHz = some samples)
    (hindex : targetIndex < samples) : targetIndex * sourceRateHz < 2 ^ 64 := by
  have hvalue : sourceSamples * targetRateHz + sourceRateHz / 2 < 2 ^ 64 := by
    unfold targetSamples at h
    obtain ⟨product, hproduct, hsum⟩ := Option.bind_eq_some_iff.mp h
    obtain ⟨value, hvalue, -⟩ := Option.map_eq_some_iff.mp hsum
    unfold checkedMul at hproduct
    split_ifs at hproduct
    obtain rfl := Option.some.inj hproduct
    exact (checkedAdd_eq_some.mp hvalue).1
  rw [targetSamples_eq h, Rounding.roundDiv] at hindex
  have hle : (targetIndex + 1) * sourceRateHz ≤ sourceSamples * targetRateHz + sourceRateHz / 2 :=
    (Nat.mul_le_mul_right _ hindex).trans (Nat.div_mul_le_self _ _)
  have hstep : targetIndex * sourceRateHz ≤ (targetIndex + 1) * sourceRateHz :=
    Nat.mul_le_mul_right _ (Nat.le_succ _)
  omega

section Loop

variable {source : AudioData} {targetRateHz targetIndex : ℕ}

theorem source_bounds (hformat : source.sampleFormat = .i16Le) :
    (pcmValues source.buffer).length = source.samplesPerChannel * source.channels ∧
      source.samplesPerChannel * source.channels < 2 ^ 63 ∧
      source.samplesPerChannel < 2 ^ 63 := by
  have hlength := source.length
  have hfits := source.fits
  rw [hformat] at hlength hfits
  change source.buffer.length = source.samplesPerChannel * source.channels * 2 at hlength
  change source.samplesPerChannel * source.channels * 2 < 2 ^ 64 at hfits
  have hle := Nat.le_mul_of_pos_right source.samplesPerChannel source.channelCount.1
  rw [length_pcmValues]
  omega

/-- The neighbours of an output sample are the same sample or next to each other. -/
theorem neighbours_eq (targetRateHz : ℕ) (hformat : source.sampleFormat = .i16Le)
    (hproduct : targetIndex * source.sampleRateHz < 2 ^ 64) :
    ∃ left right, neighbours source.samplesPerChannel source.sampleRateHz targetRateHz targetIndex =
        some (left, right) ∧
      left = min (targetIndex * source.sampleRateHz / targetRateHz) (source.samplesPerChannel - 1) ∧
      right = min (left + 1) (source.samplesPerChannel - 1) ∧
      left ≤ right ∧ right ≤ left + 1 ∧ right < source.samplesPerChannel := by
  obtain ⟨-, -, hsamples⟩ := source_bounds hformat
  have hpos := Nat.pos_of_ne_zero source.nonempty
  refine ⟨_, _, ?_, rfl, rfl, ?_, ?_, ?_⟩
  · unfold neighbours checkedSub
    have hone : 1 ≤ source.samplesPerChannel := hpos
    simp only [checkedMul_some hproduct, Option.bind_eq_bind, Option.bind_some, if_pos hone]
    rw [checkedAdd_some (by omega)]
    rfl
  all_goals omega

/-- An index below the samples is inside the values. -/
theorem valueAt_eq (hformat : source.sampleFormat = .i16Le) {sample channel : ℕ}
    (hsample : sample < source.samplesPerChannel) (hchannel : channel < source.channels) :
    sample * source.channels + channel < (pcmValues source.buffer).length ∧
      valueAt (pcmValues source.buffer) sample source.channels channel =
        some ((pcmValues source.buffer).getD (sample * source.channels + channel) 0) := by
  obtain ⟨hlength, hfits, -⟩ := source_bounds hformat
  have hend : (sample + 1) * source.channels ≤ source.samplesPerChannel * source.channels :=
    Nat.mul_le_mul_right _ hsample
  rw [Nat.succ_mul] at hend
  have hinside : sample * source.channels + channel < (pcmValues source.buffer).length := by omega
  refine ⟨hinside, ?_⟩
  unfold valueAt
  simp only [Option.bind_eq_bind]
  rw [checkedMul_some (by omega), Option.bind_some, checkedAdd_some (by omega), Option.bind_some,
    List.getD_eq_getElem?_getD, List.getElem?_eq_getElem hinside]
  rfl

theorem resampledAtChecked_eq (interpolate : BitVec 16 → BitVec 16 → ℕ → ℕ → BitVec 16)
    (hformat : source.sampleFormat = .i16Le)
    (hproduct : targetIndex * source.sampleRateHz < 2 ^ 64) :
    resampledAtChecked interpolate (pcmValues source.buffer) source.samplesPerChannel
        source.sampleRateHz targetRateHz source.channels targetIndex =
      some (resampledAt interpolate (pcmValues source.buffer) source.samplesPerChannel
        source.sampleRateHz targetRateHz source.channels targetIndex) := by
  obtain ⟨left, right, hneighbours, hleft, hright, hle, -, hlast⟩ :=
    neighbours_eq targetRateHz hformat hproduct
  unfold resampledAtChecked resampledAt
  rw [checkedMul_some hproduct, hneighbours]
  simp only [Option.bind_eq_bind, Option.bind_some]
  rw [Fallible.mapM_pure (g := fun channel => toLeBytes
    (interpolate ((pcmValues source.buffer).getD (left * source.channels + channel) 0)
      ((pcmValues source.buffer).getD (right * source.channels + channel) 0)
      (targetIndex * source.sampleRateHz % targetRateHz) targetRateHz))]
  · subst hright hleft
    rfl
  · intro channel hchannel
    have hchannel := List.mem_range.mp hchannel
    rw [(valueAt_eq hformat (hle.trans_lt hlast) hchannel).2,
      (valueAt_eq hformat hlast hchannel).2]
    rfl

/-- Two bytes for each channel of each sample. -/
theorem length_resampled (interpolate : BitVec 16 → BitVec 16 → ℕ → ℕ → BitVec 16)
    (values : List (BitVec 16))
    (sourceSamples sourceRateHz targetRateHz channels samples : ℕ) :
    ((List.range samples).flatMap (resampledAt interpolate values sourceSamples sourceRateHz
      targetRateHz channels)).length = samples * channels * 2 := by
  rw [Nat.mul_assoc]
  apply Bytes.length_flatMap_range
  intro targetIndex _
  exact Bytes.length_flatMap_range fun channel _ => rfl

/-- No unchecked operation wraps and no index is outside, whatever the call returns. -/
theorem resamplePcm16Checked_eq (interpolate : BitVec 16 → BitVec 16 → ℕ → ℕ → BitVec 16)
    (hformat : source.sampleFormat = .i16Le) :
    resamplePcm16Checked interpolate source targetRateHz =
      some (resamplePcm16 interpolate source targetRateHz) := by
  unfold resamplePcm16Checked resamplePcm16
  cases hsize : targetSamples source.samplesPerChannel source.sampleRateHz targetRateHz with
  | none => rfl
  | some samples =>
    rw [orElse_some, Fallible.ok_bind]
    dsimp only
    by_cases hzero : samples = 0
    · rw [if_pos hzero, if_pos hzero]
      rfl
    rw [if_neg hzero, if_neg hzero]
    cases (checkedMul samples source.channels).bind (checkedMul · 2) with
    | none => rfl
    | some capacity =>
      dsimp only
      rw [orElse_some]
      by_cases hcapacity : 2 ^ 63 ≤ capacity
      · rw [if_pos hcapacity]
        simp only [Fallible.ok_bind]
        rw [if_pos hcapacity]
        rfl
      · rw [if_neg hcapacity]
        simp only [Fallible.ok_bind]
        rw [if_neg hcapacity, Fallible.mapM_pure fun targetIndex hindex =>
          resampledAtChecked_eq interpolate hformat
            (index_mul_lt hsize (List.mem_range.mp hindex))]
        rfl

/-- The duration of a source fits in 64 bits, so its output is no larger than a buffer may be. -/
theorem capacity_lt (htarget : targetRateHz ≤ 192000) {samples : ℕ}
    (h : targetSamples source.samplesPerChannel source.sampleRateHz targetRateHz = some samples) :
    samples * source.channels * 2 < 2 ^ 63 := by
  have hrate := source.rate.1
  obtain ⟨heq, hfits⟩ := source.durationNs_eq
  rw [heq, durationNs, Nat.div_lt_iff_lt_mul hrate] at hfits
  have hsize : samples * source.sampleRateHz ≤
      source.samplesPerChannel * targetRateHz + source.sampleRateHz / 2 := by
    rw [targetSamples_eq h]
    exact Nat.div_mul_le_self _ _
  have hsamples : samples * 1000000000 < 2 ^ 64 * 192000 + 1000000000 := by
    have hscaled : samples * 1000000000 * source.sampleRateHz <
        (2 ^ 64 * 192000 + 1000000000) * source.sampleRateHz := by
      have hinput : source.samplesPerChannel * 1000000000 * targetRateHz ≤
          2 ^ 64 * source.sampleRateHz * 192000 := Nat.mul_le_mul hfits.le htarget
      calc samples * 1000000000 * source.sampleRateHz
          = samples * source.sampleRateHz * 1000000000 := by ring
        _ ≤ (source.samplesPerChannel * targetRateHz + source.sampleRateHz / 2) * 1000000000 :=
          Nat.mul_le_mul_right _ hsize
        _ = source.samplesPerChannel * 1000000000 * targetRateHz +
            source.sampleRateHz / 2 * 1000000000 := by ring
        _ < 2 ^ 64 * source.sampleRateHz * 192000 + source.sampleRateHz * 1000000000 := by omega
        _ = (2 ^ 64 * 192000 + 1000000000) * source.sampleRateHz := by ring
    exact Nat.lt_of_mul_lt_mul_right hscaled
  have hchannels := Nat.mul_le_mul_left samples source.channelCount.2
  omega

end Loop

/-- `AudioData::new` on arguments whose duration alone may not fit. -/
theorem audioDataNew_eq {buffer : List UInt8} {rate channels samples : ℕ}
    (format : PcmSampleFormat) (layout : AudioLayout) (hrate : 1 ≤ rate ∧ rate ≤ 768000)
    (hchannels : 1 ≤ channels ∧ channels ≤ 1024) (hsamples : samples ≠ 0)
    (hfits : samples * channels * format.bytesPerSample < 2 ^ 64)
    (hlength : buffer.length = samples * channels * format.bytesPerSample) :
    if durationNs samples rate < 2 ^ 64 then
      ∃ d, AudioData.new buffer rate channels format layout samples = .ok d
    else AudioData.new buffer rate channels format layout samples = .error arithmeticError := by
  have hbytes := AudioData.expectedBytes_eq format hfits
  have hnanos := durationNsForSamples_eq hrate arithmeticError samples
  unfold AudioData.new
  rw [dif_neg (not_not.mpr hrate), dif_neg (not_not.mpr hchannels), dif_neg hsamples,
    Result.attachBind_ok hbytes]
  by_cases hduration : durationNs samples rate < 2 ^ 64
  · rw [if_pos hduration] at hnanos ⊢
    rw [Result.attachBind_ok hnanos, dif_neg (not_not.mpr hlength)]
    exact ⟨_, rfl⟩
  · rw [if_neg hduration] at hnanos ⊢
    exact Result.attachBind_error hnanos _

/-- The call runs without wrapping or leaving its buffer; what it returns is an error or the output
of the rounded length, whose neighbours in the source are next to each other. -/
theorem resample_safe (interpolate : BitVec 16 → BitVec 16 → ℕ → ℕ → BitVec 16)
    {source : AudioData} (hformat : source.sampleFormat = .i16Le) {targetRateHz : ℕ}
    (htarget : 8000 ≤ targetRateHz ∧ targetRateHz ≤ 192000) :
    resamplePcm16Checked interpolate source targetRateHz =
        some (resamplePcm16 interpolate source targetRateHz) ∧
      ((∃ e, resamplePcm16 interpolate source targetRateHz = .error (.error e)) ∨
        ∃ data samples, resamplePcm16 interpolate source targetRateHz = .ok data ∧
          samples = (source.samplesPerChannel * targetRateHz + source.sampleRateHz / 2) /
            source.sampleRateHz ∧
          data.samplesPerChannel = samples ∧ data.sampleRateHz = targetRateHz ∧
          data.channels = source.channels ∧ data.sampleFormat = .i16Le ∧
          data.layout = .interleaved ∧
          ∀ targetIndex < samples, ∃ left right,
            neighbours source.samplesPerChannel source.sampleRateHz targetRateHz targetIndex =
                some (left, right) ∧
              left ≤ right ∧ right ≤ left + 1 ∧
              ∀ channel < source.channels,
                left * source.channels + channel < (pcmValues source.buffer).length ∧
                  right * source.channels + channel < (pcmValues source.buffer).length) := by
  refine ⟨resamplePcm16Checked_eq interpolate hformat, ?_⟩
  unfold resamplePcm16
  cases hsize : targetSamples source.samplesPerChannel source.sampleRateHz targetRateHz with
  | none => exact Or.inl ⟨_, rfl⟩
  | some samples =>
    rw [orElse_some, Fallible.ok_bind]
    dsimp only
    by_cases hzero : samples = 0
    · rw [if_pos hzero]
      exact Or.inl ⟨_, rfl⟩
    have hcapacity := capacity_lt htarget.2 hsize
    have hproduct : samples * source.channels < 2 ^ 64 := by omega
    have hbytes : samples * source.channels * PcmSampleFormat.i16Le.bytesPerSample < 2 ^ 64 := by
      change samples * source.channels * 2 < 2 ^ 64
      omega
    rw [if_neg hzero, checkedMul_some hproduct, Option.bind_some, checkedMul_some (by omega),
      orElse_some]
    simp only [Fallible.ok_bind]
    rw [if_neg (by omega)]
    have hnew := audioDataNew_eq .i16Le .interleaved
      (show 1 ≤ targetRateHz ∧ targetRateHz ≤ 768000 by omega)
      source.channelCount hzero hbytes
      (length_resampled interpolate (pcmValues source.buffer) source.samplesPerChannel
        source.sampleRateHz targetRateHz source.channels samples)
    split_ifs at hnew
    · obtain ⟨data, hdata⟩ := hnew
      obtain ⟨-, hrate, hchannels, hformat', hlayout, hsamples⟩ := AudioData.new_fields hdata
      refine Or.inr ⟨data, samples, hdata, targetSamples_eq hsize, hsamples, hrate, hchannels, hformat',
        hlayout, fun targetIndex hindex => ?_⟩
      obtain ⟨left, right, hneighbours, -, -, hle, hnext, hlast⟩ :=
        neighbours_eq targetRateHz hformat (index_mul_lt hsize hindex)
      exact ⟨left, right, hneighbours, hle, hnext, fun channel hchannel =>
        ⟨(valueAt_eq hformat (hle.trans_lt hlast) hchannel).1,
          (valueAt_eq hformat hlast hchannel).1⟩⟩
    · exact Or.inl ⟨_, hnew⟩

theorem resample_safe_short :
    resamplePcm16Checked silence shortAudio 8000 = some (resamplePcm16 silence shortAudio 8000) ∧
      ((∃ e, resamplePcm16 silence shortAudio 8000 = .error (.error e)) ∨
        ∃ data samples, resamplePcm16 silence shortAudio 8000 = .ok data ∧
          samples = (shortAudio.samplesPerChannel * 8000 + shortAudio.sampleRateHz / 2) /
            shortAudio.sampleRateHz ∧
          data.samplesPerChannel = samples ∧ data.sampleRateHz = 8000 ∧
          data.channels = shortAudio.channels ∧ data.sampleFormat = .i16Le ∧
          data.layout = .interleaved ∧
          ∀ targetIndex < samples, ∃ left right,
            neighbours shortAudio.samplesPerChannel shortAudio.sampleRateHz 8000 targetIndex =
                some (left, right) ∧
              left ≤ right ∧ right ≤ left + 1 ∧
              ∀ channel < shortAudio.channels,
                left * shortAudio.channels + channel < (pcmValues shortAudio.buffer).length ∧
                  right * shortAudio.channels + channel < (pcmValues shortAudio.buffer).length) :=
  resample_safe silence (rfl : shortAudio.sampleFormat = .i16Le) ⟨by decide, by decide⟩

-- one sample is left of one at twice the rate
example : (resamplePcm16Checked silence shortAudio 8000).any fun result =>
    result.toOption.any fun data => data.samplesPerChannel = 1 := by
  decide +kernel

end Muxiva.Audio
