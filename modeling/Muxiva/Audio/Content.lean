import Muxiva.Audio.Coalescing

/-! What a merge contains: channel by channel the samples of its parents, a lineage whose new ranges
lie end to end, and a duration that is rounded once for all samples. -/
set_option linter.all false
namespace Muxiva.Audio

variable {M E : Type}

open Muxiva.Audio.Frame (MergeState mergeParent)

section Samples

/-- The encoded samples of a channel, in order. -/
def AudioData.channelSamples (d : AudioData) (channel : ℕ) : List (List UInt8) :=
  let bytesPerSample := d.sampleFormat.bytesPerSample
  match d.layout with
  | .interleaved => Bytes.strided d.buffer (channel * bytesPerSample) (d.channels * bytesPerSample)
      bytesPerSample d.samplesPerChannel
  | .planar => Bytes.strided d.buffer (channel * (d.samplesPerChannel * bytesPerSample))
      bytesPerSample bytesPerSample d.samplesPerChannel

theorem AudioData.length_channelSamples (d : AudioData) (channel : ℕ) :
    (d.channelSamples channel).length = d.samplesPerChannel := by
  unfold AudioData.channelSamples Bytes.strided
  cases d.layout with
  | interleaved => rw [List.length_map, List.length_range]
  | planar => rw [List.length_map, List.length_range]

theorem channelSamples_planar {d : AudioData} (hlayout : d.layout = .planar) (channel : ℕ) :
    d.channelSamples channel = Bytes.strided (d.plane channel) 0 d.sampleFormat.bytesPerSample
      d.sampleFormat.bytesPerSample d.samplesPerChannel := by
  unfold AudioData.channelSamples AudioData.plane
  rw [hlayout]
  exact (Bytes.strided_slice le_rfl le_rfl).symm

/-- What `plane_bytes` answers for a planar frame is its samples, one after another. -/
theorem planeBytes_channelSamples {d : AudioData} (hlayout : d.layout = .planar) {channel : ℕ}
    (hchannel : channel < d.channels) :
    d.planeBytes channel = .ok (d.channelSamples channel).flatten := by
  obtain ⟨hbytes, hlength⟩ := planeBytes_eq hlayout hchannel
  rw [hbytes, channelSamples_planar hlayout]
  unfold Bytes.strided
  rw [← List.flatMap_def, Bytes.flatMap_slices, Bytes.slice_all hlength]

variable {first : AudioFrame M E} {as : List (AudioFrame M E)} {channel : ℕ}

theorem strided_interleaved (hchannel : channel < first.data.channels)
    (hlayout : first.data.layout = .interleaved) (h : ∀ a ∈ as, SameShape first a) :
    Bytes.strided (as.flatMap (·.data.buffer))
        (channel * first.data.sampleFormat.bytesPerSample)
        (first.data.channels * first.data.sampleFormat.bytesPerSample)
        first.data.sampleFormat.bytesPerSample (samplesOf as) =
      as.flatMap (·.data.channelSamples channel) := by
  induction as with
  | nil => rfl
  | cons a as ih =>
    have ha := h a List.mem_cons_self
    have hlength : a.data.buffer.length = a.data.samplesPerChannel *
        (first.data.channels * first.data.sampleFormat.bytesPerSample) := by
      rw [a.data.length, ha.channels, ha.sampleFormat, Nat.mul_assoc]
    have hfit : channel * first.data.sampleFormat.bytesPerSample +
        first.data.sampleFormat.bytesPerSample ≤
        first.data.channels * first.data.sampleFormat.bytesPerSample := by
      rw [← Nat.succ_mul]
      exact Nat.mul_le_mul_right _ hchannel
    rw [List.flatMap_cons, List.flatMap_cons, samplesOf_cons, Bytes.strided_append hlength hfit,
      ih fun b hb => h b (List.mem_cons_of_mem _ hb)]
    congr 1
    unfold AudioData.channelSamples
    rw [ha.layout, hlayout, ha.channels, ha.sampleFormat]

theorem strided_planar (hchannel : channel < first.data.channels)
    (hlayout : first.data.layout = .planar) (h : ∀ a ∈ as, SameShape first a) :
    Bytes.strided (as.flatMap (·.data.plane channel)) 0 first.data.sampleFormat.bytesPerSample
        first.data.sampleFormat.bytesPerSample (samplesOf as) =
      as.flatMap (·.data.channelSamples channel) := by
  induction as with
  | nil => rfl
  | cons a as ih =>
    have ha := h a List.mem_cons_self
    have hlength : (a.data.plane channel).length =
        a.data.samplesPerChannel * first.data.sampleFormat.bytesPerSample := by
      rw [(planeBytes_eq (ha.layout.trans hlayout) (ha.channels ▸ hchannel)).2, ha.sampleFormat]
    rw [List.flatMap_cons, List.flatMap_cons, samplesOf_cons,
      Bytes.strided_append hlength (Nat.zero_add _).le,
      ih fun b hb => h b (List.mem_cons_of_mem _ hb),
      channelSamples_planar (ha.layout.trans hlayout), ha.sampleFormat]

/-- A frame of the common shape with the joined payload has the samples of the parents. -/
theorem channelSamples_joined (hchannel : channel < first.data.channels)
    (h : ∀ a ∈ as, SameShape first a) {d : AudioData} (hlayout : d.layout = first.data.layout)
    (hchannels : d.channels = first.data.channels)
    (hformat : d.sampleFormat = first.data.sampleFormat)
    (hsamples : d.samplesPerChannel = samplesOf as)
    (hbuffer : d.buffer = joinedPayload first.data.layout first.data.channels as) :
    d.channelSamples channel = as.flatMap (·.data.channelSamples channel) := by
  cases hfirst : first.data.layout with
  | interleaved =>
    unfold AudioData.channelSamples
    rw [hlayout, hfirst, hbuffer, hfirst, hchannels, hformat, hsamples]
    exact strided_interleaved hchannel hfirst h
  | planar =>
    have hplane : d.plane channel = as.flatMap (·.data.plane channel) := by
      unfold AudioData.plane
      rw [hbuffer, hfirst, hsamples, hformat]
      exact Bytes.slice_flatMap (fun c hc => length_joinedPlane hc hfirst h) hchannel
    rw [channelSamples_planar (hlayout.trans hfirst), hplane, hformat, hsamples]
    exact strided_planar hchannel hfirst h

end Samples

section Durations

/-- Rounding each parent down loses less than a nanosecond a parent. -/
theorem durations_bounds {rate : ℕ} (a : AudioFrame M E) {as : List (AudioFrame M E)}
    (h : ∀ b ∈ a :: as, b.data.sampleRateHz = rate) :
    ((a :: as).map (·.data.durationNs)).sum ≤ durationNs (samplesOf (a :: as)) rate ∧
      durationNs (samplesOf (a :: as)) rate ≤
        ((a :: as).map (·.data.durationNs)).sum + as.length := by
  induction as generalizing a with
  | nil =>
    have hself := a.data.durationNs_eq.1
    rw [h a List.mem_cons_self] at hself
    simp [hself]
  | cons b as ih =>
    have hself := a.data.durationNs_eq.1
    rw [h a List.mem_cons_self] at hself
    obtain ⟨hlow, hhigh⟩ := ih b fun c hc => h c (List.mem_cons_of_mem _ hc)
    obtain ⟨hadd, hround⟩ := durationNs_add a.data.samplesPerChannel (samplesOf (b :: as)) rate
    rw [List.map_cons, List.sum_cons, samplesOf_cons, hself, List.length_cons]
    omega

end Durations

section Inversion

variable {first : AudioFrame M E} {origin : TransformOrigin} {st st' : MergeState}

/-- A parent that is taken is an audio frame that continues the run and is new to it. -/
theorem mergeParent_continues {parent : Frame M E}
    (h : mergeParent first origin st parent = .ok st') :
    ∃ a, parent = .audio a ∧
      Representable first.header.timestamp first.data.sampleRateHz st.samplesPerChannel ∧
      Continues first st.expectedSequence.value st.samplesPerChannel a ∧
      a.header.frameId ∉ st.seenIds := by
  have hrate := first.data.rate
  cases parent with
  | other header => cases h
  | audio a =>
    refine ⟨a, rfl, ?_⟩
    unfold mergeParent at h
    have haudio : orElse audioMergeTypeError (Frame.audio a).asAudio = .ok a := rfl
    rw [haudio, Fallible.ok_bind] at h
    obtain ⟨startOffset, hoffset, h⟩ := Fallible.bind_eq_ok.mp h
    obtain ⟨expectedTimestamp, hstart, h⟩ := Fallible.bind_eq_ok.mp h
    rw [durationNsForSamples_eq hrate] at hoffset
    split_ifs at hoffset
    cases hoffset
    rw [offsetTimestamp_eq] at hstart
    split_ifs at hstart with hr
    cases hstart
    by_cases hseen : a.header.frameId ∈ st.seenIds
    · rw [if_pos hseen] at h
      cases h
    rw [if_neg hseen] at h
    by_cases hcompatible : (Frame.sharesShape first a && a.header.timestamp = hr.timestamp &&
        a.header.sequenceId = st.expectedSequence) = true
    swap
    · rw [if_pos hcompatible] at h
      cases h
    simp only [Bool.and_eq_true, decide_eq_true_eq] at hcompatible
    obtain ⟨⟨hshape, htimestamp⟩, hsequence⟩ := hcompatible
    exact ⟨hr, ⟨hshape, congrArg (·.nanos) htimestamp, congrArg (·.value) hsequence⟩, hseen⟩

theorem foldlM_mergeParent_run {parents : List (Frame M E)}
    (h : parents.foldlM (mergeParent first origin) st = .ok st') :
    ∃ as : List (AudioFrame M E), parents = as.map .audio ∧
      Run first st.expectedSequence.value st.samplesPerChannel as ∧
      (as.map (·.header.frameId)).Nodup ∧ ∀ a ∈ as, a.header.frameId ∉ st.seenIds := by
  induction parents generalizing st with
  | nil => exact ⟨[], rfl, trivial, .nil, by simp⟩
  | cons parent parents ih =>
    rw [List.foldlM_cons] at h
    obtain ⟨st₁, hstep, h⟩ := Fallible.bind_eq_ok.mp h
    obtain ⟨a, rfl, hr, hc, hfresh⟩ := mergeParent_continues hstep
    have haccepts := mergeParent_accepts hstep
    obtain ⟨range, -, -, -, hstep'⟩ := mergeParent_ok origin hr hc hfresh haccepts
    rw [hstep'] at hstep
    cases hstep
    obtain ⟨as, rfl, hrun, hids, hunseen⟩ := ih h
    refine ⟨a :: as, rfl, ⟨hr, hc, hrun⟩, ?_, ?_⟩
    · rw [List.map_cons, List.nodup_cons]
      refine ⟨?_, hids⟩
      intro hmem
      obtain ⟨b, hb, heq⟩ := List.mem_map.mp hmem
      exact hunseen b hb (Finset.mem_insert.mpr (.inl heq))
    · intro b hb
      rcases List.mem_cons.mp hb with rfl | hb
      · exact hfresh
      · exact fun hmem => hunseen b hb (Finset.mem_insert_of_mem hmem)

theorem AudioData.new_fields {buffer : List UInt8} {rate channels samples : ℕ}
    {format : PcmSampleFormat} {layout : AudioLayout} {d : AudioData}
    (h : AudioData.new buffer rate channels format layout samples = .ok d) :
    d.buffer = buffer ∧ d.sampleRateHz = rate ∧ d.channels = channels ∧ d.sampleFormat = format ∧
      d.layout = layout ∧ d.samplesPerChannel = samples := by
  unfold AudioData.new at h
  split_ifs at h
  obtain ⟨bytes, hbytes, h⟩ := Result.attachBind_eq_ok.mp h
  obtain ⟨durationNs, hduration, h⟩ := Result.attachBind_eq_ok.mp h
  split_ifs at h
  cases h
  exact ⟨rfl, rfl, rfl, rfl, rfl, rfl⟩

end Inversion

section Content

/-- What `merged` has of its parents; the ranges are those of the entries the merge adds. -/
structure MergedContent (parents : List (Frame M E)) (origin : TransformOrigin)
    (merged : AudioFrame M E) (first : AudioFrame M E) (tail : List (AudioFrame M E))
    (ranges : List MediaTimeRange) : Prop where
  parents : parents = (first :: tail).map .audio
  shape : ∀ a ∈ first :: tail, SameShape merged a
  samples : ∀ channel < merged.data.channels, merged.data.channelSamples channel =
    (first :: tail).flatMap (·.data.channelSamples channel)
  samplesPerChannel : merged.data.samplesPerChannel =
    ((first :: tail).map (·.data.samplesPerChannel)).sum
  duration : merged.data.durationNs =
    (((first :: tail).map (·.data.samplesPerChannel)).sum * 1000000000) / merged.data.sampleRateHz
  rounding : ((first :: tail).map (·.data.durationNs)).sum ≤ merged.data.durationNs ∧
    merged.data.durationNs ≤ ((first :: tail).map (·.data.durationNs)).sum + tail.length
  lineage : merged.header.lineage = mergedLineage origin (first :: tail) ranges
  inherited : ((first :: tail).flatMap (·.header.lineage)).Sublist merged.header.lineage
  count : ranges.length = (first :: tail).length
  contiguous : ranges.IsChain fun r s => r.stop.nanos = s.start.nanos
  disjoint : ranges.Pairwise fun r s => r.stop.nanos ≤ s.start.nanos
  cover : ∀ t : ℤ, (∃ r ∈ ranges, r.start.nanos ≤ t ∧ t < r.stop.nanos) ↔
    first.header.timestamp.nanos ≤ t ∧
      t < first.header.timestamp.nanos + merged.data.durationNs

theorem SameShape.symm {a b : AudioFrame M E} (h : SameShape a b) : SameShape b a where
  streamId := h.streamId.symm
  traceId := h.traceId.symm
  clockDomain := h.clockDomain.symm
  sampleRateHz := h.sampleRateHz.symm
  channels := h.channels.symm
  sampleFormat := h.sampleFormat.symm
  layout := h.layout.symm

theorem SameShape.trans {a b c : AudioFrame M E} (hab : SameShape a b) (hbc : SameShape b c) :
    SameShape a c where
  streamId := hbc.streamId.trans hab.streamId
  traceId := hbc.traceId.trans hab.traceId
  clockDomain := hbc.clockDomain.trans hab.clockDomain
  sampleRateHz := hbc.sampleRateHz.trans hab.sampleRateHz
  channels := hbc.channels.trans hab.channels
  sampleFormat := hbc.sampleFormat.trans hab.sampleFormat
  layout := hbc.layout.trans hab.layout

theorem sublist_mergedLineage (origin : TransformOrigin) {as : List (AudioFrame M E)}
    {ranges : List MediaTimeRange} (h : ranges.length = as.length) :
    (as.flatMap (·.header.lineage)).Sublist (mergedLineage origin as ranges) := by
  induction as generalizing ranges with
  | nil => exact .slnil
  | cons a as ih =>
    cases ranges with
    | nil => cases h
    | cons r ranges =>
      have hrest := ih (Nat.succ.inj h)
      unfold mergedLineage at hrest ⊢
      rw [List.zip_cons_cons, List.flatMap_cons, List.flatMap_cons]
      exact (List.sublist_append_left _ _).append hrest

/-- The parts of a merge that succeeds. -/
theorem mergeAudio_parts {parents : List (Frame M E)} {newFrameId : FrameId}
    {origin : TransformOrigin} {frame : Frame M E}
    (h : Frame.mergeAudio parents newFrameId origin = .ok frame) :
    ∃ first tail ranges merged, parents = (first :: tail).map .audio ∧ frame = .audio merged ∧
      Run first first.header.sequenceId.value 0 (first :: tail) ∧ SameShape first merged ∧
      merged.data.buffer =
        joinedPayload first.data.layout first.data.channels (first :: tail) ∧
      merged.data.samplesPerChannel = samplesOf (first :: tail) ∧
      merged.header.lineage = mergedLineage origin (first :: tail) ranges ∧
      ranges.length = (first :: tail).length ∧
      TimeTiles (boundary first 0) ranges (boundary first (samplesOf (first :: tail))) := by
  unfold Frame.mergeAudio at h
  by_cases hcount : 2 ≤ parents.length ∧ parents.length ≤ maxMergeParents
  swap
  · rw [if_pos hcount] at h
    cases h
  rw [if_neg (not_not.mpr hcount)] at h
  obtain ⟨first, hfirst, h⟩ := Fallible.bind_eq_ok.mp h
  by_cases hnew : parents.any (·.header.frameId = newFrameId) = true
  · rw [if_pos hnew] at h
    cases h
  rw [if_neg hnew] at h
  obtain ⟨st, hfold, h⟩ := Fallible.bind_eq_ok.mp h
  obtain ⟨payload, hpayload, h⟩ := Fallible.bind_eq_ok.mp h
  obtain ⟨data, hdata, h⟩ := Fallible.bind_eq_ok.mp h
  obtain ⟨header, hheader, h⟩ := Fallible.bind_eq_ok.mp h
  obtain ⟨as, rfl, hrun, hids, hfresh⟩ := foldlM_mergeParent_run hfold
  -- the first parent is the head of the list
  cases as with
  | nil => cases hfirst
  | cons a tail =>
    obtain rfl : a = first := by simpa [Frame.asAudio] using hfirst
    have hzero := representable_zero a.header.timestamp a.data.sampleRateHz
    have haccepts := foldlM_mergeParent_accepts ⟨a.header.sequenceId, 0, [], ∅⟩ hzero hrun hids
      hfresh (Nat.zero_le _) hfold
    obtain ⟨st', ranges, hfold', hsamples, hlineage, hlength, -, htiles⟩ :=
      foldlM_mergeParent_ok origin ⟨a.header.sequenceId, 0, [], ∅⟩ hzero hrun hids hfresh haccepts
    rw [hfold'] at hfold
    cases hfold
    have hbytes : bytesOf (a :: tail) < 2 ^ 63 := by
      by_contra hbytes
      obtain ⟨e, he⟩ := mergeAudioPayload_error hbytes
      rw [he] at hpayload
      cases hpayload
    rw [mergeAudioPayload_ok hrun.sameShape hbytes] at hpayload
    cases hpayload
    obtain ⟨hbuffer, hrate, hchannels, hformat, hlayout, hsum⟩ := AudioData.new_fields hdata
    unfold FrameHeader.new at hheader
    split_ifs at hheader
    cases hheader
    unfold Frame.new at h
    rw [if_neg (by simp)] at h
    cases h
    rw [Nat.zero_add] at hsamples htiles
    refine ⟨a, tail, ranges, _, rfl, rfl, hrun, ?_, hbuffer, hsum.trans hsamples, hlineage, hlength,
      htiles⟩
    exact ⟨rfl, rfl, rfl, hrate, hchannels, hformat, hlayout⟩

/-- A merge that succeeds has the samples of its parents channel by channel, the lineage of its
parents with a range for each of them, and these ranges tile it. Its duration is the floor of that
of all samples, which may exceed the floors of the parents together. -/
theorem merged_content {parents : List (Frame M E)} {newFrameId : FrameId}
    {origin : TransformOrigin} {frame : Frame M E}
    (h : Frame.mergeAudio parents newFrameId origin = .ok frame) :
    ∃ merged first tail ranges, frame = .audio merged ∧
      MergedContent parents origin merged first tail ranges := by
  obtain ⟨first, tail, ranges, merged, hparents, hframe, hrun, hshape, hbuffer, hsamples, hlineage,
    hlength, htiles⟩ := mergeAudio_parts h
  have hduration : merged.data.durationNs =
      durationNs (samplesOf (first :: tail)) first.data.sampleRateHz := by
    rw [merged.data.durationNs_eq.1, hsamples, hshape.sampleRateHz]
  have hstop : boundary first (samplesOf (first :: tail)) =
      first.header.timestamp.nanos + merged.data.durationNs := by
    unfold boundary
    rw [hduration]
  have hstart : boundary first 0 = first.header.timestamp.nanos := by
    unfold boundary
    simp
  rw [hstart, hstop] at htiles
  refine ⟨merged, first, tail, ranges, hframe, ?_⟩
  constructor
  · exact hparents
  · exact fun a ha => hshape.symm.trans (hrun.sameShape a ha)
  · intro channel hchannel
    exact channelSamples_joined (hshape.channels ▸ hchannel) hrun.sameShape hshape.layout
      hshape.channels hshape.sampleFormat hsamples hbuffer
  · exact hsamples
  · rw [hduration, hshape.sampleRateHz]
    rfl
  · rw [hduration]
    exact durations_bounds first fun b hb => (hrun.sameShape b hb).sampleRateHz
  · exact hlineage
  · rw [hlineage]
    exact sublist_mergedLineage origin hlength
  · exact hlength
  · exact htiles.chain
  · exact htiles.pairwise
  · exact htiles.mem_iff

end Content

/-- One sample at 3 Hz. -/
def lowRateFrame (frameId : FrameId) (timestamp : Timestamp) (sequenceId : SequenceId) :
    Frame Unit Unit :=
  .audio
    { header :=
        { frameId, timestamp, sequenceId
          clockDomain := ⟨0, .mediaRelative⟩, streamId := 0, traceId := 0, frameType := .audio
          metadata := (), extensions := (), lineage := [], acyclic := acyclic_nil frameId }
      data :=
        { buffer := [UInt8.ofNat frameId], sampleRateHz := 3, channels := 1, sampleFormat := .u8
          layout := .interleaved, samplesPerChannel := 1, durationNs := 333333333
          rate := by decide, channelCount := mono_count, nonempty := Nat.one_ne_zero
          length := by simp [PcmSampleFormat.bytesPerSample], fits := oneByte_fits
          duration := by decide } }

def lowRateFrames : List (Frame Unit Unit) :=
  [lowRateFrame 1 .zero .zero,
    lowRateFrame 2 ⟨333333333, by decide⟩ ⟨1, by decide⟩,
    lowRateFrame 3 ⟨666666666, by decide⟩ ⟨2, by decide⟩]

theorem lowRate_merges : ∃ frame, Frame.mergeAudio lowRateFrames 20 ⟨some 0, none, .inl rfl⟩ =
    .ok frame := by
  have hsome : (Frame.mergeAudio lowRateFrames 20 ⟨some 0, none, .inl rfl⟩).toOption.isSome = true := by
    decide +kernel
  cases hmerged : Frame.mergeAudio lowRateFrames 20 ⟨some 0, none, .inl rfl⟩ with
  | ok frame => exact ⟨frame, rfl⟩
  | error e => rw [hmerged] at hsome; cases hsome

theorem merged_content_three : ∃ merged first tail ranges,
    Frame.mergeAudio lowRateFrames 20 ⟨some 0, none, .inl rfl⟩ = .ok (.audio merged) ∧
      MergedContent lowRateFrames ⟨some 0, none, .inl rfl⟩ merged first tail ranges := by
  obtain ⟨frame, h⟩ := lowRate_merges
  obtain ⟨merged, first, tail, ranges, rfl, hcontent⟩ := merged_content h
  exact ⟨merged, first, tail, ranges, h, hcontent⟩

/-- Three parents of 333333333 ns each make a second. -/
theorem merged_durations_differ :
    ((Frame.mergeAudio lowRateFrames 20 ⟨some 0, none, .inl rfl⟩).toOption.bind Frame.asAudio).map
        (·.data.durationNs) = some 1000000000 ∧
      ((lowRateFrames.filterMap Frame.asAudio).map (·.data.durationNs)).sum = 999999999 := by
  decide +kernel

end Muxiva.Audio
