import Muxiva.Audio.Payload
import Muxiva.Audio.Selection
import Muxiva.Lib.Tiling

/-! The merge of a selected prefix. The selector checks everything the constructor checks about
neighbours, but not that the last parent has a successor in the sequence and an end on the time
line, nor how large the joined buffer gets. -/
set_option linter.all false
namespace Muxiva.Audio

variable {M E : Type}

open Muxiva.Audio.Frame (MergeState mergeParent)

section Fold

variable {first : AudioFrame M E} {origin : TransformOrigin}

/-- What one more parent needs beyond continuing the run. -/
def Accepts (first : AudioFrame M E) (st : MergeState) (a : AudioFrame M E) : Prop :=
  Representable first.header.timestamp first.data.sampleRateHz
      (st.samplesPerChannel + a.data.samplesPerChannel) ∧
    st.lineageEntries.length + a.header.lineage.length + 1 ≤ maxMergeLineage ∧
    st.expectedSequence.value + 1 < 2 ^ 64

/-- The state after a parent that is recorded as `entry`. -/
def nextState (st : MergeState) (a : AudioFrame M E) (entry : LineageEntry)
    (hnext : st.expectedSequence.value + 1 < 2 ^ 64) : MergeState where
  expectedSequence := ⟨st.expectedSequence.value + 1, hnext⟩
  samplesPerChannel := st.samplesPerChannel + a.data.samplesPerChannel
  lineageEntries := st.lineageEntries ++ a.header.lineage ++ [entry]
  seenIds := insert a.header.frameId st.seenIds

theorem validateReason_mergeReason : LineageEntry.validateReason mergeReason = .ok () := by
  have hempty : mergeReason.isEmpty = false := by decide
  have hsize : mergeReason.utf8ByteSize = 19 := by rfl
  have hcontrol : mergeReason.toList.any isAsciiControl = false := by rfl
  unfold LineageEntry.validateReason
  rw [hempty, hsize, hcontrol]
  rfl

theorem withMediaTimeRange_ok (parentFrameId : FrameId) (origin : TransformOrigin)
    (range : MediaTimeRange) :
    LineageEntry.withMediaTimeRange parentFrameId origin mergeReason range =
      .ok ⟨parentFrameId, origin, mergeReason, some range⟩ := by
  unfold LineageEntry.withMediaTimeRange LineageEntry.new
  rw [validateReason_mergeReason, Fallible.ok_bind]
  simp only [pure, Except.pure, Fallible.ok_bind]

/-- The entry that names the parent `a`. -/
def parentEntry (origin : TransformOrigin) (a : AudioFrame M E) (range : MediaTimeRange) :
    LineageEntry :=
  ⟨a.header.frameId, origin, mergeReason, some range⟩

variable (origin) in
theorem mergeParent_ok {st : MergeState} {a : AudioFrame M E}
    (hr : Representable first.header.timestamp first.data.sampleRateHz st.samplesPerChannel)
    (hc : Continues first st.expectedSequence.value st.samplesPerChannel a)
    (hfresh : a.header.frameId ∉ st.seenIds) (haccepts : Accepts first st a) :
    ∃ range : MediaTimeRange, range.start = hr.timestamp ∧ range.stop = haccepts.1.timestamp ∧
      range.clockDomain = a.header.clockDomain ∧
      mergeParent first origin st (.audio a) =
        .ok (nextState st a (parentEntry origin a range) haccepts.2.2) := by
  have hrate := first.data.rate
  obtain ⟨hshape, hts, hseq⟩ := hc
  obtain ⟨hstop, hlineage, hnext⟩ := haccepts
  have hstart : a.header.timestamp = hr.timestamp := Timestamp.ext hts
  have hsequence : a.header.sequenceId = st.expectedSequence := SequenceId.ext hseq
  have hdur : durationNs st.samplesPerChannel first.data.sampleRateHz < 2 ^ 64 := by
    have := hr.1
    omega
  have hdur' : durationNs (st.samplesPerChannel + a.data.samplesPerChannel)
      first.data.sampleRateHz < 2 ^ 64 := by
    have := hstop.1
    omega
  have hsum : st.samplesPerChannel + a.data.samplesPerChannel < 2 ^ 64 :=
    (le_durationNs hrate _).trans_lt hdur'
  have hlength : st.lineageEntries.length + a.header.lineage.length + 1 < 2 ^ 64 := by
    unfold maxMergeLineage at hlineage
    omega
  have hrange : hr.timestamp.nanos < hstop.timestamp.nanos := by
    have hlt : durationNs st.samplesPerChannel first.data.sampleRateHz <
        durationNs (st.samplesPerChannel + a.data.samplesPerChannel) first.data.sampleRateHz := by
      apply durationNs_strict hrate
      have := a.data.nonempty
      omega
    unfold Representable.timestamp
    simp only
    omega
  refine ⟨⟨hr.timestamp, hstop.timestamp, a.header.clockDomain, hrange⟩, rfl, rfl, rfl, ?_⟩
  unfold mergeParent
  have haudio : orElse audioMergeTypeError (Frame.audio a).asAudio = .ok a := rfl
  rw [haudio, Fallible.ok_bind, durationNsForSamples_eq hrate, if_pos hdur, Fallible.ok_bind,
    offsetTimestamp_eq, dif_pos hr, Fallible.ok_bind, if_neg hfresh,
    if_neg (by simp [hshape, hstart, hsequence]), checkedAdd_some hsum, orElse_some, Fallible.ok_bind,
    durationNsForSamples_eq hrate, if_pos hdur', Fallible.ok_bind, offsetTimestamp_eq, dif_pos hstop,
    Fallible.ok_bind, checkedAdd_some (Nat.lt_of_succ_lt hlength), Option.bind_some,
    checkedAdd_some hlength, orElse_some, Fallible.ok_bind]
  rw [if_neg (by omega)]
  unfold MediaTimeRange.new
  rw [dif_neg hrange.not_ge, Fallible.ok_bind, withMediaTimeRange_ok, Fallible.ok_bind]
  unfold SequenceId.checkedNext
  rw [dif_pos hnext, orElse_some, Fallible.ok_bind]
  simp only [pure, Except.pure, nextState, parentEntry]

theorem mergeParent_accepts {st st' : MergeState} {a : AudioFrame M E}
    (h : mergeParent first origin st (.audio a) = .ok st') : Accepts first st a := by
  have hrate := first.data.rate
  unfold mergeParent at h
  have haudio : orElse audioMergeTypeError (Frame.audio a).asAudio = .ok a := rfl
  rw [haudio, Fallible.ok_bind] at h
  obtain ⟨startOffset, -, h⟩ := Fallible.bind_eq_ok.mp h
  obtain ⟨expectedTimestamp, -, h⟩ := Fallible.bind_eq_ok.mp h
  by_cases hseen : a.header.frameId ∈ st.seenIds
  · rw [if_pos hseen] at h
    cases h
  rw [if_neg hseen] at h
  by_cases hcompatible : (Frame.sharesShape first a && a.header.timestamp = expectedTimestamp &&
      a.header.sequenceId = st.expectedSequence) = true
  swap
  · rw [if_pos hcompatible] at h
    cases h
  rw [if_neg (not_not.mpr hcompatible)] at h
  obtain ⟨nextSamples, hsum, h⟩ := Fallible.bind_eq_ok.mp h
  obtain ⟨endOffset, hdur, h⟩ := Fallible.bind_eq_ok.mp h
  obtain ⟨stop, hstop, h⟩ := Fallible.bind_eq_ok.mp h
  obtain ⟨nextLineageLen, hlength, h⟩ := Fallible.bind_eq_ok.mp h
  by_cases hlineage : maxMergeLineage < nextLineageLen
  · rw [if_pos hlineage] at h
    cases h
  rw [if_neg hlineage] at h
  obtain ⟨range, -, h⟩ := Fallible.bind_eq_ok.mp h
  obtain ⟨entry, -, h⟩ := Fallible.bind_eq_ok.mp h
  obtain ⟨expectedSequence, hnext, -⟩ := Fallible.bind_eq_ok.mp h
  rw [orElse_eq_ok, checkedAdd_eq_some] at hsum
  rw [orElse_eq_ok, Option.bind_eq_some_iff] at hlength
  obtain ⟨k, hk, hlength⟩ := hlength
  rw [checkedAdd_eq_some] at hk hlength
  rw [orElse_eq_ok, checkedNext_eq_some] at hnext
  obtain ⟨-, rfl⟩ := hsum
  obtain ⟨-, rfl⟩ := hk
  obtain ⟨-, rfl⟩ := hlength
  rw [durationNsForSamples_eq hrate] at hdur
  split_ifs at hdur with hfits
  cases hdur
  rw [offsetTimestamp_eq] at hstop
  split_ifs at hstop with hr
  refine ⟨hr, not_lt.mp hlineage, ?_⟩
  have := expectedSequence.inRange
  omega

def lineageOf (as : List (AudioFrame M E)) : ℕ := (as.map (·.header.lineage.length + 1)).sum

@[simp]
theorem lineageOf_nil : lineageOf ([] : List (AudioFrame M E)) = 0 := rfl

@[simp]
theorem lineageOf_cons (a : AudioFrame M E) (as : List (AudioFrame M E)) :
    lineageOf (a :: as) = a.header.lineage.length + 1 + lineageOf as := by
  unfold lineageOf
  simp

def AcceptsAll (first : AudioFrame M E) (st : MergeState) (as : List (AudioFrame M E)) : Prop :=
  Representable first.header.timestamp first.data.sampleRateHz
      (st.samplesPerChannel + samplesOf as) ∧
    st.lineageEntries.length + lineageOf as ≤ maxMergeLineage ∧
    st.expectedSequence.value + as.length < 2 ^ 64

theorem AcceptsAll.head {st : MergeState} {a : AudioFrame M E} {as : List (AudioFrame M E)}
    (h : AcceptsAll first st (a :: as)) : Accepts first st a := by
  obtain ⟨hstop, hlineage, hnext⟩ := h
  rw [samplesOf_cons, ← Nat.add_assoc] at hstop
  rw [lineageOf_cons] at hlineage
  rw [List.length_cons] at hnext
  refine ⟨?_, by omega, by omega⟩
  exact hstop.mono (Nat.le_add_right _ _)

theorem acceptsAll_tail_iff (st : MergeState) (a : AudioFrame M E) (as : List (AudioFrame M E))
    (entry : LineageEntry) (hnext : st.expectedSequence.value + 1 < 2 ^ 64) :
    AcceptsAll first (nextState st a entry hnext) as ↔ AcceptsAll first st (a :: as) := by
  unfold AcceptsAll nextState
  simp only [samplesOf_cons, lineageOf_cons, List.length_cons, List.length_append,
    List.length_nil, Nat.add_assoc, Nat.add_comm 1 as.length, Nat.zero_add]

/-- What the parents leave in the lineage: their own lineage, then an entry for themselves. -/
def mergedLineage (origin : TransformOrigin) (as : List (AudioFrame M E))
    (ranges : List MediaTimeRange) : List LineageEntry :=
  (as.zip ranges).flatMap fun p => p.1.header.lineage ++ [parentEntry origin p.1 p.2]

theorem mem_mergedLineage {as : List (AudioFrame M E)} {ranges : List MediaTimeRange}
    {entry : LineageEntry} (h : entry ∈ mergedLineage origin as ranges) :
    ∃ a ∈ as, entry ∈ a.header.lineage ∨ entry.parentFrameId = a.header.frameId := by
  obtain ⟨p, hp, hentry⟩ := List.mem_flatMap.mp h
  refine ⟨p.1, (List.of_mem_zip hp).1, ?_⟩
  rcases List.mem_append.mp hentry with hold | hnew
  · exact .inl hold
  · rw [List.mem_singleton] at hnew
    exact .inr (congrArg _ hnew)

/-- The time `n` samples after the first parent. -/
def boundary (first : AudioFrame M E) (n : ℕ) : ℤ :=
  first.header.timestamp.nanos + durationNs n first.data.sampleRateHz

/-- Half-open ranges, end to end. -/
abbrev TimeTiles : ℤ → List MediaTimeRange → ℤ → Prop :=
  Tiling.Tiles (·.start.nanos) (·.stop.nanos)

variable (origin) in
/-- The whole run is taken when it is accepted as a whole. -/
theorem foldlM_mergeParent_ok (st : MergeState) {as : List (AudioFrame M E)}
    (hr : Representable first.header.timestamp first.data.sampleRateHz st.samplesPerChannel)
    (hrun : Run first st.expectedSequence.value st.samplesPerChannel as)
    (hids : (as.map (·.header.frameId)).Nodup) (hfresh : ∀ a ∈ as, a.header.frameId ∉ st.seenIds)
    (haccepts : AcceptsAll first st as) :
    ∃ st' ranges, (as.map Frame.audio).foldlM (mergeParent first origin) st = .ok st' ∧
      st'.samplesPerChannel = st.samplesPerChannel + samplesOf as ∧
      st'.lineageEntries = st.lineageEntries ++ mergedLineage origin as ranges ∧
      ranges.length = as.length ∧ (∀ r ∈ ranges, r.clockDomain = first.header.clockDomain) ∧
      TimeTiles (boundary first st.samplesPerChannel) ranges
        (boundary first (st.samplesPerChannel + samplesOf as)) := by
  induction as generalizing st with
  | nil => exact ⟨st, [], rfl, rfl, (List.append_nil _).symm, rfl, by simp, rfl⟩
  | cons a as ih =>
    obtain ⟨-, hc, hrest⟩ := hrun
    rw [List.map_cons, List.nodup_cons] at hids
    obtain ⟨range, hstart, hstop, hclock, hstep⟩ := mergeParent_ok origin hr hc
      (hfresh a List.mem_cons_self) haccepts.head
    have hfresh' : ∀ b ∈ as, b.header.frameId ∉ insert a.header.frameId st.seenIds := by
      intro b hb hmem
      rcases Finset.mem_insert.mp hmem with heq | hmem
      · exact hids.1 (List.mem_map.mpr ⟨b, hb, heq⟩)
      · exact hfresh b (List.mem_cons_of_mem _ hb) hmem
    obtain ⟨st', ranges, hfold, hsamples, hentries, hlength, hclocks, htiles⟩ :=
      ih (nextState st a (parentEntry origin a range) haccepts.head.2.2) haccepts.head.1 hrest
        hids.2 hfresh' ((acceptsAll_tail_iff st a as _ _).mpr haccepts)
    refine ⟨st', range :: ranges, ?_, ?_, ?_, ?_, ?_, ?_, range.nonempty, ?_⟩
    · rw [List.map_cons, List.foldlM_cons, hstep, Fallible.ok_bind, hfold]
    · rw [hsamples, samplesOf_cons, ← Nat.add_assoc]
      rfl
    · rw [hentries]
      simp only [nextState, mergedLineage, List.zip_cons_cons, List.flatMap_cons, List.append_assoc]
    · rw [List.length_cons, List.length_cons, hlength]
    · intro r hmem
      rcases List.mem_cons.mp hmem with rfl | hmem
      · exact hclock.trans (sharesShape_iff.mp hc.1).clockDomain
      · exact hclocks r hmem
    · exact congrArg (·.nanos) hstart
    · rw [samplesOf_cons, ← Nat.add_assoc]
      have hend : range.stop.nanos =
          boundary first (st.samplesPerChannel + a.data.samplesPerChannel) :=
        congrArg (·.nanos) hstop
      change TimeTiles range.stop.nanos ranges _
      rw [hend]
      exact htiles

theorem foldlM_mergeParent_accepts (st : MergeState) {st' : MergeState}
    {as : List (AudioFrame M E)}
    (hr : Representable first.header.timestamp first.data.sampleRateHz st.samplesPerChannel)
    (hrun : Run first st.expectedSequence.value st.samplesPerChannel as)
    (hids : (as.map (·.header.frameId)).Nodup) (hfresh : ∀ a ∈ as, a.header.frameId ∉ st.seenIds)
    (hlineage : st.lineageEntries.length ≤ maxMergeLineage)
    (h : (as.map Frame.audio).foldlM (mergeParent first origin) st = .ok st') :
    AcceptsAll first st as := by
  induction as generalizing st with
  | nil => exact ⟨hr, hlineage, st.expectedSequence.inRange⟩
  | cons a as ih =>
    obtain ⟨-, hc, hrest⟩ := hrun
    rw [List.map_cons, List.nodup_cons] at hids
    rw [List.map_cons, List.foldlM_cons] at h
    obtain ⟨st₁, hstep, h⟩ := Fallible.bind_eq_ok.mp h
    have haccepts := mergeParent_accepts hstep
    obtain ⟨range, -, -, -, hstep'⟩ := mergeParent_ok origin hr hc
      (hfresh a List.mem_cons_self) haccepts
    rw [hstep'] at hstep
    cases hstep
    have hfresh' : ∀ b ∈ as, b.header.frameId ∉ insert a.header.frameId st.seenIds := by
      intro b hb hmem
      rcases Finset.mem_insert.mp hmem with heq | hmem
      · exact hids.1 (List.mem_map.mpr ⟨b, hb, heq⟩)
      · exact hfresh b (List.mem_cons_of_mem _ hb) hmem
    have hlength : (nextState st a (parentEntry origin a range) haccepts.2.2).lineageEntries.length ≤
        maxMergeLineage := by
      have := haccepts.2.1
      simp only [nextState, List.length_append, List.length_singleton]
      omega
    apply (acceptsAll_tail_iff st a as (parentEntry origin a range) haccepts.2.2).mp
    exact ih _ haccepts.1 hrest hids.2 hfresh' hlength h

end Fold

section Merge

variable {frames : List (Frame M E)} {target maximum : ℕ} {first : AudioFrame M E}
  {tail : List (AudioFrame M E)}

/-- What the parents need besides being consecutive. -/
structure Mergeable (first : AudioFrame M E) (tail : List (AudioFrame M E)) : Prop where
  successor : first.header.sequenceId.value + (first :: tail).length < 2 ^ 64
  stop : Representable first.header.timestamp first.data.sampleRateHz (samplesOf (first :: tail))
  lineage : lineageOf (first :: tail) ≤ maxMergeLineage
  bytes : bytesOf (first :: tail) < 2 ^ 63

/-- `AudioData::new` of a joined buffer. -/
theorem audioData_new_ok {buffer : List UInt8} {samples : ℕ}
    (hr : Representable first.header.timestamp first.data.sampleRateHz samples)
    (hsamples : samples ≠ 0)
    (hlength : buffer.length =
      samples * first.data.channels * first.data.sampleFormat.bytesPerSample)
    (hfits : buffer.length < 2 ^ 64) :
    ∃ data, AudioData.new buffer first.data.sampleRateHz first.data.channels
      first.data.sampleFormat first.data.layout samples = .ok data := by
  have hrate := first.data.rate
  have hbytes : AudioData.expectedBytes samples first.data.channels
      first.data.sampleFormat.bytesPerSample = .ok buffer.length := by
    rw [hlength] at hfits ⊢
    exact AudioData.expectedBytes_eq _ hfits
  have hduration : durationNsForSamples arithmeticError samples first.data.sampleRateHz =
      .ok (durationNs samples first.data.sampleRateHz) := by
    have := hr.1
    rw [durationNsForSamples_eq hrate, if_pos (by omega)]
  unfold AudioData.new
  rw [dif_neg (not_not.mpr hrate), dif_neg (not_not.mpr first.data.channelCount), dif_neg hsamples,
    Result.attachBind_ok hbytes, Result.attachBind_ok hduration, dif_neg (by simp)]
  exact ⟨_, rfl⟩

/-- Consecutive audio frames are merged exactly when they are mergeable. -/
theorem mergeAudio_ok_iff (hrun : Run first first.header.sequenceId.value 0 (first :: tail))
    (hcount : tail ≠ [] ∧ tail.length < maxMergeParents)
    (hids : ((first :: tail).map (·.header.frameId)).Nodup) {newFrameId : FrameId}
    (hfresh : ∀ a ∈ first :: tail, a.header.frameId ≠ newFrameId ∧
      ∀ entry ∈ a.header.lineage, entry.parentFrameId ≠ newFrameId)
    (origin : TransformOrigin) :
    (∃ merged, Frame.mergeAudio ((first :: tail).map .audio) newFrameId origin = .ok merged) ↔
      Mergeable first tail := by
  have hlength : 2 ≤ ((first :: tail).map (Frame.audio (M := M) (E := E))).length ∧
      ((first :: tail).map (Frame.audio (M := M) (E := E))).length ≤ maxMergeParents := by
    have := List.length_pos_iff.mpr hcount.1
    rw [List.length_map, List.length_cons]
    omega
  have hnew : ¬ ((first :: tail).map Frame.audio).any (·.header.frameId = newFrameId) = true := by
    simp only [List.any_map, List.any_eq_true, Function.comp_apply, decide_eq_true_eq]
    rintro ⟨a, ha, heq⟩
    exact (hfresh a ha).1 heq
  have hhead : orElse audioMergeTypeError
      (((first :: tail).map Frame.audio).head?.bind Frame.asAudio) = .ok first := rfl
  have hzero := representable_zero first.header.timestamp first.data.sampleRateHz
  have haccepts : AcceptsAll first ⟨first.header.sequenceId, 0, [], ∅⟩ (first :: tail) ↔
      Representable first.header.timestamp first.data.sampleRateHz (samplesOf (first :: tail)) ∧
        lineageOf (first :: tail) ≤ maxMergeLineage ∧
        first.header.sequenceId.value + (first :: tail).length < 2 ^ 64 := by
    unfold AcceptsAll
    rw [Nat.zero_add, List.length_nil, Nat.zero_add]
  unfold Frame.mergeAudio
  rw [if_neg (not_not.mpr hlength), hhead, Fallible.ok_bind, if_neg hnew]
  constructor
  · rintro ⟨merged, h⟩
    obtain ⟨st, hfold, h⟩ := Fallible.bind_eq_ok.mp h
    obtain ⟨payload, hpayload, -⟩ := Fallible.bind_eq_ok.mp h
    obtain ⟨hstop, hlineage, hnext⟩ := haccepts.mp (foldlM_mergeParent_accepts
      ⟨first.header.sequenceId, 0, [], ∅⟩ hzero hrun hids (by simp) (Nat.zero_le _) hfold)
    refine ⟨hnext, hstop, hlineage, ?_⟩
    by_contra hbytes
    obtain ⟨e, he⟩ := mergeAudioPayload_error hbytes
    rw [he] at hpayload
    cases hpayload
  · rintro ⟨hnext, hstop, hlineage, hbytes⟩
    obtain ⟨st, ranges, hfold, hsamples, hentries, -⟩ := foldlM_mergeParent_ok origin
      ⟨first.header.sequenceId, 0, [], ∅⟩ hzero hrun hids (by simp)
      (haccepts.mpr ⟨hstop, hlineage, hnext⟩)
    rw [Nat.zero_add] at hsamples
    have hpayload := mergeAudioPayload_ok hrun.sameShape hbytes
    have hsize := length_joinedPayload hrun.sameShape
    have hpos : samplesOf (first :: tail) ≠ 0 := by
      have := first.data.nonempty
      rw [samplesOf_cons]
      omega
    have hfits : (joinedPayload first.data.layout first.data.channels (first :: tail)).length <
        2 ^ 64 := by
      rw [hsize, ← bytesOf_eq hrun.sameShape]
      omega
    obtain ⟨data, hdata⟩ := audioData_new_ok hstop hpos hsize hfits
    have hacyclic : ¬ st.lineageEntries.any (·.parentFrameId = newFrameId) = true := by
      simp only [List.any_eq_true, decide_eq_true_eq]
      rintro ⟨entry, hmem, heq⟩
      rw [hentries, List.nil_append] at hmem
      obtain ⟨a, ha, hold | hparent⟩ := mem_mergedLineage hmem
      · exact (hfresh a ha).2 entry hold heq
      · exact (hfresh a ha).1 (hparent.symm.trans heq)
    rw [hfold, Fallible.ok_bind, hpayload, Fallible.ok_bind, hsamples, hdata, Fallible.ok_bind]
    unfold FrameHeader.new
    rw [dif_neg hacyclic, Fallible.ok_bind]
    unfold Frame.new
    rw [if_neg (by simp)]
    exact ⟨_, rfl⟩

theorem Selects.take (h : Selects frames target maximum first tail) :
    frames.take (tail.length + 1) = (first :: tail).map .audio ∧
      tail.length < maxMergeParents := by
  obtain ⟨rest, hrest, hpick⟩ := h
  have hleads : (first :: tail).map Frame.audio <+: frames.take maxMergeParents := by
    rw [hrest, List.map_cons, List.cons_prefix_cons]
    exact ⟨rfl, hpick.leads⟩
  constructor
  · have htake := List.prefix_iff_eq_take.mp (hleads.trans (List.take_prefix _ _))
    rw [List.length_map, List.length_cons] at htake
    exact htake.symm
  · have hlength := hleads.length_le
    rw [List.length_map, List.length_cons, List.length_take] at hlength
    omega

theorem Selects.run (h : Selects frames target maximum first tail) :
    Run first first.header.sequenceId.value 0 (first :: tail) := by
  obtain ⟨rest, -, hpick⟩ := h
  refine ⟨representable_zero _ _, Continues.self first, ?_⟩
  rw [Nat.zero_add]
  exact hpick.run

/-- A selected prefix is merged exactly when it is mergeable. -/
theorem Selects.mergeAudio_ok_iff (h : Selects frames target maximum first tail)
    (hids : (frames.map (·.header.frameId)).Nodup) {newFrameId : FrameId}
    (hfresh : ∀ frame ∈ frames, frame.header.frameId ≠ newFrameId ∧
      ∀ entry ∈ frame.header.lineage, entry.parentFrameId ≠ newFrameId)
    (origin : TransformOrigin) :
    (∃ merged, Frame.mergeAudio (frames.take (tail.length + 1)) newFrameId origin = .ok merged) ↔
      Mergeable first tail := by
  obtain ⟨htake, hcount⟩ := h.take
  have hne : tail ≠ [] := by
    obtain ⟨rest, -, hpick⟩ := h
    exact hpick.ne_nil
  have hmem : ∀ a ∈ first :: tail, Frame.audio a ∈ frames := by
    intro a ha
    apply List.mem_of_mem_take
    rw [htake]
    exact List.mem_map.mpr ⟨a, ha, rfl⟩
  have hnodup : ((first :: tail).map (·.header.frameId)).Nodup := by
    have hsub : ((first :: tail).map (·.header.frameId)).Sublist
        (frames.map (·.header.frameId)) := by
      have hmap := ((List.take_sublist (tail.length + 1) frames).map (·.header.frameId))
      rw [htake, List.map_map] at hmap
      exact hmap
    exact hids.sublist hsub
  rw [htake]
  exact Audio.mergeAudio_ok_iff h.run ⟨hne, hcount⟩ hnodup (fun a ha => hfresh _ (hmem a ha)) origin

/-- The selector picks a prefix that the constructor refuses exactly when some selected prefix is
not mergeable; beyond that, coalescing fails only when its bounds are invalid or the arithmetic of
the scan overflows. -/
theorem coalescing_ok_iff (hmax : maximum < 2 ^ 64)
    (hids : (frames.map (·.header.frameId)).Nodup) {newFrameId : FrameId}
    (hfresh : ∀ frame ∈ frames, frame.header.frameId ≠ newFrameId ∧
      ∀ entry ∈ frame.header.lineage, entry.parentFrameId ≠ newFrameId)
    (origin : TransformOrigin) :
    ((∀ k, selectPrefix frames target maximum = .ok (some k) →
        ∃ merged, Frame.mergeAudio (frames.take k) newFrameId origin = .ok merged) ↔
      ((0 < target ∧ target ≤ maximum) → ∀ first tail,
        Selects frames target maximum first tail → Mergeable first tail)) ∧
    ((∃ r, mergeAudioPrefix frames target maximum newFrameId origin = .ok r) ↔
      (0 < target ∧ target ≤ maximum) ∧
        (∀ first tail, Selects frames target maximum first tail → Mergeable first tail) ∧
        ¬ ∃ first middle a, Overflows frames target first middle a) := by
  have hmerge {first : AudioFrame M E} {tail : List (AudioFrame M E)}
      (h : Selects frames target maximum first tail) := h.mergeAudio_ok_iff hids hfresh origin
  constructor
  · constructor
    · intro h hvalid first tail hselects
      exact (hmerge hselects).mp (h _ (hselects.selectPrefix hmax hvalid))
    · intro h k hk
      obtain ⟨hvalid, -⟩ := (selectPrefix_ok_iff hmax).mp ⟨_, hk⟩
      obtain ⟨first, tail, hselects, rfl⟩ := exists_selects hmax hk
      exact (hmerge hselects).mpr (h hvalid first tail hselects)
  · unfold mergeAudioPrefix
    constructor
    · rintro ⟨r, h⟩
      obtain ⟨selected, hselect, h⟩ := Fallible.bind_eq_ok.mp h
      obtain ⟨hvalid, hover⟩ := (selectPrefix_ok_iff hmax).mp ⟨_, hselect⟩
      refine ⟨hvalid, ?_, hover⟩
      intro first tail hselects
      rw [hselects.selectPrefix hmax hvalid] at hselect
      cases hselect
      obtain ⟨merged, hmerged, -⟩ := Fallible.bind_eq_ok.mp h
      exact (hmerge hselects).mp ⟨merged, hmerged⟩
    · rintro ⟨hvalid, hmergeable, hover⟩
      obtain ⟨selected, hselect⟩ := (selectPrefix_ok_iff hmax).mpr ⟨hvalid, hover⟩
      rw [hselect, Fallible.ok_bind]
      cases selected with
      | none => exact ⟨none, rfl⟩
      | some k =>
        obtain ⟨first, tail, hselects, rfl⟩ := exists_selects hmax hselect
        obtain ⟨merged, hmerged⟩ := (hmerge hselects).mpr (hmergeable first tail hselects)
        simp only [hmerged, Fallible.ok_bind]
        exact ⟨_, rfl⟩

end Merge

theorem acyclic_nil (frameId : FrameId) :
    ¬ ([] : List LineageEntry).any (·.parentFrameId = frameId) = true := by
  simp

theorem mono_count : 1 ≤ 1 ∧ 1 ≤ 1024 := by decide

theorem oneByte_fits : 1 * 1 * PcmSampleFormat.u8.bytesPerSample < 2 ^ 64 := by decide

/-- One sample at 1000 Hz. -/
def oneSample (frameId : FrameId) (timestamp : Timestamp) (sequenceId : SequenceId) :
    Frame Unit Unit :=
  .audio
    { header :=
        { frameId, timestamp, sequenceId
          clockDomain := ⟨0, .monotonic⟩, streamId := 0, traceId := 0, frameType := .audio
          metadata := (), extensions := (), lineage := [], acyclic := acyclic_nil frameId }
      data :=
        { buffer := [0], sampleRateHz := 1000, channels := 1, sampleFormat := .u8
          layout := .interleaved, samplesPerChannel := 1, durationNs := 1000000
          rate := by decide, channelCount := mono_count, nonempty := Nat.one_ne_zero
          length := by decide, fits := oneByte_fits, duration := by decide } }

/-- The two samples up to the sequence `last`. -/
def twoSamples (last : ℕ) (h : last < 2 ^ 64) : List (Frame Unit Unit) :=
  [oneSample 1 .zero ⟨last - 1, by omega⟩, oneSample 2 ⟨1000000, by decide⟩ ⟨last, h⟩]

theorem coalescing_ok_two :
    selectPrefix (twoSamples 8 (by decide)) 2000000 2000000 = .ok (some 2) ∧
      ∀ first tail, Selects (twoSamples 8 (by decide)) 2000000 2000000 first tail →
        Mergeable first tail := by
  have hselect : selectPrefix (twoSamples 8 (by decide)) 2000000 2000000 = .ok (some 2) := by
    decide +kernel
  have hmerge : (Frame.mergeAudio ((twoSamples 8 (by decide)).take 2) 3
      ⟨some 0, none, .inl rfl⟩).toOption.isSome = true := by decide +kernel
  have hfresh : ∀ frame ∈ twoSamples 8 (by decide), frame.header.frameId ≠ 3 ∧
      ∀ entry ∈ frame.header.lineage, entry.parentFrameId ≠ 3 := by
    decide
  refine ⟨hselect, (coalescing_ok_iff (by decide) (by decide) hfresh
    ⟨some 0, none, .inl rfl⟩).1.mp ?_ (by decide)⟩
  intro k hk
  rw [hselect] at hk
  cases hk
  cases hmerged : Frame.mergeAudio ((twoSamples 8 (by decide)).take 2) 3
    ⟨some 0, none, .inl rfl⟩ with
  | ok merged => exact ⟨merged, rfl⟩
  | error e => rw [hmerged] at hmerge; cases hmerge

/-- The last sequence has no successor, which the constructor asks for and the selector does not. -/
theorem coalescing_sequence_end :
    ((twoSamples (2 ^ 64 - 1) (by decide)).map (·.header.frameId)).Nodup ∧
      selectPrefix (twoSamples (2 ^ 64 - 1) (by decide)) 2000000 2000000 = .ok (some 2) ∧
      (Frame.mergeAudio ((twoSamples (2 ^ 64 - 1) (by decide)).take 2) 3
        ⟨some 0, none, .inl rfl⟩).toOption.isNone = true ∧
      (mergeAudioPrefix (twoSamples (2 ^ 64 - 1) (by decide)) 2000000 2000000 3
        ⟨some 0, none, .inl rfl⟩).toOption.isNone = true := by
  decide +kernel

end Muxiva.Audio
