import Muxiva.Audio.Coalescing

/-! The prefix `merge_audio_prefix` takes, said of the frames alone: the least number of frames
that reaches the target, when these are audio, follow one another and stay within the maximum. -/
set_option linter.all false
namespace Muxiva.Audio

variable {M E : Type}

/-- Each of the frames follows the one before it, at the time the samples so far give. -/
def Follow (first : AudioFrame M E) : AudioFrame M E → ℕ → List (AudioFrame M E) → Prop
  | _, _, [] => True
  | previous, n, a :: as =>
    (∃ t, sampleBoundaryTimestamp first.header.timestamp n first.data.sampleRateHz = .ok t ∧
      compatibleWithPrevious previous a t = true) ∧
      Follow first a (n + a.data.samplesPerChannel) as

/-- The duration of frames that share the rate of the first. -/
def cumulativeDuration (first : AudioFrame M E) (as : List (AudioFrame M E)) : ℕ :=
  durationNs (samplesOf as) first.data.sampleRateHz

/-- The first `k` of the frames are what is to be merged. -/
structure IsPrefix (frames : List (Frame M E)) (target maximum k : ℕ)
    (first : AudioFrame M E) (tail : List (AudioFrame M E)) : Prop where
  audio : frames.take k = (first :: tail).map .audio
  count : (first :: tail).length = k
  atLeast : 2 ≤ k
  atMost : k ≤ maxMergeParents
  compatible : Follow first first first.data.samplesPerChannel tail
  reaches : target ≤ cumulativeDuration first (first :: tail)
  least : ∀ j < k, cumulativeDuration first ((first :: tail).take j) < target
  within : cumulativeDuration first (first :: tail) ≤ maximum

section Follow
variable {first p : AudioFrame M E}

/-- Neighbours compared one by one are the run of the constructor's checks. -/
theorem follow_iff_run {s n : ℕ} (hp : Frame.sharesShape first p = true)
    (hs : p.header.sequenceId.value + 1 = s) (as : List (AudioFrame M E)) :
    Follow first p n as ↔ Run first s n as := by
  induction as generalizing p s n with
  | nil => exact Iff.rfl
  | cons a as ih =>
    unfold Follow Run
    rw [sampleBoundaryTimestamp_eq first.data.rate]
    by_cases hr : Representable first.header.timestamp first.data.sampleRateHz n
    · have hcompatible := compatibleWithPrevious_iff hp hs a hr
      rw [dif_pos hr]
      simp only [Except.ok.injEq, exists_eq_left', hcompatible]
      constructor
      · rintro ⟨hc, hrest⟩
        exact ⟨hr, hc, (ih hc.1 (congrArg (· + 1) hc.2.2)).mp hrest⟩
      · rintro ⟨-, hc, hrest⟩
        exact ⟨hc, (ih hc.1 (congrArg (· + 1) hc.2.2)).mpr hrest⟩
    · simp [hr]

end Follow

variable {frames : List (Frame M E)} {target maximum : ℕ} {first : AudioFrame M E}
  {tail : List (AudioFrame M E)}

theorem samplesOf_take_le (as : List (AudioFrame M E)) (j : ℕ) :
    samplesOf (as.take j) ≤ samplesOf as := by
  induction as generalizing j with
  | nil => simp
  | cons a as ih =>
    cases j with
    | zero => simp
    | succ j =>
      rw [List.take_succ_cons, samplesOf_cons, samplesOf_cons]
      exact Nat.add_le_add_left (ih j) _

theorem IsPrefix.selects {k : ℕ} (h : IsPrefix frames target maximum k first tail) :
    Selects frames target maximum first tail := by
  have hcount := h.count
  have hatLeast := h.atLeast
  rw [List.length_cons] at hcount
  have hleads : (first :: tail).map Frame.audio <+: frames.take maxMergeParents := by
    rw [← h.audio]
    exact List.take_prefix_take_left h.atMost
  obtain ⟨after, hafter⟩ := hleads
  refine ⟨tail.map Frame.audio ++ after, hafter.symm, List.prefix_append _ _, ?_, ?_, ?_, ?_⟩
  · exact (follow_iff_run (sharesShape_self first) rfl tail).mp h.compatible
  · have hleast := h.least tail.length (by omega)
    cases tail with
    | nil =>
      simp at hcount
      omega
    | cons a as =>
      rw [List.length_cons, List.take_succ_cons] at hleast
      rw [List.dropLast_eq_take]
      simpa [cumulativeDuration] using hleast
  · simpa [cumulativeDuration] using h.reaches
  · simpa [cumulativeDuration] using h.within

theorem Selects.isPrefix (h : Selects frames target maximum first tail) :
    IsPrefix frames target maximum (tail.length + 1) first tail := by
  obtain ⟨rest, hrest, hpick⟩ := h
  have hleads : (first :: tail).map Frame.audio <+: frames.take maxMergeParents := by
    rw [hrest, List.map_cons, List.cons_prefix_cons]
    exact ⟨rfl, hpick.leads⟩
  have hpos : 0 < tail.length := List.length_pos_iff.mpr hpick.ne_nil
  have hlength := hleads.length_le
  rw [List.length_map, List.length_cons, List.length_take] at hlength
  constructor
  · have htake := List.prefix_iff_eq_take.mp (hleads.trans (List.take_prefix _ _))
    rw [List.length_map, List.length_cons] at htake
    exact htake.symm
  · rfl
  · omega
  · omega
  · exact (follow_iff_run (sharesShape_self first) rfl tail).mpr hpick.run
  · simpa [cumulativeDuration] using hpick.reaches
  · intro j hj
    have hsub : samplesOf ((first :: tail).take j) ≤
        first.data.samplesPerChannel + samplesOf tail.dropLast := by
      cases j with
      | zero => simp
      | succ i =>
        have htake : tail.take i = tail.dropLast.take i := by
          rw [List.dropLast_eq_take, List.take_take, min_eq_left (by omega)]
        rw [List.take_succ_cons, samplesOf_cons, htake]
        exact Nat.add_le_add_left (samplesOf_take_le _ i) _
    exact (durationNs_mono hsub _).trans_lt hpick.short
  · simpa [cumulativeDuration] using hpick.within

section Clamp

/-- No duration beyond `u64` is ever compared, so a larger maximum makes no difference. -/
theorem scanPrefix_clamp {p : AudioFrame M E} {s n c : ℕ}
    (hp : Frame.sharesShape first p = true) (hs : p.header.sequenceId.value + 1 = s)
    (rest : List (Frame M E)) : scanPrefix first target maximum (some p) c n rest =
      scanPrefix first target (min maximum (2 ^ 64 - 1)) (some p) c n rest := by
  induction rest generalizing p s n c with
  | nil => rfl
  | cons frame rest ih =>
    cases frame with
    | other header => rfl
    | audio a =>
      rw [scanPrefix_audio hp hs, scanPrefix_audio hp hs]
      dsimp only
      by_cases hc : Continues first s n a
      swap
      · simp only [hc, not_false_eq_true, if_true]
      by_cases hd : durationNs (n + a.data.samplesPerChannel) first.data.sampleRateHz < 2 ^ 64
      swap
      · simp only [hd, not_false_eq_true, if_true]
      have hcompare : maximum < durationNs (n + a.data.samplesPerChannel) first.data.sampleRateHz ↔
          min maximum (2 ^ 64 - 1) <
            durationNs (n + a.data.samplesPerChannel) first.data.sampleRateHz := by
        omega
      rw [ih hc.1 (congrArg (· + 1) hc.2.2)]
      simp only [hcompare]

/-- The duration of what has been scanned fits in `u64`. -/
theorem scanPrefix_fits {p : AudioFrame M E} {s n c c' m : ℕ}
    (hp : Frame.sharesShape first p = true) (hs : p.header.sequenceId.value + 1 = s)
    (hn : durationNs n first.data.sampleRateHz < 2 ^ 64) {rest : List (Frame M E)}
    (h : scanPrefix first target maximum (some p) c n rest = .ok (c', m)) :
    durationNs m first.data.sampleRateHz < 2 ^ 64 := by
  induction rest generalizing p s n c with
  | nil =>
    cases h
    exact hn
  | cons frame rest ih =>
    cases frame with
    | other header =>
      cases h
      exact hn
    | audio a =>
      rw [scanPrefix_audio hp hs] at h
      dsimp only at h
      by_cases hr : Representable first.header.timestamp first.data.sampleRateHz n
      swap
      · simp [hr] at h
      by_cases hc : Continues first s n a
      swap
      · simp only [hr, hc, not_true, not_false_eq_true, if_true, if_false] at h
        cases h
        exact hn
      by_cases hd : durationNs (n + a.data.samplesPerChannel) first.data.sampleRateHz < 2 ^ 64
      swap
      · simp only [hr, hc, hd, not_true, not_false_eq_true, if_true, if_false, reduceCtorEq] at h
      simp only [hr, hc, hd, not_true, if_false] at h
      split_ifs at h with hm ht
      · cases h
        exact hn
      · cases h
        exact hd
      · exact ih hc.1 (congrArg (· + 1) hc.2.2) hd h

theorem scanPrefix_first_fits {c m : ℕ} {rest : List (Frame M E)}
    (h : scanPrefix first target maximum none 0 0 (.audio first :: rest) = .ok (c, m)) :
    durationNs m first.data.sampleRateHz < 2 ^ 64 := by
  have hfirst := firstDuration_lt first
  rw [scanPrefix_first] at h
  split_ifs at h
  · cases h
    rw [durationNs_zero]
    decide
  · cases h
    exact hfirst
  · exact scanPrefix_fits (sharesShape_self first) rfl hfirst h

/-- A target that fits in `u64` selects as under the largest maximum that does. -/
theorem selectPrefix_clamp (hvalid : 0 < target ∧ target ≤ maximum) (htarget : target < 2 ^ 64) :
    selectPrefix frames target maximum =
      selectPrefix frames target (min maximum (2 ^ 64 - 1)) := by
  have hvalid' : 0 < target ∧ target ≤ min maximum (2 ^ 64 - 1) := by omega
  by_cases hhead : ∃ first rest, frames.take maxMergeParents = .audio first :: rest
  swap
  · push Not at hhead
    rw [selectPrefix_other hvalid hhead, selectPrefix_other hvalid' hhead]
  obtain ⟨first, rest, hrest⟩ := hhead
  have hfirst := firstDuration_lt first
  have hcompare : maximum < durationNs first.data.samplesPerChannel first.data.sampleRateHz ↔
      min maximum (2 ^ 64 - 1) <
        durationNs first.data.samplesPerChannel first.data.sampleRateHz := by
    omega
  rw [selectPrefix_eq hvalid rest hrest, selectPrefix_eq hvalid' rest hrest, scanPrefix_first,
    scanPrefix_first, scanPrefix_clamp (sharesShape_self first) rfl]
  simp only [hcompare]

end Clamp

section Outcome

theorem samplesOf_concat (as : List (AudioFrame M E)) (a : AudioFrame M E) :
    samplesOf (as ++ [a]) = samplesOf as + a.data.samplesPerChannel := by
  simp [samplesOf]

theorem run_concat {s n : ℕ} {as : List (AudioFrame M E)} {a : AudioFrame M E}
    (h : Run first s n (as ++ [a])) : Run first s n as ∧
      Representable first.header.timestamp first.data.sampleRateHz (n + samplesOf as) ∧
      Continues first (s + as.length) (n + samplesOf as) a := by
  induction as generalizing s n with
  | nil =>
    obtain ⟨hr, hc, -⟩ := h
    exact ⟨trivial, hr, hc⟩
  | cons b bs ih =>
    obtain ⟨hr, hc, hrest⟩ := h
    obtain ⟨hrun, hr', hc'⟩ := ih hrest
    rw [samplesOf_cons, ← Nat.add_assoc, List.length_cons, Nat.add_comm bs.length, ← Nat.add_assoc]
    exact ⟨⟨hr, hc, hrun⟩, hr', hc'⟩

/-- Where the arithmetic stays in range, the duration of the selected frames fits in `u64`. -/
theorem Selects.lt_of_fits (h : Selects frames target maximum first tail)
    (hfits : ¬ ∃ first middle a, Overflows frames target first middle a) :
    durationNs (first.data.samplesPerChannel + samplesOf tail) first.data.sampleRateHz < 2 ^ 64 := by
  obtain ⟨rest, hrest, hpick⟩ := h
  obtain ⟨middle, a, rfl⟩ := (List.eq_nil_or_concat tail).resolve_left hpick.ne_nil
  rw [List.concat_eq_append] at *
  have hleads := hpick.leads
  have hshort := hpick.short
  rw [List.dropLast_concat] at hshort
  obtain ⟨hrun, -, hc⟩ := run_concat hpick.run
  by_contra hover
  rw [samplesOf_concat, ← Nat.add_assoc] at hover
  exact hfits ⟨first, middle, a, rest, hrest, hleads, hrun, hshort, .inr ⟨hc, hover⟩⟩

/-- Representable counts, durations and timestamps along the whole slice keep the scan in range. -/
theorem fits_of_representable (h : ∀ first rest, frames.take maxMergeParents = .audio first :: rest →
    ∀ as : List (AudioFrame M E), as.map Frame.audio <+: rest →
      Representable first.header.timestamp first.data.sampleRateHz
        (first.data.samplesPerChannel + samplesOf as)) :
    ¬ ∃ first middle a, Overflows frames target first middle a := by
  rintro ⟨first, middle, a, rest, hrest, htrip⟩
  have hmiddle : middle.map Frame.audio <+: rest := by
    refine .trans ?_ htrip.leads
    rw [List.map_append]
    exact List.prefix_append _ _
  have hlast := h first rest hrest (middle ++ [a]) htrip.leads
  rw [samplesOf_concat, ← Nat.add_assoc] at hlast
  obtain hstart | ⟨-, hlong⟩ := htrip.overflow
  · exact hstart (h first rest hrest middle hmiddle)
  · have := hlast.1
    omega

/-- In range, the selector answers, and its answer names a prefix that reaches the target. -/
theorem selectPrefix_answers (hvalid : 0 < target ∧ target ≤ maximum)
    (hfits : ¬ ∃ first middle a, Overflows frames target first middle a) :
    ∃ answer, selectPrefix frames target maximum = .ok answer ∧
      (answer.isSome → target < 2 ^ 64) := by
  by_cases hhead : ∃ first rest, frames.take maxMergeParents = .audio first :: rest
  swap
  · push Not at hhead
    exact ⟨none, selectPrefix_other hvalid hhead, by simp⟩
  obtain ⟨first, rest, hrest⟩ := hhead
  cases hscan : scanPrefix first target maximum none 0 0 (.audio first :: rest) with
  | error e => exact absurd ((scanPrefix_overflows hvalid.2 hrest).mp ⟨e, hscan⟩) hfits
  | ok r =>
    obtain ⟨c, m⟩ := r
    have hm := scanPrefix_first_fits hscan
    refine ⟨_, selectPrefix_of_scan hvalid hrest hscan hm, ?_⟩
    split_ifs with hstop
    · simp
    · intro
      omega

/-- A selected prefix, and nothing else, is what the selector returns. -/
theorem selectPrefix_iff (hvalid : 0 < target ∧ target ≤ maximum)
    (hfits : ¬ ∃ first middle a, Overflows frames target first middle a) (k : ℕ) :
    selectPrefix frames target maximum = .ok (some k) ↔
      ∃ first tail, IsPrefix frames target maximum k first tail := by
  constructor
  · intro h
    obtain ⟨answer, hanswer, htarget⟩ := selectPrefix_answers hvalid hfits
    obtain rfl : answer = some k := Except.ok.inj (hanswer.symm.trans h)
    have hlt := htarget rfl
    rw [selectPrefix_clamp hvalid hlt] at h
    obtain ⟨first, tail, ⟨rest, hrest, hpick⟩, rfl⟩ := exists_selects (by omega) h
    have hselects : Selects frames target maximum first tail :=
      ⟨rest, hrest, { hpick with within := by have := hpick.within; omega }⟩
    exact ⟨first, tail, hselects.isPrefix⟩
  · rintro ⟨first, tail, h⟩
    have hlt := h.selects.lt_of_fits hfits
    have hreaches := h.reaches
    simp only [cumulativeDuration, samplesOf_cons] at hreaches
    have hclamped : Selects frames target (min maximum (2 ^ 64 - 1)) first tail := by
      obtain ⟨rest, hrest, hpick⟩ := h.selects
      exact ⟨rest, hrest, { hpick with within := by have := hpick.within; omega }⟩
    rw [selectPrefix_clamp hvalid (by omega), hclamped.selectPrefix (by omega) (by omega), ← h.count,
      List.length_cons]

/-- Where the arithmetic of the scan stays in range, the scan selects `k` frames exactly when the
first `k` are such a prefix; they are merged, and without such a prefix nothing is. -/
theorem prefix_selection (frames : List (Frame M E)) {target maximum : ℕ}
    (hvalid : 0 < target ∧ target ≤ maximum)
    (hfits : ¬ ∃ first middle a, Overflows frames target first middle a)
    (newFrameId : FrameId) (origin : TransformOrigin) :
    (∀ k, selectPrefix frames target maximum = .ok (some k) ↔
      ∃ first tail, IsPrefix frames target maximum k first tail) ∧
    (∀ k first tail, IsPrefix frames target maximum k first tail →
      mergeAudioPrefix frames target maximum newFrameId origin =
        (Frame.mergeAudio (frames.take k) newFrameId origin).map fun frame => some ⟨frame, k⟩) ∧
    ((¬ ∃ k first tail, IsPrefix frames target maximum k first tail) →
      mergeAudioPrefix frames target maximum newFrameId origin = .ok none) := by
  refine ⟨selectPrefix_iff hvalid hfits, ?_, ?_⟩
  · intro k first tail h
    have hselect := (selectPrefix_iff hvalid hfits k).mpr ⟨first, tail, h⟩
    unfold mergeAudioPrefix
    rw [hselect, Fallible.ok_bind]
    cases hmerge : Frame.mergeAudio (frames.take k) newFrameId origin with
    | error e => simp [hmerge, Except.map]
    | ok merged => simp [hmerge, Except.map, pure, Except.pure]
  · intro hnone
    obtain ⟨answer, hanswer, -⟩ := selectPrefix_answers hvalid hfits
    cases answer with
    | none =>
      unfold mergeAudioPrefix
      rw [hanswer, Fallible.ok_bind]
      rfl
    | some k =>
      obtain ⟨first, tail, h⟩ := (selectPrefix_iff hvalid hfits k).mp hanswer
      exact absurd ⟨k, first, tail, h⟩ hnone

end Outcome

/-- Two samples of a millisecond reach two milliseconds. -/
theorem prefix_selection_two :
    (∃ first tail, IsPrefix (twoSamples 8 (by decide)) 2000000 2000000 2 first tail) ∧
      mergeAudioPrefix (twoSamples 8 (by decide)) 2000000 2000000 3 ⟨some 0, none, .inl rfl⟩ =
        (Frame.mergeAudio ((twoSamples 8 (by decide)).take 2) 3 ⟨some 0, none, .inl rfl⟩).map
          fun frame => some ⟨frame, 2⟩ := by
  have hselect : selectPrefix (twoSamples 8 (by decide)) 2000000 2000000 = .ok (some 2) := by
    decide +kernel
  have hfits : ¬ ∃ first middle a,
      Overflows (twoSamples 8 (by decide)) 2000000 first middle a :=
    ((selectPrefix_ok_iff (by decide)).mp ⟨_, hselect⟩).2
  obtain ⟨hselected, hmerged, -⟩ := prefix_selection (twoSamples 8 (by decide))
    (show 0 < 2000000 ∧ 2000000 ≤ 2000000 by decide) hfits 3 ⟨some 0, none, .inl rfl⟩
  obtain ⟨first, tail, h⟩ := (hselected 2).mp hselect
  exact ⟨⟨first, tail, h⟩, hmerged 2 first tail h⟩

end Muxiva.Audio
