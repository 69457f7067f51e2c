import Muxiva.Audio.Scan

/-! The prefix that `merge_audio_prefix` selects: the shortest run of consecutive audio frames at
the head of the queue that reaches the target, when it stays within the maximum. Where the run
leaves the range of the arithmetic before that, the scan is an error. -/
set_option linter.all false
namespace Muxiva.Audio

variable {M E : Type}

section Scan

variable (first : AudioFrame M E) (target maximum s n : ℕ) (rest : List (Frame M E))

/-- The frames `as` at the head of `rest` are just enough to reach the target. -/
structure Picks (as : List (AudioFrame M E)) : Prop where
  leads : as.map Frame.audio <+: rest
  run : Run first s n as
  short : durationNs (n + samplesOf as.dropLast) first.data.sampleRateHz < target
  reaches : target ≤ durationNs (n + samplesOf as) first.data.sampleRateHz
  within : durationNs (n + samplesOf as) first.data.sampleRateHz ≤ maximum

/-- After the frames `as` the target is not reached, and the next audio frame `a` takes the
arithmetic out of range. -/
structure Trips (as : List (AudioFrame M E)) (a : AudioFrame M E) : Prop where
  leads : (as ++ [a]).map Frame.audio <+: rest
  run : Run first s n as
  short : durationNs (n + samplesOf as) first.data.sampleRateHz < target
  overflow :
    ¬ Representable first.header.timestamp first.data.sampleRateHz (n + samplesOf as) ∨
      Continues first (s + as.length) (n + samplesOf as) a ∧
        ¬ durationNs (n + samplesOf as + a.data.samplesPerChannel) first.data.sampleRateHz < 2 ^ 64

end Scan

section Step

variable {first p a : AudioFrame M E} {target maximum s n c : ℕ} {rest : List (Frame M E)}
  {as : List (AudioFrame M E)}

theorem Picks.ne_nil (h : Picks first target maximum s n rest as) : as ≠ [] := by
  rintro rfl
  have := h.short.trans_le h.reaches
  simp at this

theorem Picks.lt_target (h : Picks first target maximum s n rest as) :
    durationNs n first.data.sampleRateHz < target :=
  (durationNs_mono (Nat.le_add_right _ _) _).trans_lt h.short

/-- A pick of one frame, or a frame that does not reach the target before another pick. -/
theorem picks_cons :
    Picks first target maximum s n (.audio a :: rest) (a :: as) ↔
      Representable first.header.timestamp first.data.sampleRateHz n ∧ Continues first s n a ∧
        durationNs n first.data.sampleRateHz < target ∧
        (as = [] ∧ target ≤ durationNs (n + a.data.samplesPerChannel) first.data.sampleRateHz ∧
            durationNs (n + a.data.samplesPerChannel) first.data.sampleRateHz ≤ maximum ∨
          Picks first target maximum (s + 1) (n + a.data.samplesPerChannel) rest as) := by
  cases as with
  | nil =>
    constructor
    · intro h
      obtain ⟨hr, hc, -⟩ := h.run
      have hshort := h.short
      have hreaches := h.reaches
      have hwithin := h.within
      simp only [List.dropLast_singleton, samplesOf_nil, samplesOf_cons, Nat.add_zero]
        at hshort hreaches hwithin
      exact ⟨hr, hc, hshort, .inl ⟨rfl, hreaches, hwithin⟩⟩
    · rintro ⟨hr, hc, hshort, ⟨-, hreaches, hwithin⟩ | h⟩
      · constructor
        · simp
        · exact ⟨hr, hc, trivial⟩
        · simpa using hshort
        · simpa using hreaches
        · simpa using hwithin
      · exact absurd rfl h.ne_nil
  | cons b bs =>
    have hdrop : n + samplesOf (a :: b :: bs).dropLast =
        n + a.data.samplesPerChannel + samplesOf (b :: bs).dropLast := by
      rw [List.dropLast_cons_of_ne_nil (by simp), samplesOf_cons, Nat.add_assoc]
    have hsum : n + samplesOf (a :: b :: bs) =
        n + a.data.samplesPerChannel + samplesOf (b :: bs) := by
      rw [samplesOf_cons, Nat.add_assoc]
    constructor
    · intro h
      obtain ⟨hr, hc, hrun⟩ := h.run
      refine ⟨hr, hc, h.lt_target, .inr ?_⟩
      constructor
      · have hleads := h.leads
        rw [List.map_cons, List.cons_prefix_cons] at hleads
        exact hleads.2
      · exact hrun
      · exact hdrop ▸ h.short
      · exact hsum ▸ h.reaches
      · exact hsum ▸ h.within
    · rintro ⟨hr, hc, -, ⟨hnil, -⟩ | h⟩
      · cases hnil
      · constructor
        · simpa only [List.map_cons, List.cons_prefix_cons, true_and] using h.leads
        · exact ⟨hr, hc, h.run⟩
        · rw [hdrop]
          exact h.short
        · rw [hsum]
          exact h.reaches
        · rw [hsum]
          exact h.within

theorem exists_picks_cons {P : List (AudioFrame M E) → Prop} :
    (∃ as, Picks first target maximum s n (.audio a :: rest) as ∧ P as) ↔
      ∃ as, Picks first target maximum s n (.audio a :: rest) (a :: as) ∧ P (a :: as) := by
  constructor
  · rintro ⟨as, h, hP⟩
    cases as with
    | nil => exact absurd rfl h.ne_nil
    | cons b bs =>
      have hleads := h.leads
      rw [List.map_cons, List.cons_prefix_cons] at hleads
      obtain rfl : b = a := by simpa using hleads.1
      exact ⟨bs, h, hP⟩
  · rintro ⟨as, h⟩
    exact ⟨a :: as, h⟩

theorem not_picks_of_head (h : ∀ b bs, rest ≠ .audio b :: bs) :
    ¬ Picks first target maximum s n rest as := by
  intro hp
  obtain ⟨bs, hbs⟩ := hp.leads
  cases as with
  | nil => exact hp.ne_nil rfl
  | cons b _ => exact h b _ hbs.symm

theorem not_trips_of_head (h : ∀ b bs, rest ≠ .audio b :: bs) :
    ¬ Trips first target s n rest as a := by
  intro ht
  obtain ⟨bs, hbs⟩ := ht.leads
  cases as with
  | nil => exact h a _ hbs.symm
  | cons b _ => exact h b _ hbs.symm

theorem trips_nil {b : AudioFrame M E} :
    Trips first target s n (.audio a :: rest) [] b ↔
      b = a ∧ durationNs n first.data.sampleRateHz < target ∧
        (¬ Representable first.header.timestamp first.data.sampleRateHz n ∨
          Continues first s n a ∧
            ¬ durationNs (n + a.data.samplesPerChannel) first.data.sampleRateHz < 2 ^ 64) := by
  constructor
  · intro h
    obtain rfl : b = a := by simpa using h.leads
    exact ⟨rfl, h.short, h.overflow⟩
  · rintro ⟨rfl, hshort, hover⟩
    exact ⟨by simp, trivial, hshort, hover⟩

theorem trips_cons {b d : AudioFrame M E} :
    Trips first target s n (.audio a :: rest) (b :: as) d ↔
      b = a ∧ Representable first.header.timestamp first.data.sampleRateHz n ∧
        Continues first s n a ∧
        Trips first target (s + 1) (n + a.data.samplesPerChannel) rest as d := by
  constructor
  · intro h
    have hleads := h.leads
    rw [List.cons_append, List.map_cons, List.cons_prefix_cons] at hleads
    obtain rfl : b = a := by simpa using hleads.1
    obtain ⟨hr, hc, hrun⟩ := h.run
    have hshort := h.short
    have hover := h.overflow
    rw [samplesOf_cons, ← Nat.add_assoc] at hshort hover
    rw [List.length_cons, Nat.add_comm as.length, ← Nat.add_assoc] at hover
    exact ⟨rfl, hr, hc, hleads.2, hrun, hshort, hover⟩
  · rintro ⟨rfl, hr, hc, h⟩
    constructor
    · simpa only [List.cons_append, List.map_cons, List.cons_prefix_cons, true_and] using h.leads
    · exact ⟨hr, hc, h.run⟩
    · rw [samplesOf_cons, ← Nat.add_assoc]
      exact h.short
    · rw [samplesOf_cons, ← Nat.add_assoc, List.length_cons, Nat.add_comm as.length,
        ← Nat.add_assoc]
      exact h.overflow

theorem exists_trips_cons :
    (∃ as d, Trips first target s n (.audio a :: rest) as d) ↔
      Trips first target s n (.audio a :: rest) [] a ∨
        Representable first.header.timestamp first.data.sampleRateHz n ∧ Continues first s n a ∧
          ∃ as d, Trips first target (s + 1) (n + a.data.samplesPerChannel) rest as d := by
  constructor
  · rintro ⟨as, d, h⟩
    cases as with
    | nil =>
      obtain ⟨rfl, -⟩ := trips_nil.mp h
      exact .inl h
    | cons b bs =>
      obtain ⟨-, hr, hc, h'⟩ := trips_cons.mp h
      exact .inr ⟨hr, hc, bs, d, h'⟩
  · rintro (h | ⟨hr, hc, as, d, h⟩)
    · exact ⟨[], a, h⟩
    · exact ⟨a :: as, d, trips_cons.mpr ⟨rfl, hr, hc, h⟩⟩

end Step

section Scan

variable {first : AudioFrame M E} {target maximum : ℕ}

/-- The scan reaches the target exactly on a pick. -/
theorem scanPrefix_reaches_iff (htarget : target ≤ maximum) (hmax : maximum < 2 ^ 64)
    {p : AudioFrame M E} {s n c : ℕ} (hp : Frame.sharesShape first p = true)
    (hs : p.header.sequenceId.value + 1 = s)
    (hn : durationNs n first.data.sampleRateHz < target) (rest : List (Frame M E)) (c' m : ℕ) :
    (scanPrefix first target maximum (some p) c n rest = .ok (c', m) ∧
        target ≤ durationNs m first.data.sampleRateHz) ↔
      ∃ as, Picks first target maximum s n rest as ∧
        c' = c + as.length ∧ m = n + samplesOf as := by
  have hstop {c n : ℕ} (hn : durationNs n first.data.sampleRateHz < target) :
      ¬ ((Except.ok (c, n) : Result (ℕ × ℕ)) = .ok (c', m) ∧
        target ≤ durationNs m first.data.sampleRateHz) := by
    rintro ⟨h, hle⟩
    cases h
    omega
  induction rest generalizing p s n c with
  | nil =>
    have hnone (as : List (AudioFrame M E)) : ¬ Picks first target maximum s n [] as :=
      not_picks_of_head (by simp)
    simp only [scanPrefix, hstop hn, hnone, false_and, exists_false]
  | cons frame rest ih =>
    cases frame with
    | other header =>
      have hnone (as : List (AudioFrame M E)) :
          ¬ Picks first target maximum s n (.other header :: rest) as :=
        not_picks_of_head (by simp)
      simp only [scanPrefix, hstop hn, hnone, false_and, exists_false]
    | audio a =>
      rw [scanPrefix_audio hp hs, exists_picks_cons]
      simp only [picks_cons]
      by_cases hr : Representable first.header.timestamp first.data.sampleRateHz n
      swap
      · simp [hr]
      by_cases hc : Continues first s n a
      swap
      · simp only [hr, hc, not_true, not_false_eq_true, if_true, if_false, hstop hn, false_and,
          and_false, exists_false]
      -- a pick goes on after this frame only when the frame is too short
      have hlonger (as : List (AudioFrame M E))
          (h : target ≤ durationNs (n + a.data.samplesPerChannel) first.data.sampleRateHz) :
          ¬ Picks first target maximum (s + 1) (n + a.data.samplesPerChannel) rest as :=
        fun hpick => hpick.lt_target.not_ge h
      simp only [hr, hc, hn, not_true, if_false, true_and]
      by_cases hm : durationNs (n + a.data.samplesPerChannel) first.data.sampleRateHz ≤ maximum
      swap
      · have hnone (as : List (AudioFrame M E)) := hlonger as (by omega)
        simp only [hnone, hm, and_false, or_false, false_and, exists_false, iff_false]
        by_cases hd : durationNs (n + a.data.samplesPerChannel) first.data.sampleRateHz < 2 ^ 64
        · rw [if_neg (not_not.mpr hd), if_pos (by omega)]
          exact hstop hn
        · rw [if_pos hd]
          simp
      have hd : durationNs (n + a.data.samplesPerChannel) first.data.sampleRateHz < 2 ^ 64 :=
        hm.trans_lt hmax
      rw [if_neg (not_not.mpr hd), if_neg hm.not_gt]
      by_cases ht : target ≤ durationNs (n + a.data.samplesPerChannel) first.data.sampleRateHz
      · have hnone (as : List (AudioFrame M E)) := hlonger as ht
        simp only [hnone, ht, hm, or_false, and_true]
        constructor
        · rintro ⟨h, -⟩
          cases h
          exact ⟨[], rfl, rfl, rfl⟩
        · rintro ⟨as, rfl, rfl, rfl⟩
          exact ⟨rfl, ht⟩
      · have hseq : a.header.sequenceId.value + 1 = s + 1 := by rw [hc.2.2]
        rw [if_neg ht]
        refine (ih hc.1 hseq (not_le.mp ht)).trans ?_
        simp only [ht, false_and, and_false, false_or, samplesOf_cons, List.length_cons]
        constructor
        · rintro ⟨as, h, rfl, rfl⟩
          exact ⟨as, h, by omega, by omega⟩
        · rintro ⟨as, h, rfl, rfl⟩
          exact ⟨as, h, by omega, by omega⟩

/-- The scan is an error exactly where the arithmetic leaves its range. -/
theorem scanPrefix_error_iff (htarget : target ≤ maximum)
    {p : AudioFrame M E} {s n c : ℕ} (hp : Frame.sharesShape first p = true)
    (hs : p.header.sequenceId.value + 1 = s)
    (hn : durationNs n first.data.sampleRateHz < target) (rest : List (Frame M E)) :
    (∃ e, scanPrefix first target maximum (some p) c n rest = .error e) ↔
      ∃ as a, Trips first target s n rest as a := by
  induction rest generalizing p s n c with
  | nil =>
    have hnone (as : List (AudioFrame M E)) (a : AudioFrame M E) :
        ¬ Trips first target s n [] as a := not_trips_of_head (by simp)
    simp [scanPrefix, hnone]
  | cons frame rest ih =>
    cases frame with
    | other header =>
      have hnone (as : List (AudioFrame M E)) (a : AudioFrame M E) :
          ¬ Trips first target s n (.other header :: rest) as a := not_trips_of_head (by simp)
      simp [scanPrefix, hnone]
    | audio a =>
      rw [scanPrefix_audio hp hs, exists_trips_cons, trips_nil]
      by_cases hr : Representable first.header.timestamp first.data.sampleRateHz n
      swap
      · simp [hr, hn]
      by_cases hc : Continues first s n a
      swap
      · simp [hr, hc]
      have hlonger (h : target ≤ durationNs (n + a.data.samplesPerChannel) first.data.sampleRateHz) :
          ¬ ∃ as d, Trips first target (s + 1) (n + a.data.samplesPerChannel) rest as d := by
        rintro ⟨as, d, htrip⟩
        have := (durationNs_mono (Nat.le_add_right _ _) _).trans_lt htrip.short
        omega
      simp only [hr, hc, hn, not_true, if_false, true_and, false_or]
      by_cases hd : durationNs (n + a.data.samplesPerChannel) first.data.sampleRateHz < 2 ^ 64
      swap
      · simp only [hd, not_false_eq_true, if_true, true_or, iff_true]
        exact ⟨_, rfl⟩
      simp only [hd, not_true, if_false, false_or]
      by_cases ht : target ≤ durationNs (n + a.data.samplesPerChannel) first.data.sampleRateHz
      · simp only [hlonger ht, iff_false]
        rintro ⟨e, h⟩
        split_ifs at h
      · have hseq : a.header.sequenceId.value + 1 = s + 1 := by rw [hc.2.2]
        rw [if_neg (by omega), if_neg ht]
        exact ih hc.1 hseq (not_le.mp ht)

end Scan

section Select

variable (frames : List (Frame M E)) (target maximum : ℕ) (first : AudioFrame M E)

/-- Among the first 1024 frames, `first` and the frames `tail` after it are just enough to reach
the target. -/
def Selects (tail : List (AudioFrame M E)) : Prop :=
  ∃ rest, frames.take maxMergeParents = .audio first :: rest ∧
    Picks first target maximum (first.header.sequenceId.value + 1) first.data.samplesPerChannel
      rest tail

/-- Among the first 1024 frames, those before `a` do not reach the target, and `a` takes the
arithmetic out of range. -/
def Overflows (middle : List (AudioFrame M E)) (a : AudioFrame M E) : Prop :=
  ∃ rest, frames.take maxMergeParents = .audio first :: rest ∧
    Trips first target (first.header.sequenceId.value + 1) first.data.samplesPerChannel
      rest middle a

variable {frames target maximum first}

theorem firstDuration_lt (a : AudioFrame M E) :
    durationNs a.data.samplesPerChannel a.data.sampleRateHz < 2 ^ 64 := by
  obtain ⟨heq, hfits⟩ := a.data.durationNs_eq
  rwa [heq] at hfits

variable (target maximum first) in
/-- The first frame is compared with nothing and cannot overflow. -/
theorem scanPrefix_first (rest : List (Frame M E)) :
    scanPrefix first target maximum none 0 0 (.audio first :: rest) =
      if maximum < durationNs first.data.samplesPerChannel first.data.sampleRateHz then .ok (0, 0)
      else if target ≤ durationNs first.data.samplesPerChannel first.data.sampleRateHz then
        .ok (1, first.data.samplesPerChannel)
      else scanPrefix first target maximum (some first) 1 first.data.samplesPerChannel rest := by
  have hrate := first.data.rate
  have hzero := representable_zero first.header.timestamp first.data.sampleRateHz
  have hduration : durationNs first.data.samplesPerChannel first.data.sampleRateHz < 2 ^ 64 :=
    firstDuration_lt first
  have hsum : 0 + first.data.samplesPerChannel < 2 ^ 64 := by
    have := le_durationNs hrate first.data.samplesPerChannel
    omega
  conv_lhs => unfold scanPrefix
  rw [sampleBoundaryTimestamp_eq hrate, dif_pos hzero, Fallible.ok_bind, checkedAdd_some hsum,
    orElse_some, Nat.zero_add, Option.any_none, if_neg Bool.false_ne_true, Fallible.ok_bind,
    durationNsForSamples_eq hrate, if_pos hduration, Fallible.ok_bind]
  simp only [pure, Except.pure]

theorem selectPrefix_eq (hvalid : 0 < target ∧ target ≤ maximum) (rest : List (Frame M E))
    (hrest : frames.take maxMergeParents = .audio first :: rest) :
    selectPrefix frames target maximum = (do
      let (sourceCount, samplesPerChannel) ←
        scanPrefix first target maximum none 0 0 (.audio first :: rest)
      let duration ←
        durationNsForSamples mergeArithmeticError samplesPerChannel first.data.sampleRateHz
      if sourceCount < 2 ∨ duration < target then return none
      return some sourceCount) := by
  have hhead : frames.head?.bind Frame.asAudio = some first := by
    cases frames with
    | nil => simp at hrest
    | cons frame frames =>
      rw [show maxMergeParents = 1023 + 1 from rfl, List.take_succ_cons] at hrest
      cases hrest
      rfl
  unfold selectPrefix
  rw [if_neg (by omega), hhead, hrest]

variable (frames) in
theorem selectPrefix_invalid (hvalid : ¬ (0 < target ∧ target ≤ maximum)) :
    ∃ e, selectPrefix frames target maximum = .error e := by
  unfold selectPrefix
  rw [if_pos (by omega)]
  exact ⟨_, rfl⟩

theorem selectPrefix_other (hvalid : 0 < target ∧ target ≤ maximum)
    (h : ∀ first rest, frames.take maxMergeParents ≠ .audio first :: rest) :
    selectPrefix frames target maximum = .ok none := by
  have hhead : frames.head?.bind Frame.asAudio = none := by
    cases frames with
    | nil => rfl
    | cons frame frames =>
      cases frame with
      | other header => rfl
      | audio a => exact absurd rfl (h a (frames.take 1023))
  unfold selectPrefix
  rw [if_neg (by omega), hhead]
  rfl

/-- What the selector makes of the counts of a scan. -/
theorem selectPrefix_of_scan (hvalid : 0 < target ∧ target ≤ maximum) {rest : List (Frame M E)}
    (hrest : frames.take maxMergeParents = .audio first :: rest) {c m : ℕ}
    (hscan : scanPrefix first target maximum none 0 0 (.audio first :: rest) = .ok (c, m))
    (hm : durationNs m first.data.sampleRateHz < 2 ^ 64) :
    selectPrefix frames target maximum =
      .ok (if c < 2 ∨ durationNs m first.data.sampleRateHz < target then none else some c) := by
  rw [selectPrefix_eq hvalid rest hrest, hscan, Fallible.ok_bind]
  simp only [durationNsForSamples_eq first.data.rate, if_pos hm, Fallible.ok_bind]
  split_ifs
  · rfl
  · rfl

theorem selectPrefix_of_scan_error (hvalid : 0 < target ∧ target ≤ maximum)
    {rest : List (Frame M E)} (hrest : frames.take maxMergeParents = .audio first :: rest)
    {e : Failure}
    (hscan : scanPrefix first target maximum none 0 0 (.audio first :: rest) = .error e) :
    selectPrefix frames target maximum = .error e := by
  rw [selectPrefix_eq hvalid rest hrest, hscan, Fallible.error_bind]

end Select

section Outcome

variable {frames : List (Frame M E)} {target maximum : ℕ} {first : AudioFrame M E}
  {tail : List (AudioFrame M E)}

/-- A selected prefix is what the selector returns. -/
theorem Selects.selectPrefix (hmax : maximum < 2 ^ 64) (hvalid : 0 < target ∧ target ≤ maximum)
    (h : Selects frames target maximum first tail) :
    selectPrefix frames target maximum = .ok (some (tail.length + 1)) := by
  obtain ⟨rest, hrest, hpick⟩ := h
  have hn := hpick.lt_target
  have hpos : 0 < tail.length := List.length_pos_iff.mpr hpick.ne_nil
  obtain ⟨hscan, hreaches⟩ := (scanPrefix_reaches_iff (c := 1) hvalid.2 hmax (sharesShape_self first)
    rfl hn rest (1 + tail.length) _).mpr ⟨tail, hpick, rfl, rfl⟩
  have hfirst := scanPrefix_first target maximum first rest
  rw [if_neg (by omega), if_neg (by omega), hscan] at hfirst
  rw [selectPrefix_of_scan hvalid hrest hfirst (hpick.within.trans_lt hmax), if_neg (by omega),
    Nat.add_comm]

/-- What is scanned stays within the maximum. -/
theorem scanPrefix_within (htarget : target ≤ maximum) (hmax : maximum < 2 ^ 64)
    {rest : List (Frame M E)} {c m : ℕ}
    (h : scanPrefix first target maximum none 0 0 (.audio first :: rest) = .ok (c, m)) :
    durationNs m first.data.sampleRateHz ≤ maximum := by
  rw [scanPrefix_first] at h
  split_ifs at h with hover hreach
  · cases h
    rw [durationNs_zero]
    exact Nat.zero_le _
  · cases h
    omega
  · by_cases hm : target ≤ durationNs m first.data.sampleRateHz
    · obtain ⟨tail, hpick, -, rfl⟩ := (scanPrefix_reaches_iff htarget hmax (sharesShape_self first)
        rfl (not_le.mp hreach) rest c m).mp ⟨h, hm⟩
      exact hpick.within
    · omega

/-- So is only a selected prefix. -/
theorem exists_selects (hmax : maximum < 2 ^ 64) {k : ℕ}
    (h : selectPrefix frames target maximum = .ok (some k)) :
    ∃ first tail, Selects frames target maximum first tail ∧ k = tail.length + 1 := by
  by_cases hvalid : 0 < target ∧ target ≤ maximum
  swap
  · obtain ⟨e, he⟩ := selectPrefix_invalid frames hvalid
    rw [he] at h
    cases h
  by_cases hhead : ∃ first rest, frames.take maxMergeParents = .audio first :: rest
  swap
  · push Not at hhead
    rw [selectPrefix_other hvalid hhead] at h
    cases h
  obtain ⟨first, rest, hrest⟩ := hhead
  cases hscan : scanPrefix first target maximum none 0 0 (.audio first :: rest) with
  | error e =>
    rw [selectPrefix_of_scan_error hvalid hrest hscan] at h
    cases h
  | ok r =>
    obtain ⟨c, m⟩ := r
    have hm := scanPrefix_within hvalid.2 hmax hscan
    rw [selectPrefix_of_scan hvalid hrest hscan (hm.trans_lt hmax)] at h
    by_cases hstop : c < 2 ∨ durationNs m first.data.sampleRateHz < target
    · rw [if_pos hstop] at h
      cases h
    rw [if_neg hstop] at h
    obtain rfl : c = k := by
      cases h
      rfl
    rw [scanPrefix_first] at hscan
    split_ifs at hscan with hover hreach
    · cases hscan
      omega
    · cases hscan
      omega
    · obtain ⟨tail, hpick, hc, -⟩ := (scanPrefix_reaches_iff hvalid.2 hmax (sharesShape_self first)
        rfl (not_le.mp hreach) rest c m).mp ⟨hscan, by omega⟩
      exact ⟨first, tail, ⟨rest, hrest, hpick⟩, by omega⟩

theorem scanPrefix_overflows (htarget : target ≤ maximum) {rest : List (Frame M E)}
    (hrest : frames.take maxMergeParents = .audio first :: rest) :
    (∃ e, scanPrefix first target maximum none 0 0 (.audio first :: rest) = .error e) ↔
      ∃ first middle a, Overflows frames target first middle a := by
  rw [scanPrefix_first]
  constructor
  · rintro ⟨e, h⟩
    split_ifs at h with hover hreach
    obtain ⟨middle, a, htrip⟩ := (scanPrefix_error_iff htarget (sharesShape_self first) rfl
      (not_le.mp hreach) rest).mp ⟨e, h⟩
    exact ⟨first, middle, a, rest, hrest, htrip⟩
  · rintro ⟨first', middle, a, rest', hrest', htrip⟩
    rw [hrest] at hrest'
    cases hrest'
    have hn := (durationNs_mono (Nat.le_add_right _ _) _).trans_lt htrip.short
    rw [if_neg (by omega), if_neg (by omega)]
    exact (scanPrefix_error_iff htarget (sharesShape_self first) rfl hn rest).mpr
      ⟨middle, a, htrip⟩

/-- The selector succeeds unless its bounds are invalid or the arithmetic overflows. -/
theorem selectPrefix_ok_iff (hmax : maximum < 2 ^ 64) :
    (∃ r, selectPrefix frames target maximum = .ok r) ↔
      (0 < target ∧ target ≤ maximum) ∧
        ¬ ∃ first middle a, Overflows frames target first middle a := by
  by_cases hvalid : 0 < target ∧ target ≤ maximum
  swap
  · obtain ⟨e, he⟩ := selectPrefix_invalid frames hvalid
    simp [he, hvalid]
  by_cases hhead : ∃ first rest, frames.take maxMergeParents = .audio first :: rest
  swap
  · push Not at hhead
    rw [selectPrefix_other hvalid hhead]
    constructor
    · rintro -
      refine ⟨hvalid, ?_⟩
      rintro ⟨first, middle, a, rest, hrest, -⟩
      exact hhead first rest hrest
    · intro
      exact ⟨none, rfl⟩
  obtain ⟨first, rest, hrest⟩ := hhead
  rw [← scanPrefix_overflows hvalid.2 hrest]
  cases hscan : scanPrefix first target maximum none 0 0 (.audio first :: rest) with
  | error e =>
    rw [selectPrefix_of_scan_error hvalid hrest hscan]
    simp
  | ok r =>
    obtain ⟨c, m⟩ := r
    have hm := scanPrefix_within hvalid.2 hmax hscan
    rw [selectPrefix_of_scan hvalid hrest hscan (hm.trans_lt hmax)]
    simp [hvalid]

end Outcome

end Muxiva.Audio
