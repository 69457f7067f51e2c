import Mathlib.Tactic.Linarith
import Muxiva.Audio.Merge

/-! What the scan of `merge_audio_prefix` selects: the shortest run of consecutive audio frames at
the head of the queue that reaches the target, when it stays within the maximum. -/
set_option linter.all false
namespace Muxiva.Audio

variable {M E : Type}

/-- Rounded down. -/
def durationNs (samples rate : ℕ) : ℕ := samples * 1000000000 / rate

@[simp]
theorem durationNs_zero (rate : ℕ) : durationNs 0 rate = 0 := by
  unfold durationNs
  rw [Nat.zero_mul, Nat.zero_div]

theorem durationNs_mono {m n : ℕ} (h : m ≤ n) (rate : ℕ) : durationNs m rate ≤ durationNs n rate :=
  Nat.div_le_div_right (Nat.mul_le_mul_right _ h)

theorem durationNs_add (m n rate : ℕ) :
    durationNs m rate + durationNs n rate ≤ durationNs (m + n) rate ∧
      durationNs (m + n) rate ≤ durationNs m rate + durationNs n rate + 1 := by
  unfold durationNs
  rw [Nat.add_mul]
  rcases Nat.eq_zero_or_pos rate with rfl | hrate
  · simp
  · have hsplit := @Nat.add_div (m * 1000000000) (n * 1000000000) rate hrate
    split_ifs at hsplit <;> omega

/-- A sample lasts more than a nanosecond. -/
theorem durationNs_strict {m n rate : ℕ} (hr : 1 ≤ rate ∧ rate ≤ 768000) (h : m < n) :
    durationNs m rate < durationNs n rate := by
  have hstep : durationNs m rate + 1 ≤ durationNs (m + 1) rate := by
    unfold durationNs
    have hle : m * 1000000000 + rate ≤ (m + 1) * 1000000000 := by
      rw [Nat.add_mul, Nat.one_mul]
      omega
    calc m * 1000000000 / rate + 1 = (m * 1000000000 + rate) / rate :=
          (Nat.add_div_right _ (by omega)).symm
      _ ≤ (m + 1) * 1000000000 / rate := Nat.div_le_div_right hle
  have hmono := durationNs_mono (show m + 1 ≤ n by omega) rate
  omega

theorem le_durationNs {rate : ℕ} (hr : 1 ≤ rate ∧ rate ≤ 768000) (n : ℕ) : n ≤ durationNs n rate := by
  unfold durationNs
  rw [Nat.le_div_iff_mul_le (by omega)]
  exact Nat.mul_le_mul_left n (by omega)

/-- The seconds and the rest are computed apart so that only the result can overflow. -/
theorem durationNsForSamples_eq {rate : ℕ} (hr : 1 ≤ rate ∧ rate ≤ 768000) (e : Failure) (n : ℕ) :
    durationNsForSamples e n rate =
      if durationNs n rate < 2 ^ 64 then .ok (durationNs n rate) else .error e := by
  have hsplit : durationNs n rate = n / rate * 1000000000 + n % rate * 1000000000 / rate := by
    unfold durationNs
    conv_lhs => rw [← Nat.div_add_mod n rate]
    rw [Nat.add_mul, Nat.mul_assoc, Nat.mul_add_div (by omega)]
  have hrest : n % rate * 1000000000 < 2 ^ 64 := by
    have := Nat.mod_lt n (show rate > 0 by omega)
    omega
  simp only [durationNsForSamples, hsplit, checkedMul_some hrest]
  by_cases hwhole : n / rate * 1000000000 < 2 ^ 64
  · rw [checkedMul_some hwhole, Option.bind_some, Option.bind_some]
    by_cases hsum : n / rate * 1000000000 + n % rate * 1000000000 / rate < 2 ^ 64
    · rw [checkedAdd_some hsum, if_pos hsum, orElse_some]
    · rw [checkedAdd_none hsum, if_neg hsum, orElse_none]
  · have hsum : ¬ n / rate * 1000000000 + n % rate * 1000000000 / rate < 2 ^ 64 :=
      fun h => hwhole ((Nat.le_add_right _ _).trans_lt h)
    rw [checkedMul_none hwhole, if_neg hsum, Option.bind_none, orElse_none]

/-- The duration that audio carries is that of its samples. -/
theorem AudioData.durationNs_eq (d : AudioData) :
    d.durationNs = Audio.durationNs d.samplesPerChannel d.sampleRateHz ∧ d.durationNs < 2 ^ 64 := by
  have hduration := d.duration
  rw [durationNsForSamples_eq d.rate] at hduration
  split_ifs at hduration with hfits
  rw [← Except.ok.inj hduration]
  exact ⟨rfl, hfits⟩

/-- `n` samples after `start` there is an `i64` timestamp. -/
def Representable (start : Timestamp) (rate n : ℕ) : Prop :=
  durationNs n rate < 2 ^ 63 ∧ start.nanos + durationNs n rate < 2 ^ 63

instance (start : Timestamp) (rate n : ℕ) : Decidable (Representable start rate n) :=
  inferInstanceAs (Decidable (_ ∧ _))

theorem Representable.mono {start : Timestamp} {rate m n : ℕ} (h : Representable start rate n)
    (hle : m ≤ n) : Representable start rate m := by
  have hdur := durationNs_mono hle rate
  obtain ⟨hlt, hend⟩ := h
  constructor
  · omega
  · omega

theorem representable_zero (start : Timestamp) (rate : ℕ) : Representable start rate 0 := by
  have := start.inRange
  unfold Representable
  rw [durationNs_zero]
  omega

def Representable.timestamp {start : Timestamp} {rate n : ℕ} (h : Representable start rate n) :
    Timestamp :=
  ⟨start.nanos + durationNs n rate, by have := start.inRange; omega, h.2⟩

theorem offsetTimestamp_eq {start : Timestamp} {rate n : ℕ} (e : Failure) :
    offsetTimestamp e start (durationNs n rate) =
      if h : Representable start rate n then .ok h.timestamp else .error e := by
  have hlow := start.inRange.1
  unfold offsetTimestamp
  by_cases hd : durationNs n rate < 2 ^ 63
  · rw [toI64_some hd, orElse_some]
    by_cases hend : start.nanos + durationNs n rate < 2 ^ 63
    · have hr : Representable start rate n := ⟨hd, hend⟩
      have hin : start.checkedAdd (durationNs n rate) = some hr.timestamp :=
        dif_pos ⟨by omega, hend⟩
      rw [dif_pos hr, Fallible.ok_bind, hin, orElse_some]
    · have hr : ¬ Representable start rate n := fun h => hend h.2
      have hout : start.checkedAdd (durationNs n rate) = none := dif_neg fun h => hend h.2
      rw [dif_neg hr, Fallible.ok_bind, hout, orElse_none]
  · have hr : ¬ Representable start rate n := fun h => hd h.1
    rw [toI64_none hd, dif_neg hr, orElse_none, Fallible.error_bind]

theorem sampleBoundaryTimestamp_eq {start : Timestamp} {rate : ℕ} (hr : 1 ≤ rate ∧ rate ≤ 768000)
    (n : ℕ) : sampleBoundaryTimestamp start n rate =
      if h : Representable start rate n then .ok h.timestamp else .error mergeArithmeticError := by
  unfold sampleBoundaryTimestamp
  rw [durationNsForSamples_eq hr]
  by_cases hd : durationNs n rate < 2 ^ 64
  · rw [if_pos hd, Fallible.ok_bind]
    exact offsetTimestamp_eq mergeArithmeticError
  · have hr' : ¬ Representable start rate n := fun h => hd (by have := h.1; omega)
    rw [if_neg hd, dif_neg hr', Fallible.error_bind]

def samplesOf (as : List (AudioFrame M E)) : ℕ := (as.map (·.data.samplesPerChannel)).sum

@[simp]
theorem samplesOf_nil : samplesOf ([] : List (AudioFrame M E)) = 0 := rfl

@[simp]
theorem samplesOf_cons (a : AudioFrame M E) (as : List (AudioFrame M E)) :
    samplesOf (a :: as) = a.data.samplesPerChannel + samplesOf as := by
  unfold samplesOf
  simp

/-- The frame has the shape of `first`, the sequence `s`, and starts `n` samples after `first`. -/
def Continues (first : AudioFrame M E) (s n : ℕ) (a : AudioFrame M E) : Prop :=
  Frame.sharesShape first a = true ∧
    a.header.timestamp.nanos = first.header.timestamp.nanos + durationNs n first.data.sampleRateHz ∧
    a.header.sequenceId.value = s

instance (first a : AudioFrame M E) (s n : ℕ) : Decidable (Continues first s n a) :=
  inferInstanceAs (Decidable (_ ∧ _ ∧ _))

/-- Each frame continues the ones before it, which are `n` samples long and use up the sequences
below `s`. -/
def Run (first : AudioFrame M E) : ℕ → ℕ → List (AudioFrame M E) → Prop
  | _, _, [] => True
  | s, n, a :: as =>
    Representable first.header.timestamp first.data.sampleRateHz n ∧ Continues first s n a ∧
      Run first (s + 1) (n + a.data.samplesPerChannel) as

theorem sharesShape_self (a : AudioFrame M E) : Frame.sharesShape a a = true := by
  simp [Frame.sharesShape]

theorem Continues.self (a : AudioFrame M E) : Continues a a.header.sequenceId.value 0 a := by
  refine ⟨sharesShape_self a, ?_, rfl⟩
  simp

theorem checkedNext_eq_some {s t : SequenceId} : s.checkedNext = some t ↔ s.value + 1 = t.value := by
  unfold SequenceId.checkedNext
  have ht := t.inRange
  constructor
  · intro h
    split_ifs at h with hlt
    cases h
    rfl
  · intro h
    rw [dif_pos (by omega)]
    cases t
    cases h
    rfl

/-- After a frame of the shape, the selector's comparison of neighbours is the constructor's
comparison with the first frame. -/
theorem compatibleWithPrevious_iff {first p : AudioFrame M E} {s n : ℕ}
    (hp : Frame.sharesShape first p = true) (hs : p.header.sequenceId.value + 1 = s)
    (a : AudioFrame M E)
    (hr : Representable first.header.timestamp first.data.sampleRateHz n) :
    compatibleWithPrevious p a hr.timestamp = true ↔ Continues first s n a := by
  have hts : a.header.timestamp = hr.timestamp ↔ a.header.timestamp.nanos = hr.timestamp.nanos := by
    constructor
    · exact congrArg _
    · intro h
      generalize hr.timestamp = t at h
      generalize a.header.timestamp = u at h
      cases t
      cases u
      cases h
      rfl
  simp only [Frame.sharesShape, Bool.and_eq_true, decide_eq_true_eq] at hp
  obtain ⟨⟨⟨⟨⟨⟨hstream, htrace⟩, hclock⟩, hrate⟩, hchannels⟩, hformat⟩, hlayout⟩ := hp
  simp only [compatibleWithPrevious, Continues, Frame.sharesShape, Bool.and_eq_true,
    decide_eq_true_eq, checkedNext_eq_some, hts, hs, hstream, htrace, hclock, hrate, hchannels,
    hformat, hlayout]
  simp only [Representable.timestamp]
  constructor
  · rintro ⟨⟨⟨⟨⟨⟨⟨⟨h1, h2⟩, h3⟩, h4⟩, h5⟩, h6⟩, h7⟩, h8⟩, h9⟩
    exact ⟨⟨⟨⟨⟨⟨⟨h1.symm, h2.symm⟩, h3.symm⟩, h6.symm⟩, h7.symm⟩, h8.symm⟩, h9.symm⟩, h5, h4.symm⟩
  · rintro ⟨⟨⟨⟨⟨⟨⟨h1, h2⟩, h3⟩, h6⟩, h7⟩, h8⟩, h9⟩, h5, h4⟩
    exact ⟨⟨⟨⟨⟨⟨⟨⟨h1.symm, h2.symm⟩, h3.symm⟩, h4.symm⟩, h5⟩, h6.symm⟩, h7.symm⟩, h8.symm⟩, h9.symm⟩

/-- One frame of the scan. -/
theorem scanPrefix_audio {first p : AudioFrame M E} {target maximum s n c : ℕ}
    (hp : Frame.sharesShape first p = true) (hs : p.header.sequenceId.value + 1 = s)
    (a : AudioFrame M E) (rest : List (Frame M E)) :
    scanPrefix first target maximum (some p) c n (.audio a :: rest) =
      let nextSamples := n + a.data.samplesPerChannel
      let nextDuration := durationNs nextSamples first.data.sampleRateHz
      if ¬ Representable first.header.timestamp first.data.sampleRateHz n then
        .error mergeArithmeticError
      else if ¬ Continues first s n a then .ok (c, n)
      else if ¬ nextDuration < 2 ^ 64 then .error mergeArithmeticError
      else if maximum < nextDuration then .ok (c, n)
      else if target ≤ nextDuration then .ok (c + 1, nextSamples)
      else scanPrefix first target maximum (some a) (c + 1) nextSamples rest := by
  have hrate := first.data.rate
  conv_lhs => unfold scanPrefix
  rw [sampleBoundaryTimestamp_eq hrate]
  by_cases hr : Representable first.header.timestamp first.data.sampleRateHz n
  swap
  · rw [dif_neg hr, if_pos hr, Fallible.error_bind]
  rw [dif_pos hr, if_neg (not_not.mpr hr), Fallible.ok_bind]
  have hcompat := compatibleWithPrevious_iff hp hs a hr
  by_cases hc : Continues first s n a
  swap
  · rw [if_pos hc, if_pos]
    · rfl
    · simpa using mt hcompat.mp hc
  rw [if_neg (not_not.mpr hc), if_neg]
  swap
  · simpa using hcompat.mpr hc
  -- a sum that does not fit is too long as well
  by_cases hsum : n + a.data.samplesPerChannel < 2 ^ 64
  swap
  · have hlong := le_durationNs hrate (n + a.data.samplesPerChannel)
    rw [checkedAdd_none hsum, if_pos (by omega), orElse_none]
    rfl
  rw [checkedAdd_some hsum, orElse_some, Fallible.ok_bind, durationNsForSamples_eq hrate]
  by_cases hd : durationNs (n + a.data.samplesPerChannel) first.data.sampleRateHz < 2 ^ 64
  swap
  · rw [if_neg hd, if_pos hd, Fallible.error_bind]
  rw [if_pos hd, if_neg (not_not.mpr hd), Fallible.ok_bind]
  rfl

end Muxiva.Audio
