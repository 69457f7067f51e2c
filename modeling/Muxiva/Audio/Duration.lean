import Muxiva.Audio.Scan

/-! The two copies of the conversion from samples to nanoseconds. -/
namespace Muxiva.Audio

/-- The copy of `frame::audio`. -/
def FrameAudio.durationNsForSamples (samples rate : ℕ) : Result ℕ :=
  Audio.durationNsForSamples arithmeticError samples rate

/-- The copy of `audio_merge`. -/
def AudioMerge.durationNsForSamples (samples rate : ℕ) : Result ℕ :=
  Audio.durationNsForSamples mergeArithmeticError samples rate

/-- The duration rounded down, and an error just where that does not fit. -/
structure Exact (convert : ℕ → ℕ → Result ℕ) (rate : ℕ) : Prop where
  fits : ∀ samples, samples * 10 ^ 9 / rate < 2 ^ 64 →
    convert samples rate = .ok (samples * 10 ^ 9 / rate)
  refused : ∀ samples, 2 ^ 64 ≤ samples * 10 ^ 9 / rate → ∃ e, convert samples rate = .error e
  monotone : ∀ m n a b, m ≤ n → convert m rate = .ok a → convert n rate = .ok b → a ≤ b
  superadditive : ∀ m n a b c, convert m rate = .ok a → convert n rate = .ok b →
    convert (m + n) rate = .ok c → a + b ≤ c ∧ c ≤ a + b + 1

theorem durationNsForSamples_exact {rate : ℕ} (hr : 1 ≤ rate ∧ rate ≤ 768000) (e : Failure) :
    Exact (Audio.durationNsForSamples e) rate := by
  have hok {n a : ℕ} (h : Audio.durationNsForSamples e n rate = .ok a) : a = durationNs n rate := by
    rw [durationNsForSamples_eq hr] at h
    split_ifs at h
    exact (Except.ok.inj h).symm
  constructor
  · intro samples hfits
    rw [durationNsForSamples_eq hr]
    exact if_pos hfits
  · intro samples hbig
    refine ⟨e, ?_⟩
    rw [durationNsForSamples_eq hr]
    exact if_neg (not_lt.mpr hbig)
  · intro m n a b hle ha hb
    rw [hok ha, hok hb]
    exact durationNs_mono hle rate
  · intro m n a b c ha hb hc
    rw [hok ha, hok hb, hok hc]
    exact durationNs_add m n rate

/-- Both copies are exact, so they agree in all but their error. -/
theorem conversions_exact {rate : ℕ} (hr : 1 ≤ rate ∧ rate ≤ 768000) :
    Exact FrameAudio.durationNsForSamples rate ∧ Exact AudioMerge.durationNsForSamples rate ∧
      ∀ samples, (FrameAudio.durationNsForSamples samples rate).toOption =
        (AudioMerge.durationNsForSamples samples rate).toOption := by
  refine ⟨durationNsForSamples_exact hr _, durationNsForSamples_exact hr _, fun samples => ?_⟩
  unfold FrameAudio.durationNsForSamples AudioMerge.durationNsForSamples
  rw [durationNsForSamples_eq hr, durationNsForSamples_eq hr]
  split_ifs <;> rfl

theorem conversions_exact_cd :
    Exact FrameAudio.durationNsForSamples 44100 ∧ Exact AudioMerge.durationNsForSamples 44100 ∧
      ∀ samples, (FrameAudio.durationNsForSamples samples 44100).toOption =
        (AudioMerge.durationNsForSamples samples 44100).toOption :=
  conversions_exact ⟨by decide, by decide⟩

end Muxiva.Audio
