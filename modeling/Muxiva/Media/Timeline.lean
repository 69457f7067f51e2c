import Mathlib.Tactic.Ring
import Muxiva.Lib.History
import Muxiva.Media.Pipeline

/-! The audio timeline: each frame begins where the one before it ends, or where the input says and
the discontinuity is counted. -/
set_option linter.all false
namespace Muxiva.Media

open Machine Transition Transition.System

/-- How long a number of samples takes, in whole nanoseconds. -/
def span (samples : UInt64) (rate : UInt32) : ℕ := samples.toNat * 1000000000 / rate.toNat

/-- The quotient and the remainder take apart what the product would overflow on. -/
theorem split_div (samples rate scale : ℕ) :
    samples / rate * scale + samples % rate * scale / rate = samples * scale / rate := by
  rcases Nat.eq_zero_or_pos rate with rfl | hrate
  · simp
  · have hsplit : samples * scale = rate * (samples / rate * scale) + samples % rate * scale := by
      calc
        samples * scale = (rate * (samples / rate) + samples % rate) * scale := by
          rw [Nat.div_add_mod]
        _ = rate * (samples / rate * scale) + samples % rate * scale := by ring
    rw [hsplit, Nat.mul_add_div hrate]

/-- Nothing wraps on the way. -/
theorem duration_bounded {samples rate : ℕ} (hrate : rate ≠ 0) (hlt : rate < 2 ^ 32)
    (hwhole : samples / rate ≤ 9223372036) :
    samples / rate * 1000000000 + samples % rate * 1000000000 < 2 ^ 64 := by
  have hremainder : samples % rate < rate := Nat.mod_lt _ (Nat.pos_of_ne_zero hrate)
  omega

/-- What the code computes is the span. -/
theorem toNat_value {samples : UInt64} {rate : UInt32} (hrate : rate.toNat ≠ 0)
    (hwhole : samples.toNat / rate.toNat ≤ 9223372036) :
    (samples / rate.toUInt64 * 1000000000 +
      samples % rate.toUInt64 * 1000000000 / rate.toUInt64).toNat = span samples rate := by
  have hbounded := duration_bounded hrate rate.toNat_lt hwhole
  have hproduct : samples.toNat / rate.toNat * 1000000000 < 2 ^ 64 :=
    (Nat.le_add_right _ _).trans_lt hbounded
  have hscaled : samples.toNat % rate.toNat * 1000000000 < 2 ^ 64 :=
    (Nat.le_add_left _ _).trans_lt hbounded
  have hsum : samples.toNat / rate.toNat * 1000000000 +
      samples.toNat % rate.toNat * 1000000000 / rate.toNat < 2 ^ 64 :=
    (Nat.add_le_add_left (Nat.div_le_self _ _) _).trans_lt hbounded
  rw [UInt64.toNat_add, UInt64.toNat_div, UInt64.toNat_mul, UInt64.toNat_mul, UInt64.toNat_div,
    UInt64.toNat_mod, UInt32.toNat_toUInt64]
  simp only [UInt64.reduceToNat, Nat.mod_eq_of_lt hproduct, Nat.mod_eq_of_lt hscaled,
    Nat.mod_eq_of_lt hsum]
  exact split_div _ _ _

theorem durationNs_eq_some {samples : UInt64} {rate : UInt32} {duration : Int64} :
    durationNs samples rate = some duration ↔
      rate ≠ 0 ∧ samples.toNat < 2 ^ 63 ∧ span samples rate < 2 ^ 63 ∧
        duration.toInt = span samples rate := by
  have hspan : samples.toNat / rate.toNat * 1000000000 ≤ span samples rate :=
    (Nat.le_add_right _ _).trans (split_div samples.toNat rate.toNat 1000000000).le
  have hmany : samples > 9223372036854775807 ↔ samples.toNat > 9223372036854775807 :=
    UInt64.lt_iff_toNat_lt
  have hwhole : samples / rate.toUInt64 > 9223372036854775807 / 1000000000 ↔
      samples.toNat / rate.toNat > 9223372036 := by
    simp [UInt64.lt_iff_toNat_lt]
  unfold durationNs
  dsimp only
  split_ifs with hrefused hlong hlate
  · simp only [false_iff]
    rintro ⟨hrate, hfew, -⟩
    rcases hrefused with hzero | hlarge
    · exact hrate hzero
    · have hlarge := hmany.mp hlarge
      omega
  · simp only [false_iff]
    rintro ⟨-, -, hshort, -⟩
    have hlong := hwhole.mp hlong
    omega
  all_goals
    obtain ⟨hrate, hfew⟩ := not_or.mp hrefused
    have hpos : rate.toNat ≠ 0 := fun h => hrate (UInt32.toNat_inj.mp h)
    have hfew := mt hmany.mpr hfew
    have hvalue := toNat_value hpos (not_lt.mp (mt hwhole.mpr hlong))
    rw [gt_iff_lt, UInt64.lt_iff_toNat_lt, hvalue] at hlate
  · simp only [false_iff]
    rintro ⟨-, -, hshort, -⟩
    simp only [UInt64.reduceToNat] at hlate
    omega
  · simp only [UInt64.reduceToNat] at hlate
    have hinto := toInt_toInt64 (u := samples / rate.toUInt64 * 1000000000 +
      samples % rate.toUInt64 * 1000000000 / rate.toUInt64) (by omega)
    rw [hvalue] at hinto
    rw [Option.some.injEq]
    constructor
    · rintro rfl
      exact ⟨hrate, by omega, by omega, hinto⟩
    · rintro ⟨-, -, -, hduration⟩
      exact Int64.toInt_inj.mp (hinto.trans hduration.symm)

theorem distance_eq (left right : Int64) :
    ((distance left right).toNat : ℤ) = |left.toInt - right.toInt| := by
  unfold distance
  split_ifs with hle
  · have hle : right.toInt ≤ left.toInt := Int64.le_iff_toInt_le.mp hle
    rw [toNat_sub_toUInt64 hle, abs_of_nonneg (by omega)]
  · have hlt : left.toInt < right.toInt := by
      rw [← Int64.lt_iff_toInt_lt]
      exact Int64.not_le.mp hle
    rw [toNat_sub_toUInt64 hlt.le, abs_of_neg (by omega)]
    omega

/-- The check before a sum of two signed numbers does not itself overflow, and is exact. -/
theorem Pipeline.runsOver_eq {timestamp duration : Int64} (h : 0 ≤ duration.toInt) :
    Pipeline.runsOver timestamp duration = some (decide (2 ^ 63 ≤ timestamp.toInt + duration.toInt)) := by
  unfold Pipeline.runsOver
  have hlt := duration.toInt_lt
  have hmax : Int64.maxValue.toInt = 2 ^ 63 - 1 := Int64.toInt_maxValue
  split_ifs with hpositive
  · obtain ⟨limit, hlimit, hvalue⟩ :=
      subSigned_of_range (a := Int64.maxValue) (b := duration) (by omega) (by omega)
    rw [hlimit, Option.map_some, Option.some.injEq, decide_eq_decide, gt_iff_lt,
      Int64.lt_iff_toInt_lt]
    omega
  · have hzero : duration.toInt ≤ 0 := by
      have hnot := mt Int64.lt_iff_toInt_lt.mpr hpositive
      rw [Int64.toInt_zero] at hnot
      omega
    have hrange := timestamp.toInt_lt
    rw [Option.some.injEq, eq_comm, decide_eq_false_iff_not]
    omega

/-- Where the next frame begins if it follows this one. -/
def OwnedAudioFrame.finish (frame : OwnedAudioFrame) : ℤ :=
  frame.timestampNs.toInt + span frame.samplesPerChannel frame.spec.sampleRateHz

theorem Pipeline.advance_cases (p : Pipeline) (converted : OwnedAudioFrame) (rate : UInt32)
    (expected : UInt64) (asked : BackendRequest) (overflowed : Pipeline × Reply) :
    p.advance converted rate expected asked overflowed = some overflowed ∨
    ∃ next : Int64,
      next.toInt = converted.timestampNs.toInt + span converted.samplesPerChannel rate ∧
      p.advance converted rate expected asked overflowed =
        some ({ p with
          nextAudioTimestamp := next
          hasAudioTimestamp := true
          audioFrames := p.audioFrames + 1
          outputBytes := p.outputBytes + expected }, ⟨.success, some asked, some converted, none⟩) := by
  unfold Pipeline.advance
  cases hduration : durationNs converted.samplesPerChannel rate with
  | none => exact .inl rfl
  | some duration =>
    obtain ⟨-, -, -, hvalue⟩ := durationNs_eq_some.mp hduration
    have hnonneg : 0 ≤ duration.toInt := by omega
    dsimp only
    rw [Pipeline.runsOver_eq hnonneg, Option.bind_some]
    by_cases hover : 2 ^ 63 ≤ converted.timestampNs.toInt + duration.toInt
    · rw [if_pos (decide_eq_true hover)]
      exact .inl rfl
    · have hlow := converted.timestampNs.le_toInt
      obtain ⟨next, hnext, hsum⟩ :=
        addSigned_of_range (a := converted.timestampNs) (b := duration) (by omega) (by omega)
      rw [decide_eq_false hover, if_neg Bool.false_ne_true, hnext]
      exact .inr ⟨next, by omega, rfl⟩

/-- The frame a call returned, if it returned one with samples. -/
def Reply.frame (reply : Reply) : Option OwnedAudioFrame :=
  if reply.status.code = 0 then reply.audio.filter fun frame => !frame.empty else none

theorem Reply.frame_of_code {reply : Reply} (h : reply.status.code ≠ 0) : reply.frame = none :=
  if_neg h

theorem Reply.frame_of_audio {reply : Reply} (h : reply.audio = none) : reply.frame = none := by
  unfold Reply.frame
  rw [h]
  exact ite_self _

theorem Reply.frame_refused {code : ℤ} (h : code ≠ 0) (message : String) :
    (Reply.refused code message).frame = none :=
  Reply.frame_of_code h

theorem Reply.frame_failed {code : ℤ} (h : code ≠ 0) (message : String) (asked : BackendRequest) :
    (Reply.failed code message asked).frame = none :=
  Reply.frame_of_code h

theorem Reply.frame_success {asked : BackendRequest} {frame : OwnedAudioFrame} :
    (Reply.mk .success (some asked) (some frame) none).frame =
      if frame.empty then none else some frame := by
  cases h : frame.empty <;> simp [Reply.frame, Status.success, Option.filter, h]

theorem ne_counted (n : UInt64) : n + 1 ≠ n := by
  intro h
  have hzero : n + 1 - n = 0 := by rw [h, UInt64.sub_self]
  rw [UInt64.add_comm, UInt64.add_sub_cancel] at hzero
  exact absurd hzero (by decide)

/-- A call that leaves the timeline as it was. -/
structure Stays (p t : Pipeline) (reply : Reply) : Prop where
  has : t.hasAudioTimestamp = p.hasAudioTimestamp
  next : t.nextAudioTimestamp = p.nextAudioTimestamp
  returned : reply.frame = none

/-- A call that returns a frame. It follows on, or the discontinuity is counted and it stands where
the input says. -/
structure Extends (p t : Pipeline) (reply : Reply) (input : Int64 → Prop) (frame : OwnedAudioFrame) :
    Prop where
  returned : reply.frame = some frame
  has : t.hasAudioTimestamp = true
  next : t.nextAudioTimestamp.toInt = frame.finish
  placed : p.hasAudioTimestamp = true →
    t.timestampDiscontinuities = p.timestampDiscontinuities ∧
      frame.timestampNs = p.nextAudioTimestamp ∨
    t.timestampDiscontinuities ≠ p.timestampDiscontinuities ∧ input frame.timestampNs

namespace Pipeline

variable (p : Pipeline)

theorem placeAudio_cases (inputTimestamp : Int64) :
    p.placeAudio inputTimestamp = (p, p.nextAudioTimestamp) ∨
    p.hasAudioTimestamp = false ∧ p.placeAudio inputTimestamp = (p, inputTimestamp) ∨
    p.placeAudio inputTimestamp =
      ({ p with timestampDiscontinuities := p.timestampDiscontinuities + 1 }, inputTimestamp) := by
  unfold placeAudio
  split_ifs with hhas hnear
  · exact .inl rfl
  · exact .inr (.inr rfl)
  · exact .inr (.inl ⟨Bool.eq_false_iff.mpr hhas, rfl⟩)

/-- The flags and the formats of the stream. -/
structure SameStream (t : Pipeline) : Prop where
  flushing : t.audioFlushing = p.audioFlushing
  recorded : t.hasAudioSpec = p.hasAudioSpec

/-- The end of both audio calls, with the frame placed. -/
theorem advance_spec {q : Pipeline} {frame : OwnedAudioFrame} {expected : UInt64}
    {asked : BackendRequest} {overflowed : Pipeline × Reply} {input : Int64 → Prop}
    (hfull : frame.empty = false) (hstays : Stays p overflowed.1 overflowed.2)
    (hsame : p.SameStream q) (hover : p.SameStream overflowed.1)
    (hplaced : p.hasAudioTimestamp = true →
      q.timestampDiscontinuities = p.timestampDiscontinuities ∧
        frame.timestampNs = p.nextAudioTimestamp ∨
      q.timestampDiscontinuities ≠ p.timestampDiscontinuities ∧ input frame.timestampNs) :
    ∃ t reply, q.advance frame frame.spec.sampleRateHz expected asked overflowed = some (t, reply) ∧
      (Stays p t reply ∨ ∃ frame, Extends p t reply input frame) ∧ p.SameStream t := by
  rcases q.advance_cases frame frame.spec.sampleRateHz expected asked overflowed with
    hadvance | ⟨next, hnext, hadvance⟩
  · exact ⟨overflowed.1, overflowed.2, hadvance, .inl hstays, hover⟩
  · have hreturned : (Reply.mk .success (some asked) (some frame) none).frame = some frame := by
      rw [Reply.frame_success, hfull]
      rfl
    exact ⟨_, _, hadvance, .inr ⟨frame, hreturned, rfl, hnext, hplaced⟩, hsame.flushing,
      hsame.recorded⟩

theorem acceptAudio_spec (input : PackedAudioView) (outputSpec : AudioSpec)
    (converted : OwnedAudioFrame) (asked : BackendRequest) (hfull : converted.empty = false) :
    ∃ t reply, p.acceptAudio input outputSpec converted asked = some (t, reply) ∧
      (Stays p t reply ∨ ∃ frame, Extends p t reply (· = input.timestampNs) frame) ∧
      p.SameStream t := by
  have hcode : backendFailure ≠ 0 := by decide
  unfold acceptAudio
  dsimp only
  split_ifs with hinvalid hlarge
  · exact ⟨_, _, rfl, .inl ⟨rfl, rfl, Reply.frame_failed hcode _ _⟩, rfl, rfl⟩
  · exact ⟨_, _, rfl, .inl ⟨rfl, rfl, Reply.frame_failed (by decide) _ _⟩, rfl, rfl⟩
  obtain ⟨hspec, -⟩ := not_or.mp hinvalid
  have hspec : converted.spec = outputSpec := not_not.mp hspec
  subst hspec
  rcases p.placeAudio_cases input.timestampNs with hplace | ⟨hfirst, hplace⟩ | hplace
  all_goals
    rw [hplace]
    refine p.advance_spec ?_ ⟨rfl, rfl, Reply.frame_failed hcode _ _⟩ ⟨rfl, rfl⟩ ⟨rfl, rfl⟩ ?_
    · exact hfull
    intro hhas
  · exact .inl ⟨rfl, rfl⟩
  · exact absurd (hfirst.symm.trans hhas) Bool.false_ne_true
  · exact .inr ⟨ne_counted _, rfl⟩

/-- What `convert_audio` does. It refuses a stream that was flushed. -/
theorem convertAudio_spec (held : Bool) (input : PackedAudioView) (outputSpec : AudioSpec)
    (hasOutput : Bool) (answer : AudioAnswer) :
    ∃ t reply, p.convertAudio held input outputSpec hasOutput answer = some (t, reply) ∧
      (Stays p t reply ∨ ∃ frame, Extends p t reply (· = input.timestampNs) frame) ∧
      t.audioFlushing = p.audioFlushing ∧ (p.hasAudioSpec = true → t.hasAudioSpec = true) ∧
      (p.audioFlushing = true → reply.status.code ≠ 0) := by
  have hcode : invalidArgument ≠ 0 := by decide
  unfold convertAudio
  dsimp only
  generalize (if p.hasAudioTimestamp then p.nextAudioTimestamp else input.timestampNs) = timestamp
  by_cases hnull : hasOutput = false
  · rw [if_pos hnull]
    exact ⟨_, _, rfl, .inl ⟨rfl, rfl, Reply.frame_refused hcode _⟩, rfl, id, fun _ => hcode⟩
  rw [if_neg hnull]
  by_cases hheld : held = true
  · rw [if_pos hheld]
    exact ⟨_, _, rfl, .inl ⟨rfl, rfl, Reply.frame_refused (by decide) _⟩, rfl, id,
      fun _ => by decide⟩
  rw [if_neg hheld]
  by_cases hinvalid : validAudioSpec input.spec = false ∨ validAudioSpec outputSpec = false ∨
      audioSize input.spec input.samplesPerChannel ≠ some input.size ∨ input.data = none
  · rw [if_pos hinvalid]
    exact ⟨_, _, rfl, .inl ⟨rfl, rfl, Reply.frame_refused hcode _⟩, rfl, id, fun _ => hcode⟩
  rw [if_neg hinvalid]
  by_cases hlarge : input.size > p.config.maxFrameBytes
  · rw [if_pos hlarge]
    exact ⟨_, _, rfl, .inl ⟨rfl, rfl, Reply.frame_refused (by decide) _⟩, rfl, id,
      fun _ => by decide⟩
  rw [if_neg hlarge]
  by_cases hchanged : p.audioFlushing ∨ p.hasAudioSpec ∧
      (p.audioInputSpec ≠ input.spec ∨ p.audioOutputSpec ≠ outputSpec)
  · rw [if_pos hchanged]
    exact ⟨_, _, rfl, .inl ⟨rfl, rfl, Reply.frame_refused hcode _⟩, rfl, id, fun _ => hcode⟩
  rw [if_neg hchanged]
  by_cases hresult : answer.result ≠ 0
  · rw [if_pos hresult]
    exact ⟨_, _, rfl, .inl ⟨rfl, rfl, Reply.frame_failed hresult _ _⟩, rfl, id, fun _ => hresult⟩
  rw [if_neg hresult]
  by_cases hempty : answer.converted.empty = true
  · rw [if_pos hempty]
    refine ⟨_, _, rfl, .inl ⟨rfl, rfl, ?_⟩, rfl, fun _ => rfl, ?_⟩
    · rw [Reply.frame_success]
      exact if_pos hempty
    · exact fun hflushing => absurd (.inl hflushing) hchanged
  · rw [if_neg hempty]
    obtain ⟨t, reply, haccept, hmove, hsame⟩ :=
      acceptAudio_spec { p with
        hasAudioSpec := true
        audioInputSpec := input.spec
        audioOutputSpec := outputSpec } input outputSpec answer.converted
        (.convertAudio input outputSpec p.config.maxFrameBytes) (Bool.eq_false_iff.mpr hempty)
    refine ⟨t, reply, haccept, ?_, hsame.flushing, fun _ => hsame.recorded, ?_⟩
    · rcases hmove with hstays | ⟨frame, hextends⟩
      · exact .inl ⟨hstays.has, hstays.next, hstays.returned⟩
      · exact .inr ⟨frame, hextends.returned, hextends.has, hextends.next, hextends.placed⟩
    · exact fun hflushing => absurd (.inl hflushing) hchanged

/-- What `flush_audio` does. Once it asks the backend, a stream with a recorded format is
flushed. -/
theorem flushAudio_spec (held : Bool) (outputSpec : AudioSpec) (hasOutput : Bool)
    (answer : AudioAnswer) :
    ∃ t reply, p.flushAudio held outputSpec hasOutput answer = some (t, reply) ∧
      (Stays p t reply ∨ ∃ frame, Extends p t reply (fun _ => False) frame) ∧
      t.hasAudioSpec = p.hasAudioSpec ∧
      (t.audioFlushing = p.audioFlushing ∨ t.audioFlushing = p.hasAudioSpec) ∧
      (reply.asked ≠ none → t.audioFlushing = p.hasAudioSpec) := by
  have hcode : invalidArgument ≠ 0 := by decide
  unfold flushAudio
  dsimp only
  have hnext : p.hasAudioTimestamp = true →
      (if p.hasAudioTimestamp then p.nextAudioTimestamp else 0) = p.nextAudioTimestamp :=
    fun hhas => if_pos hhas
  generalize (if p.hasAudioTimestamp then p.nextAudioTimestamp else 0) = timestamp at hnext ⊢
  by_cases hinvalid : hasOutput = false ∨ validAudioSpec outputSpec = false
  · rw [if_pos hinvalid]
    exact ⟨_, _, rfl, .inl ⟨rfl, rfl, Reply.frame_refused hcode _⟩, rfl, .inl rfl,
      fun h => absurd rfl h⟩
  rw [if_neg hinvalid]
  by_cases hheld : held = true
  · rw [if_pos hheld]
    exact ⟨_, _, rfl, .inl ⟨rfl, rfl, Reply.frame_refused (by decide) _⟩, rfl, .inl rfl,
      fun h => absurd rfl h⟩
  rw [if_neg hheld]
  by_cases hchanged : p.hasAudioSpec ∧ p.audioOutputSpec ≠ outputSpec
  · rw [if_pos hchanged]
    exact ⟨_, _, rfl, .inl ⟨rfl, rfl, Reply.frame_refused hcode _⟩, rfl, .inl rfl,
      fun h => absurd rfl h⟩
  rw [if_neg hchanged]
  by_cases hresult : answer.result ≠ 0
  · rw [if_pos hresult]
    exact ⟨_, _, rfl, .inl ⟨rfl, rfl, Reply.frame_failed hresult _ _⟩, rfl, .inr rfl,
      fun _ => rfl⟩
  rw [if_neg hresult]
  split_ifs with hempty hwrong
  · refine ⟨_, _, rfl, .inl ⟨rfl, rfl, ?_⟩, rfl, .inr rfl, fun _ => rfl⟩
    rw [Reply.frame_success]
    exact if_pos hempty
  · exact ⟨_, _, rfl, .inl ⟨rfl, rfl, Reply.frame_failed (by decide) _ _⟩, rfl, .inr rfl,
      fun _ => rfl⟩
  · have hfailed : Stays p { p with audioFlushing := p.hasAudioSpec }
        (.failed backendFailure "audio flush timestamp overflowed"
          (.flushAudio outputSpec p.config.maxFrameBytes)) :=
      ⟨rfl, rfl, Reply.frame_failed (by decide) _ _⟩
    obtain ⟨t, reply, hadvance, hmove, hsame⟩ :=
      @advance_spec { p with audioFlushing := p.hasAudioSpec } _
        { answer.converted with spec := outputSpec, timestampNs := timestamp }
        ((audioSize outputSpec answer.converted.samplesPerChannel).getD 0)
        (.flushAudio outputSpec p.config.maxFrameBytes) (_, _) (fun _ => False)
        (Bool.eq_false_iff.mpr hempty) ⟨hfailed.has, hfailed.next, hfailed.returned⟩ ⟨rfl, rfl⟩
        ⟨rfl, rfl⟩ (fun hhas => .inl ⟨rfl, hnext hhas⟩)
    refine ⟨t, reply, hadvance, ?_, hsame.recorded, .inr hsame.flushing, fun _ => hsame.flushing⟩
    rcases hmove with hstays | ⟨frame, hextends⟩
    · exact .inl ⟨hstays.has, hstays.next, hstays.returned⟩
    · exact .inr ⟨frame, hextends.returned, hextends.has, hextends.next, hextends.placed⟩

theorem convertVideo_spec (held : Bool) (input : PackedVideoView) (outputSpec : VideoSpec)
    (hasOutput : Bool) (answer : VideoAnswer) :
    Stays p (p.convertVideo held input outputSpec hasOutput answer).1
      (p.convertVideo held input outputSpec hasOutput answer).2 ∧
    p.SameStream (p.convertVideo held input outputSpec hasOutput answer).1 := by
  let Fine (out : Pipeline × Reply) : Prop := Stays p out.1 out.2 ∧ p.SameStream out.1
  iterate 6
    refine iteInduction (motive := Fine)
      (fun _ => ⟨⟨rfl, rfl, Reply.frame_of_audio rfl⟩, rfl, rfl⟩) fun _ => ?_
  exact ⟨⟨rfl, rfl, Reply.frame_of_audio rfl⟩, rfl, rfl⟩

theorem rejectBusy_spec : Stays p p.rejectBusy.1 p.rejectBusy.2 ∧ p.SameStream p.rejectBusy.1 :=
  ⟨⟨rfl, rfl, Reply.frame_of_audio rfl⟩, rfl, rfl⟩

end Pipeline

end Muxiva.Media
