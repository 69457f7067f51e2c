import Muxiva.Media.Timeline

/-! Runs of the pipeline: what the exchanges say of the frame before and of a flushed stream, and
that the pipeline's fields agree with it. -/
set_option linter.all false
namespace Muxiva.Media

open Machine Transition Transition.System

def Call.inputTimestamp : Call → Option Int64
  | .convertAudio _ input _ _ _ => some input.timestampNs
  | _ => none

def Exchange.Counted (e : Exchange) : Prop :=
  e.after.timestampDiscontinuities ≠ e.before.timestampDiscontinuities

/-- A reset that went through. -/
def Exchange.resets (e : Exchange) : Bool :=
  match e.call with
  | .reset _ => e.reply.status.code = 0
  | _ => false

/-- A flush that asked the backend, on a stream with a recorded format. -/
def Exchange.flushes (e : Exchange) : Bool :=
  match e.call with
  | .flushAudio _ _ _ _ => e.before.hasAudioSpec && e.reply.asked.isSome
  | _ => false

def Exchange.follow (last : Option OwnedAudioFrame) (e : Exchange) : Option OwnedAudioFrame :=
  if e.resets then none else e.reply.frame.or last

def Exchange.sealed (flushed : Bool) (e : Exchange) : Bool :=
  if e.resets then false else flushed || e.flushes

variable (log : List Exchange)

/-- The last frame with samples since the last reset. -/
def previousFrame : Option OwnedAudioFrame := log.foldl Exchange.follow none

/-- Whether the stream was flushed since the last reset. -/
def flushed : Bool := log.foldl Exchange.sealed false

variable {log}

@[simp]
theorem previousFrame_append (e : Exchange) :
    previousFrame (log ++ [e]) = e.follow (previousFrame log) := by
  unfold previousFrame
  rw [List.foldl_append]
  rfl

@[simp]
theorem flushed_append (e : Exchange) : flushed (log ++ [e]) = e.sealed (flushed log) := by
  unfold flushed
  rw [List.foldl_append]
  rfl

/-- Exchanges without a frame and without a reset leave the previous frame. -/
theorem foldl_follow_of_silent {middle : List Exchange} {last : Option OwnedAudioFrame}
    (h : ∀ e ∈ middle, e.reply.frame = none ∧ e.resets = false) :
    middle.foldl Exchange.follow last = last := by
  induction middle generalizing last with
  | nil => rfl
  | cons e rest ih =>
    obtain ⟨hframe, hresets⟩ := h e List.mem_cons_self
    rw [List.foldl_cons, ih fun e he => h e (List.mem_cons_of_mem _ he)]
    simp [Exchange.follow, hframe, hresets]

theorem foldl_sealed_of_no_reset {middle : List Exchange}
    (h : ∀ e ∈ middle, e.resets = false) : middle.foldl Exchange.sealed true = true := by
  induction middle with
  | nil => rfl
  | cons e rest ih =>
    have hresets := h e List.mem_cons_self
    have hsealed : e.sealed true = true := by simp [Exchange.sealed, hresets]
    rw [List.foldl_cons, hsealed]
    exact ih fun e he => h e (List.mem_cons_of_mem _ he)

/-- What a call does to the timeline and to the stream. -/
structure Moved (p : Pipeline) (e : Exchange) : Prop where
  timeline : Stays p e.after e.reply ∨
    ∃ frame, Extends p e.after e.reply (fun timestamp => e.call.inputTimestamp = some timestamp) frame
  kept : p.audioFlushing = true ∧ p.hasAudioSpec = true ∨ e.flushes = true →
    e.after.audioFlushing = true ∧ e.after.hasAudioSpec = true

/-- A reset that goes through forgets all of it. -/
structure Cleared (e : Exchange) : Prop where
  has : e.after.hasAudioTimestamp = false
  code : e.reply.status.code = 0
  returned : e.reply.frame = none

theorem Pipeline.step_spec (p : Pipeline) (call : Call) :
    ∃ t reply, p.step call = some (t, reply) ∧
      (let e : Exchange := ⟨p, call, reply, t⟩
      (e.resets = false ∧ Moved p e ∨ e.resets = true ∧ Cleared e) ∧
        (p.audioFlushing = true → call.inputTimestamp ≠ none → reply.status.code ≠ 0)) := by
  cases call with
  | convertAudio held input outputSpec hasOutput answer =>
    obtain ⟨t, reply, hstep, hmove, hflushing, hrecorded, hrefused⟩ :=
      p.convertAudio_spec held input outputSpec hasOutput answer
    refine ⟨t, reply, hstep, .inl ⟨rfl, ?_, ?_⟩, fun hsealed _ => hrefused hsealed⟩
    · rcases hmove with hstays | ⟨frame, hreturned, hhas, hnext, hplaced⟩
      · exact .inl hstays
      · refine .inr ⟨frame, hreturned, hhas, hnext, fun h => ?_⟩
        rcases hplaced h with hfollows | ⟨hcounted, hinput⟩
        · exact .inl hfollows
        · exact .inr ⟨hcounted, congrArg some hinput.symm⟩
    · rintro (⟨hold, hspec⟩ | hflush)
      · exact ⟨hflushing.trans hold, hrecorded hspec⟩
      · cases hflush
  | flushAudio held outputSpec hasOutput answer =>
    obtain ⟨t, reply, hstep, hmove, hrecorded, hflushing, hasked⟩ :=
      p.flushAudio_spec held outputSpec hasOutput answer
    refine ⟨t, reply, hstep, .inl ⟨rfl, ?_, ?_⟩, fun _ hinput => absurd rfl hinput⟩
    · rcases hmove with hstays | ⟨frame, hreturned, hhas, hnext, hplaced⟩
      · exact .inl hstays
      · refine .inr ⟨frame, hreturned, hhas, hnext, fun h => ?_⟩
        exact .inl ((hplaced h).resolve_right fun hcounted => hcounted.2)
    · rintro (⟨hold, hspec⟩ | hflush)
      · rcases hflushing with hsame | hsame
        · exact ⟨hsame.trans hold, hrecorded.trans hspec⟩
        · exact ⟨hsame.trans hspec, hrecorded.trans hspec⟩
      · obtain ⟨hspec, hreached⟩ := Bool.and_eq_true_iff.mp hflush
        have hsome : reply.asked ≠ none := Option.isSome_iff_ne_none.mp hreached
        exact ⟨(hasked hsome).trans hspec, hrecorded.trans hspec⟩
  | convertVideo held input outputSpec hasOutput answer =>
    obtain ⟨hstays, hflushing, hrecorded⟩ := p.convertVideo_spec held input outputSpec hasOutput answer
    refine ⟨_, _, rfl, .inl ⟨rfl, .inl hstays, ?_⟩, fun _ hinput => absurd rfl hinput⟩
    rintro (⟨hold, hspec⟩ | hflush)
    · exact ⟨hflushing.trans hold, hrecorded.trans hspec⟩
    · cases hflush
  | reset held =>
    cases held with
    | true =>
      obtain ⟨hstays, hflushing, hrecorded⟩ := p.rejectBusy_spec
      refine ⟨_, _, rfl, .inl ⟨rfl, .inl hstays, ?_⟩, fun _ hinput => absurd rfl hinput⟩
      rintro (⟨hold, hspec⟩ | hflush)
      · exact ⟨hflushing.trans hold, hrecorded.trans hspec⟩
      · cases hflush
    | false => exact ⟨_, _, rfl, .inr ⟨rfl, rfl, rfl, Reply.frame_of_audio rfl⟩,
      fun _ hinput => absurd rfl hinput⟩

theorem Pipeline.step_cases {p t : Pipeline} {call : Call} {reply : Reply}
    (hs : p.step call = some (t, reply)) :
    (Exchange.resets ⟨p, call, reply, t⟩ = false ∧ Moved p ⟨p, call, reply, t⟩ ∨
      Exchange.resets ⟨p, call, reply, t⟩ = true ∧ Cleared ⟨p, call, reply, t⟩) ∧
    (p.audioFlushing = true → call.inputTimestamp ≠ none → reply.status.code ≠ 0) := by
  obtain ⟨t', reply', hstep, hcases⟩ := p.step_spec call
  cases hs.symm.trans hstep
  exact hcases

/-- The fields of the pipeline against the exchanges so far. -/
structure Sound (log : List Exchange) (p : Pipeline) : Prop where
  has : p.hasAudioTimestamp = (previousFrame log).isSome
  next : ∀ frame, previousFrame log = some frame → p.nextAudioTimestamp.toInt = frame.finish
  flushing : flushed log = true → p.audioFlushing = true ∧ p.hasAudioSpec = true

theorem Sound.create {config : PipelineConfig} {p : Pipeline}
    (h : Pipeline.create config = .ok p) : Sound [] p := by
  unfold Pipeline.create at h
  split_ifs at h
  cases h
  exact ⟨rfl, nofun, nofun⟩

theorem Sound.step {p t : Pipeline} {call : Call} {reply : Reply} (h : Sound log p)
    (hs : p.step call = some (t, reply)) : Sound (log ++ [⟨p, call, reply, t⟩]) t := by
  rcases (Pipeline.step_cases hs).1 with ⟨hresets, hmoved⟩ | ⟨hresets, hcleared⟩
  · have hflushing : flushed (log ++ [⟨p, call, reply, t⟩]) = true →
        t.audioFlushing = true ∧ t.hasAudioSpec = true := by
      rw [flushed_append, Exchange.sealed, hresets, if_neg Bool.false_ne_true, Bool.or_eq_true]
      rintro (hold | hflush)
      · exact hmoved.kept (.inl (h.flushing hold))
      · exact hmoved.kept (.inr hflush)
    rcases hmoved.timeline with hstays | ⟨frame, hextends⟩
    · have hsame : previousFrame (log ++ [⟨p, call, reply, t⟩]) = previousFrame log := by
        rw [previousFrame_append, Exchange.follow, hresets, if_neg Bool.false_ne_true]
        show reply.frame.or _ = _
        rw [hstays.returned, Option.none_or]
      refine ⟨?_, ?_, hflushing⟩
      · rw [hsame]
        exact hstays.has.trans h.has
      · intro frame hframe
        rw [hsame] at hframe
        have hnext := hstays.next
        dsimp only at hnext
        rw [hnext]
        exact h.next frame hframe
    · have hlast : previousFrame (log ++ [⟨p, call, reply, t⟩]) = some frame := by
        rw [previousFrame_append, Exchange.follow, hresets, if_neg Bool.false_ne_true]
        show reply.frame.or _ = _
        rw [hextends.returned, Option.some_or]
      refine ⟨?_, ?_, hflushing⟩
      · rw [hlast]
        exact hextends.has
      · intro other hother
        rw [hlast] at hother
        cases hother
        exact hextends.next
  · have hnone : previousFrame (log ++ [⟨p, call, reply, t⟩]) = none := by
      rw [previousFrame_append, Exchange.follow, hresets, if_pos rfl]
    have hopen : flushed (log ++ [⟨p, call, reply, t⟩]) = false := by
      rw [flushed_append, Exchange.sealed, hresets, if_pos rfl]
    refine ⟨?_, ?_, ?_⟩
    · rw [hnone]
      exact hcleared.has
    · intro frame hframe
      rw [hnone] at hframe
      cases hframe
    · intro hflushed
      rw [hopen] at hflushed
      cases hflushed

/-- Each exchange is a step from a pipeline that agrees with the exchanges before it. -/
def Exchange.Justified (before : List Exchange) (e : Exchange) : Prop :=
  Sound before e.before ∧ e.before.step e.call = some (e.after, e.reply)

theorem mediaSystem_step {s t : MediaRun} {call : Call} (hs : mediaSystem.step s call = some t) :
    ∃ reply, s.pipeline.step call = some (t.pipeline, reply) ∧
      t.exchanges = s.exchanges ++ [⟨s.pipeline, call, reply, t.pipeline⟩] := by
  obtain ⟨⟨after, reply⟩, hstep, rfl⟩ := Option.map_eq_some_iff.mp hs
  exact ⟨reply, hstep, rfl⟩

theorem reachable_sound {s : MediaRun} (hr : mediaSystem.Reachable s) :
    Sound s.exchanges s.pipeline := by
  apply Reachable.invariant (M := mediaSystem) _ _ hr
  · rintro s ⟨⟨config, hcreate⟩, hempty⟩
    rw [hempty]
    exact Sound.create hcreate
  · intro s call t _ h hs
    obtain ⟨reply, hstep, hlog⟩ := mediaSystem_step hs
    rw [hlog]
    exact h.step hstep

theorem reachable_justified {s : MediaRun} (hr : mediaSystem.Reachable s) :
    EachEntry Exchange.Justified s.exchanges := by
  refine Reachable.eachEntry (M := mediaSystem) MediaRun.exchanges (fun s h => h.2) ?_ hr
  intro s call t hr hs
  obtain ⟨reply, hstep, hlog⟩ := mediaSystem_step hs
  exact .inr ⟨_, hlog, reachable_sound hr, hstep⟩

theorem failure_keeps {p t : Pipeline} {call : Call} {reply : Reply}
    (hs : p.step call = some (t, reply)) (hfailed : reply.status.code ≠ 0) :
    t.nextAudioTimestamp = p.nextAudioTimestamp ∧ t.hasAudioTimestamp = p.hasAudioTimestamp := by
  rcases (Pipeline.step_cases hs).1 with ⟨-, hmoved⟩ | ⟨-, hcleared⟩
  · rcases hmoved.timeline with hstays | ⟨frame, hextends⟩
    · exact ⟨hstays.next, hstays.has⟩
    · cases (Reply.frame_of_code hfailed).symm.trans hextends.returned
  · exact absurd hcleared.code hfailed

theorem Exchange.Justified.continues {e : Exchange} {frame previous : OwnedAudioFrame}
    (h : Exchange.Justified log e) (hframe : e.reply.frame = some frame)
    (hprevious : previousFrame log = some previous) :
    (¬ e.Counted → frame.timestampNs.toInt = previous.finish) ∧
      (e.Counted → e.call.inputTimestamp = some frame.timestampNs) := by
  obtain ⟨hsound, hstep⟩ := h
  rcases (Pipeline.step_cases hstep).1 with ⟨-, hmoved⟩ | ⟨-, hcleared⟩
  · rcases hmoved.timeline with hstays | ⟨other, hextends⟩
    · cases hstays.returned.symm.trans hframe
    · cases hextends.returned.symm.trans hframe
      have hhas : e.before.hasAudioTimestamp = true := by
        rw [hsound.has, hprevious]
        rfl
      rcases hextends.placed hhas with ⟨hsame, hfollows⟩ | ⟨hcounted, hinput⟩
      · refine ⟨fun _ => ?_, fun hcounted => absurd hsame hcounted⟩
        rw [hfollows]
        exact hsound.next previous hprevious
      · exact ⟨fun hnot => absurd hcounted hnot, fun _ => hinput⟩
  · cases hcleared.returned.symm.trans hframe

/-- A frame is the previous one until another, or a reset. -/
theorem Exchange.Justified.previous {middle : List Exchange} {e : Exchange} {frame : OwnedAudioFrame}
    (h : Exchange.Justified log e) (hframe : e.reply.frame = some frame)
    (hmiddle : ∀ m ∈ middle, m.reply.frame = none ∧ m.resets = false) :
    previousFrame (log ++ e :: middle) = some frame := by
  have hresets : e.resets = false := by
    rcases (Pipeline.step_cases h.2).1 with ⟨hresets, -⟩ | ⟨-, hcleared⟩
    · exact hresets
    · cases hcleared.returned.symm.trans hframe
  have hfollow : e.follow (previousFrame log) = some frame := by
    rw [Exchange.follow, hresets, if_neg Bool.false_ne_true, hframe, Option.some_or]
  unfold previousFrame
  rw [List.foldl_append, List.foldl_cons]
  exact (foldl_follow_of_silent hmiddle).trans hfollow

theorem flushed_of_flushes {middle : List Exchange} {e : Exchange} (h : e.flushes = true)
    (hmiddle : ∀ m ∈ middle, m.resets = false) : flushed (log ++ e :: middle) = true := by
  have hresets : e.resets = false := by
    unfold Exchange.flushes at h
    unfold Exchange.resets
    split
    · rename_i hcall
      rw [hcall] at h
      cases h
    · rfl
  have hsealed : e.sealed (flushed log) = true := by
    rw [Exchange.sealed, hresets, if_neg Bool.false_ne_true, h, Bool.or_true]
  unfold flushed at hsealed ⊢
  rw [List.foldl_append, List.foldl_cons, hsealed]
  exact foldl_sealed_of_no_reset hmiddle

/-- Each frame begins where the one before it ends, or is a counted discontinuity and stands where
the input says. A failure leaves the timeline. A flushed stream converts nothing until it is reset.
No signed operation overflows, and the durations and distances are exact. -/
theorem audio_timeline {s : MediaRun} (hr : mediaSystem.Reachable s) :
    (∀ before (e : Exchange) (middle : List Exchange) (e' : Exchange) after
      (frame frame' : OwnedAudioFrame),
      s.exchanges = before ++ e :: (middle ++ e' :: after) →
      e.reply.frame = some frame → e'.reply.frame = some frame' →
      (∀ m ∈ middle, m.reply.frame = none ∧ m.resets = false) →
      (¬ e'.Counted → frame'.timestampNs.toInt = frame.timestampNs.toInt +
        (frame.samplesPerChannel.toNat * 10 ^ 9 / frame.spec.sampleRateHz.toNat : ℕ)) ∧
      (e'.Counted → e'.call.inputTimestamp = some frame'.timestampNs)) ∧
    (∀ p call t reply, Pipeline.step p call = some (t, reply) → reply.status.code ≠ 0 →
      t.nextAudioTimestamp = p.nextAudioTimestamp ∧ t.hasAudioTimestamp = p.hasAudioTimestamp) ∧
    (∀ before (e : Exchange) (middle : List Exchange) (e' : Exchange) after,
      s.exchanges = before ++ e :: (middle ++ e' :: after) →
      e.flushes = true → (∀ m ∈ middle, m.resets = false) → e'.call.inputTimestamp ≠ none →
      e'.reply.status.code ≠ 0) ∧
    (∀ p call, Pipeline.step p call ≠ none) ∧
    (∀ samples rate duration, durationNs samples rate = some duration ↔
      rate ≠ 0 ∧ samples.toNat < 2 ^ 63 ∧ samples.toNat * 10 ^ 9 / rate.toNat < 2 ^ 63 ∧
        duration.toInt = (samples.toNat * 10 ^ 9 / rate.toNat : ℕ)) ∧
    (∀ samples rate : ℕ, rate ≠ 0 → rate < 2 ^ 32 → samples / rate ≤ 9223372036854775807 / 10 ^ 9 →
      samples / rate * 10 ^ 9 + samples % rate * 10 ^ 9 < 2 ^ 64) ∧
    ∀ left right, ((distance left right).toNat : ℤ) = |left.toInt - right.toInt| := by
  have hlog := reachable_justified hr
  refine ⟨?_, ?_, ?_, ?_, ?_, ?_, distance_eq⟩
  · intro before e middle e' after frame frame' hsplit hframe hframe' hmiddle
    have he := hlog before e _ hsplit
    have he' := hlog (before ++ e :: middle) e' after (by rw [hsplit]; simp)
    have hprevious := he.previous hframe hmiddle
    exact he'.continues hframe' hprevious
  · intro p call t reply hs hfailed
    exact failure_keeps hs hfailed
  · intro before e middle e' after hsplit hflushes hmiddle hinput
    have he' := hlog (before ++ e :: middle) e' after (by rw [hsplit]; simp)
    have hflushing := (he'.1.flushing (flushed_of_flushes hflushes hmiddle)).1
    exact (Pipeline.step_cases he'.2).2 hflushing hinput
  · intro p call
    obtain ⟨t, reply, hstep, -⟩ := p.step_spec call
    rw [hstep]
    exact Option.some_ne_none _
  · intro samples rate duration
    exact durationNs_eq_some
  · intro samples rate hrate hlt hwhole
    exact duration_bounded hrate hlt hwhole

/-- Three samples at 7 Hz, twice, then a flush, a conversion it refuses, and after a reset one that
starts anew. The second input is early by less than the tolerance. -/
theorem audio_timeline_run : ∃ s, mediaSystem.Reachable s ∧
    s.exchanges.map (fun e => (e.reply.status.code, e.reply.frame.map (·.timestampNs))) =
      [(0, some 5), (0, some 428571433), (0, none), (-2001, none), (0, none), (0, some 77)] ∧
    ∀ p call t reply, Pipeline.step p call = some (t, reply) → reply.status.code ≠ 0 →
      t.nextAudioTimestamp = p.nextAudioTimestamp ∧ t.hasAudioTimestamp = p.hasAudioTimestamp := by
  let spec : AudioSpec := ⟨7, 1, .u8⟩
  let convert (timestamp : Int64) : Call :=
    .convertAudio false ⟨some [1, 2, 3], 3, spec, 3, timestamp⟩ spec true
      ⟨0, ⟨[1, 2, 3], spec, 3, 0⟩⟩
  obtain ⟨s, hr, hs⟩ := exists_reachable_of_run (M := mediaSystem)
    (s := ⟨.fresh ⟨1024, 2000000⟩, []⟩) ⟨⟨⟨1024, 2000000⟩, rfl⟩, rfl⟩
    [convert 5, convert 428000000, .flushAudio false spec true ⟨0, ⟨[], spec, 0, 0⟩⟩,
      convert 857142861, .reset false, convert 77]
    (fun s => s.exchanges.map (fun e => (e.reply.status.code, e.reply.frame.map (·.timestampNs))) =
      [(0, some 5), (0, some 428571433), (0, none), (-2001, none), (0, none), (0, some 77)])
    (by decide +kernel)
  exact ⟨s, hr, of_decide_eq_true hs, (audio_timeline hr).2.1⟩

end Muxiva.Media
