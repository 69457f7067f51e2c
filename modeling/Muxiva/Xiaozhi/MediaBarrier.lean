import Mathlib.Algebra.Order.Ring.Int
import Mathlib.Data.List.Count
import Mathlib.Data.List.Nodup
import Muxiva.Xiaozhi.AudioSink

/-! What the log of the sink says of itself: the audio handed on so far, the cancellation watermark,
the event that still waits for its stop. The sink's fields agree with it. -/
set_option linter.all false
namespace Muxiva.Xiaozhi

open Transition Transition.System

def SinkEntry.isAudio (sequence : ℤ) : SinkEntry → Bool
  | .handed (.audio other) _ => other = sequence
  | _ => false

/-- The event a stop answers. -/
def SinkEntry.answers : SinkEntry → Option ℕ
  | .handed (.barrierStop stop) _ => some stop.id
  | .handed (.immediateStop stop) _ => some stop.id
  | _ => none

def SinkEntry.raise (watermark : ℤ) : SinkEntry → ℤ
  | .cancelled sequence _ => max watermark sequence
  | _ => watermark

def SinkEntry.wait (pending : Option PendingStop) : SinkEntry → Option PendingStop
  | .armed stop => some stop
  | .handed (.barrierStop _) _ => none
  | .cancelled _ _ => none
  | _ => pending

variable (log : List SinkEntry)

/-- The audio frames of a sequence that were handed to the client. -/
def handedAudio (sequence : ℤ) : ℕ := log.countP (SinkEntry.isAudio sequence)

def answered : List ℕ := log.filterMap SinkEntry.answers

def watermark : ℤ := log.foldl SinkEntry.raise 0

/-- The last drained event that was taken on, unless a stop or a cancel came after it. -/
def pendingOf : Option PendingStop := log.foldl SinkEntry.wait none

/-- A cancel that finds an event waiting is followed by the reset and a stop for that event. -/
def Followed : List SinkEntry → Prop
  | [] => True
  | .cancelled _ (some stop) :: rest =>
    (∃ a b tail, rest = .handed .reset a :: .handed (.immediateStop stop) b :: tail) ∧ Followed rest
  | _ :: rest => Followed rest

variable {log}

/-- What waits after `more` waited before, or was taken on in `more`. -/
theorem armed_of_wait {more : List SinkEntry} {pending : Option PendingStop} {stop : PendingStop}
    (h : more.foldl SinkEntry.wait pending = some stop) :
    pending = some stop ∨ .armed stop ∈ more := by
  induction more generalizing pending with
  | nil => exact .inl h
  | cons e rest ih =>
    rw [List.foldl_cons] at h
    rcases ih h with hwait | hmem
    · cases e with
      | armed other =>
        have hother : other = stop := Option.some.inj hwait
        exact .inr (by simp [hother])
      | cancelled sequence found => cases hwait
      | handed command written =>
        cases command with
        | barrierStop other => cases hwait
        | audio sequence => exact .inl hwait
        | reset => exact .inl hwait
        | immediateStop other => exact .inl hwait
    · exact .inr (List.mem_cons_of_mem _ hmem)

theorem Followed.append {more : List SinkEntry} (h : Followed log) (hmore : Followed more) :
    Followed (log ++ more) := by
  induction log with
  | nil => exact hmore
  | cons e rest ih =>
    unfold Followed at h
    split at h
    · contradiction
    · rename_i heq
      cases heq
      obtain ⟨⟨a, b, tail, hrest⟩, hfollowed⟩ := h
      exact ⟨⟨a, b, tail ++ more, by simp [hrest]⟩, ih hfollowed⟩
    · rename_i hother heq
      cases heq
      have hrest := ih h
      rw [List.cons_append]
      unfold Followed
      split
      · trivial
      · rename_i heq
        cases heq
        exact (hother _ _ rfl).elim
      · rename_i heq
        cases heq
        exact hrest

theorem Followed.cancelled {before after : List SinkEntry} {sequence : ℤ} {stop : PendingStop}
    (h : Followed (before ++ .cancelled sequence (some stop) :: after)) :
    ∃ a b tail, after = .handed .reset a :: .handed (.immediateStop stop) b :: tail := by
  induction before with
  | nil => exact h.1
  | cons e rest ih =>
    apply ih
    rw [List.cons_append] at h
    unfold Followed at h
    split at h
    · contradiction
    · rename_i heq
      cases heq
      exact h.2
    · rename_i heq
      cases heq
      exact h

@[simp]
theorem handedAudio_append (e : SinkEntry) (sequence : ℤ) :
    handedAudio (log ++ [e]) sequence =
      handedAudio log sequence + if e.isAudio sequence then 1 else 0 := by
  unfold handedAudio
  rw [List.countP_append, List.countP_singleton]

@[simp]
theorem watermark_append (e : SinkEntry) : watermark (log ++ [e]) = e.raise (watermark log) := by
  unfold watermark
  rw [List.foldl_append]
  rfl

@[simp]
theorem pendingOf_append (e : SinkEntry) : pendingOf (log ++ [e]) = e.wait (pendingOf log) := by
  unfold pendingOf
  rw [List.foldl_append]
  rfl

@[simp]
theorem answered_append (e : SinkEntry) : answered (log ++ [e]) = answered log ++ e.answers.toList := by
  unfold answered
  rw [List.filterMap_append]
  cases h : e.answers <;> simp [h]

/-- What each entry says of the entries before it. -/
def SinkEntry.Due (before : List SinkEntry) : SinkEntry → Prop
  | .handed (.audio sequence) _ => watermark before ≤ sequence
  | .handed (.barrierStop stop) _ =>
    .armed stop ∈ before ∧ pendingOf before = some stop ∧
      stop.expected ≤ handedAudio before stop.sequence ∧ watermark before ≤ stop.sequence ∧
      ∀ earlier written, .handed (.barrierStop earlier) written ∈ before →
        earlier.sequence < stop.sequence
  | .cancelled _ pending => pending = pendingOf before
  | _ => True

/-- The fields of the sink against its log. -/
structure AudioSink.Barrier (s : AudioSink) : Prop where
  due : EachEntry SinkEntry.Due s.log
  followed : Followed s.log
  through : s.cancelledThroughSequence = watermark s.log
  pending : s.pendingStop = pendingOf s.log
  received : ∀ sequence, s.receivedAudioFrames sequence ≤ handedAudio s.log sequence
  stopped : ∀ stop written, .handed (.barrierStop stop) written ∈ s.log →
    stop.sequence ≤ s.stoppedThroughSequence
  waiting : ∀ stop, s.pendingStop = some stop → .armed stop ∈ s.log ∧
    watermark s.log ≤ stop.sequence ∧ stop.id < s.armedCount ∧ stop.id ∉ answered s.log
  known : ∀ id ∈ answered s.log, id < s.armedCount
  once : (answered s.log).Nodup

theorem Barrier.init : AudioSink.new.Barrier := by
  constructor <;> simp [AudioSink.new, EachEntry.nil, Followed, watermark, pendingOf, answered]

namespace AudioSink.Barrier

variable {s : AudioSink}

/-- Audio is handed on and counted. -/
theorem audio (h : s.Barrier) {sequence : ℤ} (hsequence : s.cancelledThroughSequence ≤ sequence)
    (keeps : Bool) :
    AudioSink.Barrier { s.send (.audio sequence) keeps with
      receivedAudioFrames :=
        Function.update s.receivedAudioFrames sequence (s.receivedAudioFrames sequence + 1) } := by
  have hthrough := h.through
  constructor
  · exact eachEntry_append_singleton.mpr ⟨h.due, by
      show watermark s.log ≤ sequence
      omega⟩
  · exact h.followed.append trivial
  · simpa [send, SinkEntry.raise] using h.through
  · simpa [send, SinkEntry.wait] using h.pending
  · intro other
    have hreceived := h.received other
    simp only [send, handedAudio_append, SinkEntry.isAudio]
    by_cases hsame : other = sequence
    · subst hsame
      simp only [Function.update_self, decide_true, if_true]
      omega
    · simp only [Function.update_of_ne hsame]
      omega
  · intro stop written hmem
    exact h.stopped stop written (by simpa [send] using hmem)
  · intro stop hstop
    obtain ⟨harmed, habove, hknown, hfresh⟩ := h.waiting stop hstop
    exact ⟨by simp [send, harmed], by simpa [send, SinkEntry.raise] using habove, hknown,
      by simpa [send, SinkEntry.answers] using hfresh⟩
  · simpa [send, SinkEntry.answers] using h.known
  · simpa [send, SinkEntry.answers] using h.once

/-- The event that waits has its audio, and gets its stop. -/
theorem stop (h : s.Barrier) {stop : PendingStop} (hpending : s.pendingStop = some stop)
    (hreceived : stop.expected ≤ s.receivedAudioFrames stop.sequence)
    (hnew : s.stoppedThroughSequence < stop.sequence) (keeps : Bool) :
    AudioSink.Barrier { s.send (.barrierStop stop) keeps with
      stoppedThroughSequence := stop.sequence
      pendingStop := none
      receivedAudioFrames := fun key => if stop.sequence < key then s.receivedAudioFrames key else 0 } := by
  obtain ⟨harmed, habove, hknown, hfresh⟩ := h.waiting stop hpending
  have hcount := h.received stop.sequence
  constructor
  · have hpendingOf : pendingOf s.log = some stop := h.pending ▸ hpending
    refine eachEntry_append_singleton.mpr ⟨h.due, harmed, hpendingOf, by omega, habove, ?_⟩
    intro earlier written hmem
    have hle := h.stopped earlier written hmem
    omega
  · exact h.followed.append trivial
  · simpa [send, SinkEntry.raise] using h.through
  · simp [send, SinkEntry.wait]
  · intro other
    have hother := h.received other
    simp only [send, handedAudio_append, SinkEntry.isAudio]
    split_ifs <;> omega
  · intro earlier written hmem
    simp only [send, List.mem_append, List.mem_singleton, SinkEntry.handed.injEq,
      SinkCommand.barrierStop.injEq] at hmem
    rcases hmem with hold | ⟨rfl, -⟩
    · have hle := h.stopped earlier written hold
      simp only
      omega
    · exact le_refl _
  · intro other hother
    cases hother
  · intro id hid
    simp only [send, answered_append, SinkEntry.answers, Option.toList_some, List.mem_append,
      List.mem_singleton] at hid
    rcases hid with hold | hnew
    · exact h.known id hold
    · exact hnew ▸ hknown
  · simp only [send, answered_append, SinkEntry.answers, Option.toList_some]
    rw [← List.concat_eq_append]
    exact List.Nodup.concat hfresh h.once

/-- A drained event takes the slot. -/
theorem arm (h : s.Barrier) {sequence : ℤ} (hsequence : s.cancelledThroughSequence ≤ sequence)
    (expected : ℤ) :
    AudioSink.Barrier { s with
      pendingStop := some ⟨s.armedCount, sequence, expected⟩
      armedCount := s.armedCount + 1
      log := s.log ++ [SinkEntry.armed ⟨s.armedCount, sequence, expected⟩] } := by
  have hthrough := h.through
  constructor
  · exact eachEntry_append_singleton.mpr ⟨h.due, trivial⟩
  · exact h.followed.append trivial
  · simpa [SinkEntry.raise] using h.through
  · simp [SinkEntry.wait]
  · intro other
    simpa [SinkEntry.isAudio] using h.received other
  · intro stop written hmem
    exact h.stopped stop written (by simpa using hmem)
  · intro stop hstop
    have hstop : stop = ⟨s.armedCount, sequence, expected⟩ := (Option.some.inj hstop).symm
    subst hstop
    refine ⟨by simp, ?_, Nat.lt_succ_self _, ?_⟩
    · simp only [watermark_append, SinkEntry.raise]
      omega
    · simp only [answered_append, SinkEntry.answers, Option.toList_none, List.append_nil]
      intro hmem
      exact absurd (h.known _ hmem) (lt_irrefl _)
  · intro id hid
    simp only [answered_append, SinkEntry.answers, Option.toList_none, List.append_nil] at hid
    exact Nat.lt_succ_of_lt (h.known id hid)
  · simpa [SinkEntry.answers] using h.once

/-- A cancel that finds no event waiting. -/
theorem cancel (h : s.Barrier) (hpending : s.pendingStop = none) (sequence : ℤ) (keeps : Bool) :
    AudioSink.Barrier (AudioSink.send { s with
      cancelledThroughSequence := max s.cancelledThroughSequence sequence
      pendingStop := none
      receivedAudioFrames := fun key =>
        if max s.cancelledThroughSequence sequence ≤ key then s.receivedAudioFrames key else 0
      log := s.log ++ [SinkEntry.cancelled sequence none] } .reset keeps) := by
  have hpendingOf : none = pendingOf s.log := hpending ▸ h.pending
  have hthrough := h.through
  constructor
  · refine eachEntry_append_singleton.mpr ⟨?_, trivial⟩
    exact eachEntry_append_singleton.mpr ⟨h.due, hpendingOf⟩
  · have hmarked : Followed (s.log ++ [SinkEntry.cancelled sequence none]) :=
      h.followed.append trivial
    exact hmarked.append trivial
  · simp only [send, watermark_append, SinkEntry.raise, hthrough]
  · simp only [send, pendingOf_append, SinkEntry.wait]
  · intro other
    have hother := h.received other
    simp only [send, handedAudio_append, SinkEntry.isAudio]
    split_ifs <;> omega
  · intro stop written hmem
    exact h.stopped stop written (by simpa [send] using hmem)
  · intro stop hstop
    cases hstop
  · simpa only [send, answered_append, SinkEntry.answers, Option.toList_none, List.append_nil]
      using h.known
  · simpa only [send, answered_append, SinkEntry.answers, Option.toList_none, List.append_nil]
      using h.once

/-- A cancel that finds an event waiting answers it. -/
theorem cancel_waiting (h : s.Barrier) {stop : PendingStop} (hpending : s.pendingStop = some stop)
    (sequence : ℤ) (keeps keepsForStop : Bool) :
    AudioSink.Barrier (AudioSink.send (AudioSink.send { s with
      cancelledThroughSequence := max s.cancelledThroughSequence sequence
      pendingStop := none
      receivedAudioFrames := fun key =>
        if max s.cancelledThroughSequence sequence ≤ key then s.receivedAudioFrames key else 0
      log := s.log ++ [SinkEntry.cancelled sequence (some stop)] } .reset keeps)
      (.immediateStop stop) keepsForStop) := by
  have hpendingOf : some stop = pendingOf s.log := hpending ▸ h.pending
  have hthrough := h.through
  obtain ⟨-, -, hknown, hfresh⟩ := h.waiting stop hpending
  constructor
  · refine eachEntry_append_singleton.mpr ⟨?_, trivial⟩
    refine eachEntry_append_singleton.mpr ⟨?_, trivial⟩
    exact eachEntry_append_singleton.mpr ⟨h.due, hpendingOf⟩
  · -- the three entries are one block
    simp only [send, List.append_assoc, List.singleton_append]
    exact h.followed.append ⟨⟨_, _, _, rfl⟩, trivial⟩
  · simp only [send, watermark_append, SinkEntry.raise, hthrough]
  · simp only [send, pendingOf_append, SinkEntry.wait]
  · intro other
    have hother := h.received other
    simp only [send, handedAudio_append, SinkEntry.isAudio]
    split_ifs <;> omega
  · intro earlier written hmem
    exact h.stopped earlier written (by simpa [send] using hmem)
  · intro other hother
    cases hother
  · intro id hid
    simp only [send, answered_append, SinkEntry.answers, Option.toList_some, Option.toList_none,
      List.append_nil, List.mem_append, List.mem_singleton] at hid
    rcases hid with hold | hnew
    · exact h.known id hold
    · exact hnew ▸ hknown
  · simp only [send, answered_append, SinkEntry.answers, Option.toList_some, Option.toList_none,
      List.append_nil]
    rw [← List.concat_eq_append]
    exact List.Nodup.concat hfresh h.once

theorem ensure (h : s.Barrier) (connects : Bool) : (s.ensure connects).Barrier :=
  ⟨h.due, h.followed, h.through, h.pending, h.received, h.stopped, h.waiting, h.known, h.once⟩

theorem maybeSendStop (h : s.Barrier) (sequence : ℤ) (io : SinkIo) :
    (s.maybeSendStop sequence io).Barrier := by
  unfold AudioSink.maybeSendStop
  split
  · exact h
  · rename_i pending hpending
    dsimp only
    split_ifs with hother hwait hlost
    · exact h
    · exact h
    · exact h.ensure io.connectsForStop
    · obtain ⟨hreceived, hnew⟩ := not_or.mp hwait
      have hsequence : pending.sequence = sequence := not_not.mp hother
      subst hsequence
      exact (h.ensure io.connectsForStop).stop hpending (not_lt.mp hreceived) (not_le.mp hnew)
        io.keepsForStop

theorem onAudio (h : s.Barrier) (sequence : ℤ) (data : List UInt8) (io : SinkIo) :
    (s.onAudio sequence data io).Barrier := by
  unfold AudioSink.onAudio
  dsimp only
  split_ifs with hclosed hstale hlost hempty
  · exact h
  · exact h
  · exact h.ensure io.connects
  · exact h.ensure io.connects
  · have haudio := (h.ensure io.connects).audio (not_lt.mp hstale) io.keeps
    exact haudio.maybeSendStop sequence io

theorem handleEvent (h : s.Barrier) (drained : Bool) (sequence : ℤ) (audioFrames : Option ℤ)
    (io : SinkIo) : (s.handleEvent drained sequence audioFrames io).Barrier := by
  unfold AudioSink.handleEvent
  split_ifs with hclosed hdrained hstale
  · exact h
  · exact h
  · exact h
  · split
    · exact h
    · rename_i audioFrames
      have harmed := h.arm (not_lt.mp hstale) (max 0 audioFrames)
      exact harmed.maybeSendStop sequence io

theorem onSignal (h : s.Barrier) (cancels : Bool) (sequence : ℤ) (io : SinkIo) :
    (s.onSignal cancels sequence io).Barrier := by
  unfold AudioSink.onSignal
  split_ifs with hcancels
  · exact h
  · cases hpending : s.pendingStop with
    | none => exact h.cancel hpending sequence io.keeps
    | some stop => exact h.cancel_waiting hpending sequence io.keeps io.keepsForStop

theorem step (h : s.Barrier) (io : SinkIo) (input : SinkInput) : (s.step io input).Barrier := by
  cases input with
  | prepare =>
    exact ⟨h.due, h.followed, h.through, h.pending, h.received, h.stopped, h.waiting, h.known,
      h.once⟩
  | audio sequence data => exact h.onAudio sequence data io
  | event drained sequence audioFrames => exact h.handleEvent drained sequence audioFrames io
  | signal cancels sequence => exact h.onSignal cancels sequence io
  | finish =>
    exact ⟨h.due, h.followed, h.through, h.pending, h.received, h.stopped, h.waiting, h.known,
      h.once⟩

theorem reachable (hr : sinkSystem.Reachable s) : s.Barrier :=
  Reachable.invariant (M := sinkSystem) (fun s h => h ▸ Barrier.init)
    (fun s a s' _ h hs => by cases hs; exact h.step a.2 a.1) hr

/-- What answers an event that a cancel found waiting, and what does not. -/
theorem answer (h : s.Barrier) {before after : List SinkEntry} {sequence : ℤ} {stop : PendingStop}
    (hlog : s.log = before ++ SinkEntry.cancelled sequence (some stop) :: after) :
    ∃ a b rest, after = .handed .reset a :: .handed (.immediateStop stop) b :: rest ∧
      stop.id ∉ answered (before ++ rest) ∧
      ∀ middle later other written,
        rest = middle ++ SinkEntry.handed (.barrierStop other) written :: later →
        SinkEntry.armed other ∈ middle := by
  obtain ⟨a, b, rest, rfl⟩ := Followed.cancelled (hlog ▸ h.followed)
  refine ⟨a, b, rest, rfl, ?_, ?_⟩
  · have honce := h.once
    rw [hlog] at honce
    simp only [answered, List.filterMap_append, List.filterMap_cons, SinkEntry.answers] at honce
    have hmiddle := (List.nodup_middle.mp honce).notMem
    simpa only [answered, List.filterMap_append] using hmiddle
  · rintro middle later other written rfl
    have hdue := h.due (before ++ .cancelled sequence (some stop) :: .handed .reset a ::
      .handed (.immediateStop stop) b :: middle) (.handed (.barrierStop other) written) later
      (by rw [hlog]; simp)
    obtain ⟨-, hpending, -⟩ := hdue
    simp only [pendingOf, List.foldl_append, List.foldl_cons, SinkEntry.wait] at hpending
    exact (armed_of_wait hpending).resolve_left (by simp)

end AudioSink.Barrier

/-- A barrier stop comes after its audio, above the watermark and above every earlier one. Audio is
not below the watermark. A cancel that finds an event waiting is followed by the reset and the one
stop that answers it; a barrier stop for its sequence then needs another event. -/
theorem media_barrier {s : AudioSink} (hr : sinkSystem.Reachable s) :
    (∀ before (stop : PendingStop) written after,
      s.log = before ++ SinkEntry.handed (.barrierStop stop) written :: after →
      .armed stop ∈ before ∧ stop.expected ≤ (handedAudio before stop.sequence : ℤ) ∧
        watermark before ≤ stop.sequence ∧
        ∀ earlier written, .handed (.barrierStop earlier) written ∈ before →
          earlier.sequence < stop.sequence) ∧
    (∀ before sequence written after,
      s.log = before ++ SinkEntry.handed (.audio sequence) written :: after →
      watermark before ≤ sequence) ∧
    ∀ before sequence pending after,
      s.log = before ++ SinkEntry.cancelled sequence pending :: after →
      pending = pendingOf before ∧ ∀ stop, pending = some stop →
        ∃ a b rest, after = .handed .reset a :: .handed (.immediateStop stop) b :: rest ∧
          stop.id ∉ answered (before ++ rest) ∧
          ∀ middle later other written,
            rest = middle ++ SinkEntry.handed (.barrierStop other) written :: later →
            other.sequence = stop.sequence →
            ∃ again, SinkEntry.armed again ∈ middle ∧ again.sequence = stop.sequence := by
  have h := AudioSink.Barrier.reachable hr
  refine ⟨?_, ?_, ?_⟩
  · intro before stop written after hlog
    obtain ⟨harmed, -, hcount, habove, hearlier⟩ := h.due before _ after hlog
    exact ⟨harmed, hcount, habove, hearlier⟩
  · intro before sequence written after hlog
    exact h.due before _ after hlog
  · intro before sequence pending after hlog
    refine ⟨h.due before _ after hlog, ?_⟩
    rintro stop rfl
    obtain ⟨a, b, rest, hafter, honce, hagain⟩ := h.answer hlog
    refine ⟨a, b, rest, hafter, honce, ?_⟩
    intro middle later other written hrest hsame
    exact ⟨other, hagain middle later other written hrest, hsame⟩

/-- Two events are drained. The second still waits for audio when the cancel comes, and the
connection is lost with its stop. -/
theorem media_barrier_run : ∃ s, sinkSystem.Reachable s ∧
    s.log = [.handed (.audio 4) true, .armed ⟨0, 4, 2⟩, .handed (.audio 4) true,
      .handed (.barrierStop ⟨0, 4, 2⟩) true, .armed ⟨1, 5, 2⟩, .handed (.audio 5) true,
      .cancelled 6 (some ⟨1, 5, 2⟩), .handed .reset true,
      .handed (.immediateStop ⟨1, 5, 2⟩) false] ∧
    ∀ before stop after, s.log = before ++ SinkEntry.cancelled 6 (some stop) :: after →
      some stop = pendingOf before := by
  let up : SinkIo := ⟨true, true, true, true⟩
  let lost : SinkIo := ⟨true, true, true, false⟩
  obtain ⟨s, hr, hlog⟩ := exists_reachable_of_run (M := sinkSystem) (s := .new) rfl
    [(.audio 4 [1, 2], up), (.event true 4 (some 2), up), (.audio 4 [3, 4], up),
      (.event true 5 (some 2), up), (.audio 5 [5, 6], up), (.signal true 6, lost),
      (.audio 5 [7, 8], up)]
    (fun s => s.log = [.handed (.audio 4) true, .armed ⟨0, 4, 2⟩, .handed (.audio 4) true,
      .handed (.barrierStop ⟨0, 4, 2⟩) true, .armed ⟨1, 5, 2⟩, .handed (.audio 5) true,
      .cancelled 6 (some ⟨1, 5, 2⟩), .handed .reset true,
      .handed (.immediateStop ⟨1, 5, 2⟩) false]) (by decide +kernel)
  obtain ⟨-, -, hcancel⟩ := media_barrier hr
  refine ⟨s, hr, of_decide_eq_true hlog, ?_⟩
  intro before stop after h
  exact (hcancel before 6 (some stop) after h).1

end Muxiva.Xiaozhi
