import Muxiva.Lib.WaitGraph
import Muxiva.Studio.MediaDump

/-! When the threads of the store wait for one another: `finish_session` holds `active` before a
full channel, `status_json` holds `sessions` and wants `active`, and the writer, which would make
room, wants `sessions`. -/
set_option linter.all false
namespace Muxiva.Studio

open Transition.System WaitGraph

inductive Thread where
  | caller (n : ℕ)
  | writer
  deriving DecidableEq, Repr

/-- In the critical section of `finish_session`, before its send. -/
def Caller.finishing : Caller → Bool
  | .finishSends _ => true
  | _ => false

/-- In the critical section of `status_json`. -/
def Caller.reporting : Caller → Bool
  | .statusLocksActive | .statusReads => true
  | _ => false

def Writer.wantsSessions : Writer → Bool
  | .publishesBeforeStart _ | .recordsFailure | .publishes => true
  | .receives | .opens _ => false

namespace MediaDumpStore

/-- Whom a thread waits for: the holder of the mutex it wants, or the writer for room. -/
def waits (s : MediaDumpStore) : Thread → Option Thread
  | .caller n =>
    match s.callers n with
    | .startLocksActive _ | .finishLocksActive _ | .statusLocksActive =>
      s.activeHolder.map .caller
    | .startLocksSessions _ | .statusLocksSessions | .readLocksSessions =>
      s.sessionsHolder.map .caller
    | .startSends _ | .finishSends _ => if s.full then some .writer else none
    | .idle | .statusReads => none
  | .writer => if s.writer.wantsSessions then s.sessionsHolder.map .caller else none

def finishWaits (s : MediaDumpStore) : Prop := ∃ n, (s.callers n).finishing

def statusWaits (s : MediaDumpStore) : Prop := ∃ n, s.callers n = .statusLocksActive

/-- The step is the one that completes the cycle of waits. -/
def closesCycle (s : MediaDumpStore) : Action → Prop
  | .observeFrame media =>
    s.enabled ∧ media ∧ s.queue.length + 1 = captureQueueFrames ∧ s.finishWaits ∧
      s.statusWaits ∧ s.writer.wantsSessions
  | .caller n =>
    match s.callers n with
    | .startSends _ =>
      s.queue.length + 1 = captureQueueFrames ∧ s.finishWaits ∧ s.statusWaits ∧
        s.writer.wantsSessions
    | .finishLocksActive runId =>
      s.active = some (runId, false) ∧ s.full ∧ s.statusWaits ∧ s.writer.wantsSessions
    | .statusLocksSessions => s.full ∧ s.finishWaits ∧ s.writer.wantsSessions
    | _ => False
  | .writer opened =>
    (∃ runId, s.writer = .opens runId) ∧ ¬opened ∧ s.full ∧ s.finishWaits ∧ s.statusWaits
  | _ => False

/-- All four waits of the cycle. -/
structure Jammed (s : MediaDumpStore) : Prop where
  full : s.full
  finish : s.finishWaits
  status : s.statusWaits
  writer : s.writer.wantsSessions

/-- The mutexes are held by the callers that are inside, and the channel keeps to its bound. -/
structure Held (s : MediaDumpStore) : Prop where
  active : ∀ n, s.activeHolder = some n ↔ (s.callers n).finishing
  sessions : ∀ n, s.sessionsHolder = some n ↔ (s.callers n).reporting
  bounded : s.queue.length ≤ captureQueueFrames

theorem held_new : Held .new := by
  constructor
  · simp [MediaDumpStore.new, Caller.finishing]
  · simp [MediaDumpStore.new, Caller.reporting]
  · simp [MediaDumpStore.new]

theorem full_iff {s : MediaDumpStore} : s.full ↔ captureQueueFrames ≤ s.queue.length := by
  simp [MediaDumpStore.full]

variable {s s' : MediaDumpStore} {n : ℕ} {pc : Caller}

/-- A caller moves, entering or leaving a critical section as its holder says. -/
theorem Held.moves (h : Held s) (hcallers : s'.callers = Function.update s.callers n pc)
    (hactive : s'.activeHolder = some n ↔ pc.finishing)
    (hsessions : s'.sessionsHolder = some n ↔ pc.reporting)
    (hothers : ∀ m, m ≠ n → (s'.activeHolder = some m ↔ s.activeHolder = some m) ∧
      (s'.sessionsHolder = some m ↔ s.sessionsHolder = some m))
    (hqueue : s'.queue.length ≤ captureQueueFrames) : Held s' := by
  constructor
  · intro m
    rw [hcallers]
    by_cases hm : m = n
    · subst hm
      simpa using hactive
    · rw [(hothers m hm).1, Function.update_of_ne hm]
      exact h.active m
  · intro m
    rw [hcallers]
    by_cases hm : m = n
    · subst hm
      simpa using hsessions
    · rw [(hothers m hm).2, Function.update_of_ne hm]
      exact h.sessions m
  · exact hqueue

/-- A caller moves outside the critical sections. -/
theorem Held.movesOutside (h : Held s) (hcallers : s'.callers = Function.update s.callers n pc)
    (hactive : s'.activeHolder = s.activeHolder) (hsessions : s'.sessionsHolder = s.sessionsHolder)
    (hfinishing : pc.finishing = (s.callers n).finishing)
    (hreporting : pc.reporting = (s.callers n).reporting)
    (hqueue : s'.queue.length ≤ captureQueueFrames) : Held s' := by
  apply h.moves hcallers
  · rw [hactive, hfinishing, h.active]
  · rw [hsessions, hreporting, h.sessions]
  · intro m _
    rw [hactive, hsessions]
    exact ⟨Iff.rfl, Iff.rfl⟩
  · exact hqueue

/-- Steps of no caller leave the mutexes alone. -/
theorem Held.frame (h : Held s) (hcallers : s'.callers = s.callers)
    (hactive : s'.activeHolder = s.activeHolder) (hsessions : s'.sessionsHolder = s.sessionsHolder)
    (hqueue : s'.queue.length ≤ captureQueueFrames) : Held s' := by
  constructor
  · intro m
    rw [hcallers, hactive]
    exact h.active m
  · intro m
    rw [hcallers, hsessions]
    exact h.sessions m
  · exact hqueue

theorem length_le_of_not_full {queue : List Command} {command : Command}
    (h : ¬s.full) (hq : queue = s.queue ++ [command]) : queue.length ≤ captureQueueFrames := by
  rw [full_iff] at h
  rw [hq, List.length_append, List.length_singleton]
  omega

theorem Held.observeFrame (h : Held s) (media : Bool) : Held (s.observeFrame media) := by
  unfold MediaDumpStore.observeFrame
  split_ifs with hoff hfull
  · exact h
  · exact h.frame rfl rfl rfl h.bounded
  · exact h.frame rfl rfl rfl (length_le_of_not_full hfull rfl)

theorem Held.call (h : Held s) {operation : Operation} (hs : s.call n operation = some s') :
    Held s' := by
  unfold MediaDumpStore.call at hs
  cases hpc : s.callers n with
  | idle =>
    cases operation with
    | startSession runId | finishSession runId | statusJson | readArtifact =>
      simp only [hpc, Option.some.injEq] at hs
      subst hs
      exact h.movesOutside rfl rfl rfl (by rw [hpc]; rfl) (by rw [hpc]; rfl) h.bounded
  | _ =>
    rw [hpc] at hs
    cases hs

theorem Held.stepCaller (h : Held s) (hs : s.stepCaller n = some s') : Held s' := by
  unfold MediaDumpStore.stepCaller at hs
  have hactive := h.active n
  have hsessions := h.sessions n
  cases hpc : s.callers n with
  | idle =>
    rw [hpc] at hs
    cases hs
  | startLocksActive runId | startLocksSessions runId | statusLocksActive | readLocksSessions =>
    simp only [hpc, Option.ite_none_left_eq_some, Option.some.injEq] at hs
    obtain ⟨-, rfl⟩ := hs
    exact h.movesOutside rfl rfl rfl (by rw [hpc]; rfl) (by rw [hpc]; rfl) h.bounded
  | startSends runId =>
    simp only [hpc, Option.ite_none_left_eq_some, Option.some.injEq] at hs
    obtain ⟨hfull, rfl⟩ := hs
    exact h.movesOutside rfl rfl rfl (by rw [hpc]; rfl) (by rw [hpc]; rfl)
      (length_le_of_not_full hfull rfl)
  | finishLocksActive runId =>
    simp only [hpc, Option.ite_none_left_eq_some] at hs
    obtain ⟨hfree, hs⟩ := hs
    have hnone : s.activeHolder = none := by simpa using hfree
    rw [hpc] at hactive hsessions
    split at hs
    · split_ifs at hs with hcurrent
      · cases hs
        apply h.moves rfl
        · simp [MediaDumpStore.moveTo, Caller.finishing]
        · exact hsessions
        · intro m hm
          simp [MediaDumpStore.moveTo, hnone, Ne.symm hm]
        · exact h.bounded
      · cases hs
        exact h.movesOutside rfl rfl rfl (by rw [hpc]; rfl) (by rw [hpc]; rfl) h.bounded
    · cases hs
      exact h.movesOutside rfl rfl rfl (by rw [hpc]; rfl) (by rw [hpc]; rfl) h.bounded
  | finishSends runId =>
    simp only [hpc, Option.ite_none_left_eq_some, Option.some.injEq] at hs
    obtain ⟨hfull, rfl⟩ := hs
    rw [hpc] at hactive hsessions
    have hn : s.activeHolder = some n := hactive.mpr rfl
    apply h.moves rfl
    · simp [MediaDumpStore.moveTo, Caller.finishing]
    · exact hsessions
    · intro m hm
      simp [MediaDumpStore.moveTo, hn, Ne.symm hm]
    · exact length_le_of_not_full hfull rfl
  | statusLocksSessions =>
    simp only [hpc, Option.ite_none_left_eq_some, Option.some.injEq] at hs
    obtain ⟨hfree, rfl⟩ := hs
    have hnone : s.sessionsHolder = none := by simpa using hfree
    rw [hpc] at hactive hsessions
    apply h.moves rfl
    · exact hactive
    · simp [MediaDumpStore.moveTo, Caller.reporting]
    · intro m hm
      simp [MediaDumpStore.moveTo, hnone, Ne.symm hm]
    · exact h.bounded
  | statusReads =>
    simp only [hpc, Option.some.injEq] at hs
    subst hs
    rw [hpc] at hactive hsessions
    have hn : s.sessionsHolder = some n := hsessions.mpr rfl
    apply h.moves rfl
    · exact hactive
    · simp [MediaDumpStore.moveTo, Caller.reporting]
    · intro m hm
      simp [MediaDumpStore.moveTo, hn, Ne.symm hm]
    · exact h.bounded

/-- The writer makes room, takes `sessions` for a moment, or opens a session. -/
theorem stepWriter_cases {opened : Bool} (hs : s.stepWriter opened = some s') :
    (s'.callers = s.callers ∧ s'.activeHolder = s.activeHolder ∧
      s'.sessionsHolder = s.sessionsHolder) ∧
    (s.writer = .receives ∧ s'.queue.length + 1 = s.queue.length ∨
      s.writer.wantsSessions ∧ s.sessionsHolder = none ∧ s'.queue = s.queue ∨
      (∃ runId, s.writer = .opens runId) ∧ s'.queue = s.queue ∧
        (s'.writer.wantsSessions ↔ ¬opened)) := by
  unfold MediaDumpStore.stepWriter at hs
  cases hw : s.writer with
  | receives =>
    simp only [hw] at hs
    split at hs
    · cases hs
    · cases hs
      simp [*]
    · cases hs
      simp [*]
    · split_ifs at hs
      · cases hs
        simp [*]
      · cases hs
        simp [*]
  | publishesBeforeStart runId | recordsFailure | publishes =>
    simp only [hw, Option.ite_none_left_eq_some, Option.some.injEq] at hs
    obtain ⟨hfree, rfl⟩ := hs
    have hnone : s.sessionsHolder = none := by simpa using hfree
    simp [hnone, Writer.wantsSessions]
  | opens runId =>
    simp only [hw] at hs
    split_ifs at hs with hopened
    · cases hs
      simp [hopened, Writer.wantsSessions]
    · cases hs
      simp [hopened, Writer.wantsSessions]

theorem Held.step (h : Held s) {a : Action} (hs : s.step a = some s') : Held s' := by
  cases a with
  | setEnabled enabled =>
    cases hs
    exact h.frame rfl rfl rfl h.bounded
  | observeFrame media =>
    cases hs
    exact h.observeFrame media
  | call n operation => exact h.call hs
  | caller n => exact h.stepCaller hs
  | writer opened =>
    obtain ⟨⟨hcallers, hactive, hsessions⟩, hcases⟩ := stepWriter_cases hs
    apply h.frame hcallers hactive hsessions
    have hbounded := h.bounded
    rcases hcases with ⟨-, hqueue⟩ | ⟨-, -, hqueue⟩ | ⟨-, hqueue, -⟩
    · omega
    · rw [hqueue]
      exact hbounded
    · rw [hqueue]
      exact hbounded

theorem Held.of_reachable (hr : mediaDumpSystem.Reachable s) : Held s := by
  apply hr.invariant
  · rintro s rfl
    exact held_new
  · intro s a s' _ h hs
    exact h.step hs

section Cycle
variable {D : Set Thread}

/-- Who waits for the holder of `active` waits for a `finish_session` before a full channel. -/
theorem Held.active_stuck (h : Held s) (hD : Stuck s.waits D)
    (hn : s.activeHolder = some n) (hmem : .caller n ∈ D) :
    s.full ∧ s.finishWaits ∧ .writer ∈ D := by
  have hfinishing := (h.active n).mp hn
  have hwaits := hD.ne_none hmem
  cases hpc : s.callers n with
  | finishSends runId =>
    have hfull : s.full = true := by
      simpa [MediaDumpStore.waits, hpc] using hwaits
    refine ⟨hfull, ⟨n, hfinishing⟩, hD.mem hmem ?_⟩
    simp [MediaDumpStore.waits, hpc, hfull]
  | _ =>
    rw [hpc] at hfinishing
    cases hfinishing

/-- Who waits for the holder of `sessions` waits for a `status_json` that wants `active`. -/
theorem Held.sessions_stuck (h : Held s) (hD : Stuck s.waits D)
    (hn : s.sessionsHolder = some n) (hmem : .caller n ∈ D) :
    s.statusWaits ∧ ∃ m, s.activeHolder = some m ∧ .caller m ∈ D := by
  have hreporting := (h.sessions n).mp hn
  obtain ⟨t, ht, hwaits⟩ := hD.closed _ hmem
  cases hpc : s.callers n with
  | statusLocksActive =>
    simp only [MediaDumpStore.waits, hpc, Option.map_eq_some_iff] at hwaits
    obtain ⟨m, hm, rfl⟩ := hwaits
    exact ⟨⟨n, hpc⟩, m, hm, ht⟩
  | statusReads => simp [MediaDumpStore.waits, hpc] at hwaits
  | _ =>
    rw [hpc] at hreporting
    cases hreporting

theorem Held.writer_stuck (hD : Stuck s.waits D) (hmem : .writer ∈ D) :
    s.writer.wantsSessions ∧ ∃ n, s.sessionsHolder = some n ∧ .caller n ∈ D := by
  obtain ⟨t, ht, hwaits⟩ := hD.closed _ hmem
  simp only [MediaDumpStore.waits, Option.ite_none_right_eq_some, Option.map_eq_some_iff] at hwaits
  obtain ⟨hwants, n, hn, rfl⟩ := hwaits
  exact ⟨hwants, n, hn, ht⟩

/-- Every cycle of waits goes through the writer. -/
theorem Held.writer_mem (h : Held s) (hD : Stuck s.waits D) : .writer ∈ D := by
  have hactive : ∀ {n}, s.activeHolder = some n → .caller n ∈ D → .writer ∈ D :=
    fun hn hmem => (h.active_stuck hD hn hmem).2.2
  have hsessions : ∀ {n}, s.sessionsHolder = some n → .caller n ∈ D → .writer ∈ D := by
    intro n hn hmem
    obtain ⟨-, m, hm, hmem⟩ := h.sessions_stuck hD hn hmem
    exact hactive hm hmem
  obtain ⟨t, ht⟩ := hD.nonempty
  cases t with
  | writer => exact ht
  | caller n =>
    obtain ⟨u, hu, hwaits⟩ := hD.closed _ ht
    unfold MediaDumpStore.waits at hwaits
    cases hpc : s.callers n with
    | idle | statusReads => simp [hpc] at hwaits
    | startLocksActive runId | finishLocksActive runId | statusLocksActive =>
      simp only [hpc, Option.map_eq_some_iff] at hwaits
      obtain ⟨m, hm, rfl⟩ := hwaits
      exact hactive hm hu
    | startLocksSessions runId | statusLocksSessions | readLocksSessions =>
      simp only [hpc, Option.map_eq_some_iff] at hwaits
      obtain ⟨m, hm, rfl⟩ := hwaits
      exact hsessions hm hu
    | startSends runId | finishSends runId =>
      simp only [hpc, Option.ite_none_right_eq_some, Option.some.injEq] at hwaits
      obtain ⟨-, rfl⟩ := hwaits
      exact hu

theorem Held.deadlocked_iff (h : Held s) : Deadlocked s.waits ↔ s.Jammed := by
  constructor
  · rintro ⟨D, hD⟩
    obtain ⟨hwriter, n, hn, hmem⟩ := Held.writer_stuck hD (h.writer_mem hD)
    obtain ⟨hstatus, m, hm, hmem⟩ := h.sessions_stuck hD hn hmem
    obtain ⟨hfull, hfinish, -⟩ := h.active_stuck hD hm hmem
    exact ⟨hfull, hfinish, hstatus, hwriter⟩
  · rintro ⟨hfull, ⟨n, hn⟩, ⟨m, hm⟩, hwriter⟩
    have hactive := (h.active n).mpr hn
    have hsessions : s.sessionsHolder = some m := (h.sessions m).mpr (by rw [hm]; rfl)
    apply deadlocked_of_cycle (a := .caller n) (b := .writer) (c := .caller m)
    · unfold MediaDumpStore.waits
      cases hpc : s.callers n with
      | finishSends runId => simp [hpc, hfull]
      | _ =>
        rw [hpc] at hn
        cases hn
    · simp [MediaDumpStore.waits, hwriter, hsessions]
    · simp [MediaDumpStore.waits, hm, hactive]

end Cycle

/-! ### The step into the cycle -/

theorem Held.finishWaits_iff (h : Held s) : s.finishWaits ↔ s.activeHolder.isSome := by
  rw [Option.isSome_iff_exists]
  exact exists_congr fun n => (h.active n).symm

theorem Held.not_statusWaits (h : Held s) (hfree : s.sessionsHolder = none) : ¬s.statusWaits := by
  rintro ⟨m, hm⟩
  have hholder : s.sessionsHolder = some m := (h.sessions m).mpr (by rw [hm]; rfl)
  rw [hfree] at hholder
  cases hholder

theorem jammed_iff : s.Jammed ↔
    s.full ∧ s.finishWaits ∧ s.statusWaits ∧ s.writer.wantsSessions :=
  ⟨fun h => ⟨h.full, h.finish, h.status, h.writer⟩, fun ⟨hf, ha, hb, hw⟩ => ⟨hf, ha, hb, hw⟩⟩

theorem finishWaits_moves (hcallers : s'.callers = Function.update s.callers n pc)
    (hpc : pc.finishing = (s.callers n).finishing) : s'.finishWaits ↔ s.finishWaits := by
  apply exists_congr
  intro m
  rw [hcallers]
  by_cases hm : m = n
  · subst hm
    rw [Function.update_self, hpc]
  · rw [Function.update_of_ne hm]

theorem statusWaits_moves (hcallers : s'.callers = Function.update s.callers n pc)
    (hpc : pc = .statusLocksActive ↔ s.callers n = .statusLocksActive) :
    s'.statusWaits ↔ s.statusWaits := by
  apply exists_congr
  intro m
  rw [hcallers]
  by_cases hm : m = n
  · subst hm
    rw [Function.update_self, hpc]
  · rw [Function.update_of_ne hm]

/-- A caller moves outside the two waits. -/
theorem not_jammed_moves (hfree : ¬s.Jammed)
    (hcallers : s'.callers = Function.update s.callers n pc)
    (hqueue : s'.queue = s.queue) (hwriter : s'.writer = s.writer)
    (hfinish : pc.finishing = (s.callers n).finishing)
    (hstatus : pc = .statusLocksActive ↔ s.callers n = .statusLocksActive) : ¬s'.Jammed := by
  rw [jammed_iff, finishWaits_moves hcallers hfinish, statusWaits_moves hcallers hstatus,
    full_iff, hqueue, hwriter, ← full_iff, ← jammed_iff]
  exact hfree

/-- A send fills the channel exactly when one place was left. -/
theorem full_send {command : Command} (hfull : ¬s.full)
    (hqueue : s'.queue = s.queue ++ [command]) :
    s'.full ↔ s.queue.length + 1 = captureQueueFrames := by
  rw [full_iff] at hfull ⊢
  rw [hqueue, List.length_append, List.length_singleton]
  omega

theorem jammed_observeFrame (hfree : ¬s.Jammed) (media : Bool) :
    (s.observeFrame media).Jammed ↔ s.closesCycle (.observeFrame media) := by
  unfold MediaDumpStore.observeFrame closesCycle
  split_ifs with hoff hfull
  · simp only [Bool.or_eq_true, Bool.not_eq_true'] at hoff
    rcases hoff with hoff | hoff
    · simp [hfree, hoff]
    · simp [hfree, hoff]
  · have hroom : s.queue.length + 1 ≠ captureQueueFrames := by
      rw [full_iff] at hfull
      omega
    have hsame : MediaDumpStore.Jammed { s with droppedFrames := s.droppedFrames + 1 } ↔
        s.Jammed := by
      rw [jammed_iff, jammed_iff]
      exact Iff.rfl
    simp [hsame, hfree, hroom]
  · have hon : s.enabled = true ∧ media = true := by simpa using hoff
    rw [jammed_iff, full_send (s := s) hfull rfl]
    simp only [hon.1, hon.2, true_and]
    exact Iff.rfl

theorem jammed_call (hfree : ¬s.Jammed) {operation : Operation}
    (hs : s.call n operation = some s') : ¬s'.Jammed := by
  unfold MediaDumpStore.call at hs
  cases hpc : s.callers n with
  | idle =>
    cases operation with
    | startSession runId | finishSession runId | statusJson | readArtifact =>
      simp only [hpc, Option.some.injEq] at hs
      subst hs
      exact not_jammed_moves (n := n) hfree rfl rfl rfl (by rw [hpc]; rfl) (by simp [hpc])
  | _ =>
    rw [hpc] at hs
    cases hs

theorem Held.jammed_stepCaller (h' : Held s') (hfree : ¬s.Jammed)
    (hs : s.stepCaller n = some s') : s'.Jammed ↔ s.closesCycle (.caller n) := by
  unfold MediaDumpStore.stepCaller at hs
  unfold closesCycle
  cases hpc : s.callers n with
  | idle =>
    rw [hpc] at hs
    cases hs
  | startLocksActive runId | startLocksSessions runId | readLocksSessions =>
    simp only [hpc, Option.ite_none_left_eq_some, Option.some.injEq] at hs ⊢
    obtain ⟨-, rfl⟩ := hs
    apply iff_false_intro
    exact not_jammed_moves (n := n) hfree rfl rfl rfl (by rw [hpc]; rfl) (by simp [hpc])
  | startSends runId =>
    simp only [hpc, Option.ite_none_left_eq_some, Option.some.injEq] at hs ⊢
    have hfinish : s'.finishWaits ↔ s.finishWaits := by
      obtain ⟨-, rfl⟩ := hs
      exact finishWaits_moves (n := n) rfl (by rw [hpc]; rfl)
    have hstatus : s'.statusWaits ↔ s.statusWaits := by
      obtain ⟨-, rfl⟩ := hs
      exact statusWaits_moves (n := n) rfl (by simp [hpc])
    have hfull : s'.full ↔ s.queue.length + 1 = captureQueueFrames := by
      obtain ⟨hfull, rfl⟩ := hs
      exact full_send hfull rfl
    have hwriter : s'.writer = s.writer := by
      obtain ⟨-, rfl⟩ := hs
      rfl
    rw [jammed_iff, hfull, hfinish, hstatus, hwriter]
  | finishLocksActive runId =>
    simp only [hpc, Option.ite_none_left_eq_some] at hs ⊢
    obtain ⟨-, hs⟩ := hs
    have hstay : s.moveTo n .idle = s' → ¬s'.Jammed := by
      rintro rfl
      exact not_jammed_moves (n := n) hfree rfl rfl rfl (by rw [hpc]; rfl) (by simp [hpc])
    split at hs
    · rename_i current hactive
      split_ifs at hs with hcurrent
      · subst hcurrent
        have hn : s'.finishWaits := by
          cases hs
          exact ⟨n, by simp [MediaDumpStore.moveTo, Caller.finishing]⟩
        have hstatus : s'.statusWaits ↔ s.statusWaits := by
          cases hs
          exact statusWaits_moves (n := n) rfl (by simp [hpc])
        have hwriter : s'.writer = s.writer := by cases hs; rfl
        have hqueue : s'.full = s.full := by cases hs; rfl
        rw [jammed_iff, hstatus, hwriter, hqueue]
        simp [hn, hactive]
      · have hother : s.active ≠ some (runId, false) := by
          rw [hactive]
          simp [hcurrent]
        exact iff_of_false (hstay (Option.some.inj hs)) (fun hc => hother hc.1)
    · rename_i hother
      exact iff_of_false (hstay (Option.some.inj hs)) (fun hc => hother _ hc.1)
  | finishSends runId =>
    simp only [hpc, Option.ite_none_left_eq_some, Option.some.injEq] at hs ⊢
    have hnone : s'.activeHolder = none := by
      obtain ⟨-, rfl⟩ := hs
      rfl
    apply iff_false_intro
    intro hjammed
    have hfinish := h'.finishWaits_iff.mp hjammed.finish
    rw [hnone] at hfinish
    cases hfinish
  | statusLocksSessions =>
    simp only [hpc, Option.ite_none_left_eq_some, Option.some.injEq] at hs ⊢
    have hfinish : s'.finishWaits ↔ s.finishWaits := by
      obtain ⟨-, rfl⟩ := hs
      exact finishWaits_moves (n := n) rfl (by rw [hpc]; rfl)
    have hstatus : s'.statusWaits := by
      obtain ⟨-, rfl⟩ := hs
      exact ⟨n, by simp [MediaDumpStore.moveTo]⟩
    have hsame : s'.full = s.full ∧ s'.writer = s.writer := by
      obtain ⟨-, rfl⟩ := hs
      exact ⟨rfl, rfl⟩
    rw [jammed_iff, hfinish, hsame.1, hsame.2]
    simp [hstatus]
  | statusLocksActive =>
    simp only [hpc, Option.ite_none_left_eq_some, Option.some.injEq] at hs ⊢
    have hnone : s'.activeHolder = none := by
      obtain ⟨hnone, rfl⟩ := hs
      simpa [MediaDumpStore.moveTo] using hnone
    apply iff_false_intro
    intro hjammed
    have hfinish := h'.finishWaits_iff.mp hjammed.finish
    rw [hnone] at hfinish
    cases hfinish
  | statusReads =>
    simp only [hpc, Option.some.injEq] at hs ⊢
    subst hs
    exact iff_false_intro fun hjammed => h'.not_statusWaits rfl hjammed.status

theorem Held.jammed_stepWriter (h : Held s) {opened : Bool}
    (hs : s.stepWriter opened = some s') : s'.Jammed ↔ s.closesCycle (.writer opened) := by
  obtain ⟨⟨hcallers, hactive, hsessions⟩, hcases⟩ := stepWriter_cases hs
  have hfinish : s'.finishWaits ↔ s.finishWaits := by
    unfold finishWaits
    rw [hcallers]
  have hstatus : s'.statusWaits ↔ s.statusWaits := by
    unfold statusWaits
    rw [hcallers]
  have hbounded := h.bounded
  unfold closesCycle
  rw [jammed_iff, hfinish, hstatus]
  rcases hcases with ⟨hw, hqueue⟩ | ⟨hw, hfree, -⟩ | ⟨hw, hqueue, hwants⟩
  · apply iff_of_false
    · rintro ⟨hfull, -⟩
      rw [full_iff] at hfull
      omega
    · rintro ⟨⟨runId, hopens⟩, -⟩
      rw [hw] at hopens
      cases hopens
  · have hnot := h.not_statusWaits hfree
    simp [hnot]
  · rw [hwants, full_iff, full_iff, hqueue]
    simp only [hw, true_and]
    constructor
    · rintro ⟨hfull, hfinishing, hreading, hclosed⟩
      exact ⟨hclosed, hfull, hfinishing, hreading⟩
    · rintro ⟨hclosed, hfull, hfinishing, hreading⟩
      exact ⟨hfull, hfinishing, hreading, hclosed⟩

theorem Held.jammed_step (h : Held s) (hfree : ¬s.Jammed) {a : Action}
    (hs : s.step a = some s') : s'.Jammed ↔ s.closesCycle a := by
  have h' := h.step hs
  cases a with
  | setEnabled enabled =>
    cases hs
    rw [jammed_iff] at hfree ⊢
    exact iff_false_intro hfree
  | observeFrame media =>
    cases hs
    exact jammed_observeFrame hfree media
  | call n operation => exact iff_false_intro (jammed_call hfree hs)
  | caller n => exact h'.jammed_stepCaller hfree hs
  | writer opened => exact h.jammed_stepWriter hs

end MediaDumpStore

open MediaDumpStore

/-- A step from a state in which the threads do not wait for one another. -/
theorem deadlocked_step_iff {s s' : MediaDumpStore} {a : Action} (hr : mediaDumpSystem.Reachable s)
    (hfree : ¬Deadlocked s.waits) (hs : mediaDumpSystem.step s a = some s') :
    Deadlocked s'.waits ↔ s.closesCycle a := by
  have h := Held.of_reachable hr
  have h' : Held s' := h.step hs
  rw [h.deadlocked_iff] at hfree
  rw [h'.deadlocked_iff]
  exact h.jammed_step hfree hs

end Muxiva.Studio
