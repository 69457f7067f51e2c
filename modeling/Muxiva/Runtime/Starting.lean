import Mathlib.Algebra.BigOperators.Group.Finset.Basic
import Mathlib.Algebra.Order.BigOperators.Group.Finset
import Muxiva.Runtime.Launch

/-! A start that fails has run nothing and leaves nothing that could run; one that succeeds forgets
no thread at the gate. -/
set_option linter.all false
namespace Muxiva.Runtime

open Transition Transition.System

/-- The task behind the gate has been entered. -/
def LaunchPc.ran : LaunchPc → Bool
  | .body => true
  | .exited ran => ran
  | _ => false

namespace Starter

/-- How many of the `n` threads at the gate have been created. -/
def created (n : ℕ) : Starter → ℕ
  | .spawns k => k
  | .cancels k => k
  | .closes k => k
  | .joins k _ => k
  | .releases => n
  | .notifies failed => failed.getD n
  | .returned failed => failed.getD n

/-- What `release` or `cancel` has written. -/
def gate : Starter → Option Bool
  | .notifies failed => some failed.isNone
  | .returned failed => some failed.isNone
  | .closes _ => some false
  | .joins _ _ => some false
  | _ => none

/-- `notify_all` has been called. -/
def notified : Starter → Bool
  | .closes _ => true
  | .joins _ _ => true
  | .returned _ => true
  | _ => false

/-- How many threads have been joined. -/
def joined : Starter → ℕ
  | .joins _ j => j
  | .returned (some k) => k
  | _ => 0

/-- Every spawn has succeeded. -/
def complete : Starter → Bool
  | .releases => true
  | .notifies failed => failed.isNone
  | .returned failed => failed.isNone
  | _ => false

/-- The queues of a failed start have been closed. -/
def shut : Starter → Bool
  | .joins _ _ => true
  | .returned failed => failed.isSome
  | _ => false

theorem gate_of_notified {starter : Starter} (h : starter.notified = true) :
    starter.gate ≠ none := by
  cases starter with
  | closes k => exact Option.some_ne_none _
  | joins k j => exact Option.some_ne_none _
  | returned failed => exact Option.some_ne_none _
  | _ => cases h

theorem gate_of_complete {starter : Starter} (h : starter.complete = true) :
    starter.gate = none ∨ starter.gate = some true := by
  cases starter with
  | releases => exact .inl rfl
  | notifies failed => exact .inr (congrArg some h)
  | returned failed => exact .inr (congrArg some h)
  | _ => cases h

theorem complete_of_gate {starter : Starter} {n : ℕ} (h : starter.gate = some true) :
    starter.complete = true ∧ starter.created n = n := by
  cases starter with
  | notifies failed => cases failed <;> first | exact ⟨rfl, rfl⟩ | cases h
  | returned failed => cases failed <;> first | exact ⟨rfl, rfl⟩ | cases h
  | _ => cases h

end Starter

namespace Launch

/-- Where a thread can be. -/
structure Allowed (s : Launch) (pc : LaunchPc) : Prop where
  ran : pc.ran = true → s.gate = some true
  refused : pc = .exited false → s.gate = some false
  awake : s.starter.notified = true → pc ≠ .asleep

structure Sound (g : GraphDefinition) (s : Launch) : Prop where
  gate : s.gate = s.starter.gate
  bound : s.starter.created (launchOrder g).length ≤ (launchOrder g).length
  born : ∀ i, s.threads i = .unborn ↔ s.starter.created (launchOrder g).length ≤ i
  allowed : ∀ i, s.Allowed (s.threads i)
  handles : s.starter.joined ≤ s.starter.created (launchOrder g).length
  joined : ∀ i < s.starter.joined, s.threads i = .exited false
  coordinator : s.coordinator = .unborn ↔ s.starter.complete = false
  stopped : s.stopped = s.starter.shut
  collected : s.coordinator = .coordinates →
    ∀ i < (launchOrder g).length, s.threads i = .exited true

variable {g : GraphDefinition} {s s' : Launch}

theorem sound_new : new.Sound g := by
  constructor
  · rfl
  · exact Nat.zero_le _
  · intro i
    exact ⟨fun _ => Nat.zero_le i, fun _ => rfl⟩
  · intro i
    constructor
    · intro hran
      cases hran
    · intro hrefused
      cases hrefused
    · intro _ hasleep
      cases hasleep
  · exact Nat.zero_le _
  · intro i hi
    exact absurd hi (Nat.not_lt_zero i)
  · exact ⟨fun _ => rfl, fun _ => rfl⟩
  · rfl
  · intro hcoordinates
    cases hcoordinates

/-- Before the gate is set nobody has passed it. -/
theorem Sound.undecided (h : s.Sound g) (hgate : s.gate = none) (i : ℕ) :
    (s.threads i).ran = false ∧ s.threads i ≠ .exited false := by
  constructor
  · cases hran : (s.threads i).ran with
    | false => rfl
    | true =>
      have hset := (h.allowed i).ran hran
      rw [hgate] at hset
      cases hset
  · intro hrefused
    have hset := (h.allowed i).refused hrefused
    rw [hgate] at hset
    cases hset

/-- A thread that has exited has run if the gate was released, and has not if it was cancelled. -/
theorem Sound.exited_eq (h : s.Sound g) {i : ℕ} (hexited : (s.threads i).isExited = true)
    {released : Bool} (hgate : s.starter.gate = none ∨ s.starter.gate = some released) :
    s.threads i = .exited released := by
  rw [← h.gate] at hgate
  cases hpc : s.threads i with
  | exited ran =>
    have hset : s.gate = some ran := by
      cases ran with
      | true => exact (h.allowed i).ran (by rw [hpc]; rfl)
      | false => exact (h.allowed i).refused hpc
    rcases hgate with hnone | hsome
    · cases hnone.symm.trans hset
    · cases hsome.symm.trans hset
      rfl
  | _ =>
    rw [hpc] at hexited
    cases hexited

/-- A thread moves that exists and has not exited. -/
theorem Sound.setThread (h : s.Sound g) {i : ℕ} {pc : LaunchPc} (hborn : s.threads i ≠ .unborn)
    (hlive : (s.threads i).isExited = false) (hpc : pc ≠ .unborn) (hallowed : s.Allowed pc) :
    (s.setThread i pc).Sound g := by
  have hkept : ∀ {j ran}, s.threads j = .exited ran →
      Function.update s.threads i pc j = .exited ran := by
    intro j ran hj
    have hji : j ≠ i := by
      rintro rfl
      rw [hj] at hlive
      cases hlive
    rw [Function.update_of_ne hji, hj]
  refine ⟨h.gate, h.bound, ?_, ?_, h.handles, ?_, h.coordinator, h.stopped, ?_⟩
  · intro j
    by_cases hji : j = i
    · subst hji
      have hle := mt (h.born j).mpr hborn
      simp only [Launch.setThread, Function.update_self]
      exact iff_of_false hpc hle
    · simp only [Launch.setThread, Function.update_of_ne hji]
      exact h.born j
  · intro j
    by_cases hji : j = i
    · subst hji
      simp only [Launch.setThread, Function.update_self]
      exact ⟨hallowed.ran, hallowed.refused, hallowed.awake⟩
    · simp only [Launch.setThread, Function.update_of_ne hji]
      have hj := h.allowed j
      exact ⟨hj.ran, hj.refused, hj.awake⟩
  · exact fun j hj => hkept (h.joined j hj)
  · exact fun hcoordinates j hj => hkept (h.collected hcoordinates j hj)

theorem Sound.stepThread (h : s.Sound g) {i : ℕ} (hs : s.stepThread i = some s') : s'.Sound g := by
  unfold Launch.stepThread at hs
  split at hs
  next hlooks =>
    have hborn : s.threads i ≠ .unborn := by
      rw [hlooks]
      exact LaunchPc.noConfusion
    have hlive : (s.threads i).isExited = false := by
      rw [hlooks]
      rfl
    split at hs
    next hgate =>
      cases hs
      apply h.setThread hborn hlive LaunchPc.noConfusion
      refine ⟨(fun hran => by cases hran), LaunchPc.noConfusion, ?_⟩
      exact fun hnotified => absurd (h.gate.symm.trans hgate) (Starter.gate_of_notified hnotified)
    next hgate =>
      cases hs
      apply h.setThread hborn hlive LaunchPc.noConfusion
      exact ⟨fun _ => hgate, LaunchPc.noConfusion, fun _ => LaunchPc.noConfusion⟩
    next hgate =>
      cases hs
      apply h.setThread hborn hlive LaunchPc.noConfusion
      exact ⟨(fun hran => by cases hran), fun _ => hgate, fun _ => LaunchPc.noConfusion⟩
  next => cases hs

theorem Sound.spawn (h : s.Sound g) {k : ℕ} (hst : s.starter = .spawns k) (fails : Bool) :
    (s.spawn g k fails).Sound g := by
  obtain ⟨gate, starter, threads, coordinator, stopped⟩ := s
  cases hst
  have hunborn : coordinator = .unborn := h.coordinator.mpr rfl
  have hbound : k ≤ (launchOrder g).length := h.bound
  unfold Launch.spawn
  split_ifs with hfails hk
  · exact ⟨h.gate, hbound, h.born, fun i => ⟨(h.allowed i).ran, (h.allowed i).refused,
      (fun hnotified => by cases hnotified)⟩, Nat.zero_le _, h.joined, h.coordinator, h.stopped, h.collected⟩
  · refine ⟨h.gate, hk, ?_, ?_, Nat.zero_le _, ?_, h.coordinator, h.stopped, ?_⟩
    · intro i
      have hold : threads i = .unborn ↔ k ≤ i := h.born i
      simp only [Launch.setThread, Starter.created]
      by_cases hik : i = k
      · subst hik
        rw [Function.update_self]
        exact iff_of_false LaunchPc.noConfusion (by omega)
      · rw [Function.update_of_ne hik, hold]
        omega
    · intro i
      by_cases hik : i = k
      · subst hik
        simp only [Launch.setThread, Function.update_self]
        exact ⟨(fun hran => by cases hran), LaunchPc.noConfusion, fun _ => LaunchPc.noConfusion⟩
      · simp only [Launch.setThread, Function.update_of_ne hik]
        exact ⟨(h.allowed i).ran, (h.allowed i).refused, (fun hnotified => by cases hnotified)⟩
    · exact fun i hi => absurd hi (Nat.not_lt_zero i)
    · intro hcoordinates
      cases hunborn.symm.trans hcoordinates
  · have hall : k = (launchOrder g).length := by omega
    refine ⟨h.gate, le_refl _, ?_, ?_, Nat.zero_le _, ?_, ?_, h.stopped, ?_⟩
    · intro i
      have hold : threads i = .unborn ↔ k ≤ i := h.born i
      rwa [hall] at hold
    · exact fun i => ⟨(h.allowed i).ran, (h.allowed i).refused, (fun hnotified => by cases hnotified)⟩
    · exact fun i hi => absurd hi (Nat.not_lt_zero i)
    · exact iff_of_false CoordinatorThread.noConfusion Bool.noConfusion
    · intro hcoordinates
      cases hcoordinates

/-- The gate is set once, when no thread has passed it. -/
theorem Sound.sets (h : s.Sound g) (starter : Starter) {released : Bool}
    (hgate : s.gate = none) (hset : starter.gate = some released) (hnotified : starter.notified = false)
    (hcreated : starter.created (launchOrder g).length = s.starter.created (launchOrder g).length)
    (hjoined : starter.joined = 0) (hcomplete : starter.complete = s.starter.complete)
    (hshut : starter.shut = s.starter.shut) :
    Sound g { s with gate := some released, starter } := by
  refine ⟨hset.symm, ?_, ?_, ?_, ?_, ?_, ?_, ?_, h.collected⟩
  · simp only [hcreated]
    exact h.bound
  · simp only [hcreated]
    exact h.born
  · intro i
    obtain ⟨hran, hrefused⟩ := h.undecided hgate i
    refine ⟨?_, fun heq => absurd heq hrefused, ?_⟩
    · intro htrue
      rw [hran] at htrue
      cases htrue
    · intro htrue
      rw [hnotified] at htrue
      cases htrue
  · simp only [hjoined]
    exact Nat.zero_le _
  · intro i hi
    simp only [hjoined] at hi
    exact absurd hi (Nat.not_lt_zero i)
  · simp only [hcomplete]
    exact h.coordinator
  · simp only [hshut]
    exact h.stopped

/-- Whom `notify_all` wakes looks again. -/
theorem Sound.notifies (h : s.Sound g) (starter : Starter) (hgate : s.starter.gate = starter.gate)
    (hcreated : starter.created (launchOrder g).length = s.starter.created (launchOrder g).length)
    (hjoined : ∀ i < starter.joined, s.threads i = .exited false)
    (hhandles : starter.joined ≤ s.starter.created (launchOrder g).length)
    (hcomplete : starter.complete = s.starter.complete) (hshut : starter.shut = s.starter.shut) :
    Sound g { s with threads := s.notifyAll, starter } := by
  have hkept : ∀ {i pc}, s.threads i = pc → pc ≠ .asleep → s.notifyAll i = pc := by
    intro i pc hpc hne
    rw [Launch.notifyAll, hpc, if_neg hne]
  refine ⟨h.gate.trans hgate, ?_, ?_, ?_, ?_, ?_, ?_, ?_, ?_⟩
  · simp only [hcreated]
    exact h.bound
  · intro i
    simp only [hcreated]
    rw [← h.born i]
    constructor
    · intro hnew
      by_contra hne
      simp only [Launch.notifyAll] at hnew
      split_ifs at hnew
      exact hne hnew
    · exact fun hold => hkept hold LaunchPc.noConfusion
  · intro i
    simp only [Launch.notifyAll]
    split_ifs with hasleep
    · exact ⟨(fun hran => by cases hran), LaunchPc.noConfusion, fun _ => LaunchPc.noConfusion⟩
    · exact ⟨(h.allowed i).ran, (h.allowed i).refused, fun _ => hasleep⟩
  · simp only [hcreated]
    exact hhandles
  · exact fun i hi => hkept (hjoined i hi) LaunchPc.noConfusion
  · simp only [hcomplete]
    exact h.coordinator
  · simp only [hshut]
    exact h.stopped
  · exact fun hcoordinates i hi => hkept (h.collected hcoordinates i hi) LaunchPc.noConfusion

theorem Sound.stepStarter (h : s.Sound g) (hs : s.stepStarter = some s') : s'.Sound g := by
  obtain ⟨gate, starter, threads, coordinator, stopped⟩ := s
  cases starter with
  | spawns k => cases hs
  | releases =>
    cases hs
    exact h.sets (.notifies none) h.gate rfl rfl rfl rfl rfl rfl
  | cancels k =>
    cases hs
    exact h.sets (.notifies (some k)) h.gate rfl rfl rfl rfl rfl rfl
  | notifies failed =>
    cases failed with
    | none =>
      cases hs
      exact h.notifies (.returned none) rfl rfl
        (fun i hi => absurd hi (Nat.not_lt_zero i)) (Nat.zero_le _) rfl rfl
    | some k =>
      cases hs
      exact h.notifies (.closes k) rfl rfl
        (fun i hi => absurd hi (Nat.not_lt_zero i)) (Nat.zero_le _) rfl rfl
  | closes k =>
    cases hs
    exact ⟨h.gate, h.bound, h.born, fun i => ⟨(h.allowed i).ran, (h.allowed i).refused,
      (h.allowed i).awake⟩, Nat.zero_le _, h.joined, h.coordinator, rfl, h.collected⟩
  | joins k j =>
    have hhandles : j ≤ k := h.handles
    simp only [Launch.stepStarter] at hs
    split_ifs at hs with hjk hexited
    · cases hs
      refine ⟨h.gate, h.bound, h.born, fun i => ⟨(h.allowed i).ran, (h.allowed i).refused,
        (h.allowed i).awake⟩, hjk, ?_, h.coordinator, h.stopped, h.collected⟩
      intro i hi
      have hle : i < j + 1 := hi
      rcases Nat.lt_succ_iff_lt_or_eq.mp hle with hlt | rfl
      · exact h.joined i hlt
      · exact h.exited_eq hexited (.inr rfl)
    · cases hs
      have hjoined : ∀ i < k, threads i = .exited false := by
        intro i hi
        exact h.joined i (lt_of_lt_of_le hi (Nat.not_lt.mp hjk))
      exact ⟨h.gate, h.bound, h.born, fun i => ⟨(h.allowed i).ran, (h.allowed i).refused,
        (h.allowed i).awake⟩, le_refl _, hjoined, h.coordinator, h.stopped, h.collected⟩
  | returned failed => cases hs

theorem Sound.stepCoordinator (h : s.Sound g) (hs : s.stepCoordinator g = some s') :
    s'.Sound g := by
  unfold Launch.stepCoordinator at hs
  split_ifs at hs with hready
  cases hs
  obtain ⟨hcollects, hexited⟩ := hready
  have hcomplete : s.starter.complete = true := by
    rw [← Bool.not_eq_false, ← h.coordinator, hcollects]
    exact CoordinatorThread.noConfusion
  refine ⟨h.gate, h.bound, h.born, fun i => ⟨(h.allowed i).ran, (h.allowed i).refused,
    (h.allowed i).awake⟩, h.handles, h.joined, ?_, h.stopped, ?_⟩
  · refine iff_of_false CoordinatorThread.noConfusion ?_
    rw [hcomplete]
    exact Bool.noConfusion
  · intro _ i hi
    exact h.exited_eq (hexited i (List.mem_range.mpr hi)) (Starter.gate_of_complete hcomplete)

theorem Sound.step (h : s.Sound g) {a : LaunchAction} (hs : s.step g a = some s') :
    s'.Sound g := by
  cases a with
  | spawn fails =>
    simp only [Launch.step] at hs
    split at hs
    next k hst =>
      cases hs
      exact h.spawn hst fails
    next => cases hs
  | starter => exact h.stepStarter hs
  | thread i => exact h.stepThread hs
  | ends i =>
    simp only [Launch.step] at hs
    split_ifs at hs with hbody
    cases hs
    have hopen : s.gate = some true := (h.allowed i).ran (by rw [hbody]; rfl)
    apply h.setThread
    · rw [hbody]
      exact LaunchPc.noConfusion
    · rw [hbody]
      rfl
    · exact LaunchPc.noConfusion
    · exact ⟨fun _ => hopen, (fun heq => by cases heq), fun _ => LaunchPc.noConfusion⟩
  | wakes i =>
    simp only [Launch.step] at hs
    split_ifs at hs with hasleep
    cases hs
    apply h.setThread
    · rw [hasleep]
      exact LaunchPc.noConfusion
    · rw [hasleep]
      rfl
    · exact LaunchPc.noConfusion
    · exact ⟨(fun hran => by cases hran), LaunchPc.noConfusion, fun _ => LaunchPc.noConfusion⟩
  | coordinator => exact h.stepCoordinator hs

theorem sound_of_reachable (hr : (launching g).Reachable s) : s.Sound g := by
  apply hr.invariant
  · rintro s rfl
    exact sound_new
  · exact fun _ _ _ _ h hs => h.step hs

end Launch

/-- What happens without a task that ends or a spurious wake-up. -/
def LaunchAction.own : LaunchAction → Bool
  | .spawn _ => true
  | .starter => true
  | .thread _ => true
  | _ => false

/-- A bound for the turns a thread takes before it is woken or has passed the gate. -/
def LaunchPc.turns : LaunchPc → ℕ
  | .looks => 2
  | .asleep => 1
  | _ => 0

/-- A bound for the steps the starter takes. -/
def Starter.turns (n : ℕ) : Starter → ℕ
  | .spawns k => 2 * n + 7 - k
  | .releases => 3
  | .notifies none => 2
  | .returned _ => 0
  | .cancels _ => n + 5
  | .notifies (some _) => n + 4
  | .closes _ => n + 3
  | .joins _ j => n + 2 - j

namespace Launch

variable {g : GraphDefinition} {s s' t : Launch}

/-- The turns of the threads at the gate. -/
def turns (g : GraphDefinition) (s : Launch) : ℕ :=
  ∑ i ∈ Finset.range (launchOrder g).length, (s.threads i).turns

/-- A bound for the own steps of a launch. -/
def remaining (g : GraphDefinition) (s : Launch) : ℕ :=
  s.starter.turns (launchOrder g).length * (2 * (launchOrder g).length + 1) + s.turns g

theorem turns_le (g : GraphDefinition) (s : Launch) : s.turns g ≤ 2 * (launchOrder g).length := by
  have hle : s.turns g ≤ ∑ _i ∈ Finset.range (launchOrder g).length, 2 := by
    apply Finset.sum_le_sum
    intro i _
    cases s.threads i <;> simp [LaunchPc.turns]
  simpa [Nat.mul_comm] using hle

/-- A step of the starter costs more than it can give the threads. -/
theorem remaining_starter (hstarter : t.starter.turns (launchOrder g).length <
    s.starter.turns (launchOrder g).length) : t.remaining g < s.remaining g := by
  have hturns := turns_le g t
  have hmul := Nat.mul_le_mul_right (2 * (launchOrder g).length + 1) (Nat.succ_le_of_lt hstarter)
  rw [Nat.succ_mul] at hmul
  unfold remaining
  omega

theorem Sound.remaining_thread (h : s.Sound g) {i : ℕ} {pc : LaunchPc}
    (hlooks : s.threads i = .looks) (hpc : pc.turns < 2) :
    (s.setThread i pc).remaining g < s.remaining g := by
  have hi : i ∈ Finset.range (launchOrder g).length := by
    rw [Finset.mem_range]
    by_contra hle
    have hbound := h.bound
    have hunborn := (h.born i).mpr (by omega)
    rw [hlooks] at hunborn
    cases hunborn
  have hturns : (s.setThread i pc).turns g < s.turns g := by
    apply Finset.sum_lt_sum
    · intro j _
      by_cases hji : j = i
      · subst hji
        simp only [Launch.setThread, Function.update_self, hlooks]
        exact hpc.le
      · simp only [Launch.setThread, Function.update_of_ne hji, le_refl]
    · refine ⟨i, hi, ?_⟩
      simp only [Launch.setThread, Function.update_self, hlooks]
      exact hpc
  unfold remaining
  exact Nat.add_lt_add_left hturns _

theorem Sound.remaining_step (h : s.Sound g) {a : LaunchAction} (hown : a.own = true)
    (hs : s.step g a = some s') : s'.remaining g < s.remaining g := by
  cases a with
  | spawn fails =>
    simp only [Launch.step] at hs
    split at hs
    next k hst =>
      cases hs
      have hbound := h.bound
      rw [hst] at hbound
      have hk : k ≤ (launchOrder g).length := hbound
      apply remaining_starter
      rw [hst]
      unfold Launch.spawn
      split_ifs
      · simp only [Starter.turns]
        omega
      · simp only [Starter.turns]
        omega
      · simp only [Starter.turns]
        omega
    next => cases hs
  | starter =>
    apply remaining_starter
    have hhandles := h.handles
    have hbound := h.bound
    simp only [Launch.step, Launch.stepStarter] at hs
    split at hs
    next => cases hs
    next hst =>
      cases hs
      simp only [hst, Starter.turns]
      omega
    next k hst =>
      cases hs
      simp only [hst, Starter.turns]
      omega
    next hst =>
      cases hs
      simp only [hst, Starter.turns]
      omega
    next k hst =>
      cases hs
      simp only [hst, Starter.turns]
      omega
    next k hst =>
      cases hs
      simp only [hst, Starter.turns]
      omega
    next k j hst =>
      rw [hst] at hhandles hbound
      have hjk : j ≤ k := hhandles
      have hk : k ≤ (launchOrder g).length := hbound
      split_ifs at hs
      · cases hs
        simp only [hst, Starter.turns]
        omega
      · cases hs
        simp only [hst, Starter.turns]
        omega
    next => cases hs
  | thread i =>
    simp only [Launch.step, Launch.stepThread] at hs
    split at hs
    next hlooks =>
      split at hs
      · cases hs
        exact h.remaining_thread hlooks (by decide)
      · cases hs
        exact h.remaining_thread hlooks (by decide)
      · cases hs
        exact h.remaining_thread hlooks (by decide)
    next => cases hs
  | ends i => cases hown
  | wakes i => cases hown
  | coordinator => cases hown

theorem stepThread_cancelled {i : ℕ} (hlooks : s.threads i = .looks) (hgate : s.gate = some false) :
    s.stepThread i = some (s.setThread i (.exited false)) := by
  simp only [Launch.stepThread, hlooks, hgate]

/-- As long as `start` has not returned it can go on, or the thread it joins can. -/
theorem Sound.progress (h : s.Sound g) (hresult : s.result g = none) :
    ∃ a s', a.own = true ∧ s.step g a = some s' := by
  obtain ⟨gate, starter, threads, coordinator, stopped⟩ := s
  cases starter with
  | spawns k => exact ⟨.spawn false, _, rfl, rfl⟩
  | releases => exact ⟨.starter, _, rfl, rfl⟩
  | cancels k => exact ⟨.starter, _, rfl, rfl⟩
  | notifies failed => cases failed <;> exact ⟨.starter, _, rfl, rfl⟩
  | closes k => exact ⟨.starter, _, rfl, rfl⟩
  | joins k j =>
    have hgate : gate = some false := h.gate
    by_cases hjk : j < k
    · have hborn : threads j ≠ .unborn := mt (h.born j).mp (Nat.not_le.mpr hjk)
      cases hpc : threads j with
      | unborn => exact absurd hpc hborn
      | looks =>
        exact ⟨.thread j, _, rfl, stepThread_cancelled hpc hgate⟩
      | asleep => exact absurd hpc ((h.allowed j).awake rfl)
      | body =>
        have hopen : gate = some true := (h.allowed j).ran (congrArg LaunchPc.ran hpc)
        cases hgate.symm.trans hopen
      | exited ran =>
        have hexited : (threads j).isExited = true := congrArg LaunchPc.isExited hpc
        exact ⟨.starter, _, rfl, (if_pos hjk).trans (if_pos hexited)⟩
    · exact ⟨.starter, _, rfl, if_neg hjk⟩
  | returned failed => cases failed <;> cases hresult

/-- Own steps come to an end, and at their end `start` has returned. -/
theorem returns (hr : (launching g).Reachable s) :
    ∃ t, (launching g).StepsBy (fun _ a => a.own = true) s t ∧ t.result g ≠ none := by
  induction hn : s.remaining g using Nat.strong_induction_on generalizing s with
  | _ n ih =>
    by_cases hresult : s.result g = none
    · have h := sound_of_reachable hr
      obtain ⟨a, s', hown, hs⟩ := h.progress hresult
      have hlt := h.remaining_step hown hs
      obtain ⟨t, hsteps, ht⟩ := ih _ (hn ▸ hlt) (hr.step trivial hs) rfl
      exact ⟨t, .head ⟨a, hown, hs⟩ hsteps, ht⟩
    · exact ⟨s, .refl, hresult⟩

theorem length_le_remaining {as : List LaunchAction} (hr : (launching g).Reachable s)
    (hrun : (launching g).runBy (fun _ a => a.own = true) s as = some t) :
    as.length ≤ s.remaining g := by
  induction as generalizing s with
  | nil => exact Nat.zero_le _
  | cons a as ih =>
    simp only [runBy] at hrun
    split_ifs at hrun with hown
    obtain ⟨s', hs, hrest⟩ := Option.bind_eq_some_iff.mp hrun
    have hlt := (sound_of_reachable hr).remaining_step hown hs
    have hle := ih (hr.step trivial hs) hrest
    rw [List.length_cons]
    omega

/-- After a start that failed at spawn `k` there is nobody left to take a step. -/
theorem Sound.over (h : s.Sound g) {k : ℕ} (hst : s.starter = .returned (some k))
    (a : LaunchAction) : s.step g a = none := by
  have hpc : ∀ i, s.threads i = .exited false ∨ s.threads i = .unborn := by
    intro i
    by_cases hi : i < k
    · left
      apply h.joined
      rw [hst]
      exact hi
    · right
      apply (h.born i).mpr
      rw [hst]
      exact Nat.not_lt.mp hi
  cases a with
  | spawn fails => simp only [Launch.step, hst]
  | starter => simp only [Launch.step, Launch.stepStarter, hst]
  | thread i => rcases hpc i with hi | hi <;> simp only [Launch.step, Launch.stepThread, hi]
  | ends i => rcases hpc i with hi | hi <;> simp [Launch.step, hi]
  | wakes i => rcases hpc i with hi | hi <;> simp [Launch.step, hi]
  | coordinator =>
    have hunborn : s.coordinator = .unborn := by
      rw [h.coordinator, hst]
      rfl
    simp [Launch.step, Launch.stepCoordinator, hunborn]

end Launch

variable {g : GraphDefinition}

/-- Nothing of a graph runs before all its threads exist, and the coordinator goes to work when all
of them have run. A start that returns an error names the thread that could not be created; those
before it have exited unrun, the others were never born, and no step is left to anyone. After a
start that succeeds no thread sleeps at the gate. And `start` returns: there is a bound on the steps
it and the threads at the gate can take, and they can take one as long as it has not. -/
theorem start_all_or_nothing {s : Launch} (hr : (launching g).Reachable s) :
    (∀ i, (s.threads i).ran = true → s.gate = some true ∧ s.coordinator ≠ .unborn ∧
      ∀ j < (launchOrder g).length, s.threads j ≠ .unborn) ∧
    (s.coordinator = .coordinates →
      ∀ i < (launchOrder g).length, s.threads i = .exited true) ∧
    (∀ thread, s.result g = some (.error thread) → s.stopped = true ∧ s.coordinator = .unborn ∧
      (∃ k ≤ (launchOrder g).length, thread = (launchOrder g)[k]?.getD .coordinator ∧
        (∀ i < k, s.threads i = .exited false) ∧ ∀ i, k ≤ i → s.threads i = .unborn) ∧
      ∀ a, (launching g).step s a = none) ∧
    (s.result g = some (.ok ()) → s.stopped = false ∧ s.coordinator ≠ .unborn ∧
      ∀ i < (launchOrder g).length, s.threads i = .looks ∨ (s.threads i).ran = true) ∧
    (∀ as t, (launching g).runBy (fun _ a => a.own = true) s as = some t →
      as.length ≤ s.remaining g) ∧
    (s.result g = none → ∃ a s', a.own = true ∧ (launching g).step s a = some s') ∧
    ∃ t, (launching g).StepsBy (fun _ a => a.own = true) s t ∧ t.result g ≠ none := by
  have h := Launch.sound_of_reachable hr
  refine ⟨?_, h.collected, ?_, ?_, fun _ _ => Launch.length_le_remaining hr, h.progress,
    Launch.returns hr⟩
  · intro i hran
    have hopen := (h.allowed i).ran hran
    have hcomplete : s.starter.complete = true ∧
        s.starter.created (launchOrder g).length = (launchOrder g).length :=
      Starter.complete_of_gate (h.gate.symm.trans hopen)
    refine ⟨hopen, ?_, ?_⟩
    · rw [ne_eq, h.coordinator, hcomplete.1]
      exact Bool.noConfusion
    · intro j hj
      rw [ne_eq, h.born j, hcomplete.2]
      exact Nat.not_le.mpr hj
  · intro thread hresult
    unfold Launch.result at hresult
    split at hresult
    next => cases hresult
    next k hst =>
      cases hresult
      have hbound := h.bound
      have hborn := h.born
      have hjoined := h.joined
      have hstopped := h.stopped
      have hcoordinator := h.coordinator
      rw [hst] at hbound hjoined hstopped hcoordinator
      simp only [hst] at hborn
      exact ⟨hstopped, hcoordinator.mpr rfl, ⟨k, hbound, rfl, hjoined, fun i hi => (hborn i).mpr hi⟩,
        h.over hst⟩
    next => cases hresult
  · intro hresult
    have hst : s.starter = .returned none := by
      unfold Launch.result at hresult
      split at hresult
      next hst => exact hst
      next => cases hresult
      next => cases hresult
    refine ⟨?_, ?_, ?_⟩
    · rw [h.stopped, hst]
      rfl
    · rw [ne_eq, h.coordinator, hst]
      exact Bool.noConfusion
    · intro i hi
      have hawake := (h.allowed i).awake (by rw [hst]; rfl)
      have hopen : s.gate = some true := by
        rw [h.gate, hst]
        rfl
      cases hpc : s.threads i with
      | unborn =>
        have hle := (h.born i).mp hpc
        rw [hst] at hle
        exact absurd hi (Nat.not_lt.mpr hle)
      | looks => exact .inl rfl
      | asleep => exact absurd hpc hawake
      | body => exact .inr rfl
      | exited ran =>
        cases ran with
        | true => exact .inr rfl
        | false => cases hopen.symm.trans ((h.allowed i).refused hpc)

/-- The spawn of the coordinator fails while one of the three threads sleeps at the gate. -/
theorem start_all_or_nothing_sample : ∃ s, (launching sampleGraph).Reachable s ∧
    s.result sampleGraph = some (.error .coordinator) ∧
      ∀ a, (launching sampleGraph).step s a = none := by
  obtain ⟨s, hr, hs⟩ := exists_reachable_of_run (M := launching sampleGraph) (s := .new) rfl
    [.spawn false, .thread 0, .spawn false, .spawn false, .spawn true, .starter, .thread 1, .starter,
      .starter, .thread 0, .starter, .thread 2, .starter, .starter, .starter]
    (fun s => s.starter == .returned (some 3)) (by decide +kernel)
  have hst : s.starter = .returned (some 3) := eq_of_beq hs
  have hresult : s.result sampleGraph = some (.error .coordinator) := by
    simp only [Launch.result, hst]
    rfl
  exact ⟨s, hr, hresult, ((start_all_or_nothing hr).2.2.1 _ hresult).2.2.2⟩

end Muxiva.Runtime
