import Muxiva.Flow.Signals
import Muxiva.Lib.History

/-! Recovery of a controller: how many healthy evaluations in a row stand before every return to
the normal mode. -/
set_option linter.all false
namespace Muxiva.Flow
open AdaptiveFlowController

variable {F : Type}

/-- One evaluation: the mode it found, whether the measurements were healthy, the mode it left. -/
structure Evaluation where
  before : FlowState
  healthy : Bool
  after : FlowState
  deriving DecidableEq

/-- How many healthy evaluations stand at the end, after the most recent non-healthy one. -/
def healthyRun (evaluations : List Evaluation) : ℕ :=
  (evaluations.rtakeWhile (·.healthy)).length

/-- An evaluation leaves pressure or critical only as the last of at least three healthy ones. -/
def Recovers (earlier : List Evaluation) (e : Evaluation) : Prop :=
  e.before ≠ .normal → e.after = .normal → resumeSamples ≤ healthyRun (earlier ++ [e])

namespace AdaptiveFlowController
variable (c : AdaptiveFlowController F)

/-- What moves the mode and the count of healthy samples, for `n` healthy evaluations in a row. -/
structure Counted (n : ℕ) : Prop where
  rest : c.state = .normal → c.healthySamples = 0
  samples : c.healthySamples ≤ n

variable {c}

/-- A sample that asks for the normal mode. -/
theorem transition_resume (hstate : c.state ≠ .normal) (healthy : Bool) :
    c.transition .normal healthy =
      if healthy then
        if resumeSamples ≤ Nat.min (c.healthySamples + 1) u8Max then
          { c with state := .normal, healthySamples := 0 }
        else { c with healthySamples := Nat.min (c.healthySamples + 1) u8Max }
      else { c with healthySamples := 0 } := by
  cases hs : c.state with
  | normal => exact absurd hs hstate
  | pressure => simp [transition, hs]
  | critical => simp [transition, hs]

theorem resume_counted {n : ℕ} (h : c.healthySamples ≤ n) (hstate : c.state ≠ .normal)
    (healthy : Bool) :
    (c.transition .normal healthy).Counted (if healthy then n + 1 else 0) ∧
      ((c.transition .normal healthy).state = .normal →
        resumeSamples ≤ if healthy then n + 1 else 0) := by
  rw [transition_resume hstate]
  cases healthy with
  | false =>
    simp only [Bool.false_eq_true, if_false]
    exact ⟨⟨fun _ => rfl, le_refl 0⟩, fun hs => absurd hs hstate⟩
  | true =>
    have hmin : Nat.min (c.healthySamples + 1) u8Max ≤ c.healthySamples + 1 := Nat.min_le_left _ _
    simp only [if_true]
    split_ifs with hdone
    · exact ⟨⟨fun _ => rfl, Nat.zero_le _⟩, fun _ => by omega⟩
    · refine ⟨⟨fun hs => absurd hs hstate, ?_⟩, fun hs => absurd hs hstate⟩
      dsimp only
      omega

/-- One change of mode, unless it goes from pressure to critical with healthy samples counted. -/
theorem transition_counted {n : ℕ} (h : c.Counted n) (desired : FlowState) (healthy : Bool)
    (hreset : c.state = .pressure → desired = .critical → c.healthySamples = 0) :
    (c.transition desired healthy).Counted (if desired = .normal ∧ healthy then n + 1 else 0) ∧
      (c.state ≠ .normal → (c.transition desired healthy).state = .normal →
        resumeSamples ≤ if desired = .normal ∧ healthy then n + 1 else 0) := by
  obtain ⟨hrest, hsamples⟩ := h
  by_cases hstate : c.state = .normal
  · have hzero := hrest hstate
    have heq : c.transition desired healthy = { c with state := desired } := by
      simp [transition, hstate]
    rw [heq]
    exact ⟨⟨fun _ => hzero, by simp [hzero]⟩, fun hne => absurd hstate hne⟩
  · cases desired with
    | normal =>
      simp only [true_and]
      obtain ⟨hcounted, hdone⟩ := resume_counted hsamples hstate healthy
      exact ⟨hcounted, fun _ => hdone⟩
    | pressure =>
      have heq : c.transition .pressure healthy = { c with healthySamples := 0 } := by
        cases hs : c.state with
        | normal => exact absurd hs hstate
        | pressure => simp [transition, hs]
        | critical => simp [transition, hs]
      rw [heq]
      exact ⟨⟨fun _ => rfl, Nat.zero_le _⟩, fun _ hs => absurd hs hstate⟩
    | critical =>
      cases hs : c.state with
      | normal => exact absurd hs hstate
      | pressure =>
        -- the counter is kept here, which is sound only when it is zero
        have hzero := hreset hs rfl
        have heq : c.transition .critical healthy = { c with state := .critical } := by
          simp [transition, hs]
        rw [heq]
        exact ⟨⟨fun _ => hzero, by simp [hzero]⟩, fun _ hs => absurd hs (by simp)⟩
      | critical =>
        have heq : c.transition .critical healthy = { c with healthySamples := 0 } := by
          simp [transition, hs]
        rw [heq]
        exact ⟨⟨fun _ => rfl, Nat.zero_le _⟩, fun _ hs => absurd hs hstate⟩

theorem recordSignal_signals (signal : FlowSignalObservation) :
    ∃ signals, c.recordSignal signal = { c with signals := signals } := by
  unfold recordSignal
  split
  · exact ⟨c.signals, rfl⟩
  · exact ⟨_, rfl⟩

/-- A transition and a signal write nothing the measurements are taken from. -/
theorem evaluate_eq [Float64 F] (c : AdaptiveFlowController F) :
    ∃ signals, c.evaluate.2 =
      { c.transition (c.assess c.predict).1 (c.assess c.predict).2 with signals := signals } := by
  unfold evaluate
  dsimp only
  split_ifs
  · exact recordSignal_signals _
  · exact recordSignal_signals _
  · exact ⟨_, rfl⟩

theorem transition_eq (desired : FlowState) (healthy : Bool) :
    ∃ state healthySamples, c.transition desired healthy =
      { c with state := state, healthySamples := healthySamples } := by
  unfold transition
  split
  · exact ⟨_, _, rfl⟩
  · exact ⟨_, _, rfl⟩
  · dsimp only
    split_ifs <;> exact ⟨_, _, rfl⟩
  · dsimp only
    split_ifs <;> exact ⟨_, _, rfl⟩
  · exact ⟨_, _, rfl⟩
  · exact ⟨_, _, rfl⟩

theorem assess_evaluate [Float64 F] (c : AdaptiveFlowController F) :
    c.evaluate.2.assess c.evaluate.2.predict = c.assess c.predict := by
  obtain ⟨signals, heq⟩ := evaluate_eq c
  obtain ⟨state, healthySamples, hmoved⟩ :=
    c.transition_eq (c.assess c.predict).1 (c.assess c.predict).2
  rw [heq, hmoved]
  rfl

variable [Float64 F]

/-- The measurements are healthy and ask for the normal mode. -/
def healthy (c : AdaptiveFlowController F) : Bool := c.assess c.predict = (.normal, true)

/-- The measurements ask for the critical mode. -/
def asksCritical (c : AdaptiveFlowController F) : Bool := (c.assess c.predict).1 = .critical

end AdaptiveFlowController

section Runs
variable [Float64 F]

/-- A controller with everything its evaluations have found and left. -/
structure Watched (F : Type) where
  controller : AdaptiveFlowController F
  evaluations : List Evaluation

/-- All sequences of calls on a fresh controller. An evaluation writes nothing it looks at, so it
is judged by the measurements of the controller it leaves. -/
def watchedCalls (F : Type) [Float64 F] : Transition.System (Watched F) Call where
  init s := (∃ profile identity,
    AdaptiveFlowController.new profile identity = .ok s.controller) ∧ s.evaluations = []
  step s call :=
    match call.run s.controller with
    | (.ok _, c) =>
      some ⟨c, s.evaluations ++ [⟨s.controller.state, c.healthy, c.state⟩]⟩
    | (.error _, c) => some ⟨c, s.evaluations⟩

/-- The branch that keeps the count: under pressure, with healthy samples counted, the call
succeeds on measurements that ask for the critical mode. -/
def Call.KeepsCount (c : AdaptiveFlowController F) (call : Call) : Prop :=
  c.state = .pressure ∧ c.healthySamples ≠ 0 ∧ (call.run c).1.isOk = true ∧
    (call.run c).2.asksCritical = true

instance (c : AdaptiveFlowController F) (call : Call) : Decidable (call.KeepsCount c) :=
  inferInstanceAs (Decidable (_ ∧ _))

theorem healthyRun_append (evaluations : List Evaluation) (e : Evaluation) :
    healthyRun (evaluations ++ [e]) = if e.healthy then healthyRun evaluations + 1 else 0 := by
  unfold healthyRun
  rw [List.rtakeWhile_concat]
  split_ifs <;> simp

theorem counted_init {s : Watched F} (h : (watchedCalls F).init s) :
    s.controller.Counted (healthyRun s.evaluations) := by
  obtain ⟨⟨profile, identity, hnew⟩, -⟩ := h
  simp only [AdaptiveFlowController.new] at hnew
  cases hv : profile.validate with
  | error e => simp [hv] at hnew
  | ok u =>
    simp only [hv, Except.ok.injEq] at hnew
    rw [← hnew]
    exact ⟨fun _ => rfl, Nat.zero_le _⟩

/-- What one call does to the count, and what it writes down. -/
theorem counted_step {s t : Watched F} {call : Call}
    (h : s.controller.Counted (healthyRun s.evaluations)) (hc : ¬ call.KeepsCount s.controller)
    (hs : (watchedCalls F).step s call = some t) :
    t.controller.Counted (healthyRun t.evaluations) ∧
      (t.evaluations = s.evaluations ∨
        ∃ e, t.evaluations = s.evaluations ++ [e] ∧ Recovers s.evaluations e) := by
  rcases Call.run_cases s.controller call with ⟨c, hsame, hrun⟩ | ⟨e, d, hrun, hsame⟩
  · simp only [watchedCalls, hrun, Option.some.injEq] at hs
    subst hs
    have hcounted : c.Counted (healthyRun s.evaluations) := by
      refine ⟨fun hstate => ?_, ?_⟩
      · rw [hsame.healthySamples]
        exact h.rest (hsame.state ▸ hstate)
      · rw [hsame.healthySamples]
        exact h.samples
    have hreset : c.state = .pressure → (c.assess c.predict).1 = .critical →
        c.healthySamples = 0 := by
      intro hpressure hcritical
      by_contra hpending
      refine hc ⟨hsame.state ▸ hpressure, hsame.healthySamples ▸ hpending, ?_, ?_⟩
      · rw [hrun]
        rfl
      · rw [hrun]
        simpa [asksCritical, assess_evaluate] using hcritical
    obtain ⟨hnext, hrecovers⟩ :=
      transition_counted hcounted (c.assess c.predict).1 (c.assess c.predict).2 hreset
    obtain ⟨signals, heq⟩ := evaluate_eq c
    have hhealthy : c.evaluate.2.healthy = true ↔
        (c.assess c.predict).1 = .normal ∧ (c.assess c.predict).2 = true := by
      unfold AdaptiveFlowController.healthy
      rw [assess_evaluate]
      simp [Prod.ext_iff]
    have hrunLength : healthyRun (s.evaluations ++
        [⟨s.controller.state, c.evaluate.2.healthy, c.evaluate.2.state⟩]) =
        if (c.assess c.predict).1 = .normal ∧ (c.assess c.predict).2 then
          healthyRun s.evaluations + 1 else 0 := by
      rw [healthyRun_append]
      simp only [hhealthy]
    refine ⟨?_, .inr ⟨_, rfl, ?_⟩⟩
    · dsimp only
      rw [hrunLength, heq]
      exact ⟨hnext.rest, hnext.samples⟩
    · intro hbefore hafter
      rw [hrunLength]
      refine hrecovers (hsame.state ▸ hbefore) ?_
      rw [heq] at hafter
      exact hafter
  · simp only [watchedCalls, hrun, Option.some.injEq] at hs
    subst hs
    refine ⟨⟨fun hstate => ?_, ?_⟩, .inl rfl⟩
    · rw [hsame.healthySamples]
      exact h.rest (hsame.state ▸ hstate)
    · rw [hsame.healthySamples]
      exact h.samples

theorem counted_reachable {s : Watched F}
    (h : (watchedCalls F).ReachableBy (fun s call => ¬ call.KeepsCount s.controller) s) :
    s.controller.Counted (healthyRun s.evaluations) :=
  h.invariant (fun _ h0 => counted_init h0) fun _ _ _ _ hi hc hs => (counted_step hi hc hs).1

/-- In every run in which no call goes from pressure to critical with healthy samples counted,
every return to the normal mode is the last of at least three healthy evaluations in a row. -/
theorem recovery_hysteresis {s : Watched F}
    (h : (watchedCalls F).ReachableBy (fun s call => ¬ call.KeepsCount s.controller) s) :
    Transition.System.EachEntry Recovers s.evaluations := by
  refine h.eachEntry Watched.evaluations (fun s (h0 : (watchedCalls F).init s) => h0.2) ?_
  intro s call t hr hc hs
  exact (counted_step (counted_reachable hr) hc hs).2

end Runs

def watchedStart : Watched ℚ := ⟨pausableStart.controller, []⟩

theorem watchedStart_init : (watchedCalls ℚ).init watchedStart := ⟨⟨.default, 0, rfl⟩, rfl⟩

/-- A frame that asks for pressure is enqueued and admitted; two more samples resume. -/
theorem recovery_hysteresis_resumed : ∃ s : Watched ℚ,
    s.evaluations.map (·.after) = [.pressure, .pressure, .pressure, .normal] ∧
      Transition.System.EachEntry Recovers s.evaluations := by
  obtain ⟨s, hr, hp⟩ := Transition.System.exists_reachableBy_of_runBy
    (C := fun s call => ¬ call.KeepsCount s.controller) watchedStart_init
    [.recordEnqueue ⟨900000, 0⟩ 0, .recordAdmission ⟨900000, 0⟩ 0, .sample 0, .sample 0]
    (fun s => decide (s.evaluations.map (·.after) = [.pressure, .pressure, .pressure, .normal]))
    (by decide +kernel)
  exact ⟨s, of_decide_eq_true hp, recovery_hysteresis hr⟩

/-- Two healthy samples are counted under pressure; then a frame asks for the critical mode, and
one healthy sample resumes. -/
theorem recovery_too_early : ¬ ∀ s : Watched ℚ, (watchedCalls ℚ).Reachable s →
    Transition.System.EachEntry Recovers s.evaluations := by
  intro hall
  obtain ⟨s, hr, hp⟩ := Transition.System.exists_reachable_of_run watchedStart_init
    [.recordEnqueue ⟨900000, 0⟩ 0, .recordAdmission ⟨900000, 0⟩ 0, .sample 0,
      .recordEnqueue ⟨1048576, 0⟩ 0, .recordAdmission ⟨1048576, 0⟩ 0]
    (fun s => decide (s.evaluations = [⟨.normal, false, .pressure⟩, ⟨.pressure, true, .pressure⟩,
      ⟨.pressure, true, .pressure⟩, ⟨.pressure, false, .critical⟩, ⟨.critical, true, .normal⟩]))
    (by decide +kernel)
  have hrecovers := hall s hr [⟨.normal, false, .pressure⟩, ⟨.pressure, true, .pressure⟩,
    ⟨.pressure, true, .pressure⟩, ⟨.pressure, false, .critical⟩] ⟨.critical, true, .normal⟩ []
    (of_decide_eq_true hp) (by decide) rfl
  exact absurd hrecovers (by decide)

end Muxiva.Flow
