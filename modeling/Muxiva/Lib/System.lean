import Mathlib.Logic.Relation
import Mathlib.Tactic.Common

/-! Labelled transition systems whose steps are executable partial functions.
A label carries every choice of the scheduler and of the environment, so an
interleaving is a list of labels. -/
set_option linter.all false
namespace Transition

/-- A step function over states `σ` and labels `α`, with its initial states. -/
structure System (σ α : Type*) where
  init : σ → Prop
  step : σ → α → Option σ

namespace System
variable {σ α : Type*} (M : System σ α)

/-- States on a run all of whose steps are taken in a state where `C` admits them. -/
inductive ReachableBy (C : σ → α → Prop) : σ → Prop where
  | init {s : σ} (h : M.init s) : ReachableBy C s
  | step {s s' : σ} {a : α} (hr : ReachableBy C s) (hc : C s a)
      (hs : M.step s a = some s') : ReachableBy C s'

/-- States on any run. -/
def Reachable (s : σ) : Prop := M.ReachableBy (fun _ _ => True) s

variable {M}

theorem ReachableBy.mono {C D : σ → α → Prop} (h : ∀ s a, C s a → D s a) {s : σ}
    (hr : M.ReachableBy C s) : M.ReachableBy D s := by
  induction hr with
  | init h0 => exact .init h0
  | step _ hc hs ih => exact .step ih (h _ _ hc) hs

theorem ReachableBy.reachable {C : σ → α → Prop} {s : σ} (hr : M.ReachableBy C s) :
    M.Reachable s :=
  hr.mono fun _ _ _ => trivial

/-- The invariant rule: what holds initially and is kept by every admitted step
holds in every state reached. The step may use that its source is reachable. -/
theorem ReachableBy.invariant {C : σ → α → Prop} {I : σ → Prop}
    (h0 : ∀ s, M.init s → I s)
    (hstep : ∀ s a s', M.ReachableBy C s → I s → C s a → M.step s a = some s' → I s')
    {s : σ} (hr : M.ReachableBy C s) : I s := by
  induction hr with
  | init h => exact h0 _ h
  | step hr hc hs ih => exact hstep _ _ _ hr ih hc hs

theorem Reachable.invariant {I : σ → Prop} (h0 : ∀ s, M.init s → I s)
    (hstep : ∀ s a s', M.Reachable s → I s → M.step s a = some s' → I s')
    {s : σ} (hr : M.Reachable s) : I s :=
  ReachableBy.invariant h0 (fun s a s' hr hi _ hs => hstep s a s' hr hi hs) hr

/-- A measure that no step lowers and that is below `n` at the end was below it all along. -/
theorem Reachable.below {m : σ → ℕ} {n : ℕ}
    (hmono : ∀ s a s', M.step s a = some s' → m s ≤ m s') {s : σ} (hr : M.Reachable s)
    (hs : m s < n) : M.ReachableBy (fun s a => ∀ s', M.step s a = some s' → m s' < n) s := by
  induction hr with
  | init h => exact .init h
  | @step t t' a _ _ hstep ih =>
    have hle : m t ≤ m t' := hmono t a t' hstep
    apply ReachableBy.step (ih (by omega)) _ hstep
    intro u hu
    rw [hstep] at hu
    cases hu
    exact hs

variable (M)

/-- `t` comes after `s` on a run. -/
def Steps : σ → σ → Prop := Relation.ReflTransGen fun s t => ∃ a, M.step s a = some t

variable {M}

/-- What every step keeps lasts for the rest of the run. -/
theorem Steps.invariant {I : σ → Prop}
    (hstep : ∀ s a s', M.Reachable s → I s → M.step s a = some s' → I s') {s t : σ}
    (hr : M.Reachable s) (hi : I s) (h : M.Steps s t) : M.Reachable t ∧ I t := by
  induction h with
  | refl => exact ⟨hr, hi⟩
  | tail _ hs ih =>
    obtain ⟨a, ha⟩ := hs
    exact ⟨.step ih.1 trivial ha, hstep _ a _ ih.1 ih.2 ha⟩

variable (M)

/-- `t` comes after `s` on a run all of whose steps in between are admitted by `C`. -/
def StepsBy (C : σ → α → Prop) : σ → σ → Prop :=
  Relation.ReflTransGen fun s t => ∃ a, C s a ∧ M.step s a = some t

variable {M}

theorem StepsBy.reachable {C : σ → α → Prop} {s t : σ} (hr : M.Reachable s)
    (h : M.StepsBy C s t) : M.Reachable t := by
  induction h with
  | refl => exact hr
  | tail _ hs ih =>
    obtain ⟨a, -, ha⟩ := hs
    exact .step ih trivial ha

variable (M)

/-- Runs a list of labels, stopping with `none` at the first one that is not
enabled or not admitted by `C`. -/
def runBy (C : σ → α → Prop) [∀ s a, Decidable (C s a)] : σ → List α → Option σ
  | s, [] => some s
  | s, a :: as => if C s a then (M.step s a).bind (runBy C · as) else none

variable {M}

theorem reachableBy_of_runBy {C : σ → α → Prop} [∀ s a, Decidable (C s a)] {as : List α} :
    ∀ {s s' : σ}, M.ReachableBy C s → M.runBy C s as = some s' → M.ReachableBy C s' := by
  induction as with
  | nil =>
    intro s s' hr h
    cases h
    exact hr
  | cons a as ih =>
    intro s s' hr h
    simp only [runBy] at h
    split_ifs at h with hc
    obtain ⟨t, ht, hrest⟩ := Option.bind_eq_some_iff.mp h
    exact ih (.step hr hc ht) hrest

theorem stepsBy_of_runBy {C : σ → α → Prop} [∀ s a, Decidable (C s a)] {as : List α} :
    ∀ {s t : σ}, M.runBy C s as = some t → M.StepsBy C s t := by
  induction as with
  | nil =>
    intro s t h
    cases h
    exact .refl
  | cons a as ih =>
    intro s t h
    simp only [runBy] at h
    split_ifs at h with hc
    obtain ⟨u, hu, hrest⟩ := Option.bind_eq_some_iff.mp h
    exact .head ⟨a, hc, hu⟩ (ih hrest)

/-- A list of labels that runs from an initial state to a state satisfying the
decidable test `p` is a reachability proof for such a state. -/
theorem exists_reachableBy_of_runBy {C : σ → α → Prop} [∀ s a, Decidable (C s a)]
    {s : σ} (h0 : M.init s) (as : List α) (p : σ → Bool)
    (h : (M.runBy C s as).map p = some true) : ∃ t, M.ReachableBy C t ∧ p t = true := by
  obtain ⟨t, ht, hp⟩ := Option.map_eq_some_iff.mp h
  exact ⟨t, reachableBy_of_runBy (.init h0) ht, hp⟩

variable (M)

/-- Runs a list of labels under no restriction. -/
def run (s : σ) (as : List α) : Option σ :=
  @runBy σ α M (fun _ _ => True) (fun _ _ => instDecidableTrue) s as

variable {M}

theorem reachable_of_run {as : List α} {s s' : σ} (hr : M.Reachable s)
    (h : M.run s as = some s') : M.Reachable s' :=
  @reachableBy_of_runBy σ α M _ (fun _ _ => instDecidableTrue) as s s' hr h

theorem exists_reachable_of_run {s : σ} (h0 : M.init s) (as : List α) (p : σ → Bool)
    (h : (M.run s as).map p = some true) : ∃ t, M.Reachable t ∧ p t = true :=
  @exists_reachableBy_of_runBy σ α M _ (fun _ _ => instDecidableTrue) s h0 as p h

theorem steps_of_run {as : List α} : ∀ {s t : σ}, M.run s as = some t → M.Steps s t := by
  induction as with
  | nil =>
    intro s t h
    cases h
    exact .refl
  | cons a as ih =>
    intro s t h
    obtain ⟨u, hu, hrest⟩ := Option.bind_eq_some_iff.mp h
    exact .head ⟨a, hu⟩ (ih hrest)

end System
end Transition
