import Muxiva.Lib.System

/-! One party of a system alone: its steps, one answer from outside for each, until it is back at a
place `P`. -/
namespace Transition

variable {σ α : Type*} {step : σ → α → Option σ} {P : σ → Prop}

/-- From `s`, at least one step, and `t` is the first state at `P`. -/
inductive Until (step : σ → α → Option σ) (P : σ → Prop) : (ℕ → α) → σ → σ → Prop where
  | last {answers : ℕ → α} {s t : σ} (hs : step s (answers 0) = some t) (ht : P t) :
    Until step P answers s t
  | next {answers : ℕ → α} {s u t : σ} (hs : step s (answers 0) = some u) (hu : ¬P u)
    (ht : Until step P (fun i => answers (i + 1)) u t) : Until step P answers s t

/-- The party has no choice of its own. -/
theorem Until.unique {answers : ℕ → α} {s t t' : σ} (h : Until step P answers s t)
    (h' : Until step P answers s t') : t = t' := by
  induction h with
  | last hs ht =>
    cases h' with
    | last hs' _ =>
      rw [hs] at hs'
      exact Option.some.inj hs'
    | next hs' hu' _ =>
      rw [hs] at hs'
      exact absurd (Option.some.inj hs' ▸ ht) hu'
  | next hs hu _ ih =>
    cases h' with
    | last hs' ht' =>
      rw [hs] at hs'
      exact absurd (Option.some.inj hs' ▸ ht') hu
    | next hs' _ h'' =>
      rw [hs] at hs'
      cases hs'
      exact ih h''

theorem Until.exists_next {answers : ℕ → α} {s u : σ} {Q : σ → Prop}
    (hs : step s (answers 0) = some u) (hu : ¬P u)
    (h : ∃ t, Until step P (fun i => answers (i + 1)) u t ∧ Q t) :
    ∃ t, Until step P answers s t ∧ Q t := by
  obtain ⟨t, ht, hq⟩ := h
  exact ⟨t, .next hs hu ht, hq⟩

end Transition
