import Mathlib.Data.Set.Insert

/-! Who waits for whom, when a waiting party waits for one other: a deadlock is a set of parties
each of which waits for one of the set. -/
namespace WaitGraph

variable {τ : Type*} {waits : τ → Option τ} {D : Set τ}

/-- The parties in `D` wait for one another. -/
structure Stuck (waits : τ → Option τ) (D : Set τ) : Prop where
  nonempty : D.Nonempty
  closed : ∀ t ∈ D, ∃ u ∈ D, waits t = some u

def Deadlocked (waits : τ → Option τ) : Prop := ∃ D, Stuck waits D

/-- Whom a stuck party waits for is stuck. -/
theorem Stuck.mem (h : Stuck waits D) {t u : τ} (ht : t ∈ D) (hw : waits t = some u) : u ∈ D := by
  obtain ⟨v, hv, hwaits⟩ := h.closed t ht
  rw [hw] at hwaits
  cases hwaits
  exact hv

theorem Stuck.ne_none (h : Stuck waits D) {t : τ} (ht : t ∈ D) : waits t ≠ none := by
  obtain ⟨u, -, hwaits⟩ := h.closed t ht
  rw [hwaits]
  exact nofun

theorem deadlocked_of_cycle {a b c : τ} (hab : waits a = some b) (hbc : waits b = some c)
    (hca : waits c = some a) : Deadlocked waits := by
  refine ⟨{a, b, c}, ⟨a, by simp⟩, ?_⟩
  rintro t (rfl | rfl | rfl)
  · exact ⟨b, by simp, hab⟩
  · exact ⟨c, by simp, hbc⟩
  · exact ⟨a, by simp, hca⟩

end WaitGraph
