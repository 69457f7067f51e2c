import Mathlib.Data.List.Nodup
import Mathlib.Logic.Function.Basic
import Mathlib.Tactic.Common

/-! Handles: names that are issued for things and retired once. A table of live handles is sound
when it is what the ledger of the issued and the retired says. -/
namespace Handles

variable {ι ε : Type*}

structure Ledger (ι ε : Type*) where
  issued : List (ι × ε)
  retired : List (ι × ε)

namespace Ledger

def empty : Ledger ι ε := ⟨[], []⟩

def issue (l : Ledger ι ε) (i : ι) (e : ε) : Ledger ι ε := { l with issued := l.issued ++ [(i, e)] }

def retire (l : Ledger ι ε) (i : ι) (e : ε) : Ledger ι ε :=
  { l with retired := l.retired ++ [(i, e)] }

/-- `live` holds what was issued and not retired. -/
structure Sound (live : ι → Option ε) (l : Ledger ι ε) : Prop where
  fresh : (l.issued.map Prod.fst).Nodup
  once : (l.retired.map Prod.fst).Nodup
  own : ∀ x ∈ l.retired, x ∈ l.issued
  live_iff : ∀ i e, live i = some e ↔ (i, e) ∈ l.issued ∧ i ∉ l.retired.map Prod.fst

variable {live : ι → Option ε} {l : Ledger ι ε}

theorem Sound.empty : Sound (fun _ => none) (.empty : Ledger ι ε) := by
  constructor <;> simp [Ledger.empty]

/-- What is not live was never issued, or is retired. -/
theorem Sound.eq_none (h : l.Sound live) {i : ι}
    (hi : i ∉ l.issued.map Prod.fst ∨ i ∈ l.retired.map Prod.fst) : live i = none := by
  cases hlive : live i with
  | none => rfl
  | some e =>
    obtain ⟨hissued, hretired⟩ := (h.live_iff i e).mp hlive
    rcases hi with hnever | hgone
    · exact absurd (List.mem_map_of_mem hissued) hnever
    · exact absurd hgone hretired

variable [DecidableEq ι]

theorem Sound.issue (h : l.Sound live) {i : ι} (hi : i ∉ l.issued.map Prod.fst) (e : ε) :
    (l.issue i e).Sound (Function.update live i (some e)) where
  fresh := by
    simp only [Ledger.issue, List.map_append, List.map_cons, List.map_nil]
    rw [← List.concat_eq_append]
    exact List.Nodup.concat hi h.fresh
  once := h.once
  own := fun x hx => List.mem_append_left _ (h.own x hx)
  live_iff := by
    intro j d
    have hretired : i ∉ l.retired.map Prod.fst := by
      intro hmem
      obtain ⟨x, hx, hxi⟩ := List.mem_map.mp hmem
      exact hi (hxi ▸ List.mem_map_of_mem (h.own x hx))
    simp only [Ledger.issue, List.mem_append, List.mem_singleton, Prod.mk.injEq]
    by_cases hij : j = i
    · subst hij
      have hnot : (j, d) ∉ l.issued := fun hmem => hi (List.mem_map_of_mem hmem)
      simp only [Function.update_self, Option.some.injEq, hnot, false_or, true_and, hretired,
        not_false_eq_true, and_true]
      exact eq_comm
    · simp only [Function.update_of_ne hij, hij, false_and, or_false]
      exact h.live_iff j d

theorem Sound.retire (h : l.Sound live) {i : ι} {e : ε} (hlive : live i = some e) :
    (l.retire i e).Sound (Function.update live i none) := by
  obtain ⟨hissued, hretired⟩ := (h.live_iff i e).mp hlive
  constructor
  · exact h.fresh
  · simp only [Ledger.retire, List.map_append, List.map_cons, List.map_nil]
    rw [← List.concat_eq_append]
    exact List.Nodup.concat hretired h.once
  · intro x hx
    rcases List.mem_append.mp hx with hold | hnew
    · exact h.own x hold
    · rw [List.mem_singleton] at hnew
      exact hnew ▸ hissued
  · intro j d
    simp only [Ledger.retire, List.map_append, List.map_cons, List.map_nil, List.mem_append,
      List.mem_singleton]
    by_cases hji : j = i
    · simp [hji]
    · simp only [Function.update_of_ne hji, hji, or_false]
      exact h.live_iff j d

end Ledger

end Handles
