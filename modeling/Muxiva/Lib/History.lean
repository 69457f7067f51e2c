import Muxiva.Lib.System

/-! Systems that write down every step. What holds of each entry when it is written, given the
entries before it, holds of every entry of every run. -/
namespace Transition.System

variable {σ α ε : Type*} {M : System σ α}

/-- Each entry stands in the relation `P` to the entries before it. -/
def EachEntry (P : List ε → ε → Prop) (log : List ε) : Prop :=
  ∀ before e after, log = before ++ e :: after → P before e

theorem EachEntry.nil (P : List ε → ε → Prop) : EachEntry P [] := by
  intro before e after h
  simp at h

theorem eachEntry_append_singleton {P : List ε → ε → Prop} {log : List ε} {e : ε} :
    EachEntry P (log ++ [e]) ↔ EachEntry P log ∧ P log e := by
  constructor
  · intro h
    refine ⟨?_, h log e [] rfl⟩
    rintro before e' after rfl
    exact h before e' (after ++ [e]) (by simp)
  · rintro ⟨hlog, he⟩ before e' after h
    rcases after.eq_nil_or_concat with rfl | ⟨after, last, rfl⟩
    · obtain ⟨rfl, hsingle⟩ := List.append_inj' h rfl
      cases hsingle
      exact he
    · rw [List.concat_eq_append, ← List.cons_append, ← List.append_assoc] at h
      obtain ⟨hinit, -⟩ := List.append_inj' h rfl
      exact hlog before e' after hinit

/-- An entry of two logs in a row is one of the first or one of the second. -/
theorem append_eq_append_cons {log more before after : List ε} {e : ε}
    (h : log ++ more = before ++ e :: after) :
    (∃ rest, log = before ++ e :: rest ∧ after = rest ++ more) ∨
      ∃ skipped, before = log ++ skipped ∧ more = skipped ++ e :: after := by
  rcases List.append_eq_append_iff.mp h with ⟨skipped, hbefore, hmore⟩ | ⟨rest, hlog, hafter⟩
  · exact .inr ⟨skipped, hbefore, hmore⟩
  · cases rest with
    | nil => exact .inr ⟨[], by rw [hlog, List.append_nil, List.append_nil], hafter.symm⟩
    | cons e' rest =>
      obtain ⟨rfl, rfl⟩ := List.cons.inj hafter
      exact .inl ⟨rest, hlog, rfl⟩

theorem EachEntry.append {P : List ε → ε → Prop} {log more : List ε} (h : EachEntry P log)
    (hmore : ∀ before e after, more = before ++ e :: after → P (log ++ before) e) :
    EachEntry P (log ++ more) := by
  intro before e after heq
  rcases append_eq_append_cons heq with ⟨rest, hlog, -⟩ | ⟨skipped, rfl, hsplit⟩
  · exact h before e rest hlog
  · exact hmore skipped e after hsplit

/-- The rule for histories: a step writes nothing, or an entry in the relation `P` to what is
written already. -/
theorem ReachableBy.eachEntry {C : σ → α → Prop} (log : σ → List ε) {P : List ε → ε → Prop}
    (h0 : ∀ s, M.init s → log s = [])
    (hstep : ∀ s a s', M.ReachableBy C s → C s a → M.step s a = some s' →
      log s' = log s ∨ ∃ e, log s' = log s ++ [e] ∧ P (log s) e)
    {s : σ} (hr : M.ReachableBy C s) : EachEntry P (log s) := by
  induction hr with
  | init h =>
    rw [h0 _ h]
    exact EachEntry.nil P
  | step hr hc hs ih =>
    rcases hstep _ _ _ hr hc hs with h | ⟨e, h, he⟩
    · rwa [h]
    · rw [h]
      exact eachEntry_append_singleton.mpr ⟨ih, he⟩

theorem Reachable.eachEntry (log : σ → List ε) {P : List ε → ε → Prop}
    (h0 : ∀ s, M.init s → log s = [])
    (hstep : ∀ s a s', M.Reachable s → M.step s a = some s' →
      log s' = log s ∨ ∃ e, log s' = log s ++ [e] ∧ P (log s) e)
    {s : σ} (hr : M.Reachable s) : EachEntry P (log s) :=
  ReachableBy.eachEntry log h0 (fun s a s' hr _ hs => hstep s a s' hr hs) hr

end Transition.System
