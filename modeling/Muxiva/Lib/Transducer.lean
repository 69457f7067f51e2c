import Mathlib.Data.List.Infix
import Mathlib.Data.Nat.Notation
import Mathlib.Tactic.Common

/-! Deterministic transducers by their histories: each answer is a function of the inputs so far, so
a longer input history only adds answers. -/
namespace Transducer

variable {α γ δ : Type*} (f : List α → α → γ)

/-- The answers to some inputs after the history `h`. -/
def responsesFrom (h : List α) : List α → List γ
  | [] => []
  | a :: as => f h a :: responsesFrom (h ++ [a]) as

def responses (as : List α) : List γ := responsesFrom f [] as

@[simp] theorem responses_nil : responses f [] = [] := rfl

theorem responsesFrom_append (h as bs : List α) :
    responsesFrom f h (as ++ bs) = responsesFrom f h as ++ responsesFrom f (h ++ as) bs := by
  induction as generalizing h with
  | nil => simp [responsesFrom]
  | cons a as ih => simp [responsesFrom, ih]

@[simp] theorem responses_concat (as : List α) (a : α) :
    responses f (as ++ [a]) = responses f as ++ [f as a] := by
  simp [responses, responsesFrom_append, responsesFrom]

@[simp] theorem length_responsesFrom (h as : List α) : (responsesFrom f h as).length = as.length := by
  induction as generalizing h with
  | nil => rfl
  | cons a as ih => simp [responsesFrom, ih]

@[simp] theorem length_responses (as : List α) : (responses f as).length = as.length :=
  length_responsesFrom f [] as

/-- A transducer is monotone. -/
theorem responses_prefix {as bs : List α} (h : as <+: bs) : responses f as <+: responses f bs := by
  obtain ⟨cs, rfl⟩ := h
  exact ⟨responsesFrom f as cs, by simp [responses, responsesFrom_append]⟩

/-- The answer to the next input of a history comes next. -/
theorem responses_next {as bs : List α} {a : α} (h : as ++ [a] <+: bs) :
    responses f as ++ [f as a] <+: responses f bs := by
  have hnext := responses_prefix f h
  rwa [responses_concat] at hnext

/-- An injective image of a list that goes on after `as` goes on with an image. -/
theorem next_of_map {g : δ → γ} (hg : Function.Injective g) {as cs : List δ} {b : γ}
    (h : as.map g ++ [b] <+: cs.map g) : ∃ c, b = g c ∧ as ++ [c] <+: cs := by
  obtain ⟨t, ht⟩ := h
  rw [List.append_assoc, eq_comm, List.map_eq_append_iff] at ht
  obtain ⟨as', rest, rfl, has, hrest⟩ := ht
  obtain rfl := List.map_injective_iff.mpr hg has
  rw [List.singleton_append, List.map_eq_cons_iff] at hrest
  obtain ⟨c, t', rfl, rfl, -⟩ := hrest
  exact ⟨c, rfl, t', by simp⟩

/-- A beginning of what a transducer did, gone on with its answer to the next input, is one again. -/
theorem answered_next {ps qs : List (α × γ)} {a : α}
    (hp : ps.map Prod.snd = responses f (ps.map Prod.fst)) (hq : qs <+: ps)
    (ha : qs.map Prod.fst ++ [a] <+: ps.map Prod.fst) :
    qs ++ [(a, f (qs.map Prod.fst) a)] <+: ps := by
  obtain ⟨t, rfl⟩ := hq
  rw [List.map_append, List.prefix_append_right_inj] at ha
  obtain ⟨p, t, rfl, hpa⟩ : ∃ p t', t = p :: t' ∧ p.1 = a := by
    cases t with
    | nil => simp at ha
    | cons p t =>
      obtain ⟨u, hu⟩ := ha
      simp only [List.singleton_append, List.map_cons, List.cons.injEq] at hu
      exact ⟨p, t, rfl, hu.1.symm⟩
  have hresp : responses f (qs.map Prod.fst) ++ [f (qs.map Prod.fst) a] <+:
      (qs ++ p :: t).map Prod.snd := by
    rw [hp]
    refine responses_next f ⟨t.map Prod.fst, ?_⟩
    simp [hpa]
  have hlen : (responses f (qs.map Prod.fst)).length = (qs.map Prod.snd).length := by simp
  obtain ⟨u, hu⟩ := hresp
  rw [List.map_append, List.append_assoc] at hu
  obtain ⟨-, hu⟩ := List.append_inj hu hlen
  have hsnd : p.2 = f (qs.map Prod.fst) a := by
    simp only [List.singleton_append, List.map_cons, List.cons.injEq] at hu
    exact hu.1.symm
  refine ⟨t, ?_⟩
  rw [List.append_assoc, ← hsnd, ← hpa]
  rfl

end Transducer
