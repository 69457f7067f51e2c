import Mathlib.Data.List.Perm.Basic

/-! Computations that own things which must be released: what they have released when they return,
and what their result still holds. -/
namespace Owning

variable {ρ ε α β : Type*}

/-- What was released, in order, and the result. -/
structure Outcome (ρ ε α : Type*) where
  released : List ρ
  result : Except ε α

/-- Ends with an error while nothing is owned. -/
def Outcome.fail (e : ε) : Outcome ρ ε α := ⟨[], .error e⟩

/-- A scope that owns `r`: an early return releases it, a result takes it along. -/
def scope (r : ρ) : Except ε α → Outcome ρ ε α
  | .error e => ⟨[r], .error e⟩
  | .ok a => ⟨[], .ok a⟩

/-- What a result holds; nothing is held after an error. -/
def held (holds : α → List ρ) : Except ε α → List ρ
  | .error _ => []
  | .ok a => holds a

/-- What was taken, released by now or still held. -/
def Outcome.taken (holds : α → List ρ) (x : Outcome ρ ε α) : List ρ :=
  x.released ++ held holds x.result

@[simp]
theorem taken_fail (holds : α → List ρ) (e : ε) :
    (Outcome.fail e : Outcome ρ ε α).taken holds = [] := rfl

@[simp]
theorem scope_result (r : ρ) (x : Except ε α) : (scope r x).result = x := by
  cases x <;> rfl

/-- A scope accounts for what it owns, whichever way it ends. -/
theorem taken_scope {holds : α → List ρ} {r : ρ} {x : Except ε α}
    (h : ∀ a, x = .ok a → holds a = [r]) : (scope r x).taken holds = [r] := by
  cases x with
  | error e => rfl
  | ok a => exact h a rfl

end Owning
