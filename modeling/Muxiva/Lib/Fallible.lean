/-! Computations that end in a value or an error: how a step that succeeds or fails takes the rest
with it. -/
namespace Fallible

universe u v w

variable {ε : Type u} {α β : Type v}

@[simp]
theorem ok_bind (a : α) (f : α → Except ε β) : ((.ok a : Except ε α) >>= f) = f a := rfl

@[simp]
theorem error_bind (e : ε) (f : α → Except ε β) : ((.error e : Except ε α) >>= f) = .error e := rfl

/-- A computation that succeeds did so in both its parts. -/
theorem bind_eq_ok {x : Except ε α} {f : α → Except ε β} {b : β} :
    x >>= f = .ok b ↔ ∃ a, x = .ok a ∧ f a = .ok b := by
  cases x with
  | error e => simp
  | ok a => simp

/-- A list through steps that all return. -/
theorem mapM_pure {γ : Type u} {m : Type v → Type w} [Monad m] [LawfulMonad m] {f : γ → m β}
    {g : γ → β} {as : List γ} (h : ∀ a ∈ as, f a = pure (g a)) : as.mapM f = pure (as.map g) := by
  induction as with
  | nil => rfl
  | cons a as ih =>
    have hone := h a List.mem_cons_self
    have hrest := ih fun b hb => h b (List.mem_cons_of_mem _ hb)
    rw [List.mapM_cons, hone, pure_bind, hrest, pure_bind, List.map_cons]

end Fallible
