import Mathlib.Algebra.Order.Field.Basic
import Mathlib.Data.Rat.Cast.Order
import Mathlib.Tactic.FieldSimp
import Mathlib.Tactic.Linarith
import Mathlib.Tactic.Ring

/-! Division rounded to the nearest integer, halves upwards, and what the errors add up to. -/
namespace Rounding

def roundDiv (a b : ℕ) : ℕ := (a + b / 2) / b

theorem roundDiv_bounds (a : ℕ) {b : ℕ} (hb : 0 < b) :
    2 * a ≤ 2 * (roundDiv a b * b) + b ∧ 2 * (roundDiv a b * b) ≤ 2 * a + b := by
  have hsplit := Nat.div_add_mod (a + b / 2) b
  have hrest := Nat.mod_lt (a + b / 2) hb
  have hcomm : b * ((a + b / 2) / b) = (a + b / 2) / b * b := Nat.mul_comm _ _
  unfold roundDiv
  omega

theorem roundDiv_error (a : ℕ) {b : ℕ} (hb : 0 < b) :
    |(roundDiv a b : ℚ) - (a : ℚ) / b| ≤ 1 / 2 := by
  obtain ⟨hlow, hhigh⟩ := roundDiv_bounds a hb
  have hpos : (0 : ℚ) < b := by exact_mod_cast hb
  have hlow' : 2 * (a : ℚ) ≤ 2 * (roundDiv a b * b) + b := by exact_mod_cast hlow
  have hhigh' : 2 * ((roundDiv a b : ℚ) * b) ≤ 2 * a + b := by exact_mod_cast hhigh
  have hexact : (roundDiv a b : ℚ) - (a : ℚ) / b = (roundDiv a b * b - a) / b := by
    field_simp
  rw [hexact, abs_div, abs_of_pos hpos, div_le_iff₀ hpos, abs_le]
  constructor <;> linarith

theorem roundDiv_self (a : ℕ) {b : ℕ} (hb : 0 < b) : roundDiv (a * b) b = a := by
  have hhalf : b / 2 < b := by omega
  rw [roundDiv, Nat.add_comm, Nat.add_mul_div_right _ _ hb, Nat.div_eq_of_lt hhalf, Nat.zero_add]

/-- Each summand may be off by a half. -/
theorem sum_roundDiv_error {b : ℕ} (hb : 0 < b) (numerators : List ℕ) :
    |((numerators.map (roundDiv · b)).sum : ℚ) - (numerators.sum : ℚ) / b| ≤
      (numerators.length : ℚ) / 2 := by
  induction numerators with
  | nil => simp
  | cons a rest ih =>
    have hone := roundDiv_error a hb
    have htriangle := abs_add_le ((roundDiv a b : ℚ) - (a : ℚ) / b)
      (((rest.map (roundDiv · b)).sum : ℚ) - (rest.sum : ℚ) / b)
    have hsplit : (((a :: rest).map (roundDiv · b)).sum : ℚ) - ((a :: rest).sum : ℚ) / b =
        ((roundDiv a b : ℚ) - (a : ℚ) / b) +
          (((rest.map (roundDiv · b)).sum : ℚ) - (rest.sum : ℚ) / b) := by
      rw [List.map_cons, List.sum_cons, List.sum_cons, Nat.cast_add, Nat.cast_add]
      ring
    rw [hsplit, List.length_cons, Nat.cast_succ]
    linarith

end Rounding
