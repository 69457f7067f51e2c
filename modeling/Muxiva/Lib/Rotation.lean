import Mathlib.Tactic.Common

/-! A cursor that rotates over `n` positions. A scan visits `(cursor + offset) % n` for
`offset = 0, 1, …`, and whoever is served leaves the cursor one past itself. -/
namespace Rotation

variable {n i j : ℕ}

/-- The positions that a scan from `cursor` visits before `i`. -/
def ahead (n i cursor : ℕ) : ℕ := (i + (n - cursor % n)) % n

/-- Where a cursor stands after the scan has served its `offset`-th position. -/
def served (n cursor offset : ℕ) : ℕ := ((cursor + offset) % n + 1) % n

theorem mod_of_lt_double {a : ℕ} (h : a < 2 * n) : a % n = if a < n then a else a - n := by
  split_ifs with hlt
  · exact Nat.mod_eq_of_lt hlt
  · rw [Nat.mod_eq_sub_mod (by omega), Nat.mod_eq_of_lt (by omega)]

theorem ahead_lt (hi : i < n) (cursor : ℕ) : ahead n i cursor < n := Nat.mod_lt _ (by omega)

theorem visit_eq (cursor : ℕ) {offset : ℕ} (ho : offset < n) :
    (cursor + offset) % n =
      if cursor % n + offset < n then cursor % n + offset else cursor % n + offset - n := by
  have hc : cursor % n < n := Nat.mod_lt _ (by omega)
  rw [Nat.add_mod, Nat.mod_eq_of_lt ho, mod_of_lt_double (by omega)]

theorem ahead_eq (hi : i < n) (cursor : ℕ) :
    ahead n i cursor = if i < cursor % n then i + n - cursor % n else i - cursor % n := by
  have hc : cursor % n < n := Nat.mod_lt _ (by omega)
  unfold ahead
  rw [mod_of_lt_double (by omega)]
  split_ifs <;> omega

theorem served_mod (hn : 0 < n) (cursor offset : ℕ) :
    served n cursor offset % n = served n cursor offset :=
  Nat.mod_eq_of_lt (Nat.mod_lt _ hn)

theorem served_eq (hn : 0 < n) (cursor offset : ℕ) : served n cursor offset =
    if (cursor + offset) % n + 1 < n then (cursor + offset) % n + 1 else 0 := by
  have hv : (cursor + offset) % n < n := Nat.mod_lt _ hn
  unfold served
  rw [mod_of_lt_double (by omega)]
  split_ifs <;> omega

/-- A scan visits each position at one offset. -/
theorem visit_iff (hi : i < n) (cursor : ℕ) {offset : ℕ} (ho : offset < n) :
    (cursor + offset) % n = i ↔ offset = ahead n i cursor := by
  have hc : cursor % n < n := Nat.mod_lt _ (by omega)
  rw [visit_eq cursor ho, ahead_eq hi]
  split_ifs <;> omega

/-- Serving a position before `i` brings the cursor closer to `i`. -/
theorem ahead_served_before (hi : i < n) {cursor offset : ℕ} (ho : offset < ahead n i cursor) :
    ahead n i (served n cursor offset) + (offset + 1) = ahead n i cursor := by
  have hc : cursor % n < n := Nat.mod_lt _ (by omega)
  have hlt : ahead n i cursor < n := ahead_lt hi cursor
  have hv := visit_eq cursor (show offset < n by omega)
  have hs := served_eq (show 0 < n by omega) cursor offset
  have ha := ahead_eq hi cursor
  rw [ahead_eq hi, served_mod (by omega)]
  split_ifs at * <;> omega

/-- Serving `i` or a position behind it takes the cursor past `i`. -/
theorem ahead_served_after (hi : i < n) {cursor offset : ℕ} (hlo : ahead n i cursor ≤ offset) (ho : offset < n) :
    ahead n i (served n cursor offset) + (offset + 1) = ahead n i cursor + n := by
  have hc : cursor % n < n := Nat.mod_lt _ (by omega)
  have hv := visit_eq cursor ho
  have hs := served_eq (show 0 < n by omega) cursor offset
  have ha := ahead_eq hi cursor
  rw [ahead_eq hi, served_mod (by omega)]
  split_ifs at * <;> omega

/-- With the cursor one past another position, not every position comes before `i`. -/
theorem ahead_succ_lt (hi : i < n) (hj : j < n) (hij : i ≠ j) :
    ahead n i ((j + 1) % n) + 1 < n := by
  have hs := mod_of_lt_double (show j + 1 < 2 * n by omega)
  rw [ahead_eq hi, Nat.mod_mod]
  split_ifs at * <;> omega

end Rotation
