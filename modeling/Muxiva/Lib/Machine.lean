import Mathlib.Algebra.Order.Ring.Int

/-! Arithmetic of 64 bits as C++ has it: unsigned operations and conversions wrap, a signed
operation whose result is out of range has no meaning. -/
namespace Machine

/-- `a + b` of two `std::int64_t`, nothing where it overflows. -/
def addSigned (a b : Int64) : Option Int64 :=
  if a.toBitVec.saddOverflow b.toBitVec then none else some (a + b)

/-- `a - b` of two `std::int64_t`, nothing where it overflows. -/
def subSigned (a b : Int64) : Option Int64 :=
  if a.toBitVec.ssubOverflow b.toBitVec then none else some (a - b)

/-- A product that is given up where it would wrap. -/
def checkedProduct (left right : UInt64) : Option UInt64 :=
  if left ≠ 0 ∧ right > 18446744073709551615 / left then none else some (left * right)

theorem addSigned_of_range {a b : Int64} (hlow : -2 ^ 63 ≤ a.toInt + b.toInt)
    (hhigh : a.toInt + b.toInt < 2 ^ 63) :
    ∃ c, addSigned a b = some c ∧ c.toInt = a.toInt + b.toInt := by
  have hfits : ¬ a.toBitVec.saddOverflow b.toBitVec := by
    simp only [BitVec.saddOverflow, Int64.toInt_toBitVec, Bool.or_eq_true, decide_eq_true_eq]
    omega
  refine ⟨a + b, if_neg hfits, ?_⟩
  rw [← Int64.toInt_toBitVec, Int64.toBitVec_add, BitVec.toInt_add_of_not_saddOverflow hfits]
  rfl

theorem subSigned_of_range {a b : Int64} (hlow : -2 ^ 63 ≤ a.toInt - b.toInt)
    (hhigh : a.toInt - b.toInt < 2 ^ 63) :
    ∃ c, subSigned a b = some c ∧ c.toInt = a.toInt - b.toInt := by
  have hfits : ¬ a.toBitVec.ssubOverflow b.toBitVec := by
    simp only [BitVec.ssubOverflow, Int64.toInt_toBitVec, Bool.or_eq_true, decide_eq_true_eq]
    omega
  refine ⟨a - b, if_neg hfits, ?_⟩
  rw [← Int64.toInt_toBitVec, Int64.toBitVec_sub, BitVec.toInt_sub_of_not_ssubOverflow hfits]
  rfl

theorem toInt_toInt64 {u : UInt64} (h : u.toNat < 2 ^ 63) : u.toInt64.toInt = u.toNat := by
  rw [← Int64.toInt_toBitVec, UInt64.toBitVec_toInt64]
  apply BitVec.toInt_eq_toNat_of_lt
  rw [UInt64.toNat_toBitVec]
  omega

/-- The unsigned difference of two signed numbers is exact where it is not negative. -/
theorem toNat_sub_toUInt64 {a b : Int64} (h : b.toInt ≤ a.toInt) :
    ((a.toUInt64 - b.toUInt64).toNat : ℤ) = a.toInt - b.toInt := by
  have ha : a.toInt = if 2 * a.toUInt64.toNat < 2 ^ 64 then (a.toUInt64.toNat : ℤ)
      else (a.toUInt64.toNat : ℤ) - (2 ^ 64 : ℕ) := BitVec.toInt_eq_toNat_cond a.toBitVec
  have hb : b.toInt = if 2 * b.toUInt64.toNat < 2 ^ 64 then (b.toUInt64.toNat : ℤ)
      else (b.toUInt64.toNat : ℤ) - (2 ^ 64 : ℕ) := BitVec.toInt_eq_toNat_cond b.toBitVec
  have hltA := a.toUInt64.toNat_lt
  have hltB := b.toUInt64.toNat_lt
  rw [UInt64.toNat_sub]
  split_ifs at ha hb <;> omega

end Machine
