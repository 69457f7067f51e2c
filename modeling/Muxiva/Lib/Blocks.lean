import Mathlib.Algebra.Order.Group.Nat
import Mathlib.Data.List.Basic
import Mathlib.Tactic.Ring

/-! A list cut into consecutive blocks of one size, and what is left behind the last one. -/
namespace Blocks

universe u
variable {α : Type u}

/-- The whole blocks. -/
def whole (size : ℕ) (xs : List α) : List (List α) :=
  (List.range (xs.length / size)).map fun i => (xs.drop (i * size)).take size

/-- What is left behind the whole blocks. -/
def rest (size : ℕ) (xs : List α) : List α := xs.drop (xs.length / size * size)

/-- The whole blocks, then the rest as a shorter one unless it is empty. -/
def padded (size : ℕ) (xs : List α) : List (List α) :=
  whole size xs ++ if rest size xs = [] then [] else [rest size xs]

variable {size : ℕ} {bs : List (List α)} {r : List α}

theorem length_flatten_append (hbs : ∀ b ∈ bs, b.length = size) :
    (bs.flatten ++ r).length = bs.length * size + r.length := by
  induction bs with
  | nil => simp
  | cons b bs ih =>
    have hb : b.length = size := hbs b List.mem_cons_self
    have hrest := ih fun x hx => hbs x (List.mem_cons_of_mem _ hx)
    rw [List.flatten_cons, List.append_assoc, List.length_append, hrest, hb, List.length_cons]
    ring

theorem length_div (hbs : ∀ b ∈ bs, b.length = size) (hr : r.length < size) :
    (bs.flatten ++ r).length / size = bs.length := by
  rw [length_flatten_append hbs, Nat.mul_comm, Nat.mul_add_div (by omega),
    Nat.div_eq_of_lt hr, Nat.add_zero]

theorem drop_flatten (hbs : ∀ b ∈ bs, b.length = size) :
    (bs.flatten ++ r).drop (bs.length * size) = r := by
  have hlength : bs.flatten.length = bs.length * size := by
    simpa using length_flatten_append (r := []) hbs
  rw [← hlength]
  exact List.drop_left

/-- Blocks of the right size with a short rest behind them are the blocks and the rest. -/
theorem whole_flatten (hbs : ∀ b ∈ bs, b.length = size) (hr : r.length < size) :
    whole size (bs.flatten ++ r) = bs := by
  rw [whole, length_div hbs hr]
  induction bs with
  | nil => rfl
  | cons b bs ih =>
    have hb : b.length = size := hbs b List.mem_cons_self
    have hrest := ih fun x hx => hbs x (List.mem_cons_of_mem _ hx)
    rw [List.length_cons, List.range_succ_eq_map, List.map_cons, List.map_map]
    have hhead : ((b :: bs).flatten ++ r).take size = b := by
      rw [List.flatten_cons, List.append_assoc, ← hb, List.take_left]
    have hdrop : ((b :: bs).flatten ++ r).drop size = bs.flatten ++ r := by
      rw [List.flatten_cons, List.append_assoc, ← hb, List.drop_left]
    have htail : ∀ i, (((b :: bs).flatten ++ r).drop ((i + 1) * size)).take size =
        ((bs.flatten ++ r).drop (i * size)).take size := by
      intro i
      rw [Nat.succ_mul, Nat.add_comm, ← List.drop_drop, hdrop]
    simp only [Nat.zero_mul, List.drop_zero, hhead]
    refine congrArg (b :: ·) (Eq.trans ?_ hrest)
    exact List.map_congr_left fun i _ => htail i

theorem rest_flatten (hbs : ∀ b ∈ bs, b.length = size) (hr : r.length < size) :
    rest size (bs.flatten ++ r) = r := by
  rw [rest, length_div hbs hr, drop_flatten hbs]

end Blocks
