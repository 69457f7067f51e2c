import Mathlib.Data.List.Basic
import Mathlib.Data.Nat.Notation
import Mathlib.Tactic.Ring

/-! Lists cut into pieces of one width, numbers as little-endian bytes, and a file written through a
cursor. -/
set_option linter.all false
namespace Bytes

universe u

variable {α : Type u}

def slice (bytes : List α) (offset width : ℕ) : List α := (bytes.drop offset).take width

theorem length_slice {bytes : List α} {offset width : ℕ} (h : offset + width ≤ bytes.length) :
    (slice bytes offset width).length = width := by
  unfold slice
  rw [List.length_take, List.length_drop]
  omega

theorem slice_slice (bytes : List α) {start size offset width : ℕ} (h : offset + width ≤ size) :
    slice (slice bytes start size) offset width = slice bytes (start + offset) width := by
  unfold slice
  rw [List.drop_take, List.drop_drop, List.take_take, Nat.min_eq_left (by omega)]

/-- Pieces of one width, laid one after another, are what they were cut from. -/
theorem flatMap_slices (bytes : List α) (start width count : ℕ) :
    (List.range count).flatMap (fun i => slice bytes (start + i * width) width) =
      slice bytes start (count * width) := by
  induction count with
  | zero => simp [slice]
  | succ count ih =>
    rw [List.range_succ, List.flatMap_append, ih, List.flatMap_singleton]
    unfold slice
    rw [Nat.succ_mul, List.take_add, List.drop_drop]

theorem slice_all {bytes : List α} {size : ℕ} (h : bytes.length = size) :
    slice bytes 0 size = bytes := by
  unfold slice
  rw [List.drop_zero, List.take_of_length_le h.le]

theorem slice_append_left {left : List α} {offset width : ℕ} (h : offset + width ≤ left.length)
    (right : List α) : slice (left ++ right) offset width = slice left offset width := by
  unfold slice
  rw [List.drop_append_of_le_length (by omega),
    List.take_append_of_le_length (by rw [List.length_drop]; omega)]

theorem slice_append_right (left right : List α) (offset width : ℕ) :
    slice (left ++ right) (left.length + offset) width = slice right offset width := by
  unfold slice
  rw [← List.drop_drop, List.drop_left]

theorem length_flatMap_range {f : ℕ → List α} {size count : ℕ}
    (hsize : ∀ j < count, (f j).length = size) :
    ((List.range count).flatMap f).length = count * size := by
  have hmap : (List.range count).map (fun j => (f j).length) = (List.range count).map fun _ => size :=
    List.map_congr_left fun j hj => hsize j (List.mem_range.mp hj)
  rw [List.length_flatMap, hmap, List.map_const', List.sum_replicate_nat, List.length_range]

/-- A piece of what is put together from pieces of one size. -/
theorem slice_flatMap {f : ℕ → List α} {size count i : ℕ} (hsize : ∀ j < count, (f j).length = size)
    (hi : i < count) : slice ((List.range count).flatMap f) (i * size) size = f i := by
  induction count with
  | zero => omega
  | succ count ih =>
    have htotal : ((List.range count).flatMap f).length = count * size :=
      length_flatMap_range fun j hj => hsize j (by omega)
    rw [List.range_succ, List.flatMap_append, List.flatMap_singleton]
    rcases Nat.lt_succ_iff_lt_or_eq.mp hi with hlt | rfl
    · have hend : i * size + size ≤ count * size := by
        rw [← Nat.succ_mul]
        exact Nat.mul_le_mul_right _ hlt
      rw [slice_append_left (by omega)]
      exact ih (fun j hj => hsize j (by omega)) hlt
    · have happend := slice_append_right ((List.range i).flatMap f) (f i) 0 size
      rw [htotal, Nat.add_zero] at happend
      rw [happend, slice_all (hsize i hi)]

/-- Every `stride` elements, `width` of them. -/
def strided (bytes : List α) (offset stride width count : ℕ) : List (List α) :=
  (List.range count).map fun i => slice bytes (offset + i * stride) width

theorem strided_append {left right : List α} {offset stride width m : ℕ}
    (hlength : left.length = m * stride) (hfit : offset + width ≤ stride) (n : ℕ) :
    strided (left ++ right) offset stride width (m + n) =
      strided left offset stride width m ++ strided right offset stride width n := by
  unfold strided
  rw [List.range_add, List.map_append, List.map_map]
  congr 1
  · apply List.map_congr_left
    intro i hi
    have hend : i * stride + stride ≤ m * stride := by
      rw [← Nat.succ_mul]
      exact Nat.mul_le_mul_right _ (List.mem_range.mp hi)
    exact slice_append_left (by omega) right
  · apply List.map_congr_left
    intro i _
    have hoffset : offset + (m + i) * stride = left.length + (offset + i * stride) := by
      rw [hlength]
      ring
    rw [Function.comp_apply, hoffset, slice_append_right]

/-- The elements of a part. -/
theorem strided_slice {bytes : List α} {start size stride width count : ℕ} (hwidth : width ≤ stride)
    (hsize : count * stride ≤ size) :
    strided (slice bytes start size) 0 stride width count =
      strided bytes start stride width count := by
  unfold strided
  apply List.map_congr_left
  intro i hi
  have hend : i * stride + stride ≤ count * stride := by
    rw [← Nat.succ_mul]
    exact Nat.mul_le_mul_right _ (List.mem_range.mp hi)
  rw [slice_slice _ (by omega), Nat.zero_add]

/-- `to_le_bytes` of an integer of so many bytes. -/
def le : ℕ → ℕ → List UInt8
  | 0, _ => []
  | width + 1, n => UInt8.ofNat n :: le width (n / 256)

def ofLe : List UInt8 → ℕ
  | [] => 0
  | b :: bytes => b.toNat + 256 * ofLe bytes

@[simp]
theorem length_le (width n : ℕ) : (le width n).length = width := by
  induction width generalizing n with
  | zero => rfl
  | succ width ih => rw [le, List.length_cons, ih]

theorem ofLe_le {width n : ℕ} (h : n < 256 ^ width) : ofLe (le width n) = n := by
  induction width generalizing n with
  | zero =>
    have hzero : n = 0 := by simpa using h
    rw [hzero]
    rfl
  | succ width ih =>
    have hrest : n / 256 < 256 ^ width := by
      rw [Nat.pow_succ, Nat.mul_comm] at h
      exact Nat.div_lt_of_lt_mul h
    rw [le, ofLe, ih hrest, UInt8.toNat_ofNat']
    omega

/-- A file opened for writing. -/
structure File where
  contents : List UInt8
  cursor : ℕ

namespace File

def create : File := ⟨[], 0⟩

/-- `write_all`: what stands at the cursor is overwritten. -/
def writeAll (f : File) (bytes : List UInt8) : File where
  contents := f.contents.take f.cursor ++ bytes ++ f.contents.drop (f.cursor + bytes.length)
  cursor := f.cursor + bytes.length

/-- `seek(SeekFrom::Start(offset))`. -/
def seekStart (f : File) (offset : ℕ) : File := { f with cursor := offset }

theorem writeAll_end {f : File} (h : f.cursor = f.contents.length) (bytes : List UInt8) :
    f.writeAll bytes = ⟨f.contents ++ bytes, (f.contents ++ bytes).length⟩ := by
  unfold writeAll
  rw [h, List.take_length, List.drop_of_length_le (by omega), List.append_nil, List.length_append]

/-- A new head of the same length leaves the rest. -/
theorem writeAll_start {f : File} {old new rest : List UInt8} (h : f.contents = old ++ rest)
    (hlength : new.length = old.length) : ((f.seekStart 0).writeAll new).contents = new ++ rest := by
  unfold writeAll seekStart
  dsimp only
  rw [h, List.take_zero, List.nil_append, Nat.zero_add, hlength, List.drop_left]

end File

end Bytes
