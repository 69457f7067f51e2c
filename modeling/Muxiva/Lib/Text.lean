import Mathlib.Data.List.TakeWhile
import Mathlib.Tactic.Common

/-! Text as a list of Unicode scalar values, with the white space that `trim` removes. -/
namespace Muxiva

abbrev Text := List Char

/-- `char::is_whitespace`. -/
def isWhitespace (c : Char) : Bool :=
  let n := c.toNat
  9 ≤ n && n ≤ 13 || n = 0x20 || n = 0x85 || n = 0xA0 || n = 0x1680 || 0x2000 ≤ n && n ≤ 0x200A ||
    n = 0x2028 || n = 0x2029 || n = 0x202F || n = 0x205F || n = 0x3000

/-- `str::trim`. -/
def trim (text : Text) : Text := ((text.dropWhile isWhitespace).reverse.dropWhile isWhitespace).reverse

/-- Nothing but white space. -/
def Blank (text : Text) : Prop := ∀ c ∈ text, isWhitespace c = true

instance (text : Text) : Decidable (Blank text) := inferInstanceAs (Decidable (∀ c ∈ text, _))

theorem dropWhile_isWhitespace_eq_nil {text : Text} :
    text.dropWhile isWhitespace = [] ↔ Blank text := by
  rw [List.dropWhile_eq_nil_iff]
  rfl

theorem trim_eq_nil {text : Text} : trim text = [] ↔ Blank text := by
  unfold trim
  rw [List.reverse_eq_nil_iff, dropWhile_isWhitespace_eq_nil]
  constructor
  · intro h
    by_contra hblank
    have hne : text.dropWhile isWhitespace ≠ [] := mt dropWhile_isWhitespace_eq_nil.mp hblank
    have hhead := List.head_dropWhile_not isWhitespace hne
    rw [h _ (List.mem_reverse.mpr (List.head_mem hne))] at hhead
    cases hhead
  · intro h c hc
    exact h c (List.dropWhile_subset _ (List.mem_reverse.mp hc))

end Muxiva
