import Mathlib.Data.Nat.Notation
import Mathlib.Tactic.Common

/-! A string as the bytes of its encoding. -/
namespace Utf8

/-- `str::as_bytes`. -/
def bytes (s : String) : List UInt8 := s.toByteArray.data.toList

/-- `String::from_utf8`. -/
def decode (bs : List UInt8) : Option String := String.fromUTF8? ⟨⟨bs⟩⟩

/-- `u8::is_ascii_control`. -/
def isAsciiControl (b : UInt8) : Bool := b < 32 || b = 127

/-- `char::is_ascii_control`. -/
def isControlChar (c : Char) : Bool := c.toNat < 32 || c.toNat = 127

@[simp]
theorem decode_bytes (s : String) : decode (bytes s) = some s := by
  have hvalid : s.toByteArray.IsValidUTF8 := s.isValidUTF8
  unfold decode bytes String.fromUTF8?
  simp only [Array.toArray_toList]
  rw [dif_pos hvalid]
  rfl

@[simp]
theorem length_bytes (s : String) : (bytes s).length = s.utf8ByteSize := by
  unfold bytes
  rw [Array.length_toList]
  rfl

theorem bytes_eq_flatMap (s : String) : bytes s = s.toList.flatMap String.utf8EncodeChar := by
  unfold bytes
  rw [← String.utf8Encode_toList, List.utf8Encode, List.data_toByteArray]

/-- In UTF-8 only the ASCII characters have bytes below 128. -/
theorem ascii_byte {c : Char} {b : UInt8} (hb : b ∈ String.utf8EncodeChar c) (hlow : b.toNat < 128) :
    c.toNat = b.toNat := by
  have hc : c.val.toNat = c.toNat := rfl
  unfold String.utf8EncodeChar at hb
  simp only at hb
  have hrest {n : ℕ} (hb : b = UInt8.ofNat n) (hhigh : 128 ≤ n % 256) : c.toNat = b.toNat := by
    subst hb
    rw [UInt8.toNat_ofNat'] at hlow
    omega
  split_ifs at hb
  · rw [List.mem_singleton] at hb
    subst hb
    rw [UInt8.toNat_ofNat']
    omega
  · simp only [List.mem_cons, List.not_mem_nil, or_false] at hb
    rcases hb with hb | hb <;> exact hrest hb (by omega)
  · simp only [List.mem_cons, List.not_mem_nil, or_false] at hb
    rcases hb with hb | hb | hb <;> exact hrest hb (by omega)
  · simp only [List.mem_cons, List.not_mem_nil, or_false] at hb
    rcases hb with hb | hb | hb | hb <;> exact hrest hb (by omega)

/-- A control byte is a control character. -/
theorem control_byte {s : String} (h : (bytes s).any isAsciiControl = true) :
    s.toList.any isControlChar = true := by
  obtain ⟨b, hb, hcontrol⟩ := List.any_eq_true.mp h
  rw [bytes_eq_flatMap] at hb
  obtain ⟨c, hc, hbc⟩ := List.mem_flatMap.mp hb
  have hvalue : b.toNat < 32 ∨ b.toNat = 127 := by
    simp only [isAsciiControl, Bool.or_eq_true, decide_eq_true_eq] at hcontrol
    rcases hcontrol with hlow | hdelete
    · exact .inl hlow
    · exact .inr (by rw [hdelete]; rfl)
  have hequal := ascii_byte hbc (by omega)
  refine List.any_eq_true.mpr ⟨c, hc, ?_⟩
  simp only [isControlChar, Bool.or_eq_true, decide_eq_true_eq]
  omega

end Utf8
