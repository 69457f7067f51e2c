import Mathlib.Data.Int.Notation
import Muxiva.Lib.Text
import Muxiva.Lib.Utf8

/-! What crosses the C boundary: statuses and errors, handles, and views of memory the other side
keeps readable. -/
namespace Muxiva.Ffi

inductive Status where
  | ok
  | invalidArgument
  | abiMismatch
  | invalidHandle
  | closed
  | busy
  | queueFull
  | cancelled
  | timeout
  | unsupported
  | external
  | foreignException
  | internal
  | panicked
  deriving DecidableEq, Repr

structure FfiError where
  status : Status
  category : ℤ
  code : String
  message : String
  deriving DecidableEq, Repr

namespace FfiError

def validation (code message : String) : FfiError := ⟨.invalidArgument, 1, code, message⟩

def abi (message : String) : FfiError := ⟨.abiMismatch, 1, "MUXIVA-FFI-ABI", message⟩

def handle (status : Status) (message : String) : FfiError := ⟨status, 2, "MUXIVA-FFI-HANDLE", message⟩

def internal (code message : String) : FfiError := ⟨.internal, 6, code, message⟩

end FfiError

structure Token where
  slot : ℕ
  generation : ℕ
  deriving DecidableEq, Repr

def abiVersion : ℕ := 0x10000

def maxCopyBytes : ℕ := 16 * 1024 * 1024

/-- A pointer with the bytes that can be read there, `none` for null. -/
@[ext]
structure BytesView where
  data : Option (List UInt8)
  len : ℕ
  readable : ∀ d ∈ data, len ≤ d.length

abbrev StrView := BytesView

namespace BytesView

def null : BytesView := ⟨none, 0, by simp⟩

/-- `as_slice().as_ptr()` and `len()`. -/
def of (bytes : List UInt8) : BytesView := ⟨some bytes, bytes.length, by simp⟩

end BytesView

def strView (value : String) : StrView := .of (Utf8.bytes value)

def copyBytes (view : BytesView) : Except String (List UInt8) :=
  if maxCopyBytes < view.len then .error "payload exceeds the v1 copy limit"
  else if view.len = 0 then .ok []
  else
    match view.data with
    | none => .error "non-empty byte view has a null pointer"
    | some data => .ok (data.take view.len)

def copyUtf8 (view : StrView) : Except String String := do
  let bytes ← copyBytes view
  match Utf8.decode bytes with
  | some value => .ok value
  | none => .error "string view is not UTF-8"

def copyStr (view : StrView) (required : Bool) : Except String String := do
  let value ← copyUtf8 view
  if required ∧ value.utf8ByteSize = 0 then .error "required identifier is empty"
  else if 255 < value.utf8ByteSize ∨ trim value.toList ≠ value.toList ∨
      (Utf8.bytes value).any Utf8.isAsciiControl then
    .error "identifier violates the stable string contract"
  else .ok value

end Muxiva.Ffi
