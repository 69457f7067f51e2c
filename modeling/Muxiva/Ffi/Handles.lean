import Mathlib.Algebra.GroupWithZero.Nat
import Mathlib.Data.List.Basic
import Muxiva.Ffi.Abi
import Muxiva.Lib.Handles

/-! The registry of handles: slots that are reused under a new generation. A token resolves to the
entry of its slot while the slot has its generation. -/
set_option linter.all false
namespace Muxiva.Ffi

inductive Kind where
  | runtime
  | session
  | frame
  | node
  | ingress
  deriving DecidableEq, Repr

inductive Entry (Frame Node Ingress : Type*) where
  | runtime
  | session
  | frame (frame : Frame)
  | node (node : Node)
  | ingress (ingress : Ingress)

variable {Frame Node Ingress α : Type*}

namespace Entry

def kind : Entry Frame Node Ingress → Kind
  | runtime => .runtime
  | session => .session
  | frame _ => .frame
  | node _ => .node
  | ingress _ => .ingress

def ofKind (kind : Kind) (entry : Entry Frame Node Ingress) : Option (Entry Frame Node Ingress) :=
  if entry.kind = kind then some entry else none

def node? : Entry Frame Node Ingress → Option Node
  | node n => some n
  | _ => none

def ingress? : Entry Frame Node Ingress → Option Ingress
  | ingress i => some i
  | _ => none

end Entry

structure Slot (Frame Node Ingress : Type*) where
  generation : ℕ
  entry : Option (Entry Frame Node Ingress)
  retiredGeneration : ℕ

structure Registry (Frame Node Ingress : Type*) where
  slots : List (Slot Frame Node Ingress)

namespace Registry

/-- `generation.wrapping_add(1).max(1)` of a `u64`. -/
def nextGeneration (generation : ℕ) : ℕ := max ((generation + 1) % 2 ^ 64) 1

variable (r : Registry Frame Node Ingress)

def insert (entry : Entry Frame Node Ingress) : Registry Frame Node Ingress × Token :=
  match r.slots.zipIdx.find? fun x => x.1.entry.isNone with
  | some (slot, index) =>
    let generation := nextGeneration slot.generation
    ({ slots := r.slots.set index { slot with generation := generation, entry := some entry } },
      ⟨index, generation⟩)
  | none => ({ slots := r.slots ++ [⟨1, some entry, 0⟩] }, ⟨r.slots.length, 1⟩)

/-- A slot number fits the `usize` of the machine. -/
def slot (token : Token) : Except FfiError (Slot Frame Node Ingress) :=
  match r.slots[token.slot]? with
  | none => .error (.handle .invalidHandle "handle slot does not exist")
  | some slot =>
    if slot.generation ≠ token.generation then
      .error (.handle .invalidHandle "handle generation is stale")
    else .ok slot

def wrongKind : FfiError := .handle .invalidHandle "handle has the wrong kind"

/-- What the lookups have in common: what they take of an entry, and what they say of a slot that
has none. -/
def lookup (token : Token) (project : Entry Frame Node Ingress → Option α)
    (released stale : String) : Except FfiError α :=
  match r.slot token with
  | .error e => .error e
  | .ok slot =>
    match slot.entry with
    | some entry =>
      match project entry with
      | some a => .ok a
      | none => .error wrongKind
    | none =>
      if slot.retiredGeneration = token.generation then .error (.handle .closed released)
      else .error (.handle .invalidHandle stale)

def contains (token : Token) (kind : Kind) : Except FfiError Unit :=
  (r.lookup token (Entry.ofKind kind) "handle was released" "handle generation is stale").map
    fun _ => ()

def node (token : Token) : Except FfiError Node :=
  r.lookup token Entry.node? "node was released" "node handle is stale"

def ingress (token : Token) : Except FfiError Ingress :=
  r.lookup token Entry.ingress? "ingress was released" "ingress handle is stale"

/-- `busy` when the lock of the registry is taken. -/
def tryIngress (busy : Bool) (token : Token) : Except FfiError Ingress :=
  if busy then .error (.handle .queueFull "ingress registry is temporarily busy")
  else r.ingress token

def release (token : Token) (kind : Kind) :
    Registry Frame Node Ingress × Except FfiError (Entry Frame Node Ingress) :=
  match r.lookup token (Entry.ofKind kind) "handle was already released"
      "handle generation is stale" with
  | .error e => (r, .error e)
  | .ok entry =>
    ({ slots := r.slots.modify token.slot fun slot =>
        { slot with entry := none, retiredGeneration := token.generation } }, .ok entry)

end Registry

inductive Call (Frame Node Ingress : Type*) where
  | insert (entry : Entry Frame Node Ingress)
  | contains (token : Token) (kind : Kind)
  | node (token : Token)
  | ingress (token : Token)
  | tryIngress (busy : Bool) (token : Token)
  | release (token : Token) (kind : Kind)

/-- What a call answers. -/
inductive Reply (Frame Node Ingress : Type*) where
  | issued (token : Token)
  | known
  | node (node : Node)
  | ingress (ingress : Ingress)
  | entry (entry : Entry Frame Node Ingress)
  | failed (error : FfiError)

def Reply.ofExcept (ok : α → Reply Frame Node Ingress) : Except FfiError α → Reply Frame Node Ingress
  | .ok a => ok a
  | .error e => .failed e

namespace Registry

variable (r : Registry Frame Node Ingress)

def call : Call Frame Node Ingress → Registry Frame Node Ingress × Reply Frame Node Ingress
  | .insert entry => ((r.insert entry).1, .issued (r.insert entry).2)
  | .contains token kind => (r, .ofExcept (fun _ => .known) (r.contains token kind))
  | .node token => (r, .ofExcept .node (r.node token))
  | .ingress token => (r, .ofExcept .ingress (r.ingress token))
  | .tryIngress busy token => (r, .ofExcept .ingress (r.tryIngress busy token))
  | .release token kind => ((r.release token kind).1, .ofExcept .entry (r.release token kind).2)

/-- The registry after some calls, and what they answered. -/
def run (calls : List (Call Frame Node Ingress)) :
    Registry Frame Node Ingress × List (Call Frame Node Ingress × Reply Frame Node Ingress) :=
  calls.foldl (fun x c => ((x.1.call c).1, x.2 ++ [(c, (x.1.call c).2)])) (⟨[]⟩, [])

end Registry

/-- What was inserted, and under which token. -/
def issued (history : List (Call Frame Node Ingress × Reply Frame Node Ingress)) :
    List (Token × Entry Frame Node Ingress) :=
  history.filterMap fun
    | (.insert entry, .issued token) => some (token, entry)
    | _ => none

/-- What was handed out, and for which token. -/
def released (history : List (Call Frame Node Ingress × Reply Frame Node Ingress)) :
    List (Token × Entry Frame Node Ingress) :=
  history.filterMap fun
    | (.release token _, .entry entry) => some (token, entry)
    | _ => none

end Muxiva.Ffi
