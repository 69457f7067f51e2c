import Mathlib
import Muxiva.Lib.Machine
import Muxiva.Lib.System

/-! `RtcAdapter`: callbacks of the SDK submit frames to the ingress while other threads connect and
leave. A step is one operation on an atomic, a lock or the SDK, and any number of threads may take
part. The atomics are taken to be sequentially consistent. -/
set_option linter.all false
namespace Muxiva.Agora

open Transition Transition.System

/-- A pointer is whether it is there. -/
structure Pcm16FrameView where
  data : Bool
  size : UInt64
  sampleRateHz : UInt32
  channels : UInt16
  samplesPerChannel : UInt64
  deriving DecidableEq, Repr

structure I420FrameView where
  y : Bool
  u : Bool
  v : Bool
  yStride : UInt64
  uStride : UInt64
  vStride : UInt64
  width : UInt32
  height : UInt32
  deriving DecidableEq, Repr

/-- The checks of `on_audio_frame` and the size of the payload. -/
def Pcm16FrameView.packetBytes (value : Pcm16FrameView) (maxPacketBytes : UInt64) :
    Option UInt64 := do
  let samples ← Machine.checkedProduct value.samplesPerChannel value.channels.toUInt64
  let expected ← Machine.checkedProduct samples 2
  if expected ≠ value.size ∨ expected > maxPacketBytes ∨ value.data = false ∨
      value.sampleRateHz = 0 ∨ value.channels = 0 then none
  else some value.size

/-- The checks of `on_video_frame` and the size of the packed planes. -/
def I420FrameView.packetBytes (value : I420FrameView) (maxPacketBytes : UInt64) :
    Option UInt64 := do
  if value.width = 0 ∨ value.height = 0 ∨ value.width % 2 ≠ 0 ∨ value.height % 2 ≠ 0 ∨
      value.y = false ∨ value.u = false ∨ value.v = false ∨
      value.yStride < value.width.toUInt64 ∨ value.uStride < (value.width / 2).toUInt64 ∨
      value.vStride < (value.width / 2).toUInt64 then none
  else
    let pixels ← Machine.checkedProduct value.width.toUInt64 value.height.toUInt64
    if pixels > maxPacketBytes ∨ pixels / 2 > maxPacketBytes - pixels then none
    else some (pixels + pixels / 2)

/-- A callback of the SDK. -/
inductive Callback where
  | control
  | audio (value : Pcm16FrameView)
  | video (value : I420FrameView)
  deriving DecidableEq, Repr

/-- A frame passes its checks; a control frame has none. -/
def Callback.valid (maxPacketBytes : UInt64) : Callback → Bool
  | .control => true
  | .audio value => (value.packetBytes maxPacketBytes).isSome
  | .video value => (value.packetBytes maxPacketBytes).isSome

/-- Only the planes of a video frame are copied first. -/
def Callback.copies : Callback → Bool
  | .video _ => true
  | _ => false

/-- What `muxiva_session_ingress_try_submit_v1` answers. -/
inductive SubmitStatus where
  | ok
  | queueFull
  | busy
  | closed
  | other
  deriving DecidableEq, Repr

inductive Call where
  | callback (c : Callback)
  | connect
  | leave
  deriving DecidableEq, Repr

/-- Where a thread stands: in a callback, in `connect`, in `leave`. -/
inductive Pc where
  | builds
  | enters (c : Callback)
  | looks (c : Callback)
  | tardy
  | admitted (c : Callback)
  | numbered (c : Callback) (current : ℕ)
  | accounts (status : SubmitStatus) (current : ℕ)
  | stores (current : ℕ)
  | lands
  | gone
  | wantsConnect
  | checks
  | initializes
  | opens
  | joins
  | lowersGate
  | shutsDown
  | marks
  | closesIngress
  | unlocksConnect (ok : Bool)
  | connected (ok : Bool)
  | wantsLeave
  | exchanges
  | lowers
  | closesFirst
  | leavesSdk
  | unlocksLeave
  | drains
  | left (drained : Bool)
  deriving DecidableEq, Repr

/-- `shutdowns` and `ingressCloses` count the calls; `submitted` is what the ingress was offered. -/
structure Adapter where
  accepting : Bool
  closedOnce : Bool
  lifecycle : Option ℕ
  inFlight : ℕ
  sequence : ℕ
  accepted : ℕ
  full : ℕ
  closed : ℕ
  invalid : ℕ
  late : ℕ
  lastSequence : ℕ
  shutdowns : ℕ
  ingressCloses : ℕ
  submitted : List (ℕ × Callback)
  threads : List Pc

/-- `ok` is whether the call of the step succeeds, or the wait of `leave` goes on; `status` is the
answer of the ingress. -/
inductive AdapterAction where
  | start (call : Call)
  | step (i : ℕ) (ok : Bool) (status : SubmitStatus)
  deriving DecidableEq, Repr

def Call.entry : Call → Pc
  | .callback .control => .builds
  | .callback c => .enters c
  | .connect => .wantsConnect
  | .leave => .wantsLeave

namespace Adapter

def new : Adapter := ⟨false, false, none, 0, 0, 0, 0, 0, 0, 0, 0, 0, 0, [], []⟩

variable (maxPacketBytes : UInt64) (s : Adapter) (i : ℕ)

def moveTo (pc : Pc) : Adapter := { s with threads := s.threads.set i pc }

/-- The counter of `account`. -/
def account : SubmitStatus → Adapter
  | .ok => { s with accepted := s.accepted + 1 }
  | .queueFull => { s with full := s.full + 1 }
  | .busy => { s with full := s.full + 1 }
  | .closed => { s with closed := s.closed + 1 }
  | .other => { s with invalid := s.invalid + 1 }

/-- A step of the callbacks. -/
def stepCallback (ok : Bool) (status : SubmitStatus) : Pc → Option Adapter
  | .builds =>
    if ok then some (s.moveTo i (.enters .control))
    else some { s.moveTo i .gone with invalid := s.invalid + 1 }
  | .enters c => some { s.moveTo i (.looks c) with inFlight := s.inFlight + 1 }
  | .looks c => some (s.moveTo i (if s.accepting then .admitted c else .tardy))
  | .tardy => some { s.moveTo i .lands with late := s.late + 1 }
  | .admitted c =>
    if c.valid maxPacketBytes = true ∧ (ok = true ∨ c.copies = false) then
      some { s.moveTo i (.numbered c (s.sequence + 1)) with sequence := s.sequence + 1 }
    else some { s.moveTo i .lands with invalid := s.invalid + 1 }
  | .numbered c current =>
    some { s.moveTo i (.accounts status current) with submitted := s.submitted ++ [(current, c)] }
  | .accounts status current => some ((s.account status).moveTo i (.stores current))
  | .stores current => some { s.moveTo i .lands with lastSequence := current }
  | .lands => some { s.moveTo i .gone with inFlight := s.inFlight - 1 }
  | _ => none

/-- A step of `connect` and of `leave`. -/
def stepLifecycle (ok : Bool) : Pc → Option Adapter
  | .wantsConnect =>
    if s.lifecycle = none then some { s.moveTo i .checks with lifecycle := some i } else none
  | .checks =>
    some (s.moveTo i (if s.closedOnce || s.accepting then .unlocksConnect false else .initializes))
  | .initializes => some (s.moveTo i (if ok then .opens else .shutsDown))
  | .opens => some { s.moveTo i .joins with accepting := true }
  | .joins => some (s.moveTo i (if ok then .unlocksConnect true else .lowersGate))
  | .lowersGate => some { s.moveTo i .shutsDown with accepting := false }
  | .shutsDown => some { s.moveTo i .marks with shutdowns := s.shutdowns + 1 }
  | .marks => some { s.moveTo i .closesIngress with closedOnce := true }
  | .closesIngress =>
    some { s.moveTo i (.unlocksConnect false) with ingressCloses := s.ingressCloses + 1 }
  | .unlocksConnect connected => some { s.moveTo i (.connected connected) with lifecycle := none }
  | .wantsLeave =>
    if s.lifecycle = none then some { s.moveTo i .exchanges with lifecycle := some i } else none
  | .exchanges =>
    some { s.moveTo i (if s.closedOnce then .unlocksLeave else .lowers) with closedOnce := true }
  | .lowers => some { s.moveTo i .closesFirst with accepting := false }
  | .closesFirst => some { s.moveTo i .leavesSdk with ingressCloses := s.ingressCloses + 1 }
  | .leavesSdk => some { s.moveTo i .unlocksLeave with shutdowns := s.shutdowns + 1 }
  | .unlocksLeave => some { s.moveTo i .drains with lifecycle := none }
  | .drains =>
    if s.inFlight = 0 then some (s.moveTo i (.left true))
    else if ok then none else some (s.moveTo i (.left false))
  | _ => none

def step : AdapterAction → Option Adapter
  | .start call => some { s with threads := s.threads ++ [call.entry] }
  | .step i ok status =>
    s.threads[i]?.bind fun pc =>
      (s.stepCallback maxPacketBytes i ok status pc).orElse fun _ => s.stepLifecycle i ok pc

end Adapter

def adapterSystem (maxPacketBytes : UInt64) : System Adapter AdapterAction where
  init s := s = .new
  step := Adapter.step maxPacketBytes

end Muxiva.Agora
