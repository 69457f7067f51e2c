import Mathlib.Data.Int.Notation
import Mathlib.Logic.Function.Basic
import Mathlib.Order.Lattice
import Muxiva.Lib.History

/-! `XiaozhiAudioSinkNode` and the `XiaozhiControlClient` it sends through. The node is called by one
thread at a time; whether the connection can be opened and whether it survives a send is up to the
other side. -/
set_option linter.all false
namespace Muxiva.Xiaozhi

/-- A drained event the sink took on; `id` counts them and nothing reads it. -/
structure PendingStop where
  id : ℕ
  sequence : ℤ
  expected : ℤ
  deriving DecidableEq, Repr

/-- What is handed to the client. Both stops are the same message; why it is sent is not part of it. -/
inductive SinkCommand where
  | audio (sequence : ℤ)
  | reset
  | barrierStop (stop : PendingStop)
  | immediateStop (stop : PendingStop)
  deriving DecidableEq, Repr

/-- What happened, in order; `written` if the connection took the command. -/
inductive SinkEntry where
  | handed (command : SinkCommand) (written : Bool)
  | armed (stop : PendingStop)
  | cancelled (sequence : ℤ) (pending : Option PendingStop)
  deriving DecidableEq, Repr

structure AudioSink where
  closed : Bool
  connected : Bool
  cancelledThroughSequence : ℤ
  receivedAudioFrames : ℤ → ℕ
  pendingStop : Option PendingStop
  stoppedThroughSequence : ℤ
  armedCount : ℕ
  log : List SinkEntry

/-- What the connection does during a call: an answer for each attempt to open it and for each send. -/
structure SinkIo where
  connects : Bool
  keeps : Bool
  connectsForStop : Bool
  keepsForStop : Bool
  deriving DecidableEq, Repr

/-- `audioFrames` is what `int` makes of the payload, `none` where it raises. -/
inductive SinkInput where
  | prepare
  | audio (sequence : ℤ) (data : List UInt8)
  | event (drained : Bool) (sequence : ℤ) (audioFrames : Option ℤ)
  | signal (cancels : Bool) (sequence : ℤ)
  | finish
  deriving DecidableEq, Repr

namespace AudioSink

def new : AudioSink where
  closed := false
  connected := false
  cancelledThroughSequence := 0
  receivedAudioFrames := fun _ => 0
  pendingStop := none
  stoppedThroughSequence := -1
  armedCount := 0
  log := []

variable (s : AudioSink)

/-- `is_connected() or connect()`. -/
def ensure (connects : Bool) : AudioSink := { s with connected := s.connected || connects }

def send (command : SinkCommand) (keeps : Bool) : AudioSink :=
  { s with
    connected := s.connected && keeps
    log := s.log ++ [.handed command (s.connected && keeps)] }

def maybeSendStop (sequence : ℤ) (io : SinkIo) : AudioSink :=
  match s.pendingStop with
  | none => s
  | some pending =>
    if pending.sequence ≠ sequence then s
    else if (s.receivedAudioFrames sequence : ℤ) < pending.expected ∨
        sequence ≤ s.stoppedThroughSequence then s
    else
      let s := s.ensure io.connectsForStop
      if s.connected = false then s
      else
        let t := s.send (.barrierStop pending) io.keepsForStop
        { t with
          stoppedThroughSequence := sequence
          pendingStop := none
          receivedAudioFrames := fun key => if sequence < key then t.receivedAudioFrames key else 0 }

/-- A call on a closed node raises, and so changes nothing. -/
def onAudio (sequence : ℤ) (data : List UInt8) (io : SinkIo) : AudioSink :=
  if s.closed then s
  else if sequence < s.cancelledThroughSequence then s
  else
    let s := s.ensure io.connects
    if s.connected = false then s
    else if data = [] then s
    else
      let s := s.send (.audio sequence) io.keeps
      let s := { s with
        receivedAudioFrames :=
          Function.update s.receivedAudioFrames sequence (s.receivedAudioFrames sequence + 1) }
      s.maybeSendStop sequence io

def handleEvent (drained : Bool) (sequence : ℤ) (audioFrames : Option ℤ) (io : SinkIo) : AudioSink :=
  if s.closed then s
  else if drained = false then s
  else if sequence < s.cancelledThroughSequence then s
  else
    match audioFrames with
    | none => s
    | some audioFrames =>
      let stop : PendingStop := ⟨s.armedCount, sequence, max 0 audioFrames⟩
      let s := { s with
        pendingStop := some stop
        armedCount := s.armedCount + 1
        log := s.log ++ [SinkEntry.armed stop] }
      s.maybeSendStop sequence io

def onSignal (cancels : Bool) (sequence : ℤ) (io : SinkIo) : AudioSink :=
  if cancels = false then s
  else
    let watermark := max s.cancelledThroughSequence sequence
    let t := { s with
      cancelledThroughSequence := watermark
      pendingStop := none
      receivedAudioFrames := fun key => if watermark ≤ key then s.receivedAudioFrames key else 0
      log := s.log ++ [SinkEntry.cancelled sequence s.pendingStop] }
    let t := t.send .reset io.keeps
    match s.pendingStop with
    | none => t
    | some stop => t.send (.immediateStop stop) io.keepsForStop

def step (io : SinkIo) : SinkInput → AudioSink
  | .prepare => { s with connected := io.connects }
  | .audio sequence data => s.onAudio sequence data io
  | .event drained sequence audioFrames => s.handleEvent drained sequence audioFrames io
  | .signal cancels sequence => s.onSignal cancels sequence io
  | .finish => { s with closed := true, connected := false }

end AudioSink

def sinkSystem : Transition.System AudioSink (SinkInput × SinkIo) where
  init s := s = .new
  step s a := some (s.step a.2 a.1)

end Muxiva.Xiaozhi
