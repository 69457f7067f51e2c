import Muxiva.Ffi.Frame
import Muxiva.Lib.System

/-! `ExternalIngress`: calls of `try_submit`, split at its two looks at `closed` and at the lock
between them, calls of `pop`, which waits for the lock, and `close`, which does not take it. -/
set_option linter.all false
namespace Muxiva.Ffi

open Transition Transition.System

inductive SubmitError where
  | full
  | closed
  deriving DecidableEq, Repr

/-- Where a call of `try_submit` stands. -/
inductive Submitter where
  | idle
  | admitted (frame : OwnedFrame)
  | locked (frame : OwnedFrame)
  | checked (frame : OwnedFrame)
  | returned (result : Except SubmitError Unit)
  deriving DecidableEq

/-- Where a call of `pop` stands; `late` if it took the lock after the close. -/
inductive Popper where
  | idle
  | locked (late : Bool)
  | returned (late : Bool) (frame : Option OwnedFrame)
  deriving DecidableEq

inductive Holder where
  | submitter (i : ℕ)
  | popper (i : ℕ)
  deriving DecidableEq, Repr

/-- What `new` is given. -/
structure Capacities where
  capacity : ℕ
  byteCapacity : ℕ
  deriving DecidableEq, Repr

/-- The last two fields follow the run, nothing reads them. -/
structure ExternalIngress where
  closed : Bool
  holder : Option Holder
  frames : List OwnedFrame
  bytes : ℕ
  accepted : ℕ
  full : ℕ
  closedDrops : ℕ
  submitters : ℕ → Submitter
  poppers : ℕ → Popper
  acceptedLog : List OwnedFrame
  poppedLog : List OwnedFrame

inductive IngressAct where
  | submit (i : ℕ) (frame : OwnedFrame)
  | submitter (i : ℕ)
  | pop (i : ℕ)
  | popper (i : ℕ)
  | close
  deriving DecidableEq

namespace ExternalIngress

def new : ExternalIngress where
  closed := false
  holder := none
  frames := []
  bytes := 0
  accepted := 0
  full := 0
  closedDrops := 0
  submitters := fun _ => .idle
  poppers := fun _ => .idle
  acceptedLog := []
  poppedLog := []

variable (c : Capacities) (s : ExternalIngress) (i : ℕ)

def setSubmitter (pc : Submitter) : ExternalIngress :=
  { s with submitters := Function.update s.submitters i pc }

def setPopper (pc : Popper) : ExternalIngress :=
  { s with poppers := Function.update s.poppers i pc }

/-- `queue.bytes.checked_add(bytes).is_none_or(|total| total > byte_capacity)`, or too many frames. -/
def isFull (frame : OwnedFrame) : Bool :=
  c.capacity ≤ s.frames.length ||
    (match Audio.checkedAdd s.bytes frame.copiedPayloadLen with
    | none => true
    | some total => c.byteCapacity < total)

def submit (frame : OwnedFrame) : Option ExternalIngress :=
  match s.submitters i with
  | .idle =>
    if s.closed then
      some { s.setSubmitter i (.returned (.error .closed)) with closedDrops := s.closedDrops + 1 }
    else some (s.setSubmitter i (.admitted frame))
  | _ => none

def stepSubmitter : Option ExternalIngress :=
  match s.submitters i with
  | .admitted frame =>
    if s.holder = none then some { s.setSubmitter i (.locked frame) with holder := some (.submitter i) }
    else some { s.setSubmitter i (.returned (.error .full)) with full := s.full + 1 }
  | .locked frame =>
    if s.closed then
      some { s.setSubmitter i (.returned (.error .closed)) with
        closedDrops := s.closedDrops + 1, holder := none }
    else some (s.setSubmitter i (.checked frame))
  | .checked frame =>
    if s.isFull c frame then
      some { s.setSubmitter i (.returned (.error .full)) with full := s.full + 1, holder := none }
    else some { s.setSubmitter i (.returned (.ok ())) with
      bytes := s.bytes + frame.copiedPayloadLen
      frames := s.frames ++ [frame]
      accepted := s.accepted + 1
      acceptedLog := s.acceptedLog ++ [frame]
      holder := none }
  | _ => none

def pop : Option ExternalIngress :=
  match s.poppers i with
  | .idle =>
    if s.holder = none then some { s.setPopper i (.locked s.closed) with holder := some (.popper i) }
    else none
  | _ => none

def stepPopper : Option ExternalIngress :=
  match s.poppers i with
  | .locked late =>
    match s.frames with
    | [] => some { s.setPopper i (.returned late none) with holder := none }
    | frame :: frames =>
      some { s.setPopper i (.returned late (some frame)) with
        frames := frames
        bytes := s.bytes - frame.copiedPayloadLen
        poppedLog := s.poppedLog ++ [frame]
        holder := none }
  | _ => none

def step : IngressAct → Option ExternalIngress
  | .submit i frame => s.submit i frame
  | .submitter i => s.stepSubmitter c i
  | .pop i => s.pop i
  | .popper i => s.stepPopper i
  | .close => some { s with closed := true }

end ExternalIngress

def ingressSystem (c : Capacities) : System ExternalIngress IngressAct where
  init s := s = .new
  step := ExternalIngress.step c

namespace ExternalIngress

variable {c : Capacities} {s s' : ExternalIngress} {i : ℕ} {a : IngressAct}

def queuedBytes (frames : List OwnedFrame) : ℕ := (frames.map (·.copiedPayloadLen)).sum

/-- What the queue holds, and what went through it. -/
structure Counted (c : Capacities) (s : ExternalIngress) : Prop where
  bytes : s.bytes = queuedBytes s.frames
  byteCapacity : s.bytes ≤ c.byteCapacity
  capacity : s.frames.length ≤ c.capacity
  order : s.acceptedLog = s.poppedLog ++ s.frames
  accepted : s.accepted = s.acceptedLog.length

theorem Counted.init : Counted c new := by
  constructor <;> simp [new, queuedBytes]

/-- A frame that does not fill the queue. -/
theorem isFull_eq_false {frame : OwnedFrame} (h : s.isFull c frame = false) :
    s.frames.length < c.capacity ∧ s.bytes + frame.copiedPayloadLen ≤ c.byteCapacity := by
  unfold isFull at h
  simp only [Bool.or_eq_false_iff, decide_eq_false_iff_not, not_le] at h
  obtain ⟨hlength, hbytes⟩ := h
  cases htotal : Audio.checkedAdd s.bytes frame.copiedPayloadLen with
  | none => simp [htotal] at hbytes
  | some total =>
    simp only [htotal, decide_eq_false_iff_not, not_lt] at hbytes
    obtain ⟨-, hsum⟩ := Audio.checkedAdd_eq_some.mp htotal
    omega

theorem Counted.push (h : s.Counted c) {frame : OwnedFrame} (hroom : s.isFull c frame = false)
    {pc : Submitter} {holder : Option Holder} :
    Counted c { s.setSubmitter i pc with
      bytes := s.bytes + frame.copiedPayloadLen
      frames := s.frames ++ [frame]
      accepted := s.accepted + 1
      acceptedLog := s.acceptedLog ++ [frame]
      holder := holder } := by
  obtain ⟨hlength, hbytes⟩ := isFull_eq_false hroom
  have hsum := h.bytes
  have haccepted := h.accepted
  constructor
  · simp only [queuedBytes, List.map_append, List.sum_append, List.map_cons, List.map_nil,
      List.sum_cons, List.sum_nil] at hsum ⊢
    omega
  · exact hbytes
  · simp only [List.length_append, List.length_singleton]
    omega
  · simp only [setSubmitter, h.order, List.append_assoc]
  · simp only [List.length_append, List.length_singleton]
    omega

theorem Counted.popFront (h : s.Counted c) {frame : OwnedFrame} {frames : List OwnedFrame}
    (hframes : s.frames = frame :: frames) {pc : Popper} {holder : Option Holder} :
    Counted c { s.setPopper i pc with
      frames := frames
      bytes := s.bytes - frame.copiedPayloadLen
      poppedLog := s.poppedLog ++ [frame]
      holder := holder } := by
  have hbytes := h.bytes
  have hbyteCapacity := h.byteCapacity
  have hcapacity := h.capacity
  rw [hframes] at hbytes hcapacity
  simp only [queuedBytes, List.map_cons, List.sum_cons] at hbytes
  simp only [List.length_cons] at hcapacity
  constructor
  · simp only [queuedBytes]
    omega
  · show s.bytes - frame.copiedPayloadLen ≤ c.byteCapacity
    omega
  · show frames.length ≤ c.capacity
    omega
  · simp only [setPopper, h.order, hframes, List.append_assoc, List.singleton_append]
  · exact h.accepted

theorem Counted.step (h : s.Counted c) (hs : (ingressSystem c).step s a = some s') : s'.Counted c := by
  cases a with
  | submit i frame =>
    have hs : s.submit i frame = some s' := hs
    unfold submit at hs
    split at hs
    · split_ifs at hs
      · cases hs
        exact { h with }
      · cases hs
        exact { h with }
    · cases hs
  | submitter i =>
    have hs : s.stepSubmitter c i = some s' := hs
    unfold stepSubmitter at hs
    split at hs
    · split_ifs at hs
      · cases hs
        exact { h with }
      · cases hs
        exact { h with }
    · split_ifs at hs
      · cases hs
        exact { h with }
      · cases hs
        exact { h with }
    · split_ifs at hs with hfull
      · cases hs
        exact { h with }
      · cases hs
        exact h.push (by simpa using hfull)
    · cases hs
  | pop i =>
    have hs : s.pop i = some s' := hs
    unfold pop at hs
    split at hs
    · split_ifs at hs
      cases hs
      exact { h with }
    · cases hs
  | popper i =>
    have hs : s.stepPopper i = some s' := hs
    unfold stepPopper at hs
    split at hs
    · split at hs
      · cases hs
        exact { h with }
      · rename_i frame frames hframes
        cases hs
        exact h.popFront hframes
    · cases hs
  | close =>
    have hs : some { s with closed := true } = some s' := hs
    cases hs
    exact { h with }

end ExternalIngress

end Muxiva.Ffi
