import Muxiva.Stream.Registration

/-! `AdmissionSlots` shared by a managed stream and its callers. A lease is named by the number of
leases handed out before it. Callers hold leases of their own, submit them with requests or drop
them; a lease inside the stream is dropped when it is taken from the terminal state of its request
or when the last pointer to that terminal state goes. Dropping a lease and returning its slot are
separate critical sections, and the thread that drops one does nothing else in between. -/
set_option linter.all false
namespace Muxiva.Admission

open Muxiva.Stream (ManagedStreamOptions AsyncRequest)

inductive AdmissionError where
  | zeroCapacity
  | closed
  deriving DecidableEq, Repr

/-- The state behind the lock of `AdmissionSlots`. -/
structure AdmissionSlots where
  max : ℕ
  inFlight : ℕ
  closed : Bool
  deriving DecidableEq, Repr

namespace AdmissionSlots

def new (maxInFlight : ℕ) : Except AdmissionError AdmissionSlots :=
  if maxInFlight = 0 then .error .zeroCapacity else .ok ⟨maxInFlight, 0, false⟩

/-- `try_acquire`: whether a lease is handed out, and the slots afterwards. -/
def tryAcquire (a : AdmissionSlots) : Except AdmissionError (Bool × AdmissionSlots) :=
  if a.closed then .error .closed
  else if a.inFlight = a.max then .ok (false, a)
  else .ok (true, { a with inFlight := a.inFlight + 1 })

/-- One round of the loop of `acquire`; `false` means that it waits. -/
def acquire (a : AdmissionSlots) : Except AdmissionError (Bool × AdmissionSlots) :=
  if a.closed then .error .closed
  else if a.inFlight < a.max then .ok (true, { a with inFlight := a.inFlight + 1 })
  else .ok (false, a)

def close (a : AdmissionSlots) : AdmissionSlots := { a with closed := true }

/-- `release_inner`, past its `debug_assert`. -/
def release (a : AdmissionSlots) : AdmissionSlots := { a with inFlight := a.inFlight - 1 }

end AdmissionSlots

/-- A thread of the stream that can drop a lease. -/
inductive Thread where
  | exec
  | worker (q : ℕ)
  | cancel (i : ℕ)
  | stop
  deriving DecidableEq, Repr

variable {φ : Type}

/-- The thread that an action of the stream belongs to; the other actions are calls that drop
nothing. -/
def threadOf : Stream.Label φ → Option Thread
  | .exec _ => some .exec
  | .worker q _ => some (.worker q)
  | .cancel i => some (.cancel i)
  | .stop _ => some .stop
  | _ => none

structure State (φ : Type) where
  slots : AdmissionSlots
  /-- leases handed out so far -/
  leases : ℕ
  /-- leases that callers own -/
  held : List ℕ
  /-- the lease submitted with a request, unless it is one of other slots -/
  carried : ℕ → Option ℕ
  /-- leases being dropped, with the thread of the stream that drops them -/
  pending : List (Option Thread × ℕ)
  /-- leases that gave back their slot, oldest first -/
  released : List ℕ
  /-- a release found no slot in use -/
  underflow : Bool
  stream : Stream.State φ

inductive Label (φ : Type) where
  | tryAcquire
  | acquire
  | close
  /-- a caller drops a lease -/
  | drop (lease : ℕ)
  /-- the critical section of the `i`-th lease being dropped -/
  | release (i : ℕ)
  /-- `try_submit` with a lease of these slots or of others -/
  | submit (r : AsyncRequest φ) (lifecycle : ℕ) (lease : Option ℕ)
  | stream (a : Stream.Label φ)

def State.initial (max : ℕ) : State φ :=
  ⟨⟨max, 0, false⟩, 0, [], fun _ => none, [], [], false, .initial⟩

example : AdmissionSlots.new 2 = .ok (State.initial 2 : State Unit).slots := rfl

/-- The answer of `try_acquire` or of a round of `acquire`. -/
def State.acquired (s : State φ) : Except AdmissionError (Bool × AdmissionSlots) → State φ
  | .ok (true, slots) =>
    { s with slots := slots, leases := s.leases + 1, held := s.held ++ [s.leases] }
  | .ok (false, slots) => { s with slots := slots }
  | .error _ => s

/-- Requests of `qs` that keep their lease in `t`. -/
def keeping (t : Stream.State φ) (qs : List ℕ) : List ℕ := qs.filter fun q => t.leaseHeld q

/-- Leases in the terminal states of accepted requests. -/
def State.inside (s : State φ) : List ℕ :=
  (keeping s.stream (List.range s.stream.nextSequence)).filterMap s.carried

/-- Leases whose slot is in use. -/
def State.outstanding (s : State φ) : List ℕ := s.held ++ s.inside ++ s.pending.map Prod.snd

/-- Leases in terminal states that lose them on the way to `t`. -/
def State.dropped (s : State φ) (t : Stream.State φ) : List ℕ :=
  ((keeping s.stream (List.range s.stream.nextSequence)).filter
    fun q => ¬ t.leaseHeld q).filterMap s.carried

/-- The thread of the action has still to return a slot. -/
def State.busy (s : State φ) (a : Stream.Label φ) : Bool :=
  (threadOf a).isSome && s.pending.any (·.1 = threadOf a)

variable (o : ManagedStreamOptions φ)

def State.step (s : State φ) : Label φ → Option (State φ)
  | .tryAcquire => some (s.acquired s.slots.tryAcquire)
  | .acquire => some (s.acquired s.slots.acquire)
  | .close => some { s with slots := s.slots.close }
  | .drop lease =>
    if lease ∈ s.held then
      some { s with held := s.held.erase lease, pending := s.pending ++ [(none, lease)] }
    else none
  | .release i =>
    match s.pending[i]? with
    | none => none
    | some (_, lease) => some { s with
        slots := s.slots.release
        pending := s.pending.eraseIdx i
        released := s.released ++ [lease]
        underflow := s.underflow || decide (s.slots.inFlight = 0) }
  | .submit r lifecycle lease =>
    if ∀ l, lease = some l → l ∈ s.held then
      (s.stream.step o (.trySubmit r lifecycle)).map fun t =>
        let s' := { s with stream := t, held := lease.elim s.held s.held.erase }
        if t.nextSequence = s.stream.nextSequence + 1 then
          { s' with carried := Function.update s.carried s.stream.nextSequence lease }
        else { s' with pending := s.pending ++ lease.toList.map (none, ·) }
    else none
  | .stream a =>
    match a with
    | .trySubmit .. => none
    | _ =>
      if s.busy a then none
      else (s.stream.step o a).map fun t =>
        { s with stream := t, pending := s.pending ++ (s.dropped t).map (threadOf a, ·) }

def system (max : ℕ) : Transition.System (State φ) (Label φ) where
  init s := s = State.initial max
  step s a := s.step o a

end Muxiva.Admission
