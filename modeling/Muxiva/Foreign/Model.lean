import Muxiva.Foreign.Types
import Muxiva.Lib.SortedMap
import Muxiva.Lib.System

/-! `ForeignNodeDriver`: every public operation runs under the one mutex, so an operation is a
function on the state and a run is a list of operations. -/
set_option linter.all false
namespace Muxiva.Foreign
open Muxiva.Runtime (saturatingAdd)

structure QueuedCommand where
  command : ForeignCommand
  bytes : ℕ

structure QueuedCompletion where
  completion : ForeignCompletion
  bytes : ℕ

structure LiveCommand where
  deadline : ℕ
  dispatched : Bool
  cancelled : Bool
  completionReceived : Bool
  deriving DecidableEq

structure State where
  commands : List QueuedCommand
  commandBytes : ℕ
  controls : List ForeignCommand
  ready : List QueuedCompletion
  readyBytes : ℕ
  ordered : SortedMap ℕ QueuedCompletion
  orderedBytes : ℕ
  live : SortedMap ℕ LiveCommand
  strictOrder : List ℕ
  lastStrictSequence : Option ℕ
  accepting : Bool
  stopping : Bool
  abortReason : Option AbortReason
  abortTaken : Bool
  lateCompletionTotal : ℕ
  cancellationTotal : ℕ
  /-- whether the shared stop token is cancelled -/
  tokenCancelled : Bool

def State.new : State where
  commands := []
  commandBytes := 0
  controls := []
  ready := []
  readyBytes := 0
  ordered := .empty
  orderedBytes := 0
  live := .empty
  strictOrder := []
  lastStrictSequence := none
  accepting := true
  stopping := false
  abortReason := none
  abortTaken := false
  lateCompletionTotal := 0
  cancellationTotal := 0
  tokenCancelled := false

/-- A driver exists only for settings that pass `validate`. -/
structure ForeignNodeDriver where
  config : ForeignDriverConfig
  valid : config.validate = .ok ()
  /-- the last representable `Instant`; the clock starts at zero and can run for an hour -/
  instantMax : ℕ
  instantMax_ge : maxDuration ≤ instantMax

inductive ForeignSubmitOutcome where
  | accepted
  | full
  | closed
  | cancelled
  deriving DecidableEq, Repr

inductive ForeignCompletionOutcome where
  | accepted
  | full
  | closed
  | lateDiscarded
  deriving DecidableEq, Repr

/-- What a submitter sees; adding the deadline to `now` panics when the sum is not
representable, with the command queued and the mutex guard dropped. -/
inductive SubmitResult where
  | returned (outcome : Except ForeignDriverError ForeignSubmitOutcome)
  | panicked
  deriving DecidableEq

def nextSequence (previous : ℕ) : ℕ := if previous + 1 < 2 ^ 64 then previous + 1 else previous

/-- `remove_sequence`. -/
def removeSequence (order : List ℕ) (sequence : ℕ) : List ℕ := order.erase sequence

/-- The removal of one live sequence, as every path spells it. -/
def State.release (s : State) (sequence : ℕ) : State :=
  { s with
    live := s.live.erase sequence
    strictOrder := removeSequence s.strictOrder sequence }

/-- A fresh command enters the mailbox. -/
def State.enqueue (s : State) (command : ForeignCommand) : State :=
  { s with
    commands := s.commands ++ [⟨command, command.commandBytes⟩]
    commandBytes := saturatingAdd s.commandBytes command.commandBytes }

/-- The completion `queued` of the head `sequence` moves from `ordered` to `ready`. -/
def State.promoted (s : State) (sequence : ℕ) (queued : QueuedCompletion) : State :=
  { s with
    ordered := s.ordered.erase sequence
    orderedBytes := s.orderedBytes - queued.bytes
    readyBytes := saturatingAdd s.readyBytes queued.bytes
    ready := s.ready ++ [queued] }

/-- The loop of `promote_strict`: the head of the order is not removed here, so a second turn
finds nothing to promote. -/
def State.promoteLoop : ℕ → State → State
  | 0, s => s
  | fuel + 1, s =>
    match s.strictOrder with
    | [] => s
    | sequence :: _ =>
      match s.ordered.get? sequence with
      | none => s
      | some queued => promoteLoop fuel (s.promoted sequence queued)

/-- `promote_strict`; each turn takes one completion out of `ordered`. -/
def State.promoteStrict (s : State) : State := s.promoteLoop s.ordered.size

def cancelControl (sequence : ℕ) : ForeignCommand := ⟨sequence, .cancel⟩
def abortControl (reason : AbortReason) : ForeignCommand := ⟨2 ^ 64 - 2, .abort reason⟩
def stopControl : ForeignCommand := ⟨2 ^ 64 - 1, .stop⟩

def State.undispatched (s : State) : List ℕ :=
  (s.live.entries.filter fun e => !e.2.dispatched).map Prod.fst

/-- The live sequences that are not cancelled yet. -/
def State.cancelling (s : State) : List ℕ :=
  (s.live.entries.filter fun e => !e.2.cancelled).map Prod.fst

/-- The first half of `fail_locked`: admission is sealed and work nobody received is dropped. -/
def State.purge (s : State) (reason : AbortReason) : State :=
  let commands := s.commands.filter fun queued => queued.command.sequence ∉ s.undispatched
  s.undispatched.foldl State.release { s with
    accepting := false
    stopping := true
    tokenCancelled := true
    abortReason := some (s.abortReason.getD reason)
    commands := commands
    commandBytes := (commands.map (·.bytes)).sum }

/-- `fail_locked`. -/
def State.failLocked (s : State) (reason : AbortReason) : State :=
  let terminal := [abortControl (s.abortReason.getD reason), stopControl]
  let s := s.purge reason
  { s with
    live := s.live.mapValues fun l => { l with cancelled := true }
    controls := s.controls ++ s.cancelling.map cancelControl ++ terminal
    cancellationTotal := saturatingAdd s.cancellationTotal s.cancelling.length
    ready := []
    readyBytes := 0
    ordered := .empty
    orderedBytes := 0 }

def deadlineAbort : AbortReason where
  category := .foreignException
  nodeId := none
  stage := .runtime
  code := "MUXIVA-FOREIGN-DEADLINE"
  message := "foreign call deadline elapsed"
  details := []

variable (d : ForeignNodeDriver)

/-- Whether a submission is refused for lack of room. -/
def State.submitFull (s : State) (command : ForeignCommand) : Bool :=
  decide (s.live.size = d.config.maxInFlight) ||
    decide (s.commands.length = d.config.commandCapacity) ||
    !fits s.commandBytes command.commandBytes d.config.commandByteCapacity

def State.strictGap (s : State) (command : ForeignCommand) : Bool :=
  match s.lastStrictSequence with
  | some previous => decide (command.sequence ≠ nextSequence previous)
  | none => false

def State.withLast (s : State) (last : Option ℕ) : State := { s with lastStrictSequence := last }

/-- The end of `try_submit`, once the sequence is admissible. -/
def State.enter (s : State) (command : ForeignCommand) (now : ℕ) : SubmitResult × State :=
  if s.submitFull d command then (.returned (.ok .full), s)
  else
    let s := s.enqueue command
    if d.instantMax < now + d.config.perCallDeadline then (.panicked, s)
    else (.returned (.ok .accepted), { s with
      live := s.live.insert command.sequence
        ⟨now + d.config.perCallDeadline, false, false, false⟩
      strictOrder := if d.config.ordering = .strict then s.strictOrder ++ [command.sequence]
        else s.strictOrder })

def State.trySubmit (s : State) (command : ForeignCommand) (now : ℕ) : SubmitResult × State :=
  if s.stopping then (.returned (.ok .closed), s)
  else if s.tokenCancelled then (.returned (.ok .cancelled), s)
  else if !s.accepting then (.returned (.ok .closed), s)
  else if s.live.contains command.sequence then (.returned (.error .duplicateSequence), s)
  else if d.config.ordering = .strict then
    if s.strictGap command then (.returned (.error .strictSequenceGap), s)
    -- the sequence counts as the last one even when the mailbox turns out to be full
    else (s.withLast (some command.sequence)).enter d command now
  else s.enter d command now

def State.tryReceive (s : State) : Option ForeignCommand × State :=
  match s.controls with
  | control :: controls => (some control, { s with controls := controls })
  | [] =>
    match s.commands with
    | [] => (none, s)
    | queued :: commands =>
      (some queued.command, { s with
        commands := commands
        commandBytes := s.commandBytes - queued.bytes
        live := match s.live.get? queued.command.sequence with
          | some l => s.live.insert queued.command.sequence { l with dispatched := true }
          | none => s.live })

/-- Whether a success completion is refused for lack of room. -/
def State.completionFull (s : State) (completion : ForeignCompletion) : Bool :=
  decide (s.ready.length + s.ordered.size = d.config.completionCapacity) ||
    !fits (saturatingAdd s.readyBytes s.orderedBytes) completion.completionBytes
      d.config.completionByteCapacity

/-- The end of `try_complete`: the completion becomes ready, or waits for its turn. -/
def State.accept (s : State) (completion : ForeignCompletion) (l : LiveCommand) : State :=
  let queued : QueuedCompletion := ⟨completion, completion.completionBytes⟩
  let s := { s with
    live := s.live.insert completion.sequence { l with completionReceived := true } }
  match d.config.ordering with
  | .unordered => { s with
      readyBytes := saturatingAdd s.readyBytes queued.bytes
      ready := s.ready ++ [queued] }
  | .strict => State.promoteStrict { s with
      orderedBytes := saturatingAdd s.orderedBytes queued.bytes
      ordered := s.ordered.insert completion.sequence queued }

def State.tryComplete (s : State) (completion : ForeignCompletion) :
    ForeignCompletionOutcome × State :=
  match s.live.get? completion.sequence with
  | none =>
    if s.stopping then (.closed, s)
    else (.lateDiscarded,
      { s with lateCompletionTotal := saturatingAdd s.lateCompletionTotal 1 })
  | some l =>
    if l.cancelled || s.stopping || s.tokenCancelled then
      (.lateDiscarded, State.release
        { s with lateCompletionTotal := saturatingAdd s.lateCompletionTotal 1 }
        completion.sequence)
    else if l.completionReceived then
      (.lateDiscarded, { s with lateCompletionTotal := saturatingAdd s.lateCompletionTotal 1 })
    else match completion.kind with
      | .failure reason => (.accepted, (s.release completion.sequence).failLocked reason)
      | .success .. =>
        if s.completionFull d completion then (.full, s)
        else (.accepted, s.accept d completion l)

def State.tryTakeCompletion (s : State) : Option ForeignCompletion × State :=
  match s.ready with
  | [] => (none, s)
  | queued :: ready =>
    let s := State.release { s with ready := ready, readyBytes := s.readyBytes - queued.bytes }
      queued.completion.sequence
    (some queued.completion, if d.config.ordering = .strict then s.promoteStrict else s)

/-- The live sequences whose deadline has passed. -/
def State.expired (s : State) (now : ℕ) : List ℕ :=
  (s.live.entries.filter fun e => e.2.deadline ≤ now).map Prod.fst

def State.expireDeadlines (s : State) (now : ℕ) : ℕ × State :=
  let expired := s.expired now
  if expired.isEmpty then (0, s)
  else
    let s := s.failLocked deadlineAbort
    (expired.length,
      { s with cancellationTotal := saturatingAdd s.cancellationTotal expired.length })

def State.beginStop (s : State) (reason : AbortReason) : Bool × State :=
  if s.stopping then (false, s) else (true, s.failLocked reason)

def State.beginGracefulStop (s : State) : Bool × State :=
  if s.stopping || !s.live.entries.isEmpty then (false, s)
  else (true, { s with
    accepting := false
    stopping := true
    tokenCancelled := true
    controls := s.controls ++ [stopControl] })

def State.takeAbortReason (s : State) : Option AbortReason × State :=
  if s.abortTaken then (none, s)
  else match s.abortReason with
    | none => (none, s)
    | some reason => (some reason, { s with abortTaken := true })

def State.acknowledgeCancel (s : State) (sequence : ℕ) : Bool × State :=
  match s.live.get? sequence with
  | none => (false, s)
  | some l => if !l.cancelled then (false, s) else (true, s.release sequence)

/-- One public operation; `cancelToken` is a holder of `stop_token()` that cancels it. -/
inductive Op where
  | trySubmit (command : ForeignCommand) (now : ℕ)
  | tryReceive
  | tryComplete (completion : ForeignCompletion)
  | tryTakeCompletion
  | expireDeadlines (now : ℕ)
  | beginStop (reason : AbortReason)
  | beginGracefulStop
  | takeAbortReason
  | acknowledgeCancel (sequence : ℕ)
  | cancelToken

/-- What the caller of an operation gets back. -/
inductive Reply where
  | submitted (result : SubmitResult)
  | received (command : Option ForeignCommand)
  | completed (outcome : ForeignCompletionOutcome)
  | taken (completion : Option ForeignCompletion)
  | expired (count : ℕ)
  | stopped (first : Bool)
  | reason (reason : Option AbortReason)
  | acknowledged (known : Bool)
  | unit

def State.apply (s : State) : Op → Reply × State
  | .trySubmit command now => (s.trySubmit d command now).map .submitted id
  | .tryReceive => s.tryReceive.map .received id
  | .tryComplete completion => (s.tryComplete d completion).map .completed id
  | .tryTakeCompletion => (s.tryTakeCompletion d).map .taken id
  | .expireDeadlines now => (s.expireDeadlines now).map .expired id
  | .beginStop reason => (s.beginStop reason).map .stopped id
  | .beginGracefulStop => s.beginGracefulStop.map .stopped id
  | .takeAbortReason => s.takeAbortReason.map .reason id
  | .acknowledgeCancel sequence => (s.acknowledgeCancel sequence).map .acknowledged id
  | .cancelToken => (.unit, { s with tokenCancelled := true })

/-- A driver with everything its callers have seen, and every control it has queued. -/
structure History where
  state : State
  log : List (Op × Reply)
  issued : List ForeignCommand

/-- Controls are queued at the back, so those an operation adds are what lies beyond the old
length. -/
def History.next (h : History) (op : Op) : History where
  state := (h.state.apply d op).2
  log := h.log ++ [(op, (h.state.apply d op).1)]
  issued := h.issued ++ (h.state.apply d op).2.controls.drop h.state.controls.length

/-- A driver under any sequence of operations. -/
def driver : Transition.System History Op where
  init h := h = ⟨.new, [], []⟩
  step h op := some (h.next d op)

/-- A driver with room for two calls and two completions. -/
def smallDriver (ordering : ForeignOrdering) : ForeignNodeDriver where
  config := {
    commandCapacity := 2
    commandByteCapacity := 1024
    completionCapacity := 2
    completionByteCapacity := 1024
    maxInFlight := 2
    perCallDeadline := 10
    shutdownDeadline := 10
    ordering := ordering
    commandCapacity_pos := Nat.two_pos
    commandByteCapacity_pos := by decide
    completionCapacity_pos := Nat.two_pos
    completionByteCapacity_pos := by decide
    maxInFlight_pos := Nat.two_pos }
  valid := by cases ordering <;> rfl
  instantMax := 2 ^ 63 * 10 ^ 9
  instantMax_ge := by decide

/-- A success that carries nothing. -/
def emptySuccess (sequence : ℕ) : ForeignCompletion := ⟨sequence, .success [] [] [] []⟩

end Muxiva.Foreign
