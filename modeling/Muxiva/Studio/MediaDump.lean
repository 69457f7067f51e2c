import Mathlib.Logic.Function.Basic
import Muxiva.Lib.System

/-! `MediaDumpStore`: its callers, its writer thread, two mutexes and the command channel. What the
sessions record is left out, nothing in it decides who waits. A critical section in which nothing
can wait is one step; the ones kept open are those of `status_json`, which holds `sessions` while it
takes `active`, and of `finish_session`, which holds `active` while it sends. -/
set_option linter.all false
namespace Muxiva.Studio

def captureQueueFrames : ℕ := 256

abbrev RunId := ℕ

inductive Command where
  | start (runId : RunId)
  | capture
  | finish (runId : RunId)
  deriving DecidableEq, Repr

/-- Where a caller's thread is. -/
inductive Caller where
  | idle
  | startLocksActive (runId : RunId)
  | startLocksSessions (runId : RunId)
  | startSends (runId : RunId)
  | finishLocksActive (runId : RunId)
  | finishSends (runId : RunId)
  | statusLocksSessions
  | statusLocksActive
  | statusReads
  | readLocksSessions
  deriving DecidableEq, Repr

/-- Where the writer thread is. -/
inductive Writer where
  | receives
  | publishesBeforeStart (runId : RunId)
  | opens (runId : RunId)
  | recordsFailure
  | publishes
  deriving DecidableEq, Repr

structure MediaDumpStore where
  enabled : Bool
  droppedFrames : ℕ
  queue : List Command
  active : Option (RunId × Bool)
  activeHolder : Option ℕ
  sessionsHolder : Option ℕ
  callers : ℕ → Caller
  writer : Writer
  current : Option RunId

inductive Operation where
  | startSession (runId : RunId)
  | finishSession (runId : RunId)
  | statusJson
  | readArtifact
  deriving DecidableEq, Repr

inductive Action where
  | setEnabled (enabled : Bool)
  | observeFrame (media : Bool)
  | call (caller : ℕ) (operation : Operation)
  | caller (caller : ℕ)
  | writer (opened : Bool)
  deriving DecidableEq, Repr

namespace MediaDumpStore

variable (s : MediaDumpStore)

def full : Bool := captureQueueFrames ≤ s.queue.length

def moveTo (n : ℕ) (pc : Caller) : MediaDumpStore :=
  { s with callers := Function.update s.callers n pc }

/-- `observe_frame`: a frame is cloned and sent unless the channel is full. -/
def observeFrame (media : Bool) : MediaDumpStore :=
  if !s.enabled || !media then s
  else if s.full then { s with droppedFrames := s.droppedFrames + 1 }
  else { s with queue := s.queue ++ [Command.capture] }

def call (n : ℕ) (operation : Operation) : Option MediaDumpStore :=
  match s.callers n with
  | .idle =>
    match operation with
    | .startSession runId => some ({ s with droppedFrames := 0 }.moveTo n (.startLocksActive runId))
    | .finishSession runId => some (s.moveTo n (.finishLocksActive runId))
    | .statusJson => some (s.moveTo n .statusLocksSessions)
    | .readArtifact => some (s.moveTo n .readLocksSessions)
  | _ => none

/-- The next step of a caller, unless it waits. -/
def stepCaller (n : ℕ) : Option MediaDumpStore :=
  match s.callers n with
  | .idle => none
  | .startLocksActive runId =>
    if s.activeHolder.isSome then none
    else some ({ s with active := some (runId, false) }.moveTo n (.startLocksSessions runId))
  | .startLocksSessions runId =>
    if s.sessionsHolder.isSome then none else some (s.moveTo n (.startSends runId))
  | .startSends runId =>
    if s.full then none
    else some ({ s with queue := s.queue ++ [Command.start runId] }.moveTo n .idle)
  | .finishLocksActive runId =>
    if s.activeHolder.isSome then none
    else
      match s.active with
      | some (current, false) =>
        if current = runId then
          some ({ s with
            active := some (current, true)
            activeHolder := some n }.moveTo n (.finishSends runId))
        else some (s.moveTo n .idle)
      | _ => some (s.moveTo n .idle)
  | .finishSends runId =>
    if s.full then none
    else some ({ s with
      queue := s.queue ++ [Command.finish runId]
      activeHolder := none }.moveTo n .idle)
  | .statusLocksSessions =>
    if s.sessionsHolder.isSome then none
    else some ({ s with sessionsHolder := some n }.moveTo n .statusLocksActive)
  | .statusLocksActive => if s.activeHolder.isSome then none else some (s.moveTo n .statusReads)
  | .statusReads => some ({ s with sessionsHolder := none }.moveTo n .idle)
  | .readLocksSessions => if s.sessionsHolder.isSome then none else some (s.moveTo n .idle)

/-- The next step of the writer, unless it waits; `opened` tells whether the session's directory
could be made. -/
def stepWriter (opened : Bool) : Option MediaDumpStore :=
  match s.writer with
  | .receives =>
    match s.queue with
    | [] => none
    | .start runId :: queue =>
      let writer := if s.current.isSome then .publishesBeforeStart runId else .opens runId
      some { s with queue, writer, current := none }
    | .capture :: queue =>
      some { s with queue, writer := if s.current.isSome then .publishes else .receives }
    | .finish runId :: queue =>
      if s.current = some runId then some { s with queue, writer := .publishes, current := none }
      else some { s with queue }
  | .publishesBeforeStart runId =>
    if s.sessionsHolder.isSome then none else some { s with writer := .opens runId }
  | .opens runId =>
    if opened then some { s with writer := .receives, current := some runId }
    else some { s with writer := .recordsFailure }
  | .recordsFailure =>
    if s.sessionsHolder.isSome then none else some { s with writer := .receives }
  | .publishes => if s.sessionsHolder.isSome then none else some { s with writer := .receives }

def step : Action → Option MediaDumpStore
  | .setEnabled enabled => some { s with enabled }
  | .observeFrame media => some (s.observeFrame media)
  | .call n operation => s.call n operation
  | .caller n => s.stepCaller n
  | .writer opened => s.stepWriter opened

end MediaDumpStore

def MediaDumpStore.new : MediaDumpStore where
  enabled := false
  droppedFrames := 0
  queue := []
  active := none
  activeHolder := none
  sessionsHolder := none
  callers := fun _ => .idle
  writer := .receives
  current := none

def mediaDumpSystem : Transition.System MediaDumpStore Action where
  init s := s = .new
  step := MediaDumpStore.step

end Muxiva.Studio
