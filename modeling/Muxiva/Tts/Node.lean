import Mathlib.Data.Int.Notation
import Mathlib.Logic.Function.Basic
import Muxiva.Lib.System
import Muxiva.Lib.Text

/-! `QwenTtsRealtimeNode` after `on_prepare`: the callbacks, one at a time, and the synthesis worker,
with the queues of jobs and results between them. A step makes one access to what is shared, or
answers one call of the transport. -/
set_option linter.all false
namespace Muxiva.Tts

/-- What `str.strip` removes. -/
def isStripped (c : Char) : Bool :=
  isWhitespace c || 0x1C ≤ c.toNat && c.toNat ≤ 0x1F

def strip (text : Text) : Text :=
  ((text.dropWhile isStripped).reverse.dropWhile isStripped).reverse

/-- `isDecimal` is the class `\d`. -/
structure Config where
  maxResultsPerWakeup : ℤ
  endOfTurnGraceMs : ℤ
  connectRetries : ℤ
  isDecimal : Char → Bool

/-- `normalize_tts_text`, after the character before the text. -/
def Config.normalizeTtsText (c : Config) (before : Option Char) : Text → Text
  | [] => []
  | char :: text =>
    (if char = '.' && before.any c.isDecimal && text.head?.any c.isDecimal then '点' else char) ::
      c.normalizeTtsText (some char) text

def Config.endOfTurnGrace (c : Config) : ℤ := max 0 c.endOfTurnGraceMs

def Config.retryCount (c : Config) : ℕ := max 1 c.connectRetries.toNat

/-- An admitted text, with its number. -/
structure Job where
  generation : ℕ
  text : Text
  sequence : ℤ
  id : ℕ
  deriving DecidableEq, Repr

inductive Value where
  | audio (pcm : List UInt8)
  | done (chars : ℕ)
  | error (message : Text)
  deriving DecidableEq, Repr

/-- A result, with the number of the job in whose synthesis it came. -/
structure Result where
  generation : ℕ
  value : Value
  sequence : ℤ
  job : ℕ
  deriving DecidableEq, Repr

def Job.result (job : Job) (value : Value) : Result :=
  ⟨job.generation, value, job.sequence, job.id⟩

inductive Event where
  | audio (pcm : Except Text (List UInt8))
  | error (message : Text)
  | other

/-- What the worker puts: a piece of audio, after which it polls on, or the job's last result. After
an error it `closes` its session, unless it could not open one. -/
inductive Put where
  | audio (pcm : List UInt8) (retried : Bool)
  | done (chars : ℕ)
  | error (message : Text) (closes : Bool)
  deriving DecidableEq, Repr

def Put.value : Put → Value
  | .audio pcm _ => .audio pcm
  | .done chars => .done chars
  | .error message _ => .error message

/-- Where the worker stands. `retried` tells the second `_synthesize` of a job from the first. -/
inductive Place where
  | top
  | waits
  | took (job : Job)
  | opens (job : Job) (retried : Bool) (attempt : ℕ)
  | registers (job : Job) (retried : Bool) (attempt : ℕ) (transport : ℕ)
  | sends (job : Job) (retried : Bool)
  | polls (job : Job) (retried : Bool) (emitted : Bool)
  | judges (job : Job) (retried : Bool) (emitted : Bool) (event : Event)
  | completes (job : Job)
  | retries (job : Job)
  | rechecks (job : Job)
  | rechecksClosing (job : Job)
  | fails (job : Job) (message : Text) (closes : Bool)
  | failsClosing (job : Job) (message : Text) (closes : Bool)
  | puts (job : Job) (put : Put)
  | putsChecks (job : Job) (put : Put)
  | offers (job : Job) (put : Put)
  | closes (generation : ℕ)
  | leaves (generation : ℕ)
  | abandons
  | stops
  | exited

/-- Where the worker goes when `_put_result` has returned. -/
def Put.after (job : Job) : Put → Place
  | .audio _ retried => .polls job retried true
  | .done _ => .leaves job.generation
  | .error _ true => .closes job.generation
  | .error _ false => .top

/-- The places whose step takes the lock. -/
def Place.takesLock : Place → Bool
  | .took _ => true
  | .registers _ _ _ _ => true
  | .judges _ _ _ _ => true
  | .completes _ => true
  | .retries _ => true
  | .rechecks _ => true
  | .fails _ _ _ => true
  | .putsChecks _ _ => true
  | .closes _ => true
  | .leaves _ => true
  | .abandons => true
  | .stops => true
  | _ => false

inductive TtsError where
  | full
  | port
  | emission
  deriving DecidableEq, Repr

/-- Where the callbacks stand. At `judgesResults` they hold the lock. -/
inductive Phase where
  | rest
  | putsJob (job : Job)
  | drains (left : ℕ)
  | judgesDrained
  | judgesResults (now : ℤ)
  | emitsDrained (generation : ℕ) (sequence : ℤ) (audioFrames : ℕ)
  | checksWork
  | invalidates (closeTransport : Bool) (finishes : Bool)
  | clearsJobs (finishes : Bool)
  | clearsResults (finishes : Bool)
  | putsNone
  | clearsAgain
  | failed (error : TtsError)
  | ended
  deriving DecidableEq, Repr

inductive Entry where
  | admitted (job : ℕ)
  | refused (job : ℕ)
  | audio (job : ℕ) (sequence : ℤ) (pcm : List UInt8)
  | completed (job : ℕ)
  | drained (generation : ℕ) (sequence : ℤ) (audioFrames : ℕ)
  | cancelled
  deriving DecidableEq, Repr

/-- The node and its worker. `log` has what the callbacks admitted, drained, emitted and cancelled. -/
structure QwenTtsRealtimeNode where
  jobs : List (Option Job)
  results : List Result
  generation : ℕ
  pendingJobs : ℕ
  terminalSequence : Option ℤ
  terminalGeneration : Option ℕ
  drainNotBefore : ℤ
  emittedAudioFrames : ℤ → ℕ
  cancelledThroughSequence : ℤ
  activeTransport : Option ℕ
  closing : Bool
  phase : Phase
  scheduled : Bool
  place : Place
  transport : Option ℕ
  opened : ℕ
  nextJob : ℕ
  log : List Entry

inductive Topic where
  | agentResponseCompleted
  | modelResponseCompleted
  | voiceResponseCompleted
  | other
  deriving DecidableEq, Repr

inductive SignalName where
  | turnCancelled
  | voiceSpeechStarted
  | other
  deriving DecidableEq, Repr

/-- What the transport answers. -/
inductive Io where
  | opened
  | sent
  | event (event : Event)
  | ended
  | fails (error : Text)

inductive Action where
  | event (topic : Topic) (sequence : ℤ) (now : ℤ)
  | text (text : Text) (sequence : ℤ) (now : ℤ)
  | tick
  | otherPort
  | onSignal (name : SignalName) (sequence : ℤ)
  | onFinish
  | onAbort
  | node (now : ℤ) (emits : Bool)
  | worker (io : Io)

namespace QwenTtsRealtimeNode

variable (c : Config) (s : QwenTtsRealtimeNode)

/-- `on_process` of an event. -/
def onEvent (topic : Topic) (sequence now : ℤ) : QwenTtsRealtimeNode :=
  if topic = .other then s
  else if sequence < s.cancelledThroughSequence then s
  else
    { s with
      terminalSequence := some sequence
      terminalGeneration := some s.generation
      drainNotBefore := now + c.endOfTurnGrace
      phase := .judgesDrained }

/-- `on_process` of a text, up to the queue of jobs. -/
def onText (text : Text) (sequence now : ℤ) : QwenTtsRealtimeNode :=
  let text := c.normalizeTtsText none (strip text)
  if text = [] then s
  else if sequence < s.cancelledThroughSequence then s
  else
    { s with
      pendingJobs := s.pendingJobs + 1
      drainNotBefore :=
        if s.terminalGeneration = some s.generation && s.terminalSequence = some sequence then
          now + c.endOfTurnGrace
        else s.drainNotBefore
      phase := .putsJob ⟨s.generation, text, sequence, s.nextJob⟩
      nextJob := s.nextJob + 1
      log := s.log ++ [.admitted s.nextJob] }

/-- `on_signal` up to `_invalidate`. -/
def onSignal (name : SignalName) (sequence : ℤ) : QwenTtsRealtimeNode :=
  if name = .other then s
  else
    { s with
      cancelledThroughSequence := max s.cancelledThroughSequence sequence
      phase := .invalidates (0 < s.pendingJobs || !s.results.isEmpty) false }

def onFinish : QwenTtsRealtimeNode :=
  { s with closing := true, phase := .invalidates true true }

/-- The locked part of `_invalidate`. -/
def invalidate (closeTransport finishes : Bool) : QwenTtsRealtimeNode :=
  { s with
    generation := s.generation + 1
    pendingJobs := 0
    terminalSequence := none
    terminalGeneration := none
    drainNotBefore := 0
    emittedAudioFrames := fun _ => 0
    activeTransport := if closeTransport then none else s.activeTransport
    phase := .clearsJobs finishes
    log := s.log ++ [.cancelled] }

def completeJob : QwenTtsRealtimeNode := { s with pendingJobs := s.pendingJobs - 1 }

/-- `jobs.put_nowait`. -/
def putJob (job : Job) : QwenTtsRealtimeNode :=
  if s.jobs.length < 128 then
    { s with jobs := s.jobs ++ [some job], scheduled := true, phase := .rest }
  else
    { s.completeJob with phase := .failed .full, log := s.log ++ [.refused job.id] }

/-- The body of `_drain`'s loop. -/
def drainResult (emits : Bool) (left : ℕ) (result : Result) : QwenTtsRealtimeNode :=
  if result.generation = s.generation then
    match result.value with
    | .audio pcm =>
      let frames := s.emittedAudioFrames result.sequence + 1
      let s := { s with
        emittedAudioFrames := Function.update s.emittedAudioFrames result.sequence frames }
      if emits then
        { s with
          phase := .drains left
          log := s.log ++ [Entry.audio result.job result.sequence pcm] }
      else { s with phase := .failed .emission }
    | .done _ =>
      { s.completeJob with phase := .drains left, log := s.log ++ [.completed result.job] }
    | .error _ =>
      { s.completeJob with phase := .drains left, log := s.log ++ [.completed result.job] }
  else { s with phase := .drains left }

/-- `_maybe_emit_drained` up to the look at the results. -/
def judgeDrained (now : ℤ) : QwenTtsRealtimeNode :=
  if s.terminalSequence = none || s.terminalGeneration != some s.generation ||
      0 < s.pendingJobs || !s.jobs.isEmpty then { s with phase := .checksWork }
  else { s with phase := .judgesResults now }

def judgeResults (now : ℤ) : QwenTtsRealtimeNode :=
  match s.terminalSequence with
  | none => { s with phase := .checksWork }
  | some sequence =>
    if !s.results.isEmpty || now < s.drainNotBefore then { s with phase := .checksWork }
    else
      { s with
        terminalSequence := none
        terminalGeneration := none
        drainNotBefore := 0
        emittedAudioFrames := Function.update s.emittedAudioFrames sequence 0
        phase := .emitsDrained s.generation sequence (s.emittedAudioFrames sequence) }

def emitDrained (emits : Bool) (generation : ℕ) (sequence : ℤ) (audioFrames : ℕ) :
    QwenTtsRealtimeNode :=
  if emits then
    { s with phase := .checksWork, log := s.log ++ [.drained generation sequence audioFrames] }
  else { s with phase := .failed .emission }

def hasPendingWork : Bool :=
  0 < s.pendingJobs || !s.results.isEmpty || s.terminalSequence.isSome

/-- A step of a callback. -/
def stepNode (now : ℤ) (emits : Bool) : Option QwenTtsRealtimeNode :=
  match s.phase with
  | .rest => none
  | .putsJob job => some (s.putJob job)
  | .drains 0 => some { s with phase := .judgesDrained }
  | .drains (left + 1) =>
    match s.results with
    | [] => some { s with phase := .judgesDrained }
    | result :: results => some ({ s with results }.drainResult emits left result)
  | .judgesDrained => some (s.judgeDrained now)
  | .judgesResults now => some (s.judgeResults now)
  | .emitsDrained generation sequence audioFrames =>
    some (s.emitDrained emits generation sequence audioFrames)
  | .checksWork => some { s with scheduled := s.scheduled || s.hasPendingWork, phase := .rest }
  | .invalidates closeTransport finishes => some (s.invalidate closeTransport finishes)
  | .clearsJobs finishes =>
    match s.jobs with
    | [] => some { s with phase := .clearsResults finishes }
    | _ :: jobs => some { s with jobs }
  | .clearsResults finishes =>
    match s.results with
    | [] => some { s with phase := if finishes then .putsNone else .rest }
    | _ :: results => some { s with results }
  | .putsNone =>
    if s.jobs.length < 128 then some { s with jobs := s.jobs ++ [none], phase := .ended }
    else some { s with phase := .clearsAgain }
  | .clearsAgain =>
    match s.jobs with
    | [] => some { s with jobs := [none], phase := .ended }
    | _ :: jobs => some { s with jobs }
  | .failed _ => none
  | .ended => none

/-- `_forget_transport` of the worker's session, which is closed. -/
def forgetTransport (place : Place) : QwenTtsRealtimeNode :=
  { s with
    activeTransport := if s.activeTransport = s.transport then none else s.activeTransport
    transport := none
    place }

/-- `_connect_transport` after a failed attempt. -/
def connectFails (job : Job) (retried : Bool) (attempt : ℕ) (error : Text) :
    QwenTtsRealtimeNode :=
  if attempt < c.retryCount then { s with place := .opens job retried (attempt + 1) }
  else { s with place := .fails job (error.take 512) retried }

/-- What `_run` does with an exception of `_synthesize`. -/
def synthesisFails (job : Job) (retried emitted provider : Bool) (error : Text) :
    QwenTtsRealtimeNode :=
  if !provider && !emitted && !retried then { s with place := .retries job }
  else { s with place := .fails job (error.take 512) true }

/-- `_synthesize` after an event of the current generation. -/
def judgeEvent (job : Job) (retried emitted : Bool) (event : Event) : QwenTtsRealtimeNode :=
  match event with
  | .audio (.error error) => s.synthesisFails job retried emitted false error
  | .audio (.ok pcm) =>
    if pcm = [] || 256 * 1024 < pcm.length || pcm.length % 2 != 0 then
      s.synthesisFails job retried emitted true "Qwen TTS returned invalid PCM".toList
    else { s with place := .puts job (.audio pcm retried) }
  | .error message => s.synthesisFails job retried emitted true (message.take 512)
  | .other => { s with place := .polls job retried emitted }

/-- A step of `_run`. -/
def run (io : Io) : Option QwenTtsRealtimeNode :=
  match s.place, io with
  | .top, _ => some { s with place := if s.closing then .stops else .waits }
  | .waits, _ =>
    match s.jobs with
    | [] => some { s with place := .top }
    | some job :: jobs => some { s with jobs, place := .took job }
    | none :: jobs => some { s with jobs, place := .stops }
  | .took job, _ =>
    if job.generation ≠ s.generation then some { s with place := .top }
    else if s.transport = none then some { s with place := .opens job false 1 }
    else some { s with place := .sends job false }
  | .opens job retried attempt, .opened =>
    some { s with place := .registers job retried attempt s.opened, opened := s.opened + 1 }
  | .opens job retried attempt, .fails error => some (s.connectFails c job retried attempt error)
  | .registers job retried attempt transport, _ =>
    if job.generation ≠ s.generation then
      some (s.connectFails c job retried attempt
        "TTS generation was cancelled while connecting".toList)
    else
      some { s with
        activeTransport := some transport
        transport := some transport
        place := .sends job retried }
  | .sends job retried, .sent => some { s with place := .polls job retried false }
  | .sends job retried, .fails error => some (s.synthesisFails job retried false false error)
  | .polls job retried emitted, .event event =>
    some { s with place := .judges job retried emitted event }
  | .polls job _ _, .ended => some { s with place := .completes job }
  | .polls job retried emitted, .fails error =>
    some (s.synthesisFails job retried emitted false error)
  | .judges job retried emitted event, _ =>
    if job.generation ≠ s.generation then some { s with place := .leaves job.generation }
    else some (s.judgeEvent job retried emitted event)
  | .completes job, _ =>
    if job.generation = s.generation then
      some { s with place := .puts job (.done job.text.length) }
    else some { s with place := .leaves job.generation }
  | .retries job, _ => some (s.forgetTransport (.rechecks job))
  | .rechecks job, _ =>
    if job.generation ≠ s.generation then some { s with place := .top }
    else some { s with place := .rechecksClosing job }
  | .rechecksClosing job, _ =>
    some { s with place := if s.closing then .top else .opens job true 1 }
  | .fails job message closes, _ =>
    if job.generation = s.generation then some { s with place := .failsClosing job message closes }
    else some { s with place := (Put.error message closes).after job }
  | .failsClosing job message closes, _ =>
    if s.closing then some { s with place := (Put.error message closes).after job }
    else some { s with place := .puts job (.error message closes) }
  | .puts job put, _ =>
    some { s with place := if s.closing then put.after job else .putsChecks job put }
  | .putsChecks job put, _ =>
    some { s with place := if job.generation = s.generation then .offers job put else put.after job }
  | .offers job put, _ =>
    if s.results.length < 1024 then
      some { s with results := s.results ++ [job.result put.value], place := put.after job }
    else some { s with place := .puts job put }
  | .closes generation, _ => some (s.forgetTransport (.leaves generation))
  | .leaves generation, _ =>
    some { s with
      place := if generation ≠ s.generation ∧ s.transport ≠ none then .abandons else .top }
  | .abandons, _ => some (s.forgetTransport .top)
  | .stops, _ => some { s with activeTransport := none, transport := none, place := .exited }
  | _, _ => none

/-- The worker waits for the lock. -/
def blocked : Bool :=
  match s.phase with
  | .judgesResults _ => s.place.takesLock
  | _ => false

/-- A callback begins where the one before it has returned. `on_abort` may follow a failed one. -/
def step (a : Action) : Option QwenTtsRealtimeNode :=
  match a with
  | .event topic sequence now =>
    if s.phase = .rest then some ({ s with scheduled := false }.onEvent c topic sequence now)
    else none
  | .text text sequence now =>
    if s.phase = .rest then some ({ s with scheduled := false }.onText c text sequence now)
    else none
  | .tick =>
    if s.phase = .rest then
      some { s with scheduled := false, phase := .drains c.maxResultsPerWakeup.toNat }
    else none
  | .otherPort =>
    if s.phase = .rest then some { s with scheduled := false, phase := .failed .port } else none
  | .onSignal name sequence =>
    if s.phase = .rest then some (s.onSignal name sequence) else none
  | .onFinish => if s.phase = .rest then some s.onFinish else none
  | .onAbort =>
    match s.phase with
    | .rest => some s.onFinish
    | .failed _ => some s.onFinish
    | _ => none
  | .node now emits => s.stepNode now emits
  | .worker io => if s.blocked then none else s.run c io

end QwenTtsRealtimeNode

def QwenTtsRealtimeNode.new : QwenTtsRealtimeNode where
  jobs := []
  results := []
  generation := 0
  pendingJobs := 0
  terminalSequence := none
  terminalGeneration := none
  drainNotBefore := 0
  emittedAudioFrames := fun _ => 0
  cancelledThroughSequence := -1
  activeTransport := none
  closing := false
  phase := .rest
  scheduled := false
  place := .top
  transport := none
  opened := 0
  nextJob := 0
  log := []

abbrev ttsSystem (c : Config) : Transition.System QwenTtsRealtimeNode Action where
  init s := s = .new
  step s a := s.step c a

end Muxiva.Tts
