import Mathlib.Data.Int.Notation
import Mathlib.Data.List.DropRight
import Mathlib.Logic.Function.Basic
import Muxiva.Lib.System
import Muxiva.Lib.Text

/-! `LlmOpenAiCompatible`: the callbacks, which run one at a time on the node's thread, and a request
worker on a thread of its own for each text accepted. They share the channel of results, the counter
of pending ones and a cancel flag for each worker. A step makes one access to what is shared, with
the thread's own work around it. -/
set_option linter.all false
namespace Muxiva.Llm

inductive LlmResult where
  | delta (generation : UInt64) (sequence : ℕ) (text : Text)
  | done (generation : UInt64) (sequence : ℕ) (user answer : Text)
  | error (generation : UInt64) (message : Text)
  deriving DecidableEq, Repr

def LlmResult.generation : LlmResult → UInt64
  | .delta generation _ _ => generation
  | .done generation _ _ _ => generation
  | .error generation _ => generation

structure Message where
  role : Text
  content : Text
  deriving DecidableEq, Repr

/-- `deltaContent` and `messageContent` parse a text as JSON and look up the content of the first
choice's `delta` or `message`. -/
structure Config where
  systemPrompt : Text
  maxResultsPerWakeup : ℕ
  historyTurns : ℕ
  stream : Bool
  deltaContent : Text → Option Text
  messageContent : Text → Option Text

/-- Where a worker stands. -/
inductive Place where
  | requests
  | loops
  | reads
  | readsBody
  | sends (result : LlmResult)
  | completes
  | returned
  | finished
  deriving DecidableEq, Repr

/-- A worker's thread, the cancel flag it was given, and the results it has sent. -/
structure Worker where
  generation : UInt64
  sequence : ℕ
  user : Text
  messages : List Message
  cancelled : Bool
  place : Place
  answer : Text
  sent : List LlmResult
  deriving DecidableEq, Repr

def Worker.absent : Worker where
  generation := 0
  sequence := 0
  user := []
  messages := []
  cancelled := false
  place := .finished
  answer := []
  sent := []

/-- What `cancel_current` returns to. -/
inductive After where
  | starts (text : Text) (sequence : ℕ)
  | returns
  | ends
  deriving DecidableEq, Repr

inductive LlmError where
  | input
  | request (message : Text)
  | emission
  deriving DecidableEq, Repr

/-- Where the node's thread stands. At `uncounts` and `handles` it has a result in its hand that
it has not yet subtracted from `pending`. -/
inductive Phase where
  | rest
  | empties (after : After)
  | uncounts (after : After) (result : LlmResult)
  | spawns (text : Text) (sequence : ℕ)
  | drains (left : ℕ)
  | handles (left : ℕ) (result : LlmResult)
  | checksWorker
  | checksPending
  | failed (error : LlmError)
  | ended
  deriving DecidableEq, Repr

inductive Output where
  | delta (text : Text)
  | completed (answer : Text)
  deriving DecidableEq, Repr

/-- A frame, with the generation of the result it was made of. -/
structure Emission where
  generation : UInt64
  sequence : ℕ
  output : Output
  deriving DecidableEq, Repr

inductive Entry where
  | accepted (generation : UInt64)
  | cancelled
  | emitted (emission : Emission)
  deriving DecidableEq, Repr

/-- The node with its workers. `handled` has the results taken from the channel and done with, `log`
what the callbacks accepted, cancelled and emitted, and `cancellations` counts the calls of
`cancel_current`. -/
structure LlmOpenAiCompatible where
  generation : UInt64
  cancel : Option ℕ
  pending : ℤ
  worker : Option ℕ
  results : List LlmResult
  history : List (Text × Text)
  phase : Phase
  scheduled : Bool
  workers : ℕ → Worker
  spawned : ℕ
  handled : List LlmResult
  log : List Entry
  cancellations : ℕ

/-- What the request, the reader or the body gave a worker. -/
inductive Io where
  | refused (error : Text)
  | answered
  | line (line : Option Text)
  | body (body : Text)
  deriving DecidableEq, Repr

inductive Action where
  | text (text : Option Text) (sequence : ℕ)
  | tick
  | signal
  | finish
  | abort
  | node (emits : Bool)
  | thread (worker : ℕ) (io : Io)
  deriving DecidableEq, Repr

/-- A line of the event stream. -/
inductive Event where
  | ended
  | content (delta : Text)
  | ignored
  deriving DecidableEq, Repr

def Config.event (c : Config) (line : Text) : Event :=
  match List.isPrefixOf? "data: ".toList (trim line) with
  | none => .ignored
  | some data =>
    if data = "[DONE]".toList then .ended
    else
      match c.deltaContent data with
      | some delta => .content delta
      | none => .ignored

def Config.afterSend (c : Config) (result : LlmResult) : Place :=
  match result with
  | .delta _ _ _ => if c.stream then .loops else .completes
  | .done _ _ _ _ => .returned
  | .error _ _ => .returned

namespace LlmOpenAiCompatible

variable (c : Config) (s : LlmOpenAiCompatible)

def setWorker (i : ℕ) (w : Worker) : LlmOpenAiCompatible :=
  { s with workers := Function.update s.workers i w }

def storeCancel : ℕ → Worker :=
  match s.cancel with
  | none => s.workers
  | some i => Function.update s.workers i { s.workers i with cancelled := true }

def entry (after : After) : Entry :=
  match after with
  | .starts _ _ => .accepted (s.generation + 1)
  | .returns => .cancelled
  | .ends => .cancelled

/-- `cancel_current` up to its loop over the channel. -/
def cancelCurrent (after : After) : LlmOpenAiCompatible :=
  { s with
    generation := s.generation + 1
    workers := s.storeCancel
    cancel := none
    worker := none
    phase := .empties after
    log := s.log ++ [s.entry after]
    cancellations := s.cancellations + 1 }

def afterCancel (after : After) : Phase :=
  match after with
  | .starts text sequence => .spawns text sequence
  | .returns => .rest
  | .ends => .ended

def startGeneration (text : Text) (sequence : ℕ) : LlmOpenAiCompatible :=
  if trim text = [] then { s with phase := .checksWorker }
  else s.cancelCurrent (.starts (trim text) sequence)

def messages (user : Text) : List Message :=
  ⟨"system".toList, c.systemPrompt⟩ :: (s.history.rtake c.historyTurns).flatMap (fun turn =>
    [⟨"user".toList, turn.1⟩, ⟨"assistant".toList, turn.2⟩]) ++ [⟨"user".toList, user⟩]

/-- `start_generation` after `cancel_current`. -/
def spawn (user : Text) (sequence : ℕ) : LlmOpenAiCompatible :=
  { s with
    cancel := some s.spawned
    worker := some s.spawned
    workers := Function.update s.workers s.spawned {
      generation := s.generation
      sequence
      user
      messages := s.messages c user
      cancelled := false
      place := .requests
      answer := []
      sent := [] }
    spawned := s.spawned + 1
    scheduled := true
    phase := .checksWorker }

def emit (emits : Bool) (emission : Emission) (next : Phase) : LlmOpenAiCompatible :=
  if emits then { s with log := s.log ++ [.emitted emission], phase := next }
  else { s with phase := .failed .emission }

/-- The history is kept even when the event cannot be emitted. -/
def complete (emits : Bool) (generation : UInt64) (sequence : ℕ) (user answer : Text) :
    LlmOpenAiCompatible :=
  if answer = [] then { s with phase := .checksWorker }
  else
    { s with history := (s.history ++ [(user, answer)]).rtake (c.historyTurns * 2) }.emit emits
      ⟨generation, sequence, .completed answer⟩ .checksWorker

/-- The body of `drain`'s loop after `try_recv`. -/
def handle (emits : Bool) (left : ℕ) (result : LlmResult) : LlmOpenAiCompatible :=
  let s := { s with pending := s.pending - 1, handled := s.handled ++ [result] }
  if result.generation = s.generation then
    match result with
    | .delta generation sequence text =>
      s.emit emits ⟨generation, sequence, .delta text⟩ (.drains left)
    | .done generation sequence user answer => s.complete c emits generation sequence user answer
    | .error _ message => { s with phase := .failed (.request message) }
  else { s with phase := .drains left }

/-- `is_some_and` of a worker's thread that has not finished. -/
def workerRuns : Bool := s.worker.any fun i => (s.workers i).place ≠ .finished

/-- A step of the node's thread inside a callback. -/
def stepNode (emits : Bool) : Option LlmOpenAiCompatible :=
  match s.phase with
  | .rest => none
  | .empties after =>
    match s.results with
    | [] => some { s with phase := afterCancel after }
    | result :: results => some { s with results, phase := .uncounts after result }
  | .uncounts after result =>
    some { s with
      pending := s.pending - 1
      handled := s.handled ++ [result]
      phase := .empties after }
  | .spawns user sequence => some (s.spawn c user sequence)
  | .drains 0 => some { s with phase := .checksWorker }
  | .drains (left + 1) =>
    match s.results with
    | [] => some { s with phase := .checksWorker }
    | result :: results => some { s with results, phase := .handles left result }
  | .handles left result => some (s.handle c emits left result)
  | .checksWorker =>
    if s.workerRuns then some { s with scheduled := true, phase := .rest }
    else some { s with phase := .checksPending }
  | .checksPending =>
    some { s with scheduled := s.scheduled || decide (0 < s.pending), phase := .rest }
  | .failed _ => none
  | .ended => none

/-- `fetch_add` ahead of a send. -/
def count (i : ℕ) (w : Worker) (result : LlmResult) : LlmOpenAiCompatible :=
  { s with pending := s.pending + 1 }.setWorker i { w with place := .sends result }

def send (i : ℕ) (w : Worker) (result : LlmResult) : LlmOpenAiCompatible :=
  { s with results := s.results ++ [result] }.setWorker i { w with
    sent := w.sent ++ [result]
    place := c.afterSend result }

/-- A piece of the answer is sent unless it is empty. -/
def receive (i : ℕ) (w : Worker) (content : Text) (next : Place) : LlmOpenAiCompatible :=
  if content = [] then s.setWorker i { w with place := next }
  else s.count i { w with answer := w.answer ++ content } (.delta w.generation w.sequence content)

/-- A step of `run_llm_request` on worker `i`'s thread. -/
def runLlmRequest (i : ℕ) (io : Io) : Option LlmOpenAiCompatible :=
  let w := s.workers i
  match w.place, io with
  | .requests, .refused error =>
    some (s.count i w (.error w.generation ("LLM HTTP request failed: ".toList ++ error)))
  | .requests, .answered =>
    some (s.setWorker i { w with place := if c.stream then .loops else .readsBody })
  | .loops, _ => some (s.setWorker i { w with place := if w.cancelled then .returned else .reads })
  | .reads, .line none => some (s.setWorker i { w with place := .completes })
  | .reads, .line (some line) =>
    match c.event line with
    | .ended => some (s.setWorker i { w with place := .completes })
    | .content delta => some (s.receive i w delta .loops)
    | .ignored => some (s.setWorker i { w with place := .loops })
  | .readsBody, .body body =>
    match c.messageContent body with
    | some content => some (s.receive i w content .completes)
    | none => some (s.setWorker i { w with place := .completes })
  | .sends result, _ => some (s.send c i w result)
  | .completes, _ => some (s.count i w (.done w.generation w.sequence w.user w.answer))
  | .returned, _ => some (s.setWorker i { w with place := .finished })
  | _, _ => none

/-- A callback begins where the one before it has returned. `on_abort` may follow a failed one. -/
def step (a : Action) : Option LlmOpenAiCompatible :=
  match a with
  | .text text sequence =>
    if s.phase = .rest then
      match text with
      | none => some { s with scheduled := false, phase := .failed .input }
      | some text => some ({ s with scheduled := false }.startGeneration text sequence)
    else none
  | .tick =>
    if s.phase = .rest then
      some { s with scheduled := false, phase := .drains c.maxResultsPerWakeup }
    else none
  | .signal => if s.phase = .rest then some (s.cancelCurrent .returns) else none
  | .finish => if s.phase = .rest then some (s.cancelCurrent .ends) else none
  | .abort =>
    match s.phase with
    | .rest => some (s.cancelCurrent .ends)
    | .failed _ => some (s.cancelCurrent .ends)
    | _ => none
  | .node emits => s.stepNode c emits
  | .thread i io => if i < s.spawned then s.runLlmRequest c i io else none

end LlmOpenAiCompatible

def LlmOpenAiCompatible.new : LlmOpenAiCompatible where
  generation := 0
  cancel := none
  pending := 0
  worker := none
  results := []
  history := []
  phase := .rest
  scheduled := false
  workers := fun _ => .absent
  spawned := 0
  handled := []
  log := []
  cancellations := 0

abbrev llmSystem (c : Config) : Transition.System LlmOpenAiCompatible Action where
  init s := s = .new
  step s a := s.step c a

end Muxiva.Llm
