import Mathlib.Data.Int.Notation
import Mathlib.Logic.Function.Basic
import Muxiva.Lib.System

/-! A project node runs in a process of its own. The runtime's side writes one command a call and
reads lines until it has the answer; the host reads commands, runs the callbacks, and writes what
they do. Neither commands nor lines carry a number: all that links an answer to its call is the
order in the two pipes. -/
set_option linter.all false
namespace Muxiva.Studio

universe u

/-- The four kinds of thing a callback hands to its context. -/
inductive Kind where
  | emission
  | event
  | signal
  | metric
  deriving DecidableEq, Repr

inductive HostOp where
  | prepare
  | process
  | signal
  | finish
  | abort
  deriving DecidableEq, Repr

/-- A call of a method of the context that does not raise, apart from a tick out of range. -/
inductive ContextCall (J : Type u) where
  | act (kind : Kind) (body : J)
  | scheduleNextTick (delayMs : ℤ)
  deriving DecidableEq, Repr

/-- `{"ok": true, ..}`. A key that is left out counts as empty. -/
structure HostResponse (J : Type u) where
  emissions : List J
  events : List J
  signals : List J
  metrics : List J
  nextTickMs : Option ℕ
  deriving DecidableEq, Repr

/-- A line on the host's stdout. -/
inductive HostLine (J : Type u) where
  | ready
  | action (kind : Kind) (body : J)
  | ok (response : HostResponse J)
  | error
  deriving DecidableEq, Repr

structure HostCommand (J : Type u) where
  op : HostOp
  input : J
  deriving DecidableEq, Repr

/-- What the runtime's context is handed. -/
inductive Effect (J : Type u) where
  | act (kind : Kind) (body : J)
  | tick (delayMs : ℕ)
  deriving DecidableEq, Repr

/-- The host's `NodeContext`. -/
structure HostContext (J : Type u) where
  streaming : Bool
  emissions : List J
  signals : List J
  events : List J
  metrics : List J
  nextTickMs : Option ℕ
  deriving DecidableEq, Repr

section Host
variable {J : Type u}

def HostContext.new (op : HostOp) : HostContext J where
  streaming := op = .process
  emissions := []
  signals := []
  events := []
  metrics := []
  nextTickMs := none

def HostContext.push (ctx : HostContext J) (kind : Kind) (body : J) : HostContext J :=
  match kind with
  | .emission => { ctx with emissions := ctx.emissions ++ [body] }
  | .event => { ctx with events := ctx.events ++ [body] }
  | .signal => { ctx with signals := ctx.signals ++ [body] }
  | .metric => { ctx with metrics := ctx.metrics ++ [body] }

/-- One method of the context: the context after it, and the lines it writes. -/
def HostContext.call (ctx : HostContext J) : ContextCall J → HostContext J × List (HostLine J)
  | .act kind body => if ctx.streaming then (ctx, [.action kind body]) else (ctx.push kind body, [])
  | .scheduleNextTick delayMs =>
    if delayMs < 1 ∨ 60000 < delayMs then (ctx, [])
    else ({ ctx with nextTickMs := some delayMs.toNat }, [])

def HostContext.respond (ctx : HostContext J) : HostOp → HostResponse J
  | .process => ⟨[], ctx.events, ctx.signals, ctx.metrics, ctx.nextTickMs⟩
  | .signal => ⟨ctx.emissions, ctx.events, ctx.signals, ctx.metrics, ctx.nextTickMs⟩
  | .prepare | .finish | .abort => ⟨[], [], [], [], none⟩

/-- `apply_host_actions` without its tick. -/
def HostResponse.actions (r : HostResponse J) : List (Effect J) :=
  r.emissions.map (.act .emission) ++ r.events.map (.act .event) ++
    r.signals.map (.act .signal) ++ r.metrics.map (.act .metric)

/-- `host_next_tick`; the outer `none` is its error. -/
def HostResponse.hostNextTick (r : HostResponse J) : Option (Option ℕ) :=
  match r.nextTickMs with
  | none => some none
  | some ms => if 1 ≤ ms ∧ ms ≤ 60000 then some (some ms) else none

/-- `apply_host_actions` where the context takes no more than `taken` actions, and whether it
succeeds. -/
def HostResponse.apply (r : HostResponse J) (taken : ℕ) : List (Effect J) × Bool :=
  if r.actions.length ≤ taken then
    match r.hostNextTick with
    | none => (r.actions, false)
    | some tick => (r.actions ++ tick.toList.map .tick, true)
  else (r.actions.take taken, false)

end Host

/-- Where the host stands; `call` counts the commands it has read before this one. -/
inductive HostPc (J : Type u) where
  | imports
  | waits
  | runs (call : ℕ) (command : HostCommand J) (ctx : HostContext J)
  | dead
  deriving DecidableEq, Repr

def HostPc.isDead {J : Type u} : HostPc J → Bool
  | .dead => true
  | _ => false

/-- Where the runtime's side stands; `call` counts the commands it has written before this one. -/
inductive AdapterPc where
  | spawns
  | idle
  | reads (call : ℕ) (op : HostOp)
  deriving DecidableEq, Repr

/-- A failed node gets no call but `on_abort`; after `on_finish` and `on_abort` there is none. -/
inductive Stage where
  | created
  | live
  | failed
  | ended
  deriving DecidableEq, Repr

/-- Both processes and the pipes between them. The last five fields only keep account: the commands
written and how many of them were read, and for each of them what its callback did, whether it
returned, what the context was handed while the call lasted, and what the call answered. -/
structure HostSession (J : Type u) where
  stage : Stage
  adapter : AdapterPc
  host : HostPc J
  toHost : List (HostCommand J)
  toAdapter : List (HostLine J)
  calls : List (HostCommand J)
  heard : ℕ
  performed : ℕ → List (ContextCall J)
  returned : ℕ → Option Bool
  applied : ℕ → List (Effect J)
  answers : ℕ → Option Bool

/-- What the callbacks, the operating system and the graph decide. `emitted` is what `on_process`
returns, as far as it can be encoded. -/
inductive HostMove (J : Type u) where
  | starts
  | receives
  | performs (call : ContextCall J)
  | returns (emitted : List J) (encodes : Bool)
  | raises
  | dies
  deriving DecidableEq, Repr

/-- A line read is rejected when it is over 1 MiB. -/
inductive SessionAction (J : Type u) where
  | call (op : HostOp) (input : J) (written : Bool)
  | read (fits : Bool) (taken : ℕ)
  | host (move : HostMove J)
  | drop
  deriving DecidableEq, Repr

namespace HostSession
variable {J : Type u} (s : HostSession J)

def new : HostSession J where
  stage := .created
  adapter := .spawns
  host := .imports
  toHost := []
  toAdapter := []
  calls := []
  heard := 0
  performed _ := []
  returned _ := none
  applied _ := []
  answers _ := none

/-- Whether the runtime makes the call. -/
def mayCall : Stage → HostOp → Prop
  | .live, _ => True
  | .failed, .abort => True
  | _, _ => False

instance : ∀ stage op, Decidable (mayCall stage op)
  | .live, _ => instDecidableTrue
  | .failed, .abort => instDecidableTrue
  | .created, _ => instDecidableFalse
  | .ended, _ => instDecidableFalse
  | .failed, .prepare => instDecidableFalse
  | .failed, .process => instDecidableFalse
  | .failed, .signal => instDecidableFalse
  | .failed, .finish => instDecidableFalse

def stageAfter (op : HostOp) (ok : Bool) : Stage :=
  match op, ok with
  | .abort, _ => .ended
  | .finish, true => .ended
  | _, true => .live
  | _, false => .failed

/-- The call returns to the runtime. -/
def answer (call : ℕ) (op : HostOp) (ok : Bool) : HostSession J :=
  { s with
    adapter := .idle
    stage := stageAfter op ok
    answers := Function.update s.answers call (some ok) }

def hand (call : ℕ) (effects : List (Effect J)) : HostSession J :=
  { s with applied := Function.update s.applied call (s.applied call ++ effects) }

/-- One line of the loop of `on_process`. -/
def readProcess (call taken : ℕ) (line : HostLine J) : HostSession J :=
  match line with
  | .action kind body =>
    if taken = 0 then s.answer call .process false else s.hand call [.act kind body]
  | .ok response =>
    (s.hand call (response.apply taken).1).answer call .process (response.apply taken).2
  | .ready | .error => s.answer call .process false

/-- `on_signal`: `call`, then `apply_host_actions`. -/
def readSignal (call taken : ℕ) (line : HostLine J) : HostSession J :=
  match line with
  | .ok response =>
    (s.hand call (response.apply taken).1).answer call .signal (response.apply taken).2
  | .ready | .action _ _ | .error => s.answer call .signal false

/-- `call`, whose response is dropped. -/
def readCall (call : ℕ) (op : HostOp) (line : HostLine J) : HostSession J :=
  match line with
  | .ok _ => s.answer call op true
  | .ready | .action _ _ | .error => s.answer call op false

def readLine (call : ℕ) (op : HostOp) (taken : ℕ) (line : HostLine J) : HostSession J :=
  match op with
  | .process => s.readProcess call taken line
  | .signal => s.readSignal call taken line
  | .prepare | .finish | .abort => s.readCall call op line

/-- `read_host_response` and what is done with it. A read blocks while the pipe is empty, unless
the host is gone. -/
def read (fits : Bool) (taken : ℕ) : Option (HostSession J) :=
  match s.adapter with
  | .idle => none
  | .spawns =>
    match s.toAdapter with
    | .ready :: lines =>
      some { s with
        toAdapter := lines
        adapter := .idle
        stage := if fits then .live else .ended }
    | _ :: lines => some { s with toAdapter := lines, adapter := .idle, stage := .ended }
    | [] => if s.host.isDead then some { s with adapter := .idle, stage := .ended } else none
  | .reads call op =>
    match s.toAdapter with
    | line :: lines =>
      let s := { s with toAdapter := lines }
      some (if fits then s.readLine call op taken line else s.answer call op false)
    | [] => if s.host.isDead then some (s.answer call op false) else none

def call (op : HostOp) (input : J) (written : Bool) : Option (HostSession J) :=
  if s.adapter = .idle ∧ mayCall s.stage op then
    if written then
      some { s with
        adapter := .reads s.calls.length op
        toHost := s.toHost ++ [⟨op, input⟩]
        calls := s.calls ++ [⟨op, input⟩] }
    else if s.host.isDead then some { s with stage := stageAfter op false }
    else none
  else none

def write (lines : List (HostLine J)) : HostSession J :=
  { s with toAdapter := s.toAdapter ++ lines }

/-- What the callback does next. -/
def perform (call : ℕ) (command : HostCommand J) (ctx : HostContext J) (c : ContextCall J) :
    HostSession J :=
  { s.write (ctx.call c).2 with
    host := .runs call command (ctx.call c).1
    performed := Function.update s.performed call (s.performed call ++ [c]) }

/-- The frames that `on_process` returns are emitted one by one. -/
def emitResult (call : ℕ) (command : HostCommand J) (ctx : HostContext J) (emitted : List J) :
    HostSession J × HostContext J :=
  if command.op = .process then
    emitted.foldl (fun st body =>
      (st.1.perform call command st.2 (.act .emission body), (st.2.call (.act .emission body)).1))
      (s, ctx)
  else (s, ctx)

def respond (call : ℕ) (ok : Bool) (line : HostLine J) : HostSession J :=
  { s.write [line] with
    host := .waits
    returned := Function.update s.returned call (some ok) }

def returns (call : ℕ) (command : HostCommand J) (ctx : HostContext J) (emitted : List J)
    (encodes : Bool) : HostSession J :=
  let (s, ctx) := s.emitResult call command ctx emitted
  if encodes ∨ command.op ≠ .process then s.respond call true (.ok (ctx.respond command.op))
  else s.respond call false .error

def hostStep (move : HostMove J) : Option (HostSession J) :=
  match s.host, move with
  | .imports, .starts => some { s.write [.ready] with host := .waits }
  | .waits, .receives =>
    match s.toHost with
    | command :: commands =>
      some { s with
        toHost := commands
        host := .runs s.heard command (.new command.op)
        heard := s.heard + 1 }
    | [] => none
  | .runs call command ctx, .performs c => some (s.perform call command ctx c)
  | .runs call command ctx, .returns emitted encodes =>
    some (s.returns call command ctx emitted encodes)
  | .runs call _ _, .raises => some (s.respond call false .error)
  | .imports, .dies | .waits, .dies | .runs _ _ _, .dies => some { s with host := .dead }
  | _, _ => none

/-- The node is dropped: the host is told to close and killed. -/
def drop : Option (HostSession J) :=
  if s.adapter = .idle then some { s with stage := .ended, host := .dead } else none

def step : SessionAction J → Option (HostSession J)
  | .call op input written => s.call op input written
  | .read fits taken => s.read fits taken
  | .host move => s.hostStep move
  | .drop => s.drop

end HostSession

open Transition in
def projectHost (J : Type u) : System (HostSession J) (SessionAction J) where
  init s := s = .new
  step := HostSession.step

end Muxiva.Studio
