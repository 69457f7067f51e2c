import Muxiva.Lib.System
import Muxiva.Stream.Types
import Mathlib.Logic.Function.Basic

/-! The managed stream as a transition system. Each label is one atomic action of one
party: a critical section under the mailbox lock or the registrations lock, one access
to an atomic flag, or one reading of the clock. The mailbox lock is held by the executor
from its second acquisition in a pass until it parks or releases it; every other critical
section is a single step. -/
set_option linter.all false
namespace Muxiva.Stream

variable {φ : Type}

/-- Where the session executor is inside one pass of `run_executor`. -/
inductive ExecPc (φ : Type) where
  /-- about to lock the mailbox and drain the worker completions -/
  | top
  /-- iterating over the drained completions -/
  | resolve (cs : List (WorkerCompletion φ))
  /-- `active.remove` done for `c`, its registration not yet removed -/
  | unregister (c : WorkerCompletion φ) (cs : List (WorkerCompletion φ))
  /-- iterating over the active requests with the time sampled for this pass -/
  | scan (now : ℕ) (rest : List (ℕ × ActiveRequest))
  /-- `timeout()` entered for an active request -/
  | expire (now q : ℕ) (r : ActiveRequest) (rest : List (ℕ × ActiveRequest))
  /-- `timeout()` won the flag, the lease is not yet taken -/
  | expired (now q : ℕ) (r : ActiveRequest) (rest : List (ℕ × ActiveRequest))
  /-- about to lock the mailbox for delivery -/
  | deliver
  /-- lock held: at the head of the launch loop -/
  | launch (ls : List (Envelope φ))
  /-- lock held: `e` popped, its cancellation not yet read -/
  | admitFlag (e : Envelope φ) (ls : List (Envelope φ))
  /-- lock held: `e` not cancelled, the clock not yet read -/
  | admitClock (e : Envelope φ) (ls : List (Envelope φ))
  /-- lock held: `e` seen cancelled, its registration not yet removed -/
  | tombstone (e : Envelope φ) (ls : List (Envelope φ))
  /-- lock held: `timeout()` entered for the queued request -/
  | admitExpire (e : Envelope φ) (ls : List (Envelope φ))
  /-- lock held: `timeout()` won the flag, the lease is not yet taken -/
  | admitRelease (e : Envelope φ) (ls : List (Envelope φ))
  /-- lock held: `timeout()` returned `r`, the registration not yet removed -/
  | admitUnregister (e : Envelope φ) (r : Option (StreamResult φ)) (ls : List (Envelope φ))
  /-- lock held: the launch loop is over -/
  | settle (ls : List (Envelope φ))
  /-- lock held: looking for the next deadline of a request that is not terminal -/
  | deadlines (rest : List (ℕ × ActiveRequest)) (next : Option ℕ)
  /-- waiting on `changed`, with a timeout when `next` is a deadline -/
  | parked (next : Option ℕ)
  /-- lock released: spawning the workers of this pass -/
  | spawn (ls : List (Envelope φ))
  /-- the spawn of `e` failed, `finish()` not yet called -/
  | spawnFinish (e : Envelope φ) (ls : List (Envelope φ))
  | spawnRelease (e : Envelope φ) (ls : List (Envelope φ))
  | spawnPush (e : Envelope φ) (r : Option (StreamResult φ)) (ls : List (Envelope φ))
  /-- end of the pass, before `changed.notify_all` -/
  | notify
  /-- left the loop, locals not yet dropped -/
  | finalize
  | stopped

/-- The three places of the attempt loop that look at cancellation and deadline. -/
inductive CheckPoint (φ : Type) where
  | begin
  | reconnected
  | responded (r : AdapterResponse φ)

/-- Where a request worker is inside `run_request`. -/
inductive WorkerPc (φ : Type) where
  | checkFlag (attempt : ℕ) (point : CheckPoint φ)
  | checkClock (attempt : ℕ) (point : CheckPoint φ)
  | call (attempt : ℕ)
  | finish (r : Option (StreamResult φ))
  | release (r : Option (StreamResult φ))
  | push (r : Option (StreamResult φ))
  /-- the completion is handed over, the envelope not yet dropped -/
  | leave
  | exited

structure Worker (φ : Type) where
  envelope : Envelope φ
  pc : WorkerPc φ

/-- One call of `ManagedAsyncStream::cancel`. -/
inductive CancelPc where
  | lookup (requestId : ℕ)
  | flag (q : ℕ)
  | swap (q : ℕ)
  | release (q : ℕ)
  | notify (q : ℕ) (won : Bool)
  | returned (q : Option ℕ) (won : Bool)
  deriving DecidableEq, Repr

/-- The `request_stop` call that won the lifecycle exchange. -/
inductive StopPc where
  | idle
  | close
  | collect
  | flag (qs : List ℕ)
  | swap (q : ℕ) (qs : List ℕ)
  | release (q : ℕ) (qs : List ℕ)
  | notify
  | returned
  deriving DecidableEq, Repr

/-- The shared runtime, the locals of the executor, the other threads in flight, and what
the caller has observed. -/
structure State (φ : Type) where
  lifecycle : ℕ
  nextSequence : ℕ
  registrations : SortedMap ℕ ℕ
  terminals : ℕ → TerminalState
  metrics : Metrics
  input : List (Envelope φ)
  workerCompletions : List (WorkerCompletion φ)
  results : List (StreamCompletion φ)
  closed : Bool
  pc : ExecPc φ
  active : SortedMap ℕ ActiveRequest
  ordered : SortedMap ℕ (OrderedResolution φ)
  relaxed : List (StreamCompletion φ)
  nextDelivery : ℕ
  madeProgress : Bool
  workers : ℕ → Option (Worker φ)
  cancels : List CancelPc
  stop : StopPc
  stopReturned : Bool
  clock : ℕ
  delivered : List (StreamCompletion φ)

def State.initial : State φ where
  lifecycle := 0
  nextSequence := 0
  registrations := .empty
  terminals := fun _ => ⟨false, none, false⟩
  metrics := {}
  input := []
  workerCompletions := []
  results := []
  closed := false
  pc := .top
  active := .empty
  ordered := .empty
  relaxed := []
  nextDelivery := 0
  madeProgress := false
  workers := fun _ => none
  cancels := []
  stop := .idle
  stopReturned := false
  clock := 0
  delivered := []

/-- Envelopes the executor holds outside the input queue. -/
def ExecPc.envelopes : ExecPc φ → List (Envelope φ)
  | .launch ls | .settle ls | .spawn ls => ls
  | .admitFlag e ls | .admitClock e ls | .tombstone e ls | .admitExpire e ls | .admitRelease e ls
  | .admitUnregister e _ ls | .spawnFinish e ls | .spawnRelease e ls | .spawnPush e _ ls => e :: ls
  | _ => []

def ExecPc.locked : ExecPc φ → Bool
  | .launch _ | .admitFlag .. | .admitClock .. | .tombstone .. | .admitExpire .. | .admitRelease ..
  | .admitUnregister .. | .settle _ | .deadlines .. => true
  | _ => false

def WorkerPc.live : WorkerPc φ → Bool
  | .exited => false
  | _ => true

/-- The request whose `Arc<TerminalState>` a cancel call holds. -/
def CancelPc.target : CancelPc → Option ℕ
  | .flag q | .swap q | .release q | .notify q _ => some q
  | .lookup _ | .returned .. => none

def StopPc.targets : StopPc → List ℕ
  | .flag qs => qs
  | .swap q qs | .release q qs => q :: qs
  | _ => []

/-- `Weak::upgrade` on the registration of request `q`: some strong pointer is left. -/
def State.upgrade (s : State φ) (q : ℕ) : Bool :=
  s.input.any (·.sequence = q) || s.active.contains q || s.pc.envelopes.any (·.sequence = q) ||
    ((s.workers q).any (·.pc.live)) || s.cancels.any (·.target = some q) ||
    s.stop.targets.contains q

@[simp] def State.setTerminal (s : State φ) (q : ℕ) (t : TerminalState) : State φ :=
  { s with terminals := Function.update s.terminals q t }

/-- `terminal.swap(true)` by party `w`, when the flag was not set. -/
@[simp] def State.win (s : State φ) (q : ℕ) (w : Winner) : State φ :=
  s.setTerminal q { s.terminals q with winner := some w }

/-- `admission.take()`. -/
@[simp] def State.takeLease (s : State φ) (q : ℕ) : State φ :=
  s.setTerminal q { s.terminals q with admission := false }

@[simp] def State.raise (s : State φ) (q : ℕ) : State φ :=
  s.setTerminal q { s.terminals q with cancelled := true }

/-- A parked executor that is notified starts its next pass. -/
def ExecPc.woken : ExecPc φ → ExecPc φ
  | .parked _ => .top
  | pc => pc

/-- `changed.notify_all`. -/
@[simp] def State.notifyAll (s : State φ) : State φ := { s with pc := s.pc.woken }

@[simp] def State.removeRegistration (s : State φ) (requestId : ℕ) : State φ :=
  { s with registrations := s.registrations.erase requestId }

/-- `push_worker_completion`: a closed mailbox only counts the discarded result. -/
@[simp] def State.pushWorkerCompletion (s : State φ) (c : WorkerCompletion φ) : State φ :=
  { s with
    workerCompletions := if s.closed then s.workerCompletions else s.workerCompletions ++ [c]
    pc := if s.closed then s.pc else s.pc.woken
    metrics := { s.metrics with lateResultsDiscarded := s.metrics.lateResultsDiscarded +
      if s.closed ∧ c.result.isSome then 1 else 0 } }

def timeoutMetrics (m : Metrics) : Metrics :=
  { m with completed := m.completed + 1, timedOut := m.timedOut + 1 }

def cancelMetrics (m : Metrics) : Metrics :=
  { m with cancelled := m.cancelled + 1, completed := m.completed + 1 }

variable (o : ManagedStreamOptions φ)

/-- `try_submit`, with the lifecycle value it loaded before taking the mailbox lock. -/
def State.trySubmit (s : State φ) (r : AsyncRequest φ) (lifecycle : ℕ) : State φ :=
  let s := { s with metrics := { s.metrics with submitted := s.metrics.submitted + 1 } }
  if r.sessionId ≠ o.sessionId then s
  else if lifecycle ≠ 0 then s
  else if s.closed then s
  else if s.input.length = o.inputCapacity then
    { s with metrics := { s.metrics with mailboxFull := s.metrics.mailboxFull + 1 } }
  else if (s.registrations.get? r.requestId).any s.upgrade then s
  else
    let q := s.nextSequence
    { s with
      registrations := s.registrations.insert r.requestId q
      terminals := Function.update s.terminals q ⟨false, none, true⟩
      nextSequence := q + 1
      input := s.input ++ [Envelope.mk q r.requestId r.input r.deadline r.attemptLimit]
      metrics := { s.metrics with accepted := s.metrics.accepted + 1 }
      pc := s.pc.woken }

def State.tryRecv (s : State φ) : State φ :=
  match s.results with
  | [] => s
  | c :: cs =>
    { s with
      results := cs
      delivered := s.delivered ++ [c]
      metrics := { s.metrics with resultsDelivered := s.metrics.resultsDelivered + 1 }
      pc := s.pc.woken }

/-- Inserts a resolution into the buffer of the stream's ordering mode, when `keep` holds. -/
def State.buffer (s : State φ) (keep : Prop) [Decidable keep] (q requestId : ℕ)
    (r : Option (StreamResult φ)) : State φ :=
  { s with
    ordered :=
      if o.ordering = .strict ∧ keep then s.ordered.insert q ⟨requestId, r⟩ else s.ordered
    relaxed :=
      if o.ordering = .relaxed then
        s.relaxed ++ (r.map (StreamCompletion.mk q requestId o.sessionId)).toList
      else s.relaxed }

/-- A drained worker completion: under strict ordering it is kept only when its sequence is
neither delivered nor already resolved. -/
def State.bufferCompletion (s : State φ) (c : WorkerCompletion φ) : State φ :=
  s.buffer o (s.nextDelivery ≤ c.sequence ∧ s.ordered.contains c.sequence = false)
    c.sequence c.requestId c.result

/-- The tombstone of an active request seen cancelled. -/
def State.bufferTombstone (s : State φ) (q requestId : ℕ) : State φ :=
  s.buffer o (s.nextDelivery ≤ q ∧ s.ordered.contains q = false) q requestId none

/-- The timeout of an active request: `ordered.entry(q).or_insert(..)` or the relaxed buffer. -/
def State.bufferTimeout (s : State φ) (q requestId : ℕ) : State φ :=
  s.buffer o (s.ordered.contains q = false) q requestId (some (.failed .timeout))

/-- Moves relaxed results to the mailbox while it has room. -/
def flushRelaxed (cap : ℕ) : List (StreamCompletion φ) → List (StreamCompletion φ) →
    List (StreamCompletion φ) × List (StreamCompletion φ)
  | [], results => ([], results)
  | c :: cs, results =>
    if results.length < cap then flushRelaxed cap cs (results ++ [c]) else (c :: cs, results)

/-- What the strict delivery loop changes. -/
structure Delivery (φ : Type) where
  ordered : SortedMap ℕ (OrderedResolution φ)
  nextDelivery : ℕ
  results : List (StreamCompletion φ)
  progressed : Bool
  backpressure : ℕ

/-- Moves past the head of line, handing `out` to the mailbox. -/
def Delivery.advance (d : Delivery φ) (out : List (StreamCompletion φ)) : Delivery φ :=
  { d with
    ordered := d.ordered.erase d.nextDelivery
    nextDelivery := d.nextDelivery + 1
    results := d.results ++ out
    progressed := true }

/-- Delivers the head of line while it is resolved and fits. Every round removes an entry,
so `fuel` at least the number of entries is never exhausted early. -/
def flushStrict : ℕ → Delivery φ → Delivery φ
  | 0, d => d
  | fuel + 1, d =>
    match d.ordered.get? d.nextDelivery with
    | none => d
    | some ⟨_, none⟩ => flushStrict fuel (d.advance [])
    | some ⟨requestId, some result⟩ =>
      if d.results.length = o.resultCapacity then { d with backpressure := d.backpressure + 1 }
      else flushStrict fuel (d.advance [⟨d.nextDelivery, requestId, o.sessionId, result⟩])

/-- The delivery block at the start of the second critical section of a pass. -/
def State.flush (s : State φ) : State φ :=
  let (relaxed, results) := flushRelaxed o.resultCapacity s.relaxed s.results
  let moved := decide (results.length ≠ s.results.length)
  let stalled := if relaxed ≠ [] ∧ results.length = o.resultCapacity then 1 else 0
  let d : Delivery φ := ⟨s.ordered, s.nextDelivery, results, s.madeProgress || moved,
    s.metrics.resultBackpressure + stalled⟩
  let d := if o.ordering = .strict then flushStrict o s.ordered.entries.length d else d
  { s with
    relaxed := relaxed
    ordered := d.ordered
    nextDelivery := d.nextDelivery
    results := d.results
    madeProgress := d.progressed
    metrics := { s.metrics with resultBackpressure := d.backpressure } }

/-- Window use: active requests and buffered resolutions that are not active. -/
def State.inFlight (s : State φ) : ℕ :=
  s.active.size + ((s.ordered.keys.filter fun q => ¬ s.active.contains q).length + s.relaxed.length)

def minDeadline (next : Option ℕ) (d : ℕ) : Option ℕ :=
  match next with
  | none => some d
  | some n => some (min n d)

/-- One atomic action of `run_executor`; `spawned` is the outcome of a thread spawn. -/
def State.execStep (s : State φ) (spawned : Bool) : Option (State φ) :=
  match s.pc with
  | .top =>
    if s.closed then some { s with pc := .finalize }
    else some { s with
      workerCompletions := []
      madeProgress := !s.workerCompletions.isEmpty
      pc := .resolve s.workerCompletions }
  | .resolve [] => some { s with pc := .scan s.clock s.active.entries }
  | .resolve (c :: cs) =>
    some { s with active := s.active.erase c.sequence, pc := .unregister c cs }
  | .unregister c cs =>
    some { (s.removeRegistration c.requestId).bufferCompletion o c with pc := .resolve cs }
  | .scan _ [] => some { s with pc := .deliver }
  | .scan now ((q, r) :: rest) =>
    if (s.terminals q).cancelled then
      some { s.bufferTombstone o q r.requestId with pc := .scan now rest }
    else if r.deadline ≤ now then some { s with pc := .expire now q r rest }
    else some { s with pc := .scan now rest }
  | .expire now q r rest =>
    if (s.terminals q).terminal then some { s with pc := .scan now rest }
    else some { s.win q .deadline with pc := .expired now q r rest }
  | .expired now q r rest =>
    some { (s.takeLease q).bufferTimeout o q r.requestId with
      metrics := timeoutMetrics s.metrics
      pc := .scan now rest }
  | .deliver =>
    if s.closed then some { s with pc := .finalize }
    else some { s.flush o with pc := .launch [] }
  | .launch ls =>
    if o.maxInFlight ≤ s.inFlight then some { s with pc := .settle ls }
    else match s.input with
      | [] => some { s with pc := .settle ls }
      | e :: es => some { s with input := es, madeProgress := true, pc := .admitFlag e ls }
  | .admitFlag e ls =>
    if (s.terminals e.sequence).cancelled then some { s with pc := .tombstone e ls }
    else some { s with pc := .admitClock e ls }
  | .admitClock e ls =>
    if e.deadline ≤ s.clock then some { s with pc := .admitExpire e ls }
    else some { s with
      active := s.active.insert e.sequence ⟨e.requestId, e.deadline⟩
      metrics := { s.metrics with started := s.metrics.started + 1 }
      pc := .launch (ls ++ [e]) }
  | .tombstone e ls =>
    some { (s.removeRegistration e.requestId).buffer o True e.sequence e.requestId none with
      pc := .launch ls }
  | .admitExpire e ls =>
    if (s.terminals e.sequence).terminal then some { s with pc := .admitUnregister e none ls }
    else some { s.win e.sequence .deadline with pc := .admitRelease e ls }
  | .admitRelease e ls =>
    some { s.takeLease e.sequence with
      metrics := timeoutMetrics s.metrics
      pc := .admitUnregister e (some (.failed .timeout)) ls }
  | .admitUnregister e r ls =>
    some { (s.removeRegistration e.requestId).buffer o True e.sequence e.requestId r with
      pc := .launch ls }
  | .settle ls =>
    if ls.isEmpty ∧ ¬ s.madeProgress then
      if s.workerCompletions.isEmpty then some { s with pc := .deadlines s.active.entries none }
      else some { s with pc := .top }
    else some { s with pc := .spawn ls }
  | .deadlines [] next => some { s with pc := .parked next }
  | .deadlines ((q, r) :: rest) next =>
    if (s.terminals q).terminal then some { s with pc := .deadlines rest next }
    else some { s with pc := .deadlines rest (minDeadline next r.deadline) }
  | .parked _ => none
  | .spawn [] => some { s with pc := .notify }
  | .spawn (e :: ls) =>
    if spawned then
      some { s with
        workers := Function.update s.workers e.sequence (some ⟨e, .checkFlag 1 .begin⟩)
        pc := .spawn ls }
    else some { s with pc := .spawnFinish e ls }
  | .spawnFinish e ls =>
    if (s.terminals e.sequence).terminal then some { s with pc := .spawnPush e none ls }
    else some { s.win e.sequence .worker with pc := .spawnRelease e ls }
  | .spawnRelease e ls =>
    some { s.takeLease e.sequence with
      metrics := { s.metrics with
        completed := s.metrics.completed + 1, failed := s.metrics.failed + 1 }
      pc := .spawnPush e (some (.failed .workerStart)) ls }
  | .spawnPush e r ls =>
    some { s.pushWorkerCompletion ⟨e.sequence, e.requestId, r⟩ with pc := .spawn ls }
  | .notify => some { s with pc := .top }
  | .finalize =>
    some { s with
      lifecycle := 2, active := .empty, ordered := .empty, relaxed := [], pc := .stopped }
  | .stopped => none

/-- What an attempt does with a response that arrived in time. -/
def respond (attempt limit : ℕ) : AdapterResponse φ → WorkerPc φ
  | .frames fs =>
    match validateResponseFrames o fs with
    | .ok () => .finish (some (.frames fs))
    | .error e => .finish (some (.failed e))
  | .failed e => .finish (some (.failed e))
  | .retryable e =>
    if attempt < limit then .checkFlag (attempt + 1) .begin else .finish (some (.retryable e))

@[simp] def State.setWorker (s : State φ) (q : ℕ) (w : Worker φ) (pc : WorkerPc φ) : State φ :=
  { s with workers := Function.update s.workers q (some { w with pc := pc }) }

/-- The continuation of an attempt whose cancellation and deadline checks passed. -/
def State.proceed (s : State φ) (q : ℕ) (w : Worker φ) (attempt : ℕ) :
    CheckPoint φ → State φ
  | .begin =>
    if 1 < attempt then
      { s.setWorker q w (.checkFlag attempt .reconnected) with
        metrics := { s.metrics with
          attempts := s.metrics.attempts + 1, reconnects := s.metrics.reconnects + 1 } }
    else
      { s.setWorker q w (.call attempt) with
        metrics := { s.metrics with attempts := s.metrics.attempts + 1 } }
  | .reconnected => s.setWorker q w (.call attempt)
  | .responded r =>
    let s' := s.setWorker q w (respond o attempt w.envelope.attemptLimit r)
    match r with
    | .retryable _ =>
      if attempt < w.envelope.attemptLimit then
        { s' with metrics := { s.metrics with retries := s.metrics.retries + 1 } }
      else s'
    | _ => s'

/-- One atomic action of the worker of request `q`; `out` is the adapter's answer. -/
def State.workerStep (s : State φ) (q : ℕ) (out : AdapterOutcome φ) : Option (State φ) :=
  (s.workers q).bind fun w =>
    match w.pc with
    | .checkFlag attempt point =>
      if (s.terminals q).cancelled then some (s.setWorker q w (.finish none))
      else some (s.setWorker q w (.checkClock attempt point))
    | .checkClock attempt point =>
      if w.envelope.deadline ≤ s.clock then
        some (s.setWorker q w (.finish (some (.failed .timeout))))
      else some (s.proceed o q w attempt point)
    | .call attempt => some (s.setWorker q w (.checkFlag attempt (.responded out.response)))
    | .finish r =>
      if (s.terminals q).terminal then
        some { s.setWorker q w (.push none) with
          metrics := { s.metrics with
            lateResultsDiscarded := s.metrics.lateResultsDiscarded + 1 } }
      else some ((s.win q .worker).setWorker q w (.release r))
    | .release r =>
      some { (s.takeLease q).setWorker q w (.push r) with
        metrics := s.metrics.recordTerminal r }
    | .push r =>
      if s.pc.locked then none
      else some
        ((s.pushWorkerCompletion ⟨q, w.envelope.requestId, r⟩).setWorker q w .leave)
    | .leave => some (s.setWorker q w .exited)
    | .exited => none

/-- One atomic action of the `i`-th cancel call. -/
def State.cancelStep (s : State φ) (i : ℕ) : Option (State φ) :=
  (s.cancels[i]?).bind fun
    | .lookup requestId =>
      match (s.registrations.get? requestId).filter s.upgrade with
      | none => some { s with cancels := s.cancels.set i (.returned none false) }
      | some q => some { s with cancels := s.cancels.set i (.flag q) }
    | .flag q => some { s.raise q with cancels := s.cancels.set i (.swap q) }
    | .swap q =>
      if (s.terminals q).terminal then
        some { s with cancels := s.cancels.set i (.notify q false) }
      else some { s.win q .cancel with cancels := s.cancels.set i (.release q) }
    | .release q =>
      some { s.takeLease q with
        metrics := cancelMetrics s.metrics
        cancels := s.cancels.set i (.notify q true) }
    | .notify q won =>
      some { s.notifyAll with cancels := s.cancels.set i (.returned (some q) won) }
    | .returned .. => none

/-- Requests whose registration `request_stop` can still upgrade. -/
def State.registered (s : State φ) : List ℕ :=
  (s.registrations.entries.map Prod.snd).filter s.upgrade

/-- One atomic action of the winning `request_stop`; `order` is the iteration order of the
registrations map. -/
def State.stopStep (s : State φ) (order : List ℕ) : Option (State φ) :=
  match s.stop with
  | .idle => none
  | .close =>
    if s.pc.locked then none
    else some { s with
      closed := true
      input := []
      workerCompletions := []
      results := []
      metrics := { s.metrics with lateResultsDiscarded :=
        s.metrics.lateResultsDiscarded + (s.results.length +
          (s.workerCompletions.filter fun c => c.result.isSome).length) }
      stop := .collect }
  | .collect =>
    if order.Perm s.registered then
      some { s with registrations := .empty, stop := .flag order }
    else none
  | .flag [] => some { s with stop := .notify }
  | .flag (q :: qs) => some { s.raise q with stop := .swap q qs }
  | .swap q qs =>
    if (s.terminals q).terminal then some { s with stop := .flag qs }
    else some { s.win q .cancel with stop := .release q qs }
  | .release q qs =>
    some { s.takeLease q with metrics := cancelMetrics s.metrics, stop := .flag qs }
  | .notify => some { s.notifyAll with stop := .returned, stopReturned := true }
  | .returned => none

/-- The scheduler's and the environment's choices. -/
inductive Label (φ : Type) where
  | trySubmit (r : AsyncRequest φ) (lifecycle : ℕ)
  | tryRecv
  | exec (spawned : Bool)
  | worker (q : ℕ) (out : AdapterOutcome φ)
  /-- a caller enters `cancel` -/
  | cancelBegin (requestId : ℕ)
  | cancel (i : ℕ)
  /-- a caller enters `request_stop` -/
  | requestStop
  | stop (order : List ℕ)
  /-- time passes -/
  | tick (d : ℕ)
  /-- a timed or spurious return from the condition variable -/
  | wake

def State.step (s : State φ) : Label φ → Option (State φ)
  | .trySubmit r lifecycle =>
    if lifecycle ≤ s.lifecycle ∧ (s.pc.locked → r.sessionId ≠ o.sessionId ∨ lifecycle ≠ 0) then
      some (s.trySubmit o r lifecycle)
    else none
  | .tryRecv => if s.pc.locked then none else some s.tryRecv
  | .exec spawned => s.execStep o spawned
  | .worker q out => s.workerStep o q out
  | .cancelBegin requestId => some { s with cancels := s.cancels ++ [.lookup requestId] }
  | .cancel i => s.cancelStep i
  | .requestStop =>
    if s.lifecycle = 0 then some { s with lifecycle := 1, stop := .close }
    else some { s with stopReturned := true }
  | .stop order => s.stopStep order
  | .tick d => some { s with clock := s.clock + d }
  | .wake =>
    match s.pc with
    | .parked _ => some { s with pc := .top }
    | _ => none

/-- The managed stream, started with an empty mailbox. -/
def system : Transition.System (State φ) (Label φ) where
  init s := s = State.initial
  step s a := s.step o a

variable {o}

/-- The invariant rule for runs whose steps all meet `C`. -/
theorem invariantBy {C : State φ → Label φ → Prop} {I : State φ → Prop} (h0 : I State.initial)
    (hstep : ∀ s a s', (system o).ReachableBy C s → I s → C s a → s.step o a = some s' → I s')
    {s : State φ} (hr : (system o).ReachableBy C s) : I s :=
  hr.invariant (fun t ht => by rw [show t = State.initial from ht]; exact h0) hstep

theorem invariant {I : State φ → Prop} (h0 : I State.initial)
    (hstep : ∀ s a s', I s → s.step o a = some s' → I s')
    {s : State φ} (hr : (system o).Reachable s) : I s :=
  invariantBy h0 (fun s a s' _ hi _ h => hstep s a s' hi h) hr

/-- A small session over unit frames, for concrete runs. -/
def sampleOptions (ordering : DeliveryOrdering) : ManagedStreamOptions Unit where
  sessionId := 0
  inputCapacity := 2
  resultCapacity := 2
  maxInFlight := 2
  maxResponseFrames := 1
  maxResponseBytes := 1
  ordering := ordering
  frameResponseBytes := fun _ => some 1
  inputCapacity_pos := Nat.two_pos
  resultCapacity_pos := Nat.two_pos
  maxInFlight_pos := Nat.two_pos

namespace Label

def submit (requestId : ℕ) : Label Unit := .trySubmit ⟨requestId, 0, (), 100, 1⟩ 0

def execs (n : ℕ) : List (Label Unit) := .replicate n (.exec true)

/-- `n` actions of the worker of request `q`, whose adapter answers with no frames. -/
def works (q n : ℕ) : List (Label Unit) := .replicate n (.worker q (.frames []))

/-- A whole `cancel` call, as the `i`-th one of the run. -/
def cancelCall (i requestId : ℕ) : List (Label Unit) :=
  .cancelBegin requestId :: .replicate 5 (.cancel i)

end Label

end Muxiva.Stream
