import Muxiva.Lib.System
import Muxiva.Runtime.Types
import Mathlib.Logic.Function.Basic

/-! `ConcurrentRuntime` as a transition system. Each label is one action of one thread: one
critical section under one lock, one operation on a channel, one access to an atomic, or one
user callback, which returns what the label says. All threads are past the launch gate. -/
set_option linter.all false
namespace Muxiva.Runtime

variable {β : Type}

namespace State

@[simp] def setWorker (s : State β) (n : NodeId) (w : Worker β) : State β :=
  { s with workers := Function.update s.workers n w }

@[simp] def setDispatcher (s : State β) (e : EdgeDescriptor) (pc : DispatcherPc β) : State β :=
  { s with dispatchers := Function.update s.dispatchers e pc }

@[simp] def setQueue (s : State β) (e : EdgeDescriptor) (q : EdgeQueue (Stamped (Frame β))) :
    State β :=
  { s with queues := Function.update s.queues e q }

@[simp] def setSignalQueue (s : State β) (e : EdgeDescriptor)
    (q : SignalQueue (Stamped (SignalFrame β))) : State β :=
  { s with signalQueues := Function.update s.signalQueues e q }

@[simp] def setSlot (s : State β) (e : EdgeDescriptor) (d : Option (Dispatch β)) : State β :=
  { s with channels := Function.update s.channels e { s.channels e with slot := d } }

/-- `QueueWake::notify`. -/
@[simp] def notify (s : State β) (n : NodeId) : State β :=
  { s with generation := Function.update s.generation n (s.generation n + 1) }

@[simp] def record (s : State β) (ev : Event) : State β :=
  { s with log := { s.log with trace := s.log.trace ++ [ev] } }

end State

/-- A notification of `not_full` reaches the producer asleep on the queue. -/
def DispatcherPc.woken : DispatcherPc β → DispatcherPc β
  | .pushWait frame rest _ => .pushWait frame rest true
  | pc => pc

/-- One action of a close. The data queue's close notifies `not_full` and the target. -/
def State.runTask (s : State β) : CloseTask → State β
  | .cancel => { s with cancelled := true }
  | .closeQueue e mode => s.setQueue e ((s.queues e).close mode)
  | .notifyQueue e => (s.setDispatcher e (s.dispatchers e).woken).notify e.toNodeId
  | .closeSignals e mode => s.setSignalQueue e ((s.signalQueues e).close mode)
  | .notifySignals e => s.notify e.toNodeId

variable (g : GraphDefinition) (o : RuntimeOptions)

def State.initial : State β where
  control := .new
  cancelled := false
  remaining := g.nodes.length
  released := decide (g.nodes.length = 0)
  queues e := if e.enabled then .new e.queuePolicy else (EdgeQueue.new e.queuePolicy).close .drain
  signalQueues e :=
    if e.enabled then .new o.signalQueueCapacity
    else (SignalQueue.new o.signalQueueCapacity).close .drain
  generation n := 2 * (g.edges.filter fun e => ¬ e.enabled ∧ e.toNodeId = n).length
  channels _ := ⟨none, true, true⟩
  acks _ := 0
  workers _ := ⟨.prepare, false, 0, none, none⟩
  dispatchers _ := .recv
  exits := []
  stops := []
  coordinator := ⟨.collect, [], []⟩
  clock := 0
  log := ⟨[], fun _ => [], fun _ => [], fun _ => [], fun _ => []⟩

/-- What the winner of `request_abort` goes on to do. -/
def closeTasks (mode : DrainMode) : List CloseTask :=
  CloseTask.cancel :: (g.edges.flatMap fun e => [CloseTask.closeQueue e mode, .notifyQueue e]) ++
    g.edges.flatMap fun e => [CloseTask.closeSignals e mode, .notifySignals e]

/-- The first emission of a callback that `route` rejects. -/
def routeError (n : NodeId) : List (PortName × Frame β) → Option AbortReason
  | [] => none
  | (p, f) :: rest =>
    match g.outputPort n p with
    | none => some (runtimeAbortDetails "MUXIVA-CONCURRENT-OUTPUT-PORT"
        "node emitted through an undeclared output port" n [.outputPort p])
    | some port =>
      if f.frameType ≠ port.frameType then
        some (runtimeAbort "MUXIVA-CONCURRENT-OUTPUT-TYPE"
          "node emitted a frame whose type does not match its output port" (some n) .nodeError
          .process)
      else routeError n rest

/-- The frames of a callback that leave through the output port of `e`. -/
def emittedOn (e : EdgeDescriptor) (emissions : List (PortName × Frame β)) : List (Frame β) :=
  (emissions.filter (·.1 = e.fromOutputPort)).map Prod.snd

/-- The non-empty batches of one callback, in the order of the outgoing edges. -/
def batches (n : NodeId) (callback : ℕ) (emissions : List (PortName × Frame β)) : Batches β :=
  ((g.outgoing n).map fun e => (e, (emittedOn e emissions).map (Stamped.mk callback))).filter
    fun b => ¬ b.2.isEmpty

/-- `outgoing.clear()`, or the unwinding of the worker. -/
def State.dropSenders (s : State β) (n : NodeId) : State β :=
  { s with channels := fun e =>
      if e ∈ g.outgoing n then { s.channels e with sender := false } else s.channels e }

/-- `route` up to its first send. -/
def State.route (s : State β) (n : NodeId) (w : Worker β) (callback : ℕ)
    (out : NodeCallOutput β) : State β :=
  match routeError g n out.emissions with
  | some r => s.setWorker n { w with pc := .fail r }
  | none =>
    let bs := batches g n callback out.emissions
    if out.signals.isEmpty then s.setWorker n { w with pc := .trySend bs [] }
    else { s.setWorker n { w with
        pc := .sendSignals (out.signals.map (Stamped.mk callback)) (g.outgoing n) bs } with
      acks := Function.update s.acks n 0 }

/-- What a worker does when `on_process` or `on_signal` returns: a consumer adds the tick delay
to the current `Instant` first, which panics when the sum is not representable. -/
def State.returned (s : State β) (n : NodeId) (w : Worker β)
    (call : NodeCall (NodeCallOutput β)) : State β :=
  match call.result n o.emissionBudget .process with
  | .error r => s.setWorker n { w with pc := .fail r }
  | .ok out =>
    let callback := (s.log.outputs n).length
    let s := { s with log := { s.log with
      outputs := Function.update s.log.outputs n (s.log.outputs n ++ [out]) } }
    if g.isSource n then s.route g n { w with delay := out.nextTick } callback out
    else match out.nextTick with
      | none => s.route g n w callback out
      | some d =>
        if o.instantMax < s.clock + d then (s.dropSenders g n).setWorker n { w with pc := .dead }
        else s.route g n { w with nextTick := some (s.clock + d) } callback out

/-- Where a worker goes on after `route`. -/
def State.routed (s : State β) (n : NodeId) (w : Worker β) : Worker β :=
  if g.isSource n then
    match w.delay with
    | none => { w with pc := .leave }
    | some d => { w with pc := .sourceWait (s.clock + d) }
  else { w with pc := .top }

/-- Where a worker goes on after `fail_graph`. -/
def Worker.failed (w : Worker β) : Worker β :=
  if w.prepared then { w with pc := .leave } else { w with pc := .arrive }

def dispatchClosedAbort (n : NodeId) : AbortReason :=
  runtimeAbort "MUXIVA-CONCURRENT-DISPATCH-CLOSED"
    "edge dispatcher exited while its producer was active" (some n) .nodeError .runtime

/-- The dispatcher still holds the acknowledgement sender of the signals it took. -/
def DispatcherPc.holdsAck : DispatcherPc β → Bool
  | .signals _ | .notifySignal _ | .ack _ | .fail _ true | .closing _ true => true
  | _ => false

def Dispatch.isSignals : Dispatch β → Bool
  | .signals _ => true
  | .frames _ => false

/-- An acknowledgement for the source of `e` can still come over `e`. -/
def State.ackPending (s : State β) (e : EdgeDescriptor) : Bool :=
  (s.channels e).slot.any Dispatch.isSignals || (s.dispatchers e).holdsAck

/-- The queue polled at an offset of the round-robin loop. -/
def polled (n : NodeId) (cursor offset : ℕ) : Option (EdgeDescriptor × ℕ) :=
  let edges := g.incoming n
  let index := (cursor + offset) % edges.length
  if offset < edges.length then edges[index]?.map (·, (index + 1) % edges.length) else none

/-- One action of the worker of node `n`; `call` is what a callback returns. -/
def State.workerStep (s : State β) (n : NodeId) (call : NodeCall (NodeCallOutput β)) :
    Option (State β) :=
  let w := s.workers n
  let goto := fun pc => s.setWorker n { w with pc := pc }
  match w.pc with
  | .prepare =>
    match call.result n o.emissionBudget .prepare with
    | .ok _ => some ((s.record (.prepare n true)).setWorker n
        { w with pc := .arrive, prepared := true })
    | .error r => some ((s.record (.prepare n false)).setWorker n { w with pc := .fail r })
  | .arrive =>
    some { goto .gate with
      remaining := s.remaining - 1
      released := s.released || decide (s.remaining - 1 = 0) }
  | .gate => if s.released then some (goto .checkCancelled) else none
  | .checkCancelled => some (goto (if s.cancelled then .enter else .markRunning))
  | .markRunning => some { goto .enter with control := s.control.markRunning }
  | .enter =>
    if w.prepared ∧ (¬ g.isSource n ∨ ¬ s.cancelled) then
      some (goto (if g.isSource n then .source else .top))
    else some (goto .leave)
  | .source => some ((s.record (.process n none)).returned g o n w call)
  | .sourceWait deadline =>
    if s.cancelled then some (goto .leave)
    else if deadline ≤ s.clock then some (goto .source) else none
  | .top => some (goto (.pollSignals (s.generation n) 0))
  | .pollSignals observed offset =>
    match polled g n w.cursor offset with
    | none => some (goto (.checkTick observed))
    | some (e, cursor) =>
      match (s.signalQueues e).tryPop with
      | (none, _) => some (goto (.pollSignals observed (offset + 1)))
      | (some x, q) => some ((s.setSignalQueue e q).setWorker n
          { w with pc := .onSignal e x, cursor := cursor })
  | .onSignal e x =>
    some ({ s.record (.signal n) with log := { (s.record (.signal n)).log with
      handled := Function.update s.log.handled e (s.log.handled e ++ [x]) } }.returned g o n w call)
  | .checkTick observed =>
    if w.nextTick.any (· ≤ s.clock) then some (s.setWorker n { w with pc := .onTick, nextTick := none })
    else some (goto (.pollFrames observed 0))
  | .onTick => some ((s.record (.process n none)).returned g o n w call)
  | .pollFrames observed offset =>
    match polled g n w.cursor offset with
    | none => some (goto (.checkQueue observed (g.incoming n)))
    | some (e, cursor) =>
      match (s.queues e).tryPop with
      | (none, _) => some (goto (.pollFrames observed (offset + 1)))
      | (some x, q) => some (((s.setQueue e q).setDispatcher e (s.dispatchers e).woken).setWorker n
          { w with pc := .onFrame e x, cursor := cursor })
  | .onFrame e x =>
    some ({ s.record (.process n (some e)) with log := { (s.record (.process n (some e))).log with
      processed := Function.update s.log.processed e (s.log.processed e ++ [x]) } }.returned
        g o n w call)
  | .checkQueue observed [] => some (goto (.checkStop observed))
  | .checkQueue observed (e :: rest) =>
    some (goto (if (s.queues e).isClosedAndEmpty then .checkSignals observed e rest
      else .park observed))
  | .checkSignals observed e rest =>
    some (goto (if (s.signalQueues e).isClosedAndEmpty then .checkQueue observed rest
      else .park observed))
  | .checkStop observed =>
    some (goto (if w.nextTick = none ∨ s.cancelled then .leave else .park observed))
  | .park observed =>
    if s.generation n ≠ observed ∨ w.nextTick.any (· ≤ s.clock) then some (goto .top) else none
  | .sendSignals _ [] bs => some (goto (.awaitAcks (g.outgoing n).length bs))
  | .sendSignals signals (e :: rest) bs =>
    if (s.channels e).receiver then
      if (s.channels e).slot = none then
        some ((s.setSlot e (some (.signals signals))).setWorker n
          { w with pc := .sendSignals signals rest bs })
      else none
    else some (goto .dispatchClosed)
  | .awaitAcks 0 bs => some (goto (.checkReason bs))
  | .awaitAcks (left + 1) bs =>
    if 0 < s.acks n then
      some { goto (.awaitAcks left bs) with acks := Function.update s.acks n (s.acks n - 1) }
    else if (g.outgoing n).any s.ackPending then none
    else some (goto .dispatchClosed)
  | .checkReason bs =>
    match s.control.reason with
    | some r => some (goto (.fail r))
    | none => some (goto (.trySend bs []))
  | .trySend [] pending => some (goto (.sendPending pending))
  | .trySend ((e, b) :: bs) pending =>
    if (s.channels e).receiver then
      if (s.channels e).slot = none then
        some ((s.setSlot e (some (.frames b))).setWorker n { w with pc := .trySend bs pending })
      else some (goto (.trySend bs (pending ++ [(e, b)])))
    else some (goto .dispatchClosed)
  | .sendPending [] => some (s.setWorker n (s.routed g n w))
  | .sendPending ((e, b) :: bs) =>
    if (s.channels e).receiver then
      if (s.channels e).slot = none then
        some ((s.setSlot e (some (.frames b))).setWorker n { w with pc := .sendPending bs })
      else none
    else some (goto .dispatchClosed)
  | .dispatchClosed =>
    some (goto (.fail (s.control.reason.getD (dispatchClosedAbort n))))
  | .fail r =>
    match s.control.requestAbort r with
    | (true, c) => some { goto (.closing (closeTasks g o.failureMode)) with control := c }
    | (false, _) => some (s.setWorker n w.failed)
  | .closing [] => some (s.setWorker n w.failed)
  | .closing (t :: ts) => some ((s.runTask t).setWorker n { w with pc := .closing ts })
  | .leave => some ((s.dropSenders g n).setWorker n { w with pc := .exit })
  | .exit => some { goto .exited with exits := s.exits ++ [.node n w.prepared] }
  | .exited => none
  | .dead => none

variable [DecidableEq β]

/-- One lock section of `queue.push` and what `apply_edge` makes of it. -/
def State.pushFrame (s : State β) (e : EdgeDescriptor) (x : Stamped (Frame β))
    (rest : List (Stamped (Frame β))) : State β :=
  let (r, q) := (s.queues e).push x
  let s := s.setQueue e q
  match r with
  | .enqueued | .enqueuedAfterDroppingOldest => s.setDispatcher e (.notifyFrame rest)
  | .dropped => s.setDispatcher e (.frames rest)
  | .wait => s.setDispatcher e (.pushWait x rest false)
  | .closed => s.setDispatcher e (.fail (queueClosedAbort e) false)
  | .overflowAbort => s.setDispatcher e (.fail (queueAbort e) false)

/-- Where a dispatcher goes on after `fail_graph`. -/
def DispatcherPc.afterFail (signal : Bool) : DispatcherPc β :=
  if signal then .ack true else .hangUp

/-- One action of the dispatcher of edge `e`; `answers` are what the policy's hooks return. -/
def State.dispatcherStep (s : State β) (e : EdgeDescriptor) (answers : PolicyAnswers β) :
    Option (State β) :=
  let goto := s.setDispatcher e
  match s.dispatchers e with
  | .recv =>
    match (s.channels e).slot with
    | some (.frames batch) => some ((s.setSlot e none).setDispatcher e (.frames batch))
    | some (.signals signals) => some ((s.setSlot e none).setDispatcher e (.signals signals))
    | none => if (s.channels e).sender then none else some (goto .hangUp)
  | .frames [] => some (goto .recv)
  | .frames (x :: rest) =>
    let s := { s with log := { s.log with
      applied := Function.update s.log.applied e (s.log.applied e ++ [(x, answers)]) } }
    match applyEdge e answers x.value (s.queues e) with
    | (.fail r, q) => some ((s.setQueue e q).setDispatcher e (.fail r false))
    | (.settled, q) => some ((s.setQueue e q).setDispatcher e (.frames rest))
    | (.deliver f, q) => some ((s.setQueue e q).pushFrame e ⟨x.callback, f⟩ rest)
  | .pushWait x rest notified => if notified then some (s.pushFrame e x rest) else none
  | .notifyFrame rest => some ((s.notify e.toNodeId).setDispatcher e (.frames rest))
  | .signals [] => some (goto (.ack false))
  | .signals (x :: rest) =>
    match observeSignal e answers.onSignal (s.queues e) with
    | (some r, q) => some ((s.setQueue e q).setDispatcher e (.fail r true))
    | (none, q) =>
      match (s.signalQueues e).tryPush x with
      | (some err, sq) =>
        some (((s.setQueue e q).setSignalQueue e sq).setDispatcher e (.fail (err.abort e) true))
      | (none, sq) =>
        some (((s.setQueue e q).setSignalQueue e sq).setDispatcher e (.notifySignal rest))
  | .notifySignal rest => some ((s.notify e.toNodeId).setDispatcher e (.signals rest))
  | .ack failed =>
    some { goto (if failed then .hangUp else .recv) with
      acks := Function.update s.acks e.fromNodeId (s.acks e.fromNodeId + 1) }
  | .fail r signal =>
    match s.control.requestAbort r with
    | (true, c) => some { goto (.closing (closeTasks g o.failureMode) signal) with control := c }
    | (false, _) => some (goto (.afterFail signal))
  | .closing [] signal => some (goto (.afterFail signal))
  | .closing (t :: ts) signal => some ((s.runTask t).setDispatcher e (.closing ts signal))
  | .hangUp =>
    some { goto (.shutdown [.closeQueue e .drain, .notifyQueue e, .closeSignals e .drain,
        .notifySignals e]) with
      channels := Function.update s.channels e
        { s.channels e with slot := none, receiver := false } }
  | .shutdown [] => some (goto .exit)
  | .shutdown (t :: ts) => some ((s.runTask t).setDispatcher e (.shutdown ts))
  | .exit => some { goto .exited with exits := s.exits ++ [.edge e] }
  | .exited => none

/-- One action of the `i`-th stop call. -/
def State.stopStep (s : State β) (i : ℕ) : Option (State β) :=
  match s.stops[i]? with
  | some .request =>
    match s.control.requestAbort cancellationAbort with
    | (true, c) => some { s with
        control := c, stops := s.stops.set i (.closing (closeTasks g o.shutdownMode)) }
    | (false, _) => some { s with stops := s.stops.set i (.returned false) }
  | some (.closing []) => some { s with stops := s.stops.set i (.returned true) }
  | some (.closing (t :: ts)) => some { s.runTask t with stops := s.stops.set i (.closing ts) }
  | _ => none

def WorkerPc.finished : WorkerPc β → Bool
  | .exited | .dead => true
  | _ => false

def DispatcherPc.finished : DispatcherPc β → Bool
  | .exited => true
  | _ => false

/-- Every clone of the exit sender is dropped. -/
def State.allFinished (s : State β) : Bool :=
  g.topologicalOrder.all (fun n => (s.workers n).pc.finished) &&
    g.enabledEdges.all fun e => (s.dispatchers e).finished

/-- One action of `coordinate`; `call` is what `on_finish` returns. -/
def State.coordinatorStep (s : State β) (call : NodeCall Unit) : Option (State β) :=
  let k := s.coordinator
  let goto := fun pc => { s with coordinator := { k with pc := pc } }
  match k.pc with
  | .collect =>
    match s.exits with
    | .node n prepared :: rest => some { s with
        exits := rest
        coordinator := { k with
          nodes := k.nodes ++ [n]
          prepared := if prepared then k.prepared ++ [n] else k.prepared } }
    | .edge _ :: rest => some { s with exits := rest }
    | [] => if s.allFinished g then some (goto .checkReason) else none
  | .checkReason =>
    some (goto (if s.control.reason = none then .beginFinishing else .beginAborting))
  | .beginFinishing =>
    match s.control.beginFinishing with
    | (true, c) => some { goto (.finish g.topologicalOrder.reverse) with control := c }
    | (false, c) => some { goto .beginAborting with control := c }
  | .finish [] => some (goto .sealSuccess)
  | .finish (n :: rest) =>
    if n ∈ k.nodes then
      match call.result n o.emissionBudget .finish with
      | .ok _ => some ({ goto (.finish rest) with log := (s.record (.finish n true)).log })
      | .error r => some ({ goto (.fail r) with log := (s.record (.finish n false)).log })
    else some (goto (.finish rest))
  | .fail r =>
    match s.control.requestAbort r with
    | (true, c) => some { goto (.closing (closeTasks g o.failureMode)) with control := c }
    | (false, _) => some (goto .sealSuccess)
  | .closing [] => some (goto .sealSuccess)
  | .closing (t :: ts) =>
    some { s.runTask t with coordinator := { k with pc := .closing ts } }
  | .sealSuccess =>
    match s.control.sealSuccess with
    | (true, c) => some { goto .publishSuccess with control := c }
    | (false, c) => some { goto .beginAborting with control := c }
  | .publishSuccess =>
    some { goto .done with control := s.control.publishSuccess ⟨g.nodes.length⟩ }
  | .beginAborting =>
    match s.control.beginAborting with
    | (some r, c) => some { goto (.abort r g.topologicalOrder.reverse) with control := c }
    | (none, c) => some { goto .panicked with control := c }
  | .abort r [] => some { goto .done with control := s.control.publishAbort r }
  | .abort r (n :: rest) =>
    if n ∈ k.prepared ∧ n ∈ k.nodes then
      some ({ goto (.abort r rest) with log := (s.record (.abort n r)).log })
    else some (goto (.abort r rest))
  | .done => none
  | .panicked => none

/-- The scheduler's and the environment's choices. -/
inductive Label (β : Type) where
  | worker (n : NodeId) (call : NodeCall (NodeCallOutput β))
  | dispatcher (e : EdgeDescriptor) (answers : PolicyAnswers β)
  /-- a caller enters `stop` -/
  | stopBegin
  | stop (i : ℕ)
  | coordinator (call : NodeCall Unit)
  /-- time passes -/
  | tick (d : ℕ)

def State.step (s : State β) : Label β → Option (State β)
  | .worker n call => if n ∈ g.topologicalOrder then s.workerStep g o n call else none
  | .dispatcher e answers => if e ∈ g.enabledEdges then s.dispatcherStep g o e answers else none
  | .stopBegin => some { s with stops := s.stops ++ [.request] }
  | .stop i => s.stopStep g o i
  | .coordinator call => s.coordinatorStep g o call
  | .tick d => some { s with clock := s.clock + d }

def system : Transition.System (State β) (Label β) where
  init s := s = State.initial g o
  step s a := s.step g o a

/-- A source and a sink over one blocking edge of capacity one, for concrete runs. -/
def sampleEdge : EdgeDescriptor :=
  ⟨0, 0, 0, 1, 0, .text, ⟨1, .block, Nat.one_pos⟩, .typeGateOnly, .identity, true⟩

def sampleGraph : GraphDefinition where
  nodes := [⟨0, .source, [⟨0, .output, .text⟩]⟩, ⟨1, .sink, [⟨0, .input, .text⟩]⟩]
  edges := [sampleEdge]
  topologicalOrder := [0, 1]
  nodes_nodup := by decide
  edges_nodup := by decide
  order_perm := by decide
  endpoints := by decide
  forward := by decide
  no_source_input := by decide

/-- A text frame without lineage. -/
def sampleFrame (id : FrameId) : Frame Unit := ⟨id, .text, [], ()⟩

def sampleSignal (id : FrameId) : SignalFrame Unit := ⟨⟨id, .signal, [], ()⟩, rfl⟩

def sampleOptions : RuntimeOptions := ⟨.discard, .discard, 16, 4, by decide, 1000⟩

abbrev sampleSystem : Transition.System (State Unit) (Label Unit) :=
  system sampleGraph sampleOptions

namespace Label

/-- An action of a worker whose callback, if it is at one, returns `out`. -/
def call (n : NodeId) (out : NodeCallOutput Unit) : Label Unit := .worker n ⟨false, .ok out⟩

/-- `k` actions of a worker whose callbacks emit nothing. -/
def works (n k : ℕ) : List (Label Unit) := .replicate k (call n ⟨[], [], none⟩)

/-- `k` actions of the sample edge's dispatcher. -/
def forwards (k : ℕ) : List (Label Unit) :=
  .replicate k (.dispatcher sampleEdge ⟨.ok .accept, .ok (.drop ""), .ok (), .ok ()⟩)

def coordinates (k : ℕ) : List (Label Unit) := .replicate k (.coordinator ⟨false, .ok ()⟩)

/-- A whole `stop` call of the sample graph that wins, as the first one of the run. -/
def stopCall : List (Label Unit) := .stopBegin :: .replicate 7 (.stop 0)

end Label

end Muxiva.Runtime
