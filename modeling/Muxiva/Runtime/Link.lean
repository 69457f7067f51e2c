import Muxiva.Runtime.Clean

/-! The way of frames and signals along one edge in a clean run: from the source's callbacks over
its worker, the dispatch channel and the dispatcher to the queues and the target's callbacks,
nothing is lost, duplicated or reordered. -/
set_option linter.all false
namespace Muxiva.Runtime

variable {α β : Type} {g : GraphDefinition} {o : RuntimeOptions} {s s' : State β}

/-- What the callbacks of a node produced, each value with the index of its callback. -/
def stampAll (f : NodeCallOutput β → List α) (outs : List (NodeCallOutput β)) :
    List (Stamped α) :=
  outs.zipIdx.flatMap fun p => (f p.1).map (Stamped.mk p.2)

@[simp] theorem stampAll_nil (f : NodeCallOutput β → List α) : stampAll f [] = [] := rfl

@[simp] theorem stampAll_concat (f : NodeCallOutput β → List α) (outs : List (NodeCallOutput β))
    (out : NodeCallOutput β) :
    stampAll f (outs ++ [out]) = stampAll f outs ++ (f out).map (Stamped.mk outs.length) := by
  simp [stampAll, List.zipIdx_append]

/-- The frames that some batches hold for `e`. -/
def Batches.on (e : EdgeDescriptor) (bs : Batches β) : List (Stamped (Frame β)) :=
  (bs.filter (·.1 = e)).flatMap Prod.snd

@[simp] theorem Batches.on_nil (e : EdgeDescriptor) : Batches.on e ([] : Batches β) = [] := rfl

theorem Batches.on_append (e : EdgeDescriptor) (bs bs' : Batches β) :
    Batches.on e (bs ++ bs') = bs.on e ++ bs'.on e := by
  simp [Batches.on]

theorem Batches.on_cons_self (e : EdgeDescriptor) (b : List (Stamped (Frame β)))
    (bs : Batches β) : Batches.on e ((e, b) :: bs) = b ++ bs.on e := by
  simp [Batches.on]

theorem Batches.on_cons_ne {e e' : EdgeDescriptor} (h : e' ≠ e) (b : List (Stamped (Frame β)))
    (bs : Batches β) : Batches.on e ((e', b) :: bs) = bs.on e := by
  simp [Batches.on, h]

theorem Batches.on_eq_nil {e : EdgeDescriptor} {bs : Batches β} (h : e ∉ bs.edges) :
    bs.on e = [] := by
  unfold Batches.on
  rw [List.filter_eq_nil_iff.mpr, List.flatMap_nil]
  intro b hb heq
  simp only [decide_eq_true_eq] at heq
  exact h (heq ▸ List.mem_map_of_mem hb)

/-- What a callback put on an outgoing edge is in its batches. -/
theorem batches_on {n : NodeId} {e : EdgeDescriptor} (he : e ∈ g.outgoing n) (k : ℕ)
    (emissions : List (PortName × Frame β)) :
    (batches g n k emissions).on e = (emittedOn e emissions).map (Stamped.mk k) := by
  have hnd := g.outgoing_nodup n
  unfold batches
  generalize g.outgoing n = out at he hnd
  induction out with
  | nil => cases he
  | cons e' es ih =>
    rw [List.nodup_cons] at hnd
    have hrest : e' = e → Batches.on e ((es.map fun e => (e, (emittedOn e emissions).map
        (Stamped.mk k))).filter fun b => ¬ b.2.isEmpty) = [] := by
      rintro rfl
      refine Batches.on_eq_nil fun hmem => hnd.1 ?_
      simp only [Batches.edges, List.mem_map, List.mem_filter] at hmem
      obtain ⟨b, ⟨⟨e'', he'', rfl⟩, -⟩, rfl⟩ := hmem
      exact he''
    rw [List.map_cons, List.filter_cons]
    by_cases hee : e' = e
    · split_ifs with hne
      · rw [hee, Batches.on_cons_self, ← hee, hee, hrest hee, List.append_nil]
      · rw [hrest hee]
        rw [hee] at hne
        simp only [decide_not, Bool.not_eq_true', decide_eq_false_iff_not, not_not,
          List.isEmpty_iff] at hne
        exact hne.symm
    · have hmem : e ∈ es := (List.mem_cons.mp he).resolve_left (Ne.symm hee)
      split_ifs
      · rw [Batches.on_cons_ne hee]
        exact ih hmem hnd.2
      · exact ih hmem hnd.2

/-- Frames a worker has yet to hand to the dispatcher of `e`. -/
def WorkerPc.holding (e : EdgeDescriptor) : WorkerPc β → List (Stamped (Frame β))
  | .sendSignals _ _ bs | .awaitAcks _ bs | .checkReason bs => bs.on e
  | .trySend bs pending => Batches.on e (pending ++ bs)
  | .sendPending pending => pending.on e
  | _ => []

/-- Signals a worker has yet to hand to the dispatcher of `e`. -/
def WorkerPc.holdingSignals (e : EdgeDescriptor) : WorkerPc β → List (Stamped (SignalFrame β))
  | .sendSignals signals rest _ => if e ∈ rest then signals else []
  | _ => []

/-- What the last callback of a dead worker produced. -/
def WorkerPc.lost (f : NodeCallOutput β → List α) (outs : List (NodeCallOutput β)) :
    WorkerPc β → List (Stamped α)
  | .dead => (outs.getLast?.toList.flatMap f).map (Stamped.mk (outs.length - 1))
  | _ => []

/-- The frame a worker is about to process, if it came over `e`. -/
def WorkerPc.atFrame (e : EdgeDescriptor) : WorkerPc β → List (Stamped (Frame β))
  | .onFrame e' x => if e' = e then [x] else []
  | _ => []

def WorkerPc.atSignal (e : EdgeDescriptor) : WorkerPc β → List (Stamped (SignalFrame β))
  | .onSignal e' x => if e' = e then [x] else []
  | _ => []

/-- Frames a dispatcher has taken from its channel and not yet handled. -/
def DispatcherPc.holding : DispatcherPc β → List (Stamped (Frame β))
  | .frames rest | .pushWait _ rest _ | .notifyFrame rest => rest
  | _ => []

def DispatcherPc.holdingSignals : DispatcherPc β → List (Stamped (SignalFrame β))
  | .signals rest | .notifySignal rest => rest
  | _ => []

/-- A handled frame that waits for room in the queue. -/
def DispatcherPc.waiting : DispatcherPc β → List (Stamped (Frame β))
  | .pushWait x _ _ => [x]
  | _ => []

@[simp] theorem woken_holding (pc : DispatcherPc β) : pc.woken.holding = pc.holding := by
  cases pc <;> rfl

@[simp] theorem woken_holdingSignals (pc : DispatcherPc β) :
    pc.woken.holdingSignals = pc.holdingSignals := by
  cases pc <;> rfl

@[simp] theorem woken_waiting (pc : DispatcherPc β) : pc.woken.waiting = pc.waiting := by
  cases pc <;> rfl

def slotFrames : Option (Dispatch β) → List (Stamped (Frame β))
  | some (.frames b) => b
  | _ => []

def slotSignals : Option (Dispatch β) → List (Stamped (SignalFrame β))
  | some (.signals sg) => sg
  | _ => []

namespace State
variable (s : State β) (e : EdgeDescriptor)

/-- Frames of `e` between the source's callbacks and the edge's pipeline. -/
def upFrames : List (Stamped (Frame β)) :=
  (s.dispatchers e).holding ++ slotFrames (s.channels e).slot ++
    (s.workers e.fromNodeId).pc.holding e ++
    (s.workers e.fromNodeId).pc.lost (emittedOn e ·.emissions) (s.log.outputs e.fromNodeId)

/-- Signals for `e` between the source's callbacks and the signal queue. -/
def upSignals : List (Stamped (SignalFrame β)) :=
  (s.dispatchers e).holdingSignals ++ slotSignals (s.channels e).slot ++
    (s.workers e.fromNodeId).pc.holdingSignals e ++
    (s.workers e.fromNodeId).pc.lost (·.signals) (s.log.outputs e.fromNodeId)

/-- Frames that went through the queue of `e` or are in it. -/
def downFrames : List (Stamped (Frame β)) :=
  s.log.processed e ++ (s.workers e.toNodeId).pc.atFrame e ++ (s.queues e).frames

def downSignals : List (Stamped (SignalFrame β)) :=
  s.log.handled e ++ (s.workers e.toNodeId).pc.atSignal e ++ (s.signalQueues e).queue

end State

theorem quiet_holding {n : NodeId} {pc : WorkerPc β} {w w' : Worker β} (h : Quiet g s n w pc w')
    (hf : pc.failing = false) (hf' : w'.pc.failing = false) (e : EdgeDescriptor) :
    w'.pc.holding e = pc.holding e ∧ w'.pc.holdingSignals e = pc.holdingSignals e ∧
      w'.pc.atFrame e = pc.atFrame e ∧ w'.pc.atSignal e = pc.atSignal e := by
  cases h with
  | tried pending => exact ⟨by simp [WorkerPc.holding], rfl, rfl, rfl⟩
  | full e' b bs pending hr hs => exact ⟨by simp [WorkerPc.holding], rfl, rfl, rfl⟩
  | signalsSent sg bs => exact ⟨rfl, by simp [WorkerPc.holdingSignals], rfl, rfl⟩
  | sent =>
    unfold State.routed
    split_ifs
    · cases w.delay <;> exact ⟨rfl, rfl, rfl, rfl⟩
    · exact ⟨rfl, rfl, rfl, rfl⟩
  | signalsRefused _ _ _ _ _ | ackLost _ _ _ _ | reasonSeen _ _ _ | tryRefused _ _ _ _ _
  | pendingRefused _ _ _ _ => cases hf'
  | dispatchClosed | lost _ _ | closed => cases hf
  | _ => exact ⟨rfl, rfl, rfl, rfl⟩

theorem lost_of_alive {f : NodeCallOutput β → List α} {outs : List (NodeCallOutput β)}
    {pc : WorkerPc β} (h : pc ≠ .dead) : pc.lost f outs = [] := by
  cases pc with
  | dead => exact absurd rfl h
  | _ => rfl

/-- The source's side of `e` after some step: as before, or with one more callback's output. -/
def UpStep (e : EdgeDescriptor) (s s' : State β) : Prop :=
  (s'.log.outputs e.fromNodeId = s.log.outputs e.fromNodeId ∧ s'.upFrames e = s.upFrames e ∧
    s'.upSignals e = s.upSignals e) ∨
  ∃ out : NodeCallOutput β, s'.log.outputs e.fromNodeId = s.log.outputs e.fromNodeId ++ [out] ∧
    s'.upFrames e = s.upFrames e ++
      (emittedOn e out.emissions).map (Stamped.mk (s.log.outputs e.fromNodeId).length) ∧
    s'.upSignals e = s.upSignals e ++
      out.signals.map (Stamped.mk (s.log.outputs e.fromNodeId).length)

/-- The dispatcher's part of the way does not change when it is woken. -/
theorem dispatcher_parts {e : EdgeDescriptor}
    (h : s'.dispatchers e = s.dispatchers e ∨ s'.dispatchers e = (s.dispatchers e).woken) :
    (s'.dispatchers e).holding = (s.dispatchers e).holding ∧
      (s'.dispatchers e).holdingSignals = (s.dispatchers e).holdingSignals ∧
      (s'.dispatchers e).waiting = (s.dispatchers e).waiting := by
  rcases h with h | h <;> simp [h]

/-- The source's side from its parts. -/
theorem UpStep.of_parts {e : EdgeDescriptor}
    (hd : s'.dispatchers e = s.dispatchers e ∨ s'.dispatchers e = (s.dispatchers e).woken)
    (hlog : s'.log.outputs e.fromNodeId = s.log.outputs e.fromNodeId)
    (hl : (s.workers e.fromNodeId).pc ≠ .dead) (hl' : (s'.workers e.fromNodeId).pc ≠ .dead)
    (hf : slotFrames (s'.channels e).slot ++ (s'.workers e.fromNodeId).pc.holding e =
      slotFrames (s.channels e).slot ++ (s.workers e.fromNodeId).pc.holding e)
    (hs : slotSignals (s'.channels e).slot ++ (s'.workers e.fromNodeId).pc.holdingSignals e =
      slotSignals (s.channels e).slot ++ (s.workers e.fromNodeId).pc.holdingSignals e) :
    UpStep e s s' := by
  obtain ⟨hh, hhs, -⟩ := dispatcher_parts hd
  refine .inl ⟨hlog, ?_, ?_⟩
  · simp only [State.upFrames, hh, lost_of_alive hl, lost_of_alive hl', List.append_nil,
      List.append_assoc, hf]
  · simp only [State.upSignals, hhs, lost_of_alive hl, lost_of_alive hl', List.append_nil,
      List.append_assoc, hs]

/-- A worker of another node does not touch the source's side. -/
theorem UpStep.of_same {e : EdgeDescriptor}
    (hd : s'.dispatchers e = s.dispatchers e ∨ s'.dispatchers e = (s.dispatchers e).woken)
    (hw : s'.workers e.fromNodeId = s.workers e.fromNodeId)
    (hlog : s'.log.outputs e.fromNodeId = s.log.outputs e.fromNodeId)
    (hch : (s'.channels e).slot = (s.channels e).slot) : UpStep e s s' := by
  obtain ⟨hh, hhs, -⟩ := dispatcher_parts hd
  exact .inl ⟨hlog, by simp only [State.upFrames, hh, hw, hlog, hch],
    by simp only [State.upSignals, hhs, hw, hlog, hch]⟩

theorem workerMove_outputs {n m : NodeId} {call : NodeCall (NodeCallOutput β)} {pc : WorkerPc β}
    {w : Worker β} (h : WorkerMove g o s n w call pc s') (hm : m ≠ n) :
    s'.log.outputs m = s.log.outputs m := by
  cases h with
  | callback pc s₀ s' hc hr => cases hr <;> cases hc <;> simp [State.logged, State.dropSenders, hm]
  | close t ts => exact congrFun (congrArg Log.outputs (runTask_sameThreads s t).log) m
  | _ => rfl

/-- The callback of the source itself. -/
theorem returned_up {n : NodeId} {call : NodeCall (NodeCallOutput β)} {pc : WorkerPc β}
    {s₀ : State β} {e : EdgeDescriptor} (he : e ∈ g.outgoing n)
    (hpc : (s.workers n).pc = pc) (hc : Consumed s n pc s₀)
    (hr : Returned g o s₀ n (s.workers n) call s')
    (hf' : (s'.workers n).pc.failing = false) : UpStep e s s' := by
  have hn : e.fromNodeId = n := (GraphDefinition.mem_outgoing.mp he).2
  have hold : pc.holding e = [] ∧ pc.holdingSignals e = [] ∧ pc ≠ .dead := by
    cases hc <;> exact ⟨rfl, rfl, by simp⟩
  have hout : s₀.log.outputs n = s.log.outputs n := by cases hc <;> rfl
  have hch : s₀.channels = s.channels := by cases hc <;> rfl
  have hdi : s₀.dispatchers = s.dispatchers := by cases hc <;> rfl
  have hup : s.upFrames e = (s.dispatchers e).holding ++ slotFrames (s.channels e).slot := by
    simp [State.upFrames, hn, hpc, hold.1, lost_of_alive hold.2.2]
  have hus : s.upSignals e =
      (s.dispatchers e).holdingSignals ++ slotSignals (s.channels e).slot := by
    simp [State.upSignals, hn, hpc, hold.2.1, lost_of_alive hold.2.2]
  rw [UpStep, hn, hup, hus]
  right
  cases hr with
  | failed r h => simp [WorkerPc.failing] at hf'
  | rejected out tick delay r h ht hrej => simp [WorkerPc.failing] at hf'
  | died out d h hs ht ho =>
    refine ⟨out, by simp [State.logged, State.dropSenders, hout], ?_, ?_⟩
    · simp [State.upFrames, State.logged, State.dropSenders, hn, he, WorkerPc.holding,
        WorkerPc.lost, hout, hch, hdi]
    · simp [State.upSignals, State.logged, State.dropSenders, hn, he, WorkerPc.holdingSignals,
        WorkerPc.lost, hout, hch, hdi]
  | frames out tick delay h ht hrej hs =>
    refine ⟨out, by simp [State.logged, hout], ?_, ?_⟩
    · simp [State.upFrames, State.logged, hn, WorkerPc.holding, WorkerPc.lost, hch, hdi,
        batches_on he, hout]
    · simp [State.upSignals, State.logged, hn, WorkerPc.holdingSignals, WorkerPc.lost, hch, hdi, hs]
  | signals out tick delay h ht hrej hs =>
    refine ⟨out, by simp [State.logged, hout], ?_, ?_⟩
    · simp [State.upFrames, State.logged, hn, WorkerPc.holding, WorkerPc.lost, hch, hdi,
        batches_on he, hout]
    · simp [State.upSignals, State.logged, hn, WorkerPc.holdingSignals, WorkerPc.lost, hch, hdi, he,
        hout]

/-- A worker hands over, in order, what its callbacks left it. -/
theorem workerMove_up {n : NodeId} {call : NodeCall (NodeCallOutput β)} {e : EdgeDescriptor}
    (he : e ∈ g.enabledEdges) (hp : (s.workers n).pc.Placed g n)
    (h : WorkerMove g o s n (s.workers n) call (s.workers n).pc s')
    (hf : (s.workers n).pc.failing = false) (hf' : (s'.workers n).pc.failing = false) :
    UpStep e s s' := by
  have hframe := workerMove_frame h
  have hd := hframe.dispatchers e
  by_cases hout : e ∈ g.outgoing n
  · have hn : e.fromNodeId = n := (GraphDefinition.mem_outgoing.mp hout).2
    have hnd := g.outgoing_nodup n
    generalize hpc : (s.workers n).pc = pc at h hp hf
    cases h with
    | quiet pc w' hq =>
      obtain ⟨hh, hhs, -, -⟩ := quiet_holding hq hf (by simpa using hf') e
      obtain ⟨hl, hl'⟩ := quiet_left hq
      refine .of_parts hd rfl ?_ ?_ ?_ ?_
      · rw [hn, hpc]
        rintro rfl
        cases hl
      · simp only [State.setWorker, hn, Function.update_self]
        intro hdead
        rw [hdead] at hl'
        cases hl'
      · simp [hn, hpc, hh]
      · simp [hn, hpc, hhs]
    | notPrepared r h => simp [WorkerPc.failing] at hf'
    | callback pc s₀ s' hc hr => exact returned_up hout hpc hc hr hf'
    | putSignals sg e' rest bs hr hs =>
      refine .of_parts hd rfl (by simp [hn, hpc]) (by simp [hn]) ?_ ?_
      · by_cases hee : e = e'
        · subst hee
          simp [hn, hpc, WorkerPc.holding, hs, slotFrames]
        · simp [hn, hpc, WorkerPc.holding, hee]
      · by_cases hee : e = e'
        · subst hee
          have hrest : e ∉ rest := (List.nodup_cons.mp (hp.1.sublist.nodup hnd)).1
          simp [hn, hpc, WorkerPc.holdingSignals, hs, slotSignals, hrest]
        · simp [hn, hpc, WorkerPc.holdingSignals, hee]
    | tryPut e' b bs pending hr hs =>
      refine .of_parts hd rfl (by simp [hn, hpc]) (by simp [hn]) ?_ ?_
      · by_cases hee : e = e'
        · subst hee
          have hnd' := hp.nodup hnd
          simp only [Batches.edges, List.map_cons, List.nodup_append, List.nodup_cons] at hnd'
          have hbs : Batches.on e bs = [] := Batches.on_eq_nil hnd'.2.1.1
          have hpend : Batches.on e pending = [] := by
            refine Batches.on_eq_nil fun hmem => ?_
            exact hnd'.2.2 e hmem e List.mem_cons_self rfl
          simp [hn, hpc, WorkerPc.holding, hs, slotFrames, Batches.on_append,
            Batches.on_cons_self, hbs, hpend]
        · simp [hn, hpc, WorkerPc.holding, hee, Batches.on_append, Batches.on_cons_ne (Ne.symm hee)]
      · by_cases hee : e = e'
        · subst hee
          simp [hn, hpc, WorkerPc.holdingSignals, hs, slotSignals]
        · simp [hn, hpc, WorkerPc.holdingSignals, hee]
    | putPending e' b bs hr hs =>
      refine .of_parts hd rfl (by simp [hn, hpc]) (by simp [hn]) ?_ ?_
      · by_cases hee : e = e'
        · subst hee
          have hnd' := hp.nodup hnd
          simp only [Batches.edges, List.map_cons, List.nodup_cons] at hnd'
          have hbs : Batches.on e bs = [] := Batches.on_eq_nil hnd'.1
          simp [hn, hpc, WorkerPc.holding, hs, slotFrames, Batches.on_cons_self, hbs]
        · simp [hn, hpc, WorkerPc.holding, hee, Batches.on_cons_ne (Ne.symm hee)]
      · by_cases hee : e = e'
        · subst hee
          simp [hn, hpc, WorkerPc.holdingSignals, hs, slotSignals]
        · simp [hn, hpc, WorkerPc.holdingSignals, hee]
    | won r h => cases hf
    | close t ts => cases hf
    | leave =>
      refine .of_parts hd rfl (by simp [hn, hpc]) (by simp [hn]) ?_ ?_
      · simp [hn, hpc, WorkerPc.holding, State.dropSenders, hout]
      · simp [hn, hpc, WorkerPc.holdingSignals, State.dropSenders, hout]
    | _ =>
      refine .of_parts hd rfl (by simp [hn, hpc]) (by simp [hn]) ?_ ?_
      · simp [hn, hpc, WorkerPc.holding]
      · simp [hn, hpc, WorkerPc.holdingSignals]
  · have hn : e.fromNodeId ≠ n := fun hn => hout (GraphDefinition.mem_outgoing.mpr ⟨he, hn⟩)
    exact .of_same hd (hframe.workers _ hn) (workerMove_outputs h hn)
      (by rw [workerMove_channels h hp hout])

/-- The target's side from its parts. -/
theorem down_of_same {e : EdgeDescriptor} (hw : s'.workers e.toNodeId = s.workers e.toNodeId)
    (hq : s'.queues e = s.queues e) (hs : s'.signalQueues e = s.signalQueues e)
    (hp : s'.log.processed e = s.log.processed e) (hh : s'.log.handled e = s.log.handled e) :
    s'.downFrames e = s.downFrames e ∧ s'.downSignals e = s.downSignals e := by
  simp only [State.downFrames, State.downSignals, hw, hq, hs, hp, hh, and_self]

/-- A worker that is not about to process what it took over `e`. -/
theorem down_of_away {e : EdgeDescriptor}
    (ha : (s.workers e.toNodeId).pc.atFrame e = [] ∧ (s.workers e.toNodeId).pc.atSignal e = [])
    (ha' : (s'.workers e.toNodeId).pc.atFrame e = [] ∧
      (s'.workers e.toNodeId).pc.atSignal e = [])
    (hq : s'.queues e = s.queues e) (hs : s'.signalQueues e = s.signalQueues e)
    (hp : s'.log.processed e = s.log.processed e) (hh : s'.log.handled e = s.log.handled e) :
    s'.downFrames e = s.downFrames e ∧ s'.downSignals e = s.downSignals e := by
  simp only [State.downFrames, State.downSignals, ha.1, ha.2, ha'.1, ha'.2, hq, hs, hp, hh, and_self]

theorem returned_down {n : NodeId} {w : Worker β} {call : NodeCall (NodeCallOutput β)}
    (h : Returned g o s n w call s') :
    (∀ e, (s'.workers n).pc.atFrame e = [] ∧ (s'.workers n).pc.atSignal e = []) ∧
      s'.queues = s.queues ∧ s'.signalQueues = s.signalQueues ∧
      s'.log.processed = s.log.processed ∧ s'.log.handled = s.log.handled := by
  cases h <;> dsimp only [State.setWorker, State.dropSenders, State.logged] <;>
    refine ⟨fun e => ?_, rfl, rfl, rfl, rfl⟩ <;> simp [WorkerPc.atFrame, WorkerPc.atSignal]

/-- Only the target takes from the queues of `e`. -/
theorem workerMove_elsewhere {n : NodeId} {call : NodeCall (NodeCallOutput β)} {e : EdgeDescriptor}
    (hp : (s.workers n).pc.Placed g n)
    (h : WorkerMove g o s n (s.workers n) call (s.workers n).pc s')
    (hf : (s.workers n).pc.failing = false) (hn : e.toNodeId ≠ n) :
    s'.queues e = s.queues e ∧ s'.signalQueues e = s.signalQueues e ∧
      s'.log.processed e = s.log.processed e ∧ s'.log.handled e = s.log.handled e := by
  have hin : ∀ {e'}, e' ∈ g.incoming n → e ≠ e' := by
    rintro e' hmem rfl
    exact hn (GraphDefinition.mem_incoming.mp hmem).2
  generalize (s.workers n).pc = pc at h hp hf
  cases h with
  | callback pc s₀ s' hc hr =>
    obtain ⟨-, hqs, hss, hpr, hha⟩ := returned_down hr
    have hqe := congrFun hqs e
    have hse := congrFun hss e
    have hpe := congrFun hpr e
    have hhe := congrFun hha e
    cases hc with
    | source => exact ⟨hqe, hse, hpe, hhe⟩
    | tick => exact ⟨hqe, hse, hpe, hhe⟩
    | signal e' x => exact ⟨hqe, hse, hpe, hhe.trans (by simp [hin hp])⟩
    | frame e' x => exact ⟨hqe, hse, hpe.trans (by simp [hin hp]), hhe⟩
  | popSignal obs off e' cursor x xs hpoll hq =>
    exact ⟨rfl, by simp [hin (polled_mem hpoll)], rfl, rfl⟩
  | popFrame obs off e' cursor x xs hpoll hq =>
    exact ⟨by simp [hin (polled_mem hpoll)], rfl, rfl, rfl⟩
  | close t ts => cases hf
  | _ => exact ⟨rfl, rfl, rfl, rfl⟩

/-- The target takes frames and signals off its queues and processes them in that order. -/
theorem workerMove_down {n : NodeId} {call : NodeCall (NodeCallOutput β)} {e : EdgeDescriptor}
    (hp : (s.workers n).pc.Placed g n)
    (h : WorkerMove g o s n (s.workers n) call (s.workers n).pc s')
    (hf : (s.workers n).pc.failing = false) (hf' : (s'.workers n).pc.failing = false) :
    s'.downFrames e = s.downFrames e ∧ s'.downSignals e = s.downSignals e := by
  have hframe := workerMove_frame h
  by_cases hn : e.toNodeId = n
  · generalize hpc : (s.workers n).pc = pc at h hp hf
    cases h with
    | quiet pc w' hq =>
      obtain ⟨-, -, hat, has⟩ := quiet_holding hq hf (by simpa using hf') e
      simp [State.downFrames, State.downSignals, hn, hpc, hat, has]
    | callback pc s₀ s' hc hr =>
      obtain ⟨hat, hqs, hss, hpr, hha⟩ := returned_down hr
      simp only [State.downFrames, State.downSignals, hn, hpc, (hat e).1, (hat e).2, hqs, hss, hpr,
        hha]
      cases hc with
      | source => simp [WorkerPc.atFrame, WorkerPc.atSignal]
      | tick => simp [WorkerPc.atFrame, WorkerPc.atSignal]
      | signal e' x =>
        by_cases hee : e = e'
        · subst hee
          simp [WorkerPc.atFrame, WorkerPc.atSignal]
        · simp [WorkerPc.atFrame, WorkerPc.atSignal, hee, Ne.symm hee]
      | frame e' x =>
        by_cases hee : e = e'
        · subst hee
          simp [WorkerPc.atFrame, WorkerPc.atSignal]
        · simp [WorkerPc.atFrame, WorkerPc.atSignal, hee, Ne.symm hee]
    | popSignal obs off e' cursor x xs hpoll hq =>
      by_cases hee : e = e'
      · subst hee
        have hpop : (s.signalQueues e).tryPop.2.queue = xs := by
          simp [SignalQueue.tryPop, hq]
        simp [State.downFrames, State.downSignals, hn, hpc, WorkerPc.atFrame, WorkerPc.atSignal,
          hpop, hq]
      · simp [State.downFrames, State.downSignals, hn, hpc, WorkerPc.atFrame, WorkerPc.atSignal,
          hee, Ne.symm hee]
    | popFrame obs off e' cursor x xs hpoll hq =>
      by_cases hee : e = e'
      · subst hee
        have hpop : (s.queues e).tryPop.2.frames = xs := by
          simp [EdgeQueue.tryPop, hq]
        simp [State.downFrames, State.downSignals, hn, hpc, WorkerPc.atFrame, WorkerPc.atSignal,
          hpop, hq]
      · simp [State.downFrames, State.downSignals, hn, hpc, WorkerPc.atFrame, WorkerPc.atSignal,
          hee, Ne.symm hee]
    | won r h => cases hf
    | close t ts => cases hf
    | _ =>
      refine down_of_away ?_ ?_ rfl rfl rfl rfl
      · simp [hn, hpc, WorkerPc.atFrame, WorkerPc.atSignal]
      · simp [hn, WorkerPc.atFrame, WorkerPc.atSignal]
  · obtain ⟨hq, hs, hpr, hh⟩ := workerMove_elsewhere hp h hf hn
    exact down_of_same (hframe.workers e.toNodeId hn) hq hs hpr hh

/-- A worker that has dropped its senders sends nothing. -/
theorem workerMove_left {n : NodeId} {call : NodeCall (NodeCallOutput β)} {pc : WorkerPc β}
    {w : Worker β} (h : WorkerMove g o s n w call pc s') (hl : pc.left = true) :
    s'.channels = s.channels := by
  cases h with
  | quiet pc w' hq =>
    rw [(quiet_left hq).1] at hl
    cases hl
  | callback pc s₀ s' hc hr => cases hc <;> cases hl
  | exit => rfl
  | _ => cases hl

/-- A lock section of a blocking `push` enqueues the frame or waits with it. -/
theorem pushed_link {e : EdgeDescriptor} {x : Stamped (Frame β)} {rest : List (Stamped (Frame β))}
    (h : Pushed s e x rest s') (hf' : (s'.dispatchers e).failing = false) :
    (s'.dispatchers e).holding = rest ∧ (s'.dispatchers e).holdingSignals = [] ∧
      ((s.queues e).overflow = .block →
        (s'.queues e).frames ++ (s'.dispatchers e).waiting = (s.queues e).frames ++ [x]) := by
  cases h with
  | enqueued hc hl hf hc' => simp [DispatcherPc.holding, DispatcherPc.holdingSignals,
      DispatcherPc.waiting, hf]
  | droppedOldest hc ho hf hc' => simp [DispatcherPc.holding, DispatcherPc.holdingSignals, ho]
  | droppedNewest hc ho hf hc' => simp [DispatcherPc.holding, DispatcherPc.holdingSignals, ho]
  | wait hc ho hl hf hc' => simp [DispatcherPc.holding, DispatcherPc.holdingSignals,
      DispatcherPc.waiting, hf]
  | closed hc hq => simp [DispatcherPc.failing] at hf'
  | overflow hc ho hf hc' => simp [DispatcherPc.failing] at hf'

theorem pushed_same {e : EdgeDescriptor} {x : Stamped (Frame β)} {rest : List (Stamped (Frame β))}
    (h : Pushed s e x rest s') :
    s'.workers = s.workers ∧ s'.signalQueues = s.signalQueues ∧ s'.channels = s.channels ∧
      s'.log = s.log := by
  cases h <;> dsimp only [State.setDispatcher, State.setQueue] <;> exact ⟨rfl, rfl, rfl, rfl⟩

variable [DecidableEq β]

/-- A dispatcher of a clean run hangs up only on an empty channel without sender. -/
structure HangInv (s : State β) (e : EdgeDescriptor) : Prop where
  acked : s.dispatchers e ≠ .ack true
  drained : s.dispatchers e = .hangUp → (s.channels e).slot = none ∧ (s.channels e).sender = false

omit [DecidableEq β] in
theorem HangInv.of_frame {e : EdgeDescriptor} (hi : HangInv s e)
    (hd : s'.dispatchers e = s.dispatchers e ∨ s'.dispatchers e = (s.dispatchers e).woken)
    (hc : (s.channels e).slot = none ∧ (s.channels e).sender = false →
      (s'.channels e).slot = none ∧ (s'.channels e).sender = false) : HangInv s' e := by
  have hpc : ∀ pc : DispatcherPc β, pc.woken = .ack true → pc = .ack true := by
    intro pc h
    cases pc <;> first | exact h | cases h
  have hpc' : ∀ pc : DispatcherPc β, pc.woken = .hangUp → pc = .hangUp := by
    intro pc h
    cases pc <;> first | exact h | cases h
  rcases hd with hd | hd
  · exact ⟨by rw [hd]; exact hi.acked, fun h => hc (hi.drained (by rw [← hd]; exact h))⟩
  · exact ⟨fun h => hi.acked (hpc _ (by rw [← hd]; exact h)),
      fun h => hc (hi.drained (hpc' _ (by rw [← hd]; exact h)))⟩

theorem hangInv_dispatcher {e : EdgeDescriptor} {answers : PolicyAnswers β} (hi : HangInv s e)
    (hf : (s.dispatchers e).failing = false)
    (h : DispatcherMove g o s e answers (s.dispatchers e) s') : HangInv s' e := by
  have hack := hi.acked
  generalize s.dispatchers e = pc at h hf hack
  cases h with
  | hungUp hs h => exact ⟨by simp, fun _ => ⟨hs, h⟩⟩
  | delivered x rest f q s' h hp => cases hp <;> exact ⟨by simp, by simp⟩
  | repush x rest s' hp => cases hp <;> exact ⟨by simp, by simp⟩
  | ack failed =>
    cases failed with
    | false => exact ⟨by simp, by simp⟩
    | true => exact absurd rfl hack
  | won r signal h => cases hf
  | lost r signal h => cases hf
  | close t ts signal => cases hf
  | closed signal => cases hf
  | _ => exact ⟨by simp, by simp⟩

theorem hangInv {C : State β → Label β → Prop} (hr : (system g o).ReachableBy C s)
    (hc : Clean g s) {e : EdgeDescriptor} (he : e ∈ g.enabledEdges) : HangInv s e := by
  refine clean_invariant (I := fun s => HangInv s e) ?_ (fun s a s' hr hc hi _ h _ => ?_) hr hc
  · exact ⟨by simp [State.initial], by simp [State.initial]⟩
  · rcases clean_step hr hc h with hu | ⟨n, call, -, -, hm⟩ | ⟨e', answers, -, -, hm⟩
    · exact hi.of_frame (.inl (by rw [hu.dispatchers])) (by rw [hu.channels]; exact id)
    · refine hi.of_frame ((workerMove_frame hm).dispatchers e) fun hch => ?_
      by_cases hout : e ∈ g.outgoing n
      · have hn : e.fromNodeId = n := (GraphDefinition.mem_outgoing.mp hout).2
        have hleft : (s.workers n).pc.left = true := by
          have hsend := (channelInv hr he).sender
          rw [hch.2, hn] at hsend
          simpa using hsend.symm
        rw [workerMove_left hm hleft]
        exact hch
      · rw [workerMove_channels hm ((placeInv hr).workers n) hout]
        exact hch
    · by_cases hee : e = e'
      · subst hee
        exact hangInv_dispatcher hi (hc.dispatchers e he) hm
      · refine hi.of_frame ((dispatcherMove_frame hm).dispatchers e hee) ?_
        rw [dispatcherMove_channels hm hee]
        exact id

/-- What an outcome of the pipeline delivers. -/
def EdgeOutcome.frames (callback : ℕ) : EdgeOutcome β → List (Stamped (Frame β))
  | .deliver f => [⟨callback, f⟩]
  | .settled | .fail _ => []

/-- The frame that the edge's pipeline makes of a handled frame, if it delivers one. -/
def deliveredBy (e : EdgeDescriptor) (p : Stamped (Frame β) × PolicyAnswers β) :
    List (Stamped (Frame β)) :=
  (applyEdge e p.2 p.1.value (EdgeQueue.new (α := Stamped (Frame β)) e.queuePolicy)).1.frames
    p.1.callback

theorem deliveredBy_eq {e : EdgeDescriptor} {x : Stamped (Frame β)} {answers : PolicyAnswers β}
    {q q' : EdgeQueue (Stamped (Frame β))} {out : EdgeOutcome β}
    (h : applyEdge e answers x.value q = (out, q')) :
    deliveredBy e (x, answers) = out.frames x.callback := by
  have hout := applyEdge_outcome e answers x.value (EdgeQueue.new e.queuePolicy) q
  rw [h] at hout
  unfold deliveredBy
  rw [hout]

namespace State
variable (s : State β) (e : EdgeDescriptor)

/-- What the source put on `e`, as far as it is accounted for before the pipeline. -/
def sentFrames : List (Stamped (Frame β)) := (s.log.applied e).map Prod.fst ++ s.upFrames e

def sentSignals : List (Stamped (SignalFrame β)) := s.downSignals e ++ s.upSignals e

/-- What the pipeline of `e` delivered, as far as it is accounted for behind it. -/
def deliveredFrames : List (Stamped (Frame β)) := s.downFrames e ++ (s.dispatchers e).waiting

end State

/-- The way along `e` after a step: nothing is lost, added or moved. -/
structure LinkStep (e : EdgeDescriptor) (s s' : State β) : Prop where
  frames : s'.sentFrames e = s.sentFrames e
  signals : s'.sentSignals e = s.sentSignals e
  delivered : (s.queues e).overflow = .block →
    ∃ new, s'.log.applied e = s.log.applied e ++ new ∧
      s'.deliveredFrames e = s.deliveredFrames e ++ new.flatMap (deliveredBy e)

/-- The dispatcher's part of the way. -/
theorem LinkStep.of_parts {e : EdgeDescriptor} (hw : s'.workers = s.workers)
    (ho : s'.log.outputs = s.log.outputs) (hp : s'.log.processed = s.log.processed)
    (hh : s'.log.handled = s.log.handled)
    (hf : (s'.log.applied e).map Prod.fst ++ ((s'.dispatchers e).holding ++
        slotFrames (s'.channels e).slot) =
      (s.log.applied e).map Prod.fst ++ ((s.dispatchers e).holding ++
        slotFrames (s.channels e).slot))
    (hs : (s'.signalQueues e).queue ++ ((s'.dispatchers e).holdingSignals ++
        slotSignals (s'.channels e).slot) =
      (s.signalQueues e).queue ++ ((s.dispatchers e).holdingSignals ++
        slotSignals (s.channels e).slot))
    (hd : (s.queues e).overflow = .block → ∃ new, s'.log.applied e = s.log.applied e ++ new ∧
      (s'.queues e).frames ++ (s'.dispatchers e).waiting =
        (s.queues e).frames ++ (s.dispatchers e).waiting ++ new.flatMap (deliveredBy e)) :
    LinkStep e s s' := by
  refine ⟨?_, ?_, fun hb => ?_⟩
  · simp only [State.sentFrames, State.upFrames, hw, ho, ← List.append_assoc] at hf ⊢
    rw [hf]
  · have hmid := congrArg (· ++ ((s.workers e.fromNodeId).pc.holdingSignals e ++
      (s.workers e.fromNodeId).pc.lost (·.signals) (s.log.outputs e.fromNodeId))) hs
    simp only [List.append_assoc] at hmid
    simp only [State.sentSignals, State.upSignals, State.downSignals, hw, ho, hh,
      List.append_assoc, hmid]
  · obtain ⟨new, happ, hdel⟩ := hd hb
    refine ⟨new, happ, ?_⟩
    simp only [State.deliveredFrames, State.downFrames, hw, hp, List.append_assoc] at hdel ⊢
    rw [hdel]

omit [DecidableEq β] in
/-- A dispatcher on its way out closes its queues without discarding anything. -/
theorem shutdown_task {e : EdgeDescriptor} {t : CloseTask} {ts : List CloseTask}
    (hp : (DispatcherPc.shutdown (t :: ts) : DispatcherPc β).Placed e) :
    ((s.runTask t).queues e).frames = (s.queues e).frames ∧
      ((s.runTask t).signalQueues e).queue = (s.signalQueues e).queue := by
  have hmem := hp.subset List.mem_cons_self
  simp only [shutdownTasks, List.mem_cons, List.not_mem_nil, or_false] at hmem
  rcases hmem with rfl | rfl | rfl | rfl <;> simp [State.runTask]

theorem dispatcherMove_link {e : EdgeDescriptor} {answers : PolicyAnswers β}
    (hp : (s.dispatchers e).Placed e) (hh : HangInv s e)
    (hf : (s.dispatchers e).failing = false) (hf' : (s'.dispatchers e).failing = false)
    (h : DispatcherMove g o s e answers (s.dispatchers e) s') : LinkStep e s s' := by
  have hack := hh.acked
  have hdrained := hh.drained
  generalize hpc : s.dispatchers e = pc at h hp hf hack hdrained
  -- the moves that leave queues, slot and log alone
  have hsame : ∀ {s' : State β} {pc' : DispatcherPc β}, s'.workers = s.workers → s'.log = s.log →
      s'.channels = s.channels → s'.queues e = s.queues e → s'.signalQueues e = s.signalQueues e →
      s'.dispatchers e = pc' → pc'.holding = pc.holding → pc'.holdingSignals = pc.holdingSignals →
      pc'.waiting = pc.waiting → LinkStep e s s' := by
    intro s' pc' hw hl hch hq hsq hd hhold hsig hwait
    refine .of_parts hw (by rw [hl]) (by rw [hl]) (by rw [hl]) ?_ ?_ fun _ => ⟨[], by simp [hl], ?_⟩
    · rw [hl, hd, hch, hpc, hhold]
    · rw [hsq, hd, hch, hpc, hsig]
    · simp [hq, hd, hpc, hwait]
  cases h with
  | recvFrames batch h =>
    refine .of_parts rfl rfl rfl rfl ?_ ?_ fun _ => ⟨[], by simp, ?_⟩
    · simp [hpc, h, DispatcherPc.holding, slotFrames]
    · simp [hpc, h, DispatcherPc.holdingSignals, slotSignals]
    · simp [hpc, DispatcherPc.waiting]
  | recvSignals signals h =>
    refine .of_parts rfl rfl rfl rfl ?_ ?_ fun _ => ⟨[], by simp, ?_⟩
    · simp [hpc, h, DispatcherPc.holding, slotFrames]
    · simp [hpc, h, DispatcherPc.holdingSignals, slotSignals]
    · simp [hpc, DispatcherPc.waiting]
  | rejected x rest r q h => simp [DispatcherPc.failing] at hf'
  | settled x rest q h =>
    have hq : SameFrames (s.queues e) q := .of_applyEdge h
    refine .of_parts rfl rfl rfl rfl ?_ ?_ fun _ => ⟨[(x, answers)], by simp [State.applying], ?_⟩
    · simp [State.applying, hpc, DispatcherPc.holding]
    · simp [State.applying, hpc, DispatcherPc.holdingSignals]
    · simp [State.applying, hpc, DispatcherPc.waiting, hq.frames, deliveredBy_eq h,
        EdgeOutcome.frames]
  | delivered x rest f q s' h hpush =>
    have hq : SameFrames (s.queues e) q := .of_applyEdge h
    obtain ⟨hhold, hsig, hpushed⟩ := pushed_link hpush hf'
    obtain ⟨hw, hsq, hch, hlog⟩ := pushed_same hpush
    refine .of_parts hw (by rw [hlog]; rfl) (by rw [hlog]; rfl) (by rw [hlog]; rfl) ?_ ?_
      fun hb => ⟨[(x, answers)], by simp [hlog, State.applying], ?_⟩
    · rw [hhold]
      simp [hlog, hch, State.applying, hpc, DispatcherPc.holding]
    · rw [hsig]
      simp [hsq, hch, State.applying, hpc, DispatcherPc.holdingSignals]
    · rw [hpushed (by simpa [State.applying, hq.overflow] using hb)]
      simp [State.applying, hpc, DispatcherPc.waiting, hq.frames, deliveredBy_eq h,
        EdgeOutcome.frames]
  | repush x rest s' hpush =>
    obtain ⟨hhold, hsig, hpushed⟩ := pushed_link hpush hf'
    obtain ⟨hw, hsq, hch, hlog⟩ := pushed_same hpush
    refine .of_parts hw (by rw [hlog]) (by rw [hlog]) (by rw [hlog]) ?_ ?_
      fun hb => ⟨[], by simp [hlog], ?_⟩
    · rw [hhold]
      simp [hlog, hch, hpc, DispatcherPc.holding]
    · rw [hsig]
      simp [hsq, hch, hpc, DispatcherPc.holdingSignals]
    · rw [hpushed hb]
      simp [hpc, DispatcherPc.waiting]
  | signalRejected x rest r q h => simp [DispatcherPc.failing] at hf'
  | signalRefused x rest err q h hq hc => simp [DispatcherPc.failing] at hf'
  | signalPushed x rest q h hc hsq hc' =>
    have hq : SameFrames (s.queues e) q := .of_observeSignal h
    refine .of_parts rfl rfl rfl rfl ?_ ?_ fun _ => ⟨[], by simp, ?_⟩
    · simp [hpc, DispatcherPc.holding]
    · simp [hpc, DispatcherPc.holdingSignals, hsq]
    · simp [hpc, DispatcherPc.waiting, hq.frames]
  | ack failed =>
    cases failed with
    | false =>
      have hrecv : Function.update s.dispatchers e (.recv : DispatcherPc β) e = .recv := by simp
      exact hsame rfl rfl rfl rfl rfl hrecv rfl rfl rfl
    | true => exact absurd rfl hack
  | won r signal h => cases hf
  | lost r signal h => cases hf
  | close t ts signal => cases hf
  | closed signal => cases hf
  | hangUp =>
    obtain ⟨hslot, -⟩ := hdrained rfl
    refine .of_parts rfl rfl rfl rfl ?_ ?_ fun _ => ⟨[], by simp, ?_⟩
    · simp [hpc, hslot, DispatcherPc.holding]
    · simp [hpc, hslot, DispatcherPc.holdingSignals]
    · simp [hpc, DispatcherPc.waiting]
  | shutdown t ts =>
    have ht := runTask_sameThreads s t
    have htask := shutdown_task (s := s) hp
    refine .of_parts ht.workers (by simp [ht.log]) (by simp [ht.log]) (by simp [ht.log]) ?_ ?_
      fun _ => ⟨[], by simp [ht.log], ?_⟩
    · simp [ht.log, ht.channels, hpc, DispatcherPc.holding]
    · simp [ht.channels, hpc, DispatcherPc.holdingSignals, htask.2]
    · simp [hpc, DispatcherPc.waiting, htask.1]
  | _ =>
    refine hsame rfl rfl rfl rfl rfl rfl ?_ ?_ ?_
    · simp [DispatcherPc.holding]
    · simp [DispatcherPc.holdingSignals]
    · simp [DispatcherPc.waiting]

/-- A dispatcher of another edge does not touch `e`. -/
theorem dispatcherMove_other {e e' : EdgeDescriptor} {answers : PolicyAnswers β}
    (hp : (s.dispatchers e').Placed e') (hf : (s.dispatchers e').failing = false)
    (h : DispatcherMove g o s e' answers (s.dispatchers e') s') (he : e ≠ e') :
    s'.queues e = s.queues e ∧ s'.signalQueues e = s.signalQueues e ∧
      s'.log.applied e = s.log.applied e := by
  generalize s.dispatchers e' = pc at h hp hf
  cases h with
  | settled x rest q h => simp [State.applying, he]
  | rejected x rest r q h => simp [State.applying, he]
  | delivered x rest f q s' h hpush => cases hpush <;> simp [State.applying, he]
  | repush x rest s' hpush => cases hpush <;> simp [he]
  | signalRejected x rest r q h => simp [he]
  | signalRefused x rest err q h hq hc => simp [he]
  | signalPushed x rest q h hc hq hc' => simp [he]
  | close t ts signal => cases hf
  | shutdown t ts =>
    have hmem := hp.subset List.mem_cons_self
    simp only [shutdownTasks, List.mem_cons, List.not_mem_nil, or_false] at hmem
    rcases hmem with rfl | rfl | rfl | rfl <;> simp [State.runTask, he]
  | _ => exact ⟨rfl, rfl, rfl⟩

/-- Nothing was lost, duplicated or reordered on `e` so far. -/
structure LinkInv (s : State β) (e : EdgeDescriptor) : Prop where
  frames : s.sentFrames e = stampAll (emittedOn e ·.emissions) (s.log.outputs e.fromNodeId)
  signals : s.sentSignals e = stampAll (·.signals) (s.log.outputs e.fromNodeId)
  delivered : e.queuePolicy.overflow = .block →
    s.deliveredFrames e = (s.log.applied e).flatMap (deliveredBy e)

theorem LinkInv.of_linkStep {e : EdgeDescriptor} (hi : LinkInv s e) (h : LinkStep e s s')
    (hb : (s.queues e).overflow = e.queuePolicy.overflow)
    (ho : s'.log.outputs = s.log.outputs) : LinkInv s' e := by
  refine ⟨?_, ?_, fun hblock => ?_⟩
  · rw [h.frames, ho]
    exact hi.frames
  · rw [h.signals, ho]
    exact hi.signals
  · obtain ⟨new, happ, hdel⟩ := h.delivered (hb.trans hblock)
    rw [hdel, happ, List.flatMap_append, hi.delivered hblock]

theorem linkStep_of_same {e : EdgeDescriptor} (hw : s'.workers = s.workers)
    (hd : s'.dispatchers e = s.dispatchers e ∨ s'.dispatchers e = (s.dispatchers e).woken)
    (hq : s'.queues e = s.queues e) (hsq : s'.signalQueues e = s.signalQueues e)
    (hch : s'.channels e = s.channels e) (ho : s'.log.outputs = s.log.outputs)
    (ha : s'.log.applied e = s.log.applied e) (hp : s'.log.processed = s.log.processed)
    (hh : s'.log.handled = s.log.handled) : LinkStep e s s' := by
  obtain ⟨hhold, hsig, hwait⟩ := dispatcher_parts hd
  refine .of_parts hw ho hp hh ?_ ?_ fun _ => ⟨[], by simp [ha], ?_⟩
  · rw [ha, hhold, hch]
  · rw [hsq, hsig, hch]
  · simp [hq, hwait]

theorem linkInv_worker {n : NodeId} {call : NodeCall (NodeCallOutput β)} {e : EdgeDescriptor}
    (he : e ∈ g.enabledEdges) (hp : (s.workers n).pc.Placed g n) (hi : LinkInv s e)
    (h : WorkerMove g o s n (s.workers n) call (s.workers n).pc s')
    (hf : (s.workers n).pc.failing = false) (hf' : (s'.workers n).pc.failing = false) :
    LinkInv s' e := by
  have hframe := workerMove_frame h
  obtain ⟨hdf, hds⟩ := workerMove_down (e := e) hp h hf hf'
  have hwait := (dispatcher_parts (hframe.dispatchers e)).2.2
  have hdelivered : e.queuePolicy.overflow = .block →
      s'.deliveredFrames e = (s'.log.applied e).flatMap (deliveredBy e) := by
    intro hb
    rw [State.deliveredFrames, hdf, hwait, hframe.applied]
    exact hi.delivered hb
  have hframes := hi.frames
  have hsignals := hi.signals
  rw [State.sentFrames] at hframes
  rw [State.sentSignals] at hsignals
  rcases workerMove_up he hp h hf hf' with ⟨ho, huf, hus⟩ | ⟨out, ho, huf, hus⟩
  · refine ⟨?_, ?_, hdelivered⟩
    · rw [State.sentFrames, hframe.applied, huf, ho]
      exact hframes
    · rw [State.sentSignals, hds, hus, ho]
      exact hsignals
  · refine ⟨?_, ?_, hdelivered⟩
    · rw [State.sentFrames, hframe.applied, huf, ho, stampAll_concat, ← hframes,
        List.append_assoc]
    · rw [State.sentSignals, hds, hus, ho, stampAll_concat, ← hsignals, List.append_assoc]

theorem linkInv {C : State β → Label β → Prop} (hr : (system g o).ReachableBy C s)
    (hc : Clean g s) {e : EdgeDescriptor} (he : e ∈ g.enabledEdges) : LinkInv s e := by
  refine clean_invariant (I := fun s => LinkInv s e) ?_ (fun s a s' hr hc hi _ h hc' => ?_) hr hc
  · have hen : e.enabled = true := by
      simpa [GraphDefinition.enabledEdges] using (List.mem_filter.mp he).2
    refine ⟨rfl, ?_, fun _ => ?_⟩
    · simp [State.sentSignals, State.downSignals, State.upSignals, State.initial, hen,
        SignalQueue.new, WorkerPc.atSignal, WorkerPc.holdingSignals, WorkerPc.lost,
        DispatcherPc.holdingSignals, slotSignals]
    · simp [State.deliveredFrames, State.downFrames, State.initial, hen, EdgeQueue.new,
        WorkerPc.atFrame, DispatcherPc.waiting]
  · have hbounds := (boundsInv hr e).2
    rcases clean_step hr hc h with hu | ⟨n, call, -, hn, hm⟩ | ⟨e', answers, -, he', hm⟩
    · refine hi.of_linkStep ?_ hbounds hu.outputs
      exact linkStep_of_same hu.workers (.inl (by rw [hu.dispatchers])) (by rw [hu.queues])
        (by rw [hu.signalQueues]) (by rw [hu.channels]) hu.outputs (by rw [hu.applied])
        hu.processed hu.handled
    · exact linkInv_worker he ((placeInv hr).workers n) hi hm (hc.workers n hn) (hc'.workers n hn)
    · have hf := dispatcherMove_frame hm
      refine hi.of_linkStep ?_ hbounds hf.outputs
      by_cases hee : e = e'
      · subst hee
        exact dispatcherMove_link ((placeInv hr).dispatchers e) (hangInv hr hc he)
          (hc.dispatchers e he) (hc'.dispatchers e he) hm
      · obtain ⟨hq, hsq, ha⟩ := dispatcherMove_other ((placeInv hr).dispatchers e')
          (hc.dispatchers e' he') hm hee
        exact linkStep_of_same hf.workers (hf.dispatchers e hee) hq hsq
          (dispatcherMove_channels hm hee) hf.outputs ha hf.processed hf.handled

/-- A run that published success is clean and over. -/
theorem clean_of_published {C : State β → Label β → Prop} (hr : (system g o).ReachableBy C s)
    {summary : ConcurrentRunSummary} (h : s.control.result = some (.ok summary)) :
    Clean g s ∧ s.allFinished g = true := by
  have hctl := controlInv hr
  have hdone : s.coordinator.pc.phase = .done := by
    by_contra hne
    rw [(hctl.unpublished hne).1] at h
    cases h
  have hreason : s.control.reason = none := by
    have hres := (hctl.done hdone).2.1
    rw [h, Option.some.injEq, hctl.wins] at hres
    cases hr' : s.control.reason with
    | none => rfl
    | some r =>
      rw [hr'] at hres
      cases hres
  have hall : s.allFinished g = true := by
    refine ((exitInv hr).collected fun hpc => ?_).2
    rw [hpc] at hdone
    cases hdone
  refine ⟨⟨hreason, fun n hn => ?_, fun e he => ?_⟩, hall⟩
  · have hfin := allFinished_worker hall hn
    cases hpc : (s.workers n).pc <;> rw [hpc] at hfin <;> first | rfl | cases hfin
  · have hfin := allFinished_dispatcher hall he
    cases hpc : s.dispatchers e <;> rw [hpc] at hfin <;> first | rfl | cases hfin

end Muxiva.Runtime
