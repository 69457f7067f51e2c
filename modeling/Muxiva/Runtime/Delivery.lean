import Muxiva.Runtime.Link

/-! What a successful run did with the frames of an edge: the target processed, in order, what the
edge's pipeline made of the frames its source emitted, and nothing is left on the way. -/
namespace Muxiva.Runtime

variable {β : Type} {g : GraphDefinition} {o : RuntimeOptions} {s : State β}

/-- A worker that is gone has nothing left to hand over. -/
theorem exited_up {e : EdgeDescriptor} (hw : (s.workers e.fromNodeId).pc = .exited)
    (hd : s.dispatchers e = .exited) (hs : (s.channels e).slot = none) : s.upFrames e = [] := by
  simp [State.upFrames, hw, hd, hs, DispatcherPc.holding, slotFrames, WorkerPc.holding,
    WorkerPc.lost]

variable [DecidableEq β]

/-- In a run whose tick delays fit every worker that is gone has exited. -/
theorem exited_of_allFinished (hr : (system g o).ReachableBy (TicksFit g o) s)
    (hall : s.allFinished g = true) {n : NodeId} (hn : n ∈ g.topologicalOrder) :
    (s.workers n).pc = .exited := by
  have hfin := allFinished_worker hall hn
  cases hpc : (s.workers n).pc with
  | exited => rfl
  | dead => exact absurd hpc (worker_alive hr n)
  | _ => rw [hpc] at hfin; cases hfin

/-- The edges of a run that is clean and over. -/
theorem settled_delivery (hr : (system g o).ReachableBy (TicksFit g o) s) (hclean : Clean g s)
    (hall : s.allFinished g = true) {e : EdgeDescriptor} (he : e ∈ g.enabledEdges)
    (hb : e.queuePolicy.overflow = .block) :
    (s.log.applied e).map Prod.fst =
      stampAll (emittedOn e ·.emissions) (s.log.outputs e.fromNodeId) ∧
    s.log.processed e = (s.log.applied e).flatMap (deliveredBy e) ∧
    (s.channels e).slot = none ∧ (s.queues e).frames = [] ∧ s.upFrames e = [] := by
  obtain ⟨hfrom, hto⟩ := g.endpoints e (GraphDefinition.mem_edges_of_enabled he)
  have hdisp : s.dispatchers e = .exited := by
    have hfin := allFinished_dispatcher hall he
    cases hpc : s.dispatchers e with
    | exited => rfl
    | _ => rw [hpc] at hfin; cases hfin
  have hslot : (s.channels e).slot = none := (channelInv hr he).slot (by rw [hdisp]; rfl)
  have hempty : (s.queues e).frames = [] := by
    have hdrain := drainInv hr e.toNodeId
    rw [exited_of_allFinished hr hall hto] at hdrain
    have hin : e ∈ g.incoming e.toNodeId := GraphDefinition.mem_incoming.mpr ⟨he, rfl⟩
    have hq := (hdrain.resolve_left (by simp [hclean.reason]) e hin).1
    simp only [EdgeQueue.isClosedAndEmpty, Bool.and_eq_true, List.isEmpty_iff] at hq
    exact hq.2
  have hup : s.upFrames e = [] := exited_up (exited_of_allFinished hr hall hfrom) hdisp hslot
  have hlink := linkInv hr hclean he
  refine ⟨?_, ?_, hslot, hempty, hup⟩
  · rw [← hlink.frames, State.sentFrames, hup, List.append_nil]
  · rw [← hlink.delivered hb, State.deliveredFrames, State.downFrames, hempty, hdisp,
      exited_of_allFinished hr hall hto]
    simp [WorkerPc.atFrame, DispatcherPc.waiting]

/-- No loss, duplication or reordering on a blocking edge of a successful run whose tick delays
fit. -/
theorem edge_delivery (g : GraphDefinition) (o : RuntimeOptions) (s : State β)
    (hr : (system g o).ReachableBy (TicksFit g o) s) (summary : ConcurrentRunSummary)
    (hok : s.control.result = some (.ok summary)) (e : EdgeDescriptor) (he : e ∈ g.enabledEdges)
    (hb : e.queuePolicy.overflow = .block) :
    (s.log.applied e).map Prod.fst =
      stampAll (emittedOn e ·.emissions) (s.log.outputs e.fromNodeId) ∧
    s.log.processed e = (s.log.applied e).flatMap (deliveredBy e) ∧
    (s.channels e).slot = none ∧ (s.queues e).frames = [] ∧ s.upFrames e = [] := by
  obtain ⟨hclean, hall⟩ := clean_of_published hr hok
  exact settled_delivery hr hclean hall he hb

/-- The source emits two frames, and the sink is prepared and waits for them. -/
def Label.twoFrames : List (Label Unit) :=
  works 0 2 ++ works 1 2 ++ works 0 4 ++
    [call 0 ⟨[(0, sampleFrame 1), (0, sampleFrame 2)], [], none⟩] ++ works 0 5 ++ forwards 3 ++
    works 1 9

/-- Both frames arrive, although the queue holds one. -/
theorem edge_delivery_two :
    ∃ s, sampleSystem.ReachableBy (TicksFit sampleGraph sampleOptions) s ∧
      s.control.result = some (.ok ⟨2⟩) ∧
      s.log.processed sampleEdge = [⟨0, sampleFrame 1⟩, ⟨0, sampleFrame 2⟩] ∧
      s.log.processed sampleEdge = (s.log.applied sampleEdge).flatMap (deliveredBy sampleEdge) := by
  obtain ⟨s, hr, ht⟩ := sampleSystem.exists_reachableBy_of_runBy
    (C := TicksFit sampleGraph sampleOptions) rfl
    (Label.twoFrames ++ Label.works 1 1 ++ Label.forwards 11 ++ Label.works 1 22 ++
      Label.coordinates 11)
    (fun s => s.control.result = some (.ok ⟨2⟩) ∧
      s.log.processed sampleEdge = [⟨0, sampleFrame 1⟩, ⟨0, sampleFrame 2⟩]) (by decide +kernel)
  simp only [decide_eq_true_eq] at ht
  obtain ⟨-, hproc, -⟩ := edge_delivery sampleGraph sampleOptions s hr ⟨2⟩ ht.1 sampleEdge
    (by decide) rfl
  exact ⟨s, hr, ht.1, ht.2, hproc⟩

/-- The sink asks for a tick that no `Instant` can hold and dies; the run succeeds with the second
frame in the queue. -/
theorem edge_delivery_dead :
    ∃ s, sampleSystem.Reachable s ∧ s.control.result = some (.ok ⟨2⟩) ∧
      (s.queues sampleEdge).frames = [⟨0, sampleFrame 2⟩] ∧
      s.log.processed sampleEdge ≠
        (s.log.applied sampleEdge).flatMap (deliveredBy sampleEdge) := by
  obtain ⟨s, hr, ht⟩ := sampleSystem.exists_reachable_of_run rfl
    (Label.twoFrames ++ [Label.call 1 ⟨[], [], some 1001⟩] ++ Label.forwards 11 ++
      Label.coordinates 10)
    (fun s => s.control.result = some (.ok ⟨2⟩) ∧
      (s.queues sampleEdge).frames = [⟨0, sampleFrame 2⟩] ∧ s.log.processed sampleEdge ≠
        (s.log.applied sampleEdge).flatMap (deliveredBy sampleEdge)) (by decide +kernel)
  simp only [decide_eq_true_eq] at ht
  exact ⟨s, hr, ht⟩

end Muxiva.Runtime
