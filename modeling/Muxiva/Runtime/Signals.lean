import Muxiva.Runtime.Link
import Mathlib.Data.Finset.Card

/-! The signal barrier. A worker sends the frames of a callback only after every dispatcher of its
outgoing edges has acknowledged the callback's signals, so a frame in a data queue has the signals
of its callback in the signal queue or behind it. -/
set_option linter.all false
namespace Muxiva.Runtime

variable {β : Type} {g : GraphDefinition} {o : RuntimeOptions} {s s' : State β}

/-- Outgoing edges whose acknowledgement is still to come. -/
def State.unacked (g : GraphDefinition) (s : State β) (n : NodeId) : Finset EdgeDescriptor :=
  (g.outgoing n).toFinset.filter fun e => s.ackPending e = true

theorem mem_unacked {n : NodeId} {e : EdgeDescriptor} :
    e ∈ s.unacked g n ↔ e ∈ g.outgoing n ∧ s.ackPending e = true := by
  simp [State.unacked]

/-- The acknowledgements of a round add up. -/
def WorkerPc.Acks (g : GraphDefinition) (s : State β) (n : NodeId) : WorkerPc β → Prop
  | .sendSignals _ rest _ => s.acks n + (s.unacked g n).card + rest.length = (g.outgoing n).length ∧
      ∀ e ∈ rest, s.ackPending e = false
  | .awaitAcks left _ => s.acks n + (s.unacked g n).card = left
  | _ => s.unacked g n = ∅

/-- The rounds of signals of every node are accounted for. -/
def AckInv (g : GraphDefinition) (s : State β) (n : NodeId) : Prop :=
  (s.workers n).pc.Acks g s n

theorem WorkerPc.Acks.congr {n : NodeId} {pc : WorkerPc β} (h : pc.Acks g s n)
    (ha : s'.acks n = s.acks n) (hp : ∀ e ∈ g.outgoing n, s'.ackPending e = s.ackPending e)
    (hpl : pc.Placed g n) : pc.Acks g s' n := by
  have hu : s'.unacked g n = s.unacked g n := by
    ext e
    rw [mem_unacked, mem_unacked]
    exact and_congr_right fun he => by rw [hp e he]
  cases pc with
  | sendSignals sg rest bs =>
    refine ⟨by rw [ha, hu]; exact h.1, fun e he => ?_⟩
    rw [hp e (hpl.1.subset he)]
    exact h.2 e he
  | awaitAcks left bs =>
    unfold WorkerPc.Acks
    rw [ha, hu]
    exact h
  | _ =>
    unfold WorkerPc.Acks
    rw [hu]
    exact h

theorem woken_holdsAck (pc : DispatcherPc β) : pc.woken.holdsAck = pc.holdsAck := by
  cases pc <;> rfl

theorem ackPending_congr {e : EdgeDescriptor} (hc : (s'.channels e).slot = (s.channels e).slot)
    (hd : s'.dispatchers e = s.dispatchers e ∨ s'.dispatchers e = (s.dispatchers e).woken) :
    s'.ackPending e = s.ackPending e := by
  unfold State.ackPending
  rw [hc]
  rcases hd with hd | hd
  · rw [hd]
  · rw [hd, woken_holdsAck]

theorem AckInv.of_setWorker {n : NodeId} {w : Worker β} (hp : w.pc.Placed g n)
    (h : w.pc.Acks g s n) : AckInv g (s.setWorker n w) n := by
  have hcongr : w.pc.Acks g (s.setWorker n w) n := h.congr rfl (fun _ _ => rfl) hp
  unfold AckInv
  rw [show (s.setWorker n w).workers n = w from Function.update_self ..]
  exact hcongr

/-- A quiet move of a worker that does not fail keeps the round. -/
theorem quiet_acks {n : NodeId} {pc : WorkerPc β} {w w' : Worker β} (h : Quiet g s n w pc w')
    (hf : pc.failing = false) (hf' : w'.pc.failing = false) (ha : pc.Acks g s n) :
    w'.pc.Acks g s n := by
  cases h with
  | signalsSent sg bs =>
    have hcount := ha.1
    simpa [WorkerPc.Acks] using hcount
  | acked bs =>
    unfold WorkerPc.Acks at ha ⊢
    have hcard : (s.unacked g n).card = 0 := by omega
    exact Finset.card_eq_zero.mp hcard
  | sent =>
    unfold State.routed
    split_ifs
    · cases w.delay <;> exact ha
    · exact ha
  | signalsRefused _ _ _ _ _ | ackLost _ _ _ _ | reasonSeen _ _ _ | tryRefused _ _ _ _ _
  | pendingRefused _ _ _ _ => cases hf'
  | dispatchClosed | lost _ _ | closed => cases hf
  | _ => exact ha

/-- A node all of whose rounds were acknowledged owes its outgoing edges nothing. -/
theorem ackPending_of_unacked {n : NodeId} {e : EdgeDescriptor} (h : s.unacked g n = ∅)
    (he : e ∈ g.outgoing n) : s.ackPending e = false := by
  by_contra hne
  have hmem := mem_unacked.mpr ⟨he, by simpa using hne⟩
  rw [h] at hmem
  cases hmem

theorem returned_acks {n : NodeId} {w : Worker β} {call : NodeCall (NodeCallOutput β)}
    (h : Returned g o s n w call s') (hf' : (s'.workers n).pc.failing = false)
    (ha : s.unacked g n = ∅) : AckInv g s' n := by
  have hpend : ∀ e ∈ g.outgoing n, s.ackPending e = false :=
    fun e he => ackPending_of_unacked ha he
  have hempty : (∀ e ∈ g.outgoing n, s'.ackPending e = s.ackPending e) → s'.unacked g n = ∅ := by
    intro hsame
    rw [Finset.eq_empty_iff_forall_notMem]
    intro e he
    obtain ⟨hout, hpe⟩ := mem_unacked.mp he
    rw [hsame e hout, hpend e hout] at hpe
    cases hpe
  unfold AckInv
  cases h with
  | failed r h => simp [WorkerPc.failing] at hf'
  | rejected out tick delay r h ht hrej => simp [WorkerPc.failing] at hf'
  | died out d h hs ht ho =>
    have hu := hempty fun e he => ackPending_congr (by simp [State.dropSenders, State.logged, he])
      (.inl rfl)
    simpa [WorkerPc.Acks] using hu
  | frames out tick delay h ht hrej hs =>
    have hu := hempty fun e _ => ackPending_congr rfl (.inl rfl)
    simpa [WorkerPc.Acks] using hu
  | signals out tick delay h ht hrej hs =>
    have hu := hempty fun e _ => ackPending_congr rfl (.inl rfl)
    simp only [State.setWorker, Function.update_self, WorkerPc.Acks]
    refine ⟨?_, fun e he => hpend e he⟩
    have hcard := congrArg Finset.card hu
    simp only [State.setWorker, Finset.card_empty] at hcard
    omega

theorem ackPending_setSlot_ne {e e' : EdgeDescriptor} (h : e' ≠ e) (d : Option (Dispatch β)) :
    (s.setSlot e d).ackPending e' = s.ackPending e' :=
  ackPending_congr (by simp [h]) (.inl rfl)

/-- Frames in a channel are no round of signals. -/
theorem ackPending_setFrames {e : EdgeDescriptor} (hs : (s.channels e).slot = none)
    (b : List (Stamped (Frame β))) (e' : EdgeDescriptor) :
    (s.setSlot e (some (.frames b))).ackPending e' = s.ackPending e' := by
  by_cases he : e' = e
  · subst he
    simp [State.ackPending, hs, Dispatch.isSignals]
  · exact ackPending_setSlot_ne he _

/-- One more dispatcher owes an acknowledgement. -/
theorem unacked_setSignals {n : NodeId} {e : EdgeDescriptor} (he : e ∈ g.outgoing n)
    (sg : List (Stamped (SignalFrame β))) :
    (s.setSlot e (some (.signals sg))).unacked g n = insert e (s.unacked g n) := by
  ext e'
  rw [Finset.mem_insert, mem_unacked, mem_unacked]
  by_cases hee : e' = e
  · subst hee
    simp [he, State.ackPending, Dispatch.isSignals]
  · rw [ackPending_setSlot_ne hee]
    simp [hee]

/-- The round of a worker's own node. -/
theorem ackInv_worker {n : NodeId} {call : NodeCall (NodeCallOutput β)}
    (hp : (s.workers n).pc.Placed g n) (hi : AckInv g s n)
    (h : WorkerMove g o s n (s.workers n) call (s.workers n).pc s')
    (hf : (s.workers n).pc.failing = false) (hf' : (s'.workers n).pc.failing = false) :
    AckInv g s' n := by
  have hframe := workerMove_frame h
  have hp' := workerMove_placed h hp
  have hkeep : s'.acks n = s.acks n →
      (∀ e ∈ g.outgoing n, (s'.channels e).slot = (s.channels e).slot) →
      (s'.workers n).pc.Acks g s n → AckInv g s' n := by
    intro ha hslot hacks
    exact hacks.congr ha (fun e he => ackPending_congr (hslot e he) (hframe.dispatchers e)) hp'
  unfold AckInv at hi
  generalize hpc : (s.workers n).pc = pc at h hp hi hf
  cases h with
  | quiet pc w' hq =>
    have hq' := quiet_acks hq hf (by simpa using hf') hi
    exact hkeep rfl (fun _ _ => rfl) (by simpa using hq')
  | callback pc s₀ s' hc hr =>
    have hacks : s₀.unacked g n = ∅ := by cases hc <;> exact hi
    exact returned_acks hr hf' hacks
  | putSignals sg e rest bs hr hs =>
    obtain ⟨hcount, hrest⟩ := hi
    have he : e ∈ g.outgoing n := hp.1.subset List.mem_cons_self
    have hnew : e ∉ s.unacked g n := by
      intro hmem
      have hpend := (mem_unacked.mp hmem).2
      rw [hrest e List.mem_cons_self] at hpend
      cases hpend
    have hcard : ((s.setSlot e (some (.signals sg))).unacked g n).card =
        (s.unacked g n).card + 1 := by
      rw [unacked_setSignals he, Finset.card_insert_of_notMem hnew]
    have hnd := List.nodup_cons.mp (hp.1.sublist.nodup (g.outgoing_nodup n))
    have hacks : (WorkerPc.sendSignals sg rest bs).Acks g (s.setSlot e (some (.signals sg))) n := by
      refine ⟨?_, fun e' he' => ?_⟩
      · rw [hcard]
        simp only [List.length_cons] at hcount
        simp only [State.setSlot]
        omega
      · have hne : e' ≠ e := by
          rintro rfl
          exact hnd.1 he'
        rw [ackPending_setSlot_ne hne]
        exact hrest e' (List.mem_cons_of_mem e he')
    exact .of_setWorker (by simpa using hp') hacks
  | takeAck left bs h =>
    have hcount : s.acks n + (s.unacked g n).card = left + 1 := hi
    have hacks : (WorkerPc.awaitAcks left bs).Acks g
        { s with acks := Function.update s.acks n (s.acks n - 1) } n := by
      show Function.update s.acks n (s.acks n - 1) n + (s.unacked g n).card = left
      rw [Function.update_self]
      omega
    exact AckInv.of_setWorker (w := { s.workers n with pc := .awaitAcks left bs }) hp hacks
  | tryPut e b bs pending hr hs =>
    have hacks : (WorkerPc.trySend ((e, b) :: bs) pending).Acks g (s.setSlot e (some (.frames b))) n :=
      hi.congr rfl (fun e' _ => ackPending_setFrames hs b e') hp
    exact .of_setWorker (by simpa using hp') hacks
  | putPending e b bs hr hs =>
    have hacks : (WorkerPc.sendPending ((e, b) :: bs)).Acks g (s.setSlot e (some (.frames b))) n :=
      hi.congr rfl (fun e' _ => ackPending_setFrames hs b e') hp
    exact .of_setWorker (by simpa using hp') hacks
  | won r h => cases hf
  | close t ts => cases hf
  | leave =>
    refine hkeep rfl (fun e he => ?_) (by simpa [WorkerPc.Acks] using hi)
    simp [State.dropSenders, he]
  | _ => exact hkeep rfl (fun _ _ => rfl) (by simpa [WorkerPc.Acks] using hi)

/-- A worker counts the acknowledgements of its own rounds only. -/
theorem workerMove_acks {n m : NodeId} {call : NodeCall (NodeCallOutput β)} {pc : WorkerPc β}
    {w : Worker β} (h : WorkerMove g o s n w call pc s') (hm : m ≠ n) :
    s'.acks m = s.acks m := by
  cases h with
  | callback pc s₀ s' hc hr => cases hr <;> cases hc <;> simp [State.logged, State.dropSenders, hm]
  | takeAck left bs h => simp [hm]
  | close t ts => exact congrFun (runTask_sameThreads s t).acks m
  | _ => rfl

variable [DecidableEq β]

/-- A dispatcher gives up its round of signals by acknowledging it. -/
theorem dispatcherMove_ackPending {e : EdgeDescriptor} {answers : PolicyAnswers β}
    (hh : HangInv s e) (hone : (s.dispatchers e).holdsAck = true → (s.channels e).slot = none)
    (hf : (s.dispatchers e).failing = false) (hf' : (s'.dispatchers e).failing = false)
    (h : DispatcherMove g o s e answers (s.dispatchers e) s') :
    s'.ackPending e = s.ackPending e ∧ s'.acks = s.acks ∨
    s.ackPending e = true ∧ s'.ackPending e = false ∧
      s'.acks = Function.update s.acks e.fromNodeId (s.acks e.fromNodeId + 1) := by
  have hack := hh.acked
  have hdrained := hh.drained
  unfold State.ackPending
  generalize s.dispatchers e = pc at h hf hack hdrained hone
  cases h with
  | recvFrames batch h => exact .inl ⟨by simp [h, Dispatch.isSignals, DispatcherPc.holdsAck], rfl⟩
  | recvSignals signals h => exact .inl ⟨by simp [h, Dispatch.isSignals, DispatcherPc.holdsAck], rfl⟩
  | rejected x rest r q h => simp [DispatcherPc.failing] at hf'
  | signalRejected x rest r q h => simp [DispatcherPc.failing] at hf'
  | signalRefused x rest err q h hq hc => simp [DispatcherPc.failing] at hf'
  | delivered x rest f q s' h hpush =>
    left
    cases hpush <;> simp [State.applying, DispatcherPc.holdsAck, DispatcherPc.failing] at hf' ⊢
  | repush x rest s' hpush =>
    left
    cases hpush <;> simp [DispatcherPc.holdsAck, DispatcherPc.failing] at hf' ⊢
  | ack failed =>
    cases failed with
    | true => exact absurd rfl hack
    | false =>
      have hslot := hone rfl
      exact .inr ⟨by simp [DispatcherPc.holdsAck], by simp [hslot, DispatcherPc.holdsAck], rfl⟩
  | won r signal h => cases hf
  | lost r signal h => cases hf
  | close t ts signal => cases hf
  | closed signal => cases hf
  | hangUp =>
    obtain ⟨hslot, -⟩ := hdrained rfl
    exact .inl ⟨by simp [hslot, DispatcherPc.holdsAck], rfl⟩
  | shutdown t ts =>
    have ht := runTask_sameThreads s t
    exact .inl ⟨by simp [ht.channels, DispatcherPc.holdsAck], ht.acks⟩
  | _ => exact .inl ⟨by simp [State.applying, DispatcherPc.holdsAck], rfl⟩

/-- The rounds of signals in a clean run: each is accounted for, and a dispatcher has one at a
time. -/
structure RoundInv (g : GraphDefinition) (s : State β) : Prop where
  acks : ∀ n, AckInv g s n
  single : ∀ e ∈ g.enabledEdges, (s.dispatchers e).holdsAck = true → (s.channels e).slot = none

omit [DecidableEq β] in
theorem holdsAck_of_not_pending {e : EdgeDescriptor} (h : s.ackPending e = false) :
    (s.dispatchers e).holdsAck = false := by
  unfold State.ackPending at h
  rw [Bool.or_eq_false_iff] at h
  exact h.2

omit [DecidableEq β] in
/-- A worker sends to a dispatcher that owes it nothing. -/
theorem workerMove_single {n : NodeId} {call : NodeCall (NodeCallOutput β)} {e : EdgeDescriptor}
    (hp : (s.workers n).pc.Placed g n) (hi : AckInv g s n)
    (h : WorkerMove g o s n (s.workers n) call (s.workers n).pc s')
    (hone : (s.dispatchers e).holdsAck = true → (s.channels e).slot = none)
    (hhold : (s'.dispatchers e).holdsAck = true) : (s'.channels e).slot = none := by
  have hold : (s.dispatchers e).holdsAck = true := by
    rcases (workerMove_frame h).dispatchers e with hd | hd
    · rw [← hd]
      exact hhold
    · rw [← woken_holdsAck, ← hd]
      exact hhold
  have hslot := hone hold
  have hdrop : ∀ s : State β, ((s.dropSenders g n).channels e).slot = (s.channels e).slot := by
    intro s
    simp only [State.dropSenders]
    split_ifs <;> rfl
  -- a send to `e` itself would find the round of `e` open
  have hput : ∀ {e'}, e' ∈ g.outgoing n → s.ackPending e' = false → e ≠ e' := by
    rintro e' - hpend rfl
    rw [holdsAck_of_not_pending hpend] at hold
    cases hold
  unfold AckInv at hi
  generalize (s.workers n).pc = pc at h hp hi
  cases h with
  | callback pc s₀ s' hc hr =>
    have hch : s₀.channels = s.channels := by cases hc <;> rfl
    cases hr with
    | died out d h hs ht ho =>
      rw [show (((s₀.logged n out).dropSenders g n).setWorker n
        { s.workers n with pc := .dead }).channels = ((s₀.logged n out).dropSenders g n).channels
        from rfl, hdrop]
      simp [State.logged, hch, hslot]
    | _ => simp [State.logged, hch, hslot]
  | putSignals sg e' rest bs hr hs =>
    have hne := hput (hp.1.subset List.mem_cons_self) (hi.2 e' List.mem_cons_self)
    simpa [hne] using hslot
  | tryPut e' b bs pending hr hs =>
    have hout : e' ∈ g.outgoing n := hp.subset (by simp [Batches.edges])
    have hne := hput hout (ackPending_of_unacked hi hout)
    simpa [hne] using hslot
  | putPending e' b bs hr hs =>
    have hout : e' ∈ g.outgoing n := hp.subset (by simp [Batches.edges])
    have hne := hput hout (ackPending_of_unacked hi hout)
    simpa [hne] using hslot
  | close t ts =>
    rw [show ((s.runTask t).setWorker n _).channels = s.channels from
      (runTask_sameThreads s t).channels]
    exact hslot
  | leave => exact (hdrop s).trans hslot
  | _ => exact hslot

theorem dispatcherMove_single {e : EdgeDescriptor} {answers : PolicyAnswers β}
    (hone : (s.dispatchers e).holdsAck = true → (s.channels e).slot = none)
    (hf' : (s'.dispatchers e).failing = false)
    (h : DispatcherMove g o s e answers (s.dispatchers e) s')
    (hhold : (s'.dispatchers e).holdsAck = true) : (s'.channels e).slot = none := by
  generalize s.dispatchers e = pc at h hone
  cases h with
  | recvSignals signals h => simp
  | recvFrames batch h => simp
  | hangUp => simp
  | delivered x rest f q s' h hpush => cases hpush <;> simp [DispatcherPc.holdsAck] at hhold
  | repush x rest s' hpush => cases hpush <;> simp [DispatcherPc.holdsAck] at hhold
  | signalsDone => exact hone rfl
  | signalPushed x rest q h hc hq hc' => exact hone rfl
  | notifySignal rest => exact hone rfl
  | ack failed => cases failed <;> simp [DispatcherPc.holdsAck] at hhold
  | signalRejected x rest r q h => simp [DispatcherPc.failing] at hf'
  | signalRefused x rest err q h hq hc => simp [DispatcherPc.failing] at hf'
  | won r signal h => simp [DispatcherPc.failing] at hf'
  | close t ts signal => simp [DispatcherPc.failing] at hf'
  | lost r signal h =>
    cases signal with
    | true => exact hone rfl
    | false => simp [DispatcherPc.holdsAck, DispatcherPc.afterFail] at hhold
  | closed signal =>
    cases signal with
    | true => exact hone rfl
    | false => simp [DispatcherPc.holdsAck, DispatcherPc.afterFail] at hhold
  | _ => simp [DispatcherPc.holdsAck] at hhold

omit [DecidableEq β] in
/-- The round of a node when the dispatcher of one of its outgoing edges steps. -/
theorem ackInv_dispatcher {n : NodeId} {e : EdgeDescriptor} (he : e ∈ g.outgoing n)
    (hp : (s.workers n).pc.Placed g n) (hi : AckInv g s n) (hw : s'.workers = s.workers)
    (hother : ∀ e', e' ≠ e → s'.ackPending e' = s.ackPending e')
    (hstep : s'.ackPending e = s.ackPending e ∧ s'.acks = s.acks ∨
      s.ackPending e = true ∧ s'.ackPending e = false ∧
        s'.acks = Function.update s.acks e.fromNodeId (s.acks e.fromNodeId + 1)) :
    AckInv g s' n := by
  have hn : e.fromNodeId = n := (GraphDefinition.mem_outgoing.mp he).2
  unfold AckInv at hi ⊢
  rw [hw]
  rcases hstep with ⟨hpend, hacks⟩ | ⟨hpend, hpend', hacks⟩
  · refine hi.congr (by rw [hacks]) (fun e' _ => ?_) hp
    by_cases hee : e' = e
    · rw [hee]
      exact hpend
    · exact hother e' hee
  · have hmem : e ∈ s.unacked g n := mem_unacked.mpr ⟨he, hpend⟩
    have herase : s'.unacked g n = (s.unacked g n).erase e := by
      ext e'
      rw [Finset.mem_erase, mem_unacked, mem_unacked]
      by_cases hee : e' = e
      · simp [hee, hpend']
      · rw [hother e' hee]
        simp [hee]
    have hcard : (s'.unacked g n).card + 1 = (s.unacked g n).card := by
      rw [herase, Finset.card_erase_add_one hmem]
    have hcount : s'.acks n = s.acks n + 1 := by
      rw [hacks, hn, Function.update_self]
    generalize (s.workers n).pc = pc at hi hp
    cases pc with
    | sendSignals sg rest bs =>
      obtain ⟨hsum, hrest⟩ := hi
      refine ⟨by omega, fun e' he' => ?_⟩
      have hee : e' ≠ e := by
        rintro rfl
        rw [hrest e' he'] at hpend
        cases hpend
      rw [hother e' hee]
      exact hrest e' he'
    | awaitAcks left bs =>
      have hsum : s.acks n + (s.unacked g n).card = left := hi
      show s'.acks n + (s'.unacked g n).card = left
      omega
    | _ =>
      have hempty : s.unacked g n = ∅ := hi
      rw [hempty] at hmem
      cases hmem

theorem roundInv {C : State β → Label β → Prop} (hr : (system g o).ReachableBy C s)
    (hc : Clean g s) : RoundInv g s := by
  refine clean_invariant (I := RoundInv g) ?_ (fun s a s' hr hc hi _ h hc' => ?_) hr hc
  · refine ⟨fun n => ?_, fun e _ => by simp [State.initial]⟩
    show State.unacked g (State.initial g o) n = ∅
    rw [Finset.eq_empty_iff_forall_notMem]
    intro e he
    have hpend := (mem_unacked.mp he).2
    simp [State.ackPending, State.initial, DispatcherPc.holdsAck] at hpend
  · have hplace := placeInv hr
    rcases clean_step hr hc h with hu | ⟨m, call, -, hm, hmove⟩ | ⟨e', answers, -, he', hmove⟩
    · refine ⟨fun n => ?_, fun e he => ?_⟩
      · unfold AckInv
        rw [hu.workers]
        refine (hi.acks n).congr (by rw [hu.acks]) (fun e _ => ?_) (hplace.workers n)
        exact ackPending_congr (by rw [hu.channels]) (.inl (by rw [hu.dispatchers]))
      · rw [hu.dispatchers, hu.channels]
        exact hi.single e he
    · have hframe := workerMove_frame hmove
      refine ⟨fun n => ?_, fun e he => ?_⟩
      · by_cases hnm : n = m
        · subst hnm
          exact ackInv_worker (hplace.workers n) (hi.acks n) hmove (hc.workers n hm)
            (hc'.workers n hm)
        · unfold AckInv
          rw [hframe.workers n hnm]
          refine (hi.acks n).congr (workerMove_acks hmove hnm) (fun e he => ?_) (hplace.workers n)
          have hout : e ∉ g.outgoing m := by
            intro hmem
            have hfrom := (GraphDefinition.mem_outgoing.mp he).2
            exact hnm (hfrom.symm.trans (GraphDefinition.mem_outgoing.mp hmem).2)
          refine ackPending_congr ?_ (hframe.dispatchers e)
          rw [workerMove_channels hmove (hplace.workers m) hout]
      · exact workerMove_single (hplace.workers m) (hi.acks m) hmove (hi.single e he)
    · have hframe := dispatcherMove_frame hmove
      have hother : ∀ e, e ≠ e' → s'.ackPending e = s.ackPending e := fun e hee =>
        ackPending_congr (by rw [dispatcherMove_channels hmove hee]) (hframe.dispatchers e hee)
      have hstep := dispatcherMove_ackPending (hangInv hr hc he') (hi.single e' he')
        (hc.dispatchers e' he') (hc'.dispatchers e' he') hmove
      refine ⟨fun n => ?_, fun e he => ?_⟩
      · by_cases hout : e' ∈ g.outgoing n
        · exact ackInv_dispatcher hout (hplace.workers n) (hi.acks n) hframe.workers hother hstep
        · unfold AckInv
          rw [hframe.workers]
          refine (hi.acks n).congr ?_ (fun e he => hother e ?_) (hplace.workers n)
          · rcases hstep with ⟨-, hacks⟩ | ⟨-, -, hacks⟩
            · rw [hacks]
            · rw [hacks, Function.update_of_ne]
              rintro rfl
              exact hout (GraphDefinition.mem_outgoing.mpr ⟨he', rfl⟩)
          · rintro rfl
            exact hout he
      · by_cases hee : e = e'
        · subst hee
          exact dispatcherMove_single (hi.single e he) (hc'.dispatchers e he) hmove
        · rw [dispatcherMove_channels hmove hee]
          intro hhold
          refine hi.single e he ?_
          rcases hframe.dispatchers e hee with hd | hd
          · rw [← hd]
            exact hhold
          · rw [← woken_holdsAck, ← hd]
            exact hhold

/-- The callbacks of the frames of `e` that the source's worker has sent. -/
def State.passed (s : State β) (e : EdgeDescriptor) : List ℕ :=
  ((s.dispatchers e).holding ++ slotFrames (s.channels e).slot ++ (s.dispatchers e).waiting ++
    s.downFrames e).map Stamped.callback

omit [DecidableEq β] in
/-- What is past the worker stays so when nothing is sent. -/
theorem passed_of_same {e : EdgeDescriptor}
    (hd : s'.dispatchers e = s.dispatchers e ∨ s'.dispatchers e = (s.dispatchers e).woken)
    (hs : slotFrames (s'.channels e).slot = slotFrames (s.channels e).slot)
    (hdown : s'.downFrames e = s.downFrames e) : s'.passed e = s.passed e := by
  obtain ⟨hh, -, hw⟩ := dispatcher_parts hd
  unfold State.passed
  rw [hh, hs, hw, hdown]

omit [DecidableEq β] in
/-- When no round is open, the signals of `e` are in its signal queue or behind it. -/
theorem upSignals_of_acked {n : NodeId} {e : EdgeDescriptor} (he : e ∈ g.outgoing n)
    (ha : s.unacked g n = ∅) (hw : (s.workers n).pc.holdingSignals e = [])
    (hd : (s.workers n).pc ≠ .dead) : s.upSignals e = [] := by
  have hn : e.fromNodeId = n := (GraphDefinition.mem_outgoing.mp he).2
  have hpend := ackPending_of_unacked ha he
  have hhold : (s.dispatchers e).holdingSignals = [] := by
    have hack := holdsAck_of_not_pending hpend
    cases hpc : s.dispatchers e <;> rw [hpc] at hack <;> first | rfl | cases hack
  have hslot : slotSignals (s.channels e).slot = [] := by
    unfold State.ackPending at hpend
    rw [Bool.or_eq_false_iff] at hpend
    cases hs : (s.channels e).slot with
    | none => rfl
    | some d =>
      cases d with
      | frames b => rfl
      | signals sg => simp [hs, Dispatch.isSignals] at hpend
  simp [State.upSignals, hn, hw, hhold, hslot, lost_of_alive hd]

omit [DecidableEq β] in
/-- A worker sends frames of `e` only when the signals for `e` are all through. -/
theorem workerMove_passed {n : NodeId} {call : NodeCall (NodeCallOutput β)} {e : EdgeDescriptor}
    (hp : (s.workers n).pc.Placed g n) (hi : AckInv g s n)
    (h : WorkerMove g o s n (s.workers n) call (s.workers n).pc s')
    (hf : (s.workers n).pc.failing = false) (hf' : (s'.workers n).pc.failing = false) :
    s'.passed e = s.passed e ∨
      s'.log.outputs = s.log.outputs ∧ s.upSignals e = [] ∧
        ∀ k ∈ s'.passed e, k ∈ s.passed e ∨ ∃ x ∈ s.upFrames e, x.callback = k := by
  have hd := (workerMove_frame h).dispatchers e
  obtain ⟨hdown, -⟩ := workerMove_down (e := e) hp h hf hf'
  obtain ⟨hh, -, hw⟩ := dispatcher_parts hd
  -- frames go from the worker to the slot of `e`
  have hput : ∀ {b : List (Stamped (Frame β))}, (s'.channels e).slot = some (.frames b) →
      e ∈ g.outgoing n → (∀ x ∈ b, x ∈ (s.workers n).pc.holding e) →
      ∀ k ∈ s'.passed e, k ∈ s.passed e ∨ ∃ x ∈ s.upFrames e, x.callback = k := by
    intro b hslot hout hb k hk
    have hn : e.fromNodeId = n := (GraphDefinition.mem_outgoing.mp hout).2
    obtain ⟨x, hx, rfl⟩ := List.mem_map.mp hk
    simp only [hslot, slotFrames, hh, hw, hdown, List.mem_append] at hx
    rcases hx with ((hx | hx) | hx) | hx
    · exact .inl (List.mem_map_of_mem (by simp [hx]))
    · exact .inr ⟨x, by simp [State.upFrames, hn, hb x hx], rfl⟩
    · exact .inl (List.mem_map_of_mem (by simp [hx]))
    · exact .inl (List.mem_map_of_mem (by simp [hx]))
  have hsame : slotFrames (s'.channels e).slot = slotFrames (s.channels e).slot →
      s'.passed e = s.passed e := fun hs => passed_of_same hd hs hdown
  unfold AckInv at hi
  generalize hpc : (s.workers n).pc = pc at h hp hi hf hput
  have hdrop : ∀ s : State β, ((s.dropSenders g n).channels e).slot = (s.channels e).slot := by
    intro s
    simp only [State.dropSenders]
    split_ifs <;> rfl
  cases h with
  | callback pc s₀ s' hc hr =>
    have hch : s₀.channels = s.channels := by cases hc <;> rfl
    refine .inl (hsame (congrArg slotFrames ?_))
    cases hr with
    | died out d h hs ht ho =>
      exact (hdrop (s₀.logged n out)).trans (by rw [State.logged, hch])
    | _ => rw [← hch]; rfl
  | putSignals sg e' rest bs hr hs =>
    refine .inl (hsame ?_)
    by_cases hee : e = e'
    · subst hee
      simp [hs, slotFrames]
    · simp [hee]
  | tryPut e' b bs pending hr hs =>
    by_cases hee : e = e'
    · subst hee
      have hout : e ∈ g.outgoing n := hp.subset (by simp [Batches.edges])
      refine .inr ⟨rfl, upSignals_of_acked hout hi (by simp [hpc, WorkerPc.holdingSignals])
        (by simp [hpc]), hput (b := b) (by simp) hout fun x hx => ?_⟩
      simp [WorkerPc.holding, Batches.on_append, Batches.on_cons_self, hx]
    · exact .inl (hsame (by simp [hee]))
  | putPending e' b bs hr hs =>
    by_cases hee : e = e'
    · subst hee
      have hout : e ∈ g.outgoing n := hp.subset (by simp [Batches.edges])
      refine .inr ⟨rfl, upSignals_of_acked hout hi (by simp [hpc, WorkerPc.holdingSignals])
        (by simp [hpc]), hput (b := b) (by simp) hout fun x hx => ?_⟩
      simp [WorkerPc.holding, Batches.on_cons_self, hx]
    · exact .inl (hsame (by simp [hee]))
  | close t ts => cases hf
  | leave => exact .inl (hsame (congrArg slotFrames (hdrop s)))
  | _ => exact .inl (hsame rfl)

/-- The frames of `e` between its slot and its data queue. -/
def State.underway (s : State β) (e : EdgeDescriptor) : List (Stamped (Frame β)) :=
  (s.dispatchers e).holding ++ slotFrames (s.channels e).slot ++ (s.dispatchers e).waiting ++
    (s.queues e).frames

omit [DecidableEq β] in
theorem mem_passed {e : EdgeDescriptor} {k : ℕ} : k ∈ s.passed e ↔
    ∃ x, x.callback = k ∧ (x ∈ s.underway e ∨ x ∈ s.log.processed e ∨
      x ∈ (s.workers e.toNodeId).pc.atFrame e) := by
  unfold State.passed State.underway State.downFrames
  simp only [List.mem_map, List.mem_append]
  refine exists_congr fun x => ?_
  grind

/-- A step of the edge's dispatcher moves frames and signals on, and adds none. -/
structure Downstream (e : EdgeDescriptor) (s s' : State β) : Prop where
  frames : ∀ x ∈ s'.underway e, ∃ y ∈ s.underway e, y.callback = x.callback
  upSignals : ∀ y ∈ s'.upSignals e, y ∈ s.upSignals e
  queue : ∀ y ∈ (s'.signalQueues e).queue, y ∈ (s.signalQueues e).queue ∨ y ∈ s.upSignals e

omit [DecidableEq β] in
theorem pushed_underway {e : EdgeDescriptor} {x : Stamped (Frame β)}
    {rest : List (Stamped (Frame β))} (h : Pushed s e x rest s')
    (hf' : (s'.dispatchers e).failing = false) :
    ∀ y ∈ s'.underway e, y = x ∨ y ∈ rest ∨ y ∈ slotFrames (s.channels e).slot ∨
      y ∈ (s.queues e).frames := by
  intro y hy
  unfold State.underway at hy
  cases h with
  | closed hc hq => simp [DispatcherPc.failing] at hf'
  | overflow hc ho hf hc' => simp [DispatcherPc.failing] at hf'
  | droppedOldest hc ho hf hc' =>
    simp only [State.setDispatcher, State.setQueue, Function.update_self, DispatcherPc.holding,
      DispatcherPc.waiting, hf, List.mem_append, List.not_mem_nil, or_false,
      List.mem_singleton] at hy
    have htail := List.mem_of_mem_tail (l := (s.queues e).frames) (a := y)
    grind
  | _ =>
    rename_i hf _
    simp only [State.setDispatcher, State.setQueue, Function.update_self, DispatcherPc.holding,
      DispatcherPc.waiting, hf, List.mem_append, List.not_mem_nil, or_false,
      List.mem_singleton] at hy
    grind

theorem dispatcherMove_downstream {e : EdgeDescriptor} {answers : PolicyAnswers β}
    (hp : (s.dispatchers e).Placed e) (hf : (s.dispatchers e).failing = false)
    (hf' : (s'.dispatchers e).failing = false)
    (h : DispatcherMove g o s e answers (s.dispatchers e) s') : Downstream e s s' := by
  have hframe := dispatcherMove_frame h
  have hup : ∀ {y}, (y ∈ (s'.dispatchers e).holdingSignals ++ slotSignals (s'.channels e).slot →
      y ∈ (s.dispatchers e).holdingSignals ++ slotSignals (s.channels e).slot) →
      y ∈ s'.upSignals e → y ∈ s.upSignals e := by
    intro y hy hmem
    simp only [State.upSignals, hframe.workers, hframe.outputs, List.mem_append] at hy hmem ⊢
    grind
  generalize hpc : s.dispatchers e = pc at h hp hf
  -- the moves other than a push
  have hkeep : (∀ x ∈ s'.underway e, x ∈ s.underway e) →
      (∀ y ∈ (s'.dispatchers e).holdingSignals ++ slotSignals (s'.channels e).slot,
        y ∈ (s.dispatchers e).holdingSignals ++ slotSignals (s.channels e).slot) →
      (∀ y ∈ (s'.signalQueues e).queue, y ∈ (s.signalQueues e).queue ∨ y ∈ s.upSignals e) →
      Downstream e s s' := by
    intro hu hs hq
    exact ⟨fun x hx => ⟨x, hu x hx, rfl⟩, fun y => hup (hs y), hq⟩
  cases h with
  | delivered x rest f q s' h hpush =>
    have hq : SameFrames (s.queues e) q := .of_applyEdge h
    obtain ⟨-, hsig, -⟩ := pushed_link hpush hf'
    obtain ⟨-, hsq, hch, -⟩ := pushed_same hpush
    refine ⟨fun y hy => ?_, fun y => hup fun hmem => ?_, fun y hy => .inl ?_⟩
    · have hcases := pushed_underway hpush hf' y hy
      simp only [State.setQueue, State.applying, Function.update_self, hq.frames] at hcases
      unfold State.underway
      rw [hpc]
      simp only [DispatcherPc.holding, DispatcherPc.waiting, List.append_nil, List.mem_append,
        List.mem_cons]
      rcases hcases with rfl | hy | hy | hy
      · exact ⟨x, .inl (.inl (.inl rfl)), rfl⟩
      · exact ⟨y, .inl (.inl (.inr hy)), rfl⟩
      · exact ⟨y, .inl (.inr hy), rfl⟩
      · exact ⟨y, .inr hy, rfl⟩
    · rw [hsig, hch] at hmem
      simpa [hpc, State.applying, DispatcherPc.holdingSignals] using hmem
    · rw [hsq] at hy
      exact hy
  | repush x rest s' hpush =>
    obtain ⟨-, hsig, -⟩ := pushed_link hpush hf'
    obtain ⟨-, hsq, hch, -⟩ := pushed_same hpush
    refine ⟨fun y hy => ?_, fun y => hup fun hmem => ?_, fun y hy => .inl ?_⟩
    · have hcases := pushed_underway hpush hf' y hy
      refine ⟨y, ?_, rfl⟩
      unfold State.underway
      rw [hpc]
      simp only [DispatcherPc.holding, DispatcherPc.waiting, List.mem_append, List.mem_singleton]
      grind
    · rw [hsig, hch] at hmem
      simpa [hpc, DispatcherPc.holdingSignals] using hmem
    · rw [hsq] at hy
      exact hy
  | rejected x rest r q h => simp [DispatcherPc.failing] at hf'
  | signalRejected x rest r q h => simp [DispatcherPc.failing] at hf'
  | signalRefused x rest err q h hq hc => simp [DispatcherPc.failing] at hf'
  | won r signal h => cases hf
  | lost r signal h => cases hf
  | close t ts signal => cases hf
  | closed signal => cases hf
  | recvFrames batch h =>
    refine hkeep ?_ ?_ fun y hy => .inl hy
    · simp [State.underway, hpc, h, DispatcherPc.holding, DispatcherPc.waiting, slotFrames]
    · simp [hpc, h, DispatcherPc.holdingSignals, slotSignals]
  | recvSignals signals h =>
    refine hkeep ?_ ?_ fun y hy => .inl hy
    · simp [State.underway, hpc, h, DispatcherPc.holding, DispatcherPc.waiting, slotFrames]
    · simp [hpc, h, DispatcherPc.holdingSignals, slotSignals]
  | settled x rest q h =>
    have hq : SameFrames (s.queues e) q := .of_applyEdge h
    refine hkeep ?_ ?_ fun y hy => .inl hy
    · simp only [State.underway, State.applying, State.setQueue, State.setDispatcher, hpc,
        Function.update_self, DispatcherPc.holding, DispatcherPc.waiting, hq.frames,
        List.append_nil, List.mem_append, List.mem_cons]
      grind
    · simp [State.applying, hpc, DispatcherPc.holdingSignals]
  | signalPushed x rest q h hc hsq hc' =>
    have hq : SameFrames (s.queues e) q := .of_observeSignal h
    refine hkeep ?_ ?_ ?_
    · simp [State.underway, hpc, DispatcherPc.holding, DispatcherPc.waiting, hq.frames]
    · simp only [State.setDispatcher, Function.update_self, DispatcherPc.holdingSignals, hpc,
        State.setSignalQueue, State.setQueue, List.mem_append, List.mem_cons]
      grind
    · intro y hy
      simp only [State.setDispatcher, State.setSignalQueue, Function.update_self, hsq,
        List.mem_append, List.mem_singleton] at hy
      rcases hy with hy | rfl
      · exact .inl hy
      · exact .inr (by simp [State.upSignals, hpc, DispatcherPc.holdingSignals])
  | ack failed =>
    refine hkeep ?_ ?_ fun y hy => .inl hy
    · cases failed <;>
        simp [State.underway, hpc, DispatcherPc.holding, DispatcherPc.waiting]
    · cases failed <;> simp [hpc, DispatcherPc.holdingSignals]
  | hangUp =>
    refine hkeep ?_ ?_ fun y hy => .inl hy
    · simp +contextual [State.underway, hpc, DispatcherPc.holding, DispatcherPc.waiting, slotFrames]
    · simp [hpc, DispatcherPc.holdingSignals, slotSignals]
  | shutdown t ts =>
    have ht := runTask_sameThreads s t
    have htask := shutdown_task (s := s) hp
    refine hkeep ?_ ?_ fun y hy => .inl (by simpa [htask.2] using hy)
    · simp [State.underway, hpc, DispatcherPc.holding, DispatcherPc.waiting, ht.channels, htask.1]
    · simp [hpc, DispatcherPc.holdingSignals, ht.channels]
  | _ =>
    refine hkeep ?_ ?_ fun y hy => .inl hy
    · simp [State.underway, hpc, DispatcherPc.holding, DispatcherPc.waiting]
    · simp [hpc, DispatcherPc.holdingSignals]

/-- The frame that a consumer takes from a data queue leaves no signal of its callback in the
signal queue of the same edge. -/
def Label.signalsFirst (g : GraphDefinition) (s : State β) : Label β → Bool
  | .worker n _ =>
    match (s.workers n).pc with
    | .pollFrames _ offset =>
      match polled g n (s.workers n).cursor offset with
      | some (e, _) => (s.queues e).frames.head?.all fun x =>
          (s.signalQueues e).queue.all fun y => y.callback ≠ x.callback
      | none => true
    | _ => true
  | _ => true

def SignalsFirst (g : GraphDefinition) (s : State β) (a : Label β) : Prop :=
  a.signalsFirst g s = true

instance (g : GraphDefinition) (s : State β) (a : Label β) : Decidable (SignalsFirst g s a) :=
  inferInstanceAs (Decidable (_ = true))

omit [DecidableEq β] in
theorem signalsFirst_pop {n : NodeId} {call : NodeCall (NodeCallOutput β)} {obs off cursor : ℕ}
    {e : EdgeDescriptor} {x : Stamped (Frame β)} {xs : List (Stamped (Frame β))}
    (h : SignalsFirst g s (.worker n call)) (hpc : (s.workers n).pc = .pollFrames obs off)
    (hp : polled g n (s.workers n).cursor off = some (e, cursor))
    (hq : (s.queues e).frames = x :: xs) :
    ∀ y ∈ (s.signalQueues e).queue, y.callback ≠ x.callback := by
  simp only [SignalsFirst, Label.signalsFirst, hpc, hp, hq, List.head?_cons, Option.all_some,
    List.all_eq_true, decide_eq_true_eq] at h
  exact h

/-- Frames of `e` that the target took. -/
def State.taken (s : State β) (e : EdgeDescriptor) : List (Stamped (Frame β)) :=
  s.log.processed e ++ (s.workers e.toNodeId).pc.atFrame e

/-- Signals of `e` whose `on_signal` is still to come, from the signal queue on. -/
def State.queuedSignals (s : State β) (e : EdgeDescriptor) : List (Stamped (SignalFrame β)) :=
  (s.workers e.toNodeId).pc.atSignal e ++ (s.signalQueues e).queue

omit [DecidableEq β] in
/-- The target takes a frame that the condition allows, or none. -/
theorem workerMove_taken {n : NodeId} {call : NodeCall (NodeCallOutput β)} {e : EdgeDescriptor}
    (hp : (s.workers n).pc.Placed g n) (hc : SignalsFirst g s (.worker n call))
    (h : WorkerMove g o s n (s.workers n) call (s.workers n).pc s')
    (hf : (s.workers n).pc.failing = false) (hf' : (s'.workers n).pc.failing = false) :
    (∀ x ∈ s'.taken e, x ∈ s.taken e ∨
      ∀ y ∈ s.queuedSignals e, y.callback ≠ x.callback) ∧
    ∀ y ∈ s'.queuedSignals e, y ∈ s.queuedSignals e := by
  unfold State.taken State.queuedSignals
  by_cases hn : e.toNodeId = n
  · rw [hn]
    have hpop : ∀ {obs off cursor : ℕ} {x : Stamped (Frame β)} {xs : List (Stamped (Frame β))},
        (s.workers n).pc = .pollFrames obs off →
        polled g n (s.workers n).cursor off = some (e, cursor) →
        (s.queues e).frames = x :: xs → ∀ y ∈ (s.signalQueues e).queue, y.callback ≠ x.callback :=
      signalsFirst_pop hc
    generalize hpc : (s.workers n).pc = pc at h hp hf hpop
    cases h with
    | quiet pc w' hq =>
      obtain ⟨-, -, hat, has⟩ := quiet_holding hq hf (by simpa using hf') e
      refine ⟨fun x hx => .inl ?_, fun y hy => ?_⟩
      · simpa [hat] using hx
      · simpa [has] using hy
    | callback pc s₀ s' hcons hr =>
      obtain ⟨hat, hqs, hss, hpr, hha⟩ := returned_down hr
      rw [(hat e).1, (hat e).2, hss, hpr]
      cases hcons with
      | source => exact ⟨fun x hx => .inl (by simpa [WorkerPc.atFrame] using hx),
          fun y hy => by simpa [WorkerPc.atSignal] using hy⟩
      | tick => exact ⟨fun x hx => .inl (by simpa [WorkerPc.atFrame] using hx),
          fun y hy => by simpa [WorkerPc.atSignal] using hy⟩
      | signal e' z =>
        refine ⟨fun x hx => .inl (by simpa [WorkerPc.atFrame] using hx), fun y hy => ?_⟩
        exact List.mem_append_right _ hy
      | frame e' z =>
        refine ⟨fun x hx => .inl ?_, fun y hy => by simpa [WorkerPc.atSignal] using hy⟩
        by_cases hee : e = e'
        · subst hee
          simpa [WorkerPc.atFrame] using hx
        · simpa [WorkerPc.atFrame, hee, Ne.symm hee] using hx
    | popSignal obs off e' cursor z zs hpoll hq =>
      refine ⟨fun x hx => .inl (by simpa [WorkerPc.atFrame] using hx), fun y hy => ?_⟩
      by_cases hee : e = e'
      · subst hee
        have hpop : (s.signalQueues e).tryPop.2.queue = zs := by
          simp [SignalQueue.tryPop, hq]
        simpa [WorkerPc.atSignal, hpop, hq] using hy
      · simpa [WorkerPc.atSignal, hee, Ne.symm hee] using hy
    | popFrame obs off e' cursor z zs hpoll hq =>
      refine ⟨fun x hx => ?_, fun y hy => by simpa [WorkerPc.atSignal] using hy⟩
      by_cases hee : e = e'
      · subst hee
        simp only [State.setWorker, Function.update_self, WorkerPc.atFrame, if_pos,
          List.mem_append, List.mem_singleton] at hx
        rcases hx with hx | rfl
        · exact .inl (List.mem_append_left _ hx)
        · exact .inr (by simpa [WorkerPc.atSignal] using hpop rfl hpoll hq)
      · exact .inl (by simpa [WorkerPc.atFrame, hee, Ne.symm hee] using hx)
    | won r h => cases hf
    | close t ts => cases hf
    | _ =>
      refine ⟨fun x hx => .inl ?_, fun y hy => ?_⟩
      · simpa [WorkerPc.atFrame, State.dropSenders] using hx
      · simpa [WorkerPc.atSignal, State.dropSenders] using hy
  · obtain ⟨-, hs, hpr, -⟩ := workerMove_elsewhere hp h hf hn
    have hw := (workerMove_frame h).workers e.toNodeId hn
    rw [hw, hs, hpr]
    exact ⟨fun x hx => .inl hx, fun y hy => hy⟩

omit [DecidableEq β] in
theorem stampAll_callback_lt {α : Type} {f : NodeCallOutput β → List α}
    {outs : List (NodeCallOutput β)} {x : Stamped α} (h : x ∈ stampAll f outs) :
    x.callback < outs.length := by
  obtain ⟨p, hp, hx⟩ := List.mem_flatMap.mp h
  obtain ⟨v, -, rfl⟩ := List.mem_map.mp hx
  have hlt := List.snd_lt_of_mem_zipIdx hp
  simpa using hlt

/-- The order of frames and signals on `e`: frames that were sent stand behind the signals of their
callback, and the target took none before the signals of its callback. -/
structure SignalInv (s : State β) (e : EdgeDescriptor) : Prop where
  stamped : ∀ k ∈ s.passed e, k < (s.log.outputs e.fromNodeId).length
  behind : ∀ k ∈ s.passed e, ∀ y ∈ s.upSignals e, k < y.callback
  first : ∀ x ∈ s.taken e, ∀ y ∈ s.queuedSignals e, y.callback ≠ x.callback

omit [DecidableEq β] in
theorem taken_passed {e : EdgeDescriptor} {x : Stamped (Frame β)} (h : x ∈ s.taken e) :
    x.callback ∈ s.passed e := by
  unfold State.taken at h
  refine mem_passed.mpr ⟨x, rfl, .inr ?_⟩
  simpa using h

theorem signalInv_worker {n : NodeId} {call : NodeCall (NodeCallOutput β)} {e : EdgeDescriptor}
    (he : e ∈ g.enabledEdges) (hp : (s.workers n).pc.Placed g n)
    (hc : SignalsFirst g s (.worker n call)) (ha : AckInv g s n) (hl : LinkInv s e)
    (hi : SignalInv s e) (h : WorkerMove g o s n (s.workers n) call (s.workers n).pc s')
    (hf : (s.workers n).pc.failing = false) (hf' : (s'.workers n).pc.failing = false) :
    SignalInv s' e := by
  obtain ⟨htaken, hqueued⟩ := workerMove_taken (e := e) hp hc h hf hf'
  have hfirst : ∀ x ∈ s'.taken e, ∀ y ∈ s'.queuedSignals e, y.callback ≠ x.callback := by
    intro x hx y hy
    rcases htaken x hx with hx | hnew
    · exact hi.first x hx y (hqueued y hy)
    · exact hnew y (hqueued y hy)
  have hup := workerMove_up he hp h hf hf'
  have hlen : (s.log.outputs e.fromNodeId).length ≤ (s'.log.outputs e.fromNodeId).length := by
    rcases hup with ⟨ho, -, -⟩ | ⟨out, ho, -, -⟩
    · rw [ho]
    · simp [ho]
  rcases workerMove_passed (e := e) hp ha h hf hf' with hsame | ⟨hout, hempty, hsent⟩
  · refine ⟨fun k hk => ?_, fun k hk y hy => ?_, hfirst⟩
    · rw [hsame] at hk
      have hlt := hi.stamped k hk
      omega
    · rw [hsame] at hk
      rcases hup with ⟨-, -, hus⟩ | ⟨out, -, -, hus⟩
      · rw [hus] at hy
        exact hi.behind k hk y hy
      · rw [hus, List.mem_append] at hy
        rcases hy with hy | hy
        · exact hi.behind k hk y hy
        · obtain ⟨v, -, rfl⟩ := List.mem_map.mp hy
          exact hi.stamped k hk
  · -- frames of `e` were sent, and no signal for `e` is on the way
    have hup' : s'.upSignals e = [] := by
      rcases hup with ⟨-, -, hus⟩ | ⟨out, ho, -, -⟩
      · rw [hus, hempty]
      · rw [hout] at ho
        have hne := congrArg List.length ho
        simp at hne
    refine ⟨fun k hk => ?_, fun k _ y hy => ?_, hfirst⟩
    · rcases hsent k hk with hk | ⟨x, hx, rfl⟩
      · have hlt := hi.stamped k hk
        omega
      · have hmem : x ∈ s.sentFrames e := List.mem_append_right _ hx
        rw [hl.frames] at hmem
        have hlt := stampAll_callback_lt hmem
        omega
    · rw [hup'] at hy
      cases hy

theorem signalInv_dispatcher {e : EdgeDescriptor} {answers : PolicyAnswers β}
    (hp : (s.dispatchers e).Placed e) (hi : SignalInv s e)
    (h : DispatcherMove g o s e answers (s.dispatchers e) s')
    (hf : (s.dispatchers e).failing = false) (hf' : (s'.dispatchers e).failing = false) :
    SignalInv s' e := by
  have hframe := dispatcherMove_frame h
  have hdown := dispatcherMove_downstream hp hf hf' h
  have htaken : s'.taken e = s.taken e := by
    unfold State.taken
    rw [hframe.workers, hframe.processed]
  have hpassed : ∀ k ∈ s'.passed e, k ∈ s.passed e := by
    intro k hk
    obtain ⟨x, rfl, hx⟩ := mem_passed.mp hk
    rw [hframe.workers, hframe.processed] at hx
    rcases hx with hx | hx
    · obtain ⟨y, hy, hyx⟩ := hdown.frames x hx
      exact mem_passed.mpr ⟨y, hyx, .inl hy⟩
    · exact mem_passed.mpr ⟨x, rfl, .inr hx⟩
  refine ⟨fun k hk => ?_, fun k hk y hy => hi.behind k (hpassed k hk) y (hdown.upSignals y hy),
    fun x hx y hy => ?_⟩
  · rw [hframe.outputs]
    exact hi.stamped k (hpassed k hk)
  · rw [htaken] at hx
    unfold State.queuedSignals at hy
    rw [hframe.workers, List.mem_append] at hy
    rcases hy with hy | hy
    · exact hi.first x hx y (List.mem_append_left _ hy)
    · rcases hdown.queue y hy with hy | hy
      · exact hi.first x hx y (List.mem_append_right _ hy)
      · have hlt := hi.behind x.callback (taken_passed hx) y hy
        omega

omit [DecidableEq β] in
theorem SignalInv.of_same {e : EdgeDescriptor} (hi : SignalInv s e)
    (hw : s'.workers = s.workers)
    (hd : s'.dispatchers e = s.dispatchers e ∨ s'.dispatchers e = (s.dispatchers e).woken)
    (hq : s'.queues e = s.queues e) (hsq : s'.signalQueues e = s.signalQueues e)
    (hch : s'.channels e = s.channels e) (ho : s'.log.outputs = s.log.outputs)
    (hp : s'.log.processed = s.log.processed) (hh : s'.log.handled = s.log.handled) :
    SignalInv s' e := by
  obtain ⟨hdown, -⟩ := down_of_same (e := e) (by rw [hw]) hq hsq (by rw [hp]) (by rw [hh])
  have hpassed := passed_of_same hd (by rw [hch]) hdown
  have hup : s'.upSignals e = s.upSignals e := by
    obtain ⟨-, hsig, -⟩ := dispatcher_parts hd
    simp only [State.upSignals, hw, hsig, hch, ho]
  have htaken : s'.taken e = s.taken e := by
    simp only [State.taken, hw, hp]
  have hqueued : s'.queuedSignals e = s.queuedSignals e := by
    simp only [State.queuedSignals, hw, hsq]
  refine ⟨?_, ?_, ?_⟩
  · rw [hpassed, ho]
    exact hi.stamped
  · rw [hpassed, hup]
    exact hi.behind
  · rw [htaken, hqueued]
    exact hi.first

theorem signalInv (hr : (system g o).ReachableBy (SignalsFirst g) s) (hc : Clean g s)
    {e : EdgeDescriptor} (he : e ∈ g.enabledEdges) : SignalInv s e := by
  refine clean_invariant (I := fun s => SignalInv s e) ?_ (fun s a s' hr hc hi ha h hc' => ?_) hr hc
  · have hen : e.enabled = true := by
      simpa [GraphDefinition.enabledEdges] using (List.mem_filter.mp he).2
    have hpassed : (State.initial g o : State β).passed e = [] := by
      simp [State.passed, State.downFrames, State.initial, hen, EdgeQueue.new, WorkerPc.atFrame,
        DispatcherPc.holding, DispatcherPc.waiting, slotFrames]
    refine ⟨by simp [hpassed], by simp [hpassed], fun x hx => ?_⟩
    simp [State.taken, State.initial, WorkerPc.atFrame] at hx
  · have hplace := placeInv hr
    rcases clean_step hr hc h with hu | ⟨n, call, rfl, hn, hm⟩ | ⟨e', answers, -, he', hm⟩
    · exact hi.of_same hu.workers (.inl (by rw [hu.dispatchers])) (by rw [hu.queues])
        (by rw [hu.signalQueues]) (by rw [hu.channels]) hu.outputs hu.processed hu.handled
    · exact signalInv_worker he (hplace.workers n) ha ((roundInv hr hc).acks n) (linkInv hr hc he)
        hi hm (hc.workers n hn) (hc'.workers n hn)
    · by_cases hee : e = e'
      · subst hee
        exact signalInv_dispatcher (hplace.dispatchers e) hi hm (hc.dispatchers e he)
          (hc'.dispatchers e he)
      · have hf := dispatcherMove_frame hm
        obtain ⟨hq, hsq, -⟩ := dispatcherMove_other (hplace.dispatchers e')
          (hc.dispatchers e' he') hm hee
        exact hi.of_same hf.workers (hf.dispatchers e hee) hq hsq (dispatcherMove_channels hm hee)
          hf.outputs hf.processed hf.handled

omit [DecidableEq β] in
/-- The part of one callback. -/
theorem filter_stampAll {α : Type} (f : NodeCallOutput β → List α)
    (outs : List (NodeCallOutput β)) (k : ℕ) :
    (stampAll f outs).filter (·.callback = k) =
      (outs[k]?.toList.flatMap f).map (Stamped.mk k) := by
  induction outs using List.reverseRecOn with
  | nil => simp
  | append_singleton outs out ih =>
    rw [stampAll_concat, List.filter_append, ih]
    have hlast : ((f out).map (Stamped.mk outs.length)).filter (·.callback = k) =
        if outs.length = k then (f out).map (Stamped.mk k) else [] := by
      split_ifs with hk
      · subst hk
        simp
      · simp [hk]
    rw [hlast]
    rcases Nat.lt_trichotomy k outs.length with hk | hk | hk
    · rw [if_neg (by omega), List.append_nil, List.getElem?_append_left hk]
    · subst hk
      simp
    · rw [if_neg (by omega), List.getElem?_eq_none (by omega), List.getElem?_eq_none (by simp; omega)]
      simp

/-- The signal barrier: in a run without abort, when the target of an edge takes up a frame, its
`on_signal` has run for the signals of the frame's callback, all of them and in order, as long as it
never takes a frame while a signal of the frame's callback waits in the signal queue. -/
theorem signal_barrier (g : GraphDefinition) (o : RuntimeOptions) (s : State β)
    (hr : (system g o).ReachableBy (SignalsFirst g) s) (hc : Clean g s) (e : EdgeDescriptor)
    (he : e ∈ g.enabledEdges) (x : Stamped (Frame β))
    (hx : x ∈ s.log.processed e ∨ (s.workers e.toNodeId).pc = .onFrame e x) :
    ∃ out, (s.log.outputs e.fromNodeId)[x.callback]? = some out ∧
      (s.log.handled e).filter (·.callback = x.callback) =
        out.signals.map (Stamped.mk x.callback) := by
  have hi := signalInv hr hc he
  have htaken : x ∈ s.taken e := by
    unfold State.taken
    rcases hx with hx | hx
    · exact List.mem_append_left _ hx
    · simp [hx, WorkerPc.atFrame]
  have hlt := hi.stamped _ (taken_passed htaken)
  have hout := List.getElem?_eq_getElem hlt
  have hsignals := (linkInv hr hc he).signals
  have hqueued : (s.queuedSignals e).filter (·.callback = x.callback) = [] := by
    rw [List.filter_eq_nil_iff]
    intro y hy
    simpa using hi.first x htaken y hy
  have hup : (s.upSignals e).filter (·.callback = x.callback) = [] := by
    rw [List.filter_eq_nil_iff]
    intro y hy
    have := hi.behind _ (taken_passed htaken) y hy
    simp only [decide_eq_true_eq]
    omega
  refine ⟨_, hout, ?_⟩
  have hfilter := congrArg (List.filter (·.callback = x.callback)) hsignals
  rw [filter_stampAll, hout] at hfilter
  have hsplit : s.sentSignals e = s.log.handled e ++ s.queuedSignals e ++ s.upSignals e := by
    simp [State.sentSignals, State.downSignals, State.queuedSignals]
  rw [hsplit, List.filter_append, List.filter_append, hqueued, hup] at hfilter
  simpa using hfilter

/-- A callback that emits a frame and a signal. -/
def sampleOutput : NodeCallOutput Unit := ⟨[(0, sampleFrame 1)], [sampleSignal 2], none⟩

/-- The sink polls when the signal and the frame are both there. -/
theorem signal_barrier_kept :
    ∃ s, sampleSystem.ReachableBy (SignalsFirst sampleGraph) s ∧ Clean sampleGraph s ∧
      s.log.processed sampleEdge = [⟨0, sampleFrame 1⟩] ∧
      (s.log.handled sampleEdge).filter (·.callback = 0) = [⟨0, sampleSignal 2⟩] := by
  obtain ⟨s, hr, ht⟩ := sampleSystem.exists_reachableBy_of_runBy
    (C := SignalsFirst sampleGraph) rfl
    (Label.works 0 2 ++ Label.works 1 2 ++ Label.works 0 4 ++ [Label.call 0 sampleOutput] ++
      Label.works 0 2 ++ Label.forwards 5 ++ Label.works 0 8 ++ Label.forwards 12 ++
      Label.works 1 16)
    (fun s => Clean sampleGraph s ∧ s.log.processed sampleEdge = [⟨0, sampleFrame 1⟩] ∧
      s.log.outputs 0 = [sampleOutput]) (by decide +kernel)
  simp only [decide_eq_true_eq] at ht
  obtain ⟨hc, hp, ho⟩ := ht
  obtain ⟨out, hout, hh⟩ := signal_barrier sampleGraph sampleOptions s hr hc sampleEdge (by decide)
    ⟨0, sampleFrame 1⟩ (.inl (by simp [hp]))
  refine ⟨s, hr, hc, hp, hh.trans ?_⟩
  rw [show sampleEdge.fromNodeId = 0 from rfl, ho] at hout
  cases hout
  rfl

/-- The sink polls the signal queue before the signal comes and the data queue after the frame
came. -/
theorem signal_barrier_slipped :
    ∃ s, sampleSystem.Reachable s ∧ Clean sampleGraph s ∧ s.log.outputs 0 = [sampleOutput] ∧
      s.log.processed sampleEdge = [⟨0, sampleFrame 1⟩] ∧ s.log.handled sampleEdge = [] := by
  obtain ⟨s, hr, ht⟩ := sampleSystem.exists_reachable_of_run rfl
    (Label.works 0 2 ++ Label.works 1 2 ++ Label.works 0 4 ++ Label.works 1 8 ++
      [Label.call 0 sampleOutput] ++ Label.works 0 2 ++ Label.forwards 5 ++ Label.works 0 4 ++
      Label.forwards 3 ++ Label.works 1 2)
    (fun s => Clean sampleGraph s ∧ s.log.outputs 0 = [sampleOutput] ∧
      s.log.processed sampleEdge = [⟨0, sampleFrame 1⟩] ∧ s.log.handled sampleEdge = [])
    (by decide +kernel)
  simp only [decide_eq_true_eq] at ht
  exact ⟨s, hr, ht⟩

end Muxiva.Runtime
