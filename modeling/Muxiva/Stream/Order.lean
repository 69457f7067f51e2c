import Muxiva.Stream.Frame

/-! Strict delivery order. Results leave the executor in acceptance order, and every
sequence that has left the input queue and is not yet delivered has an owner. -/
set_option linter.all false
namespace Muxiva.Stream

variable {φ : Type} {o : ManagedStreamOptions φ} {s s' : State φ}

/-- The sequence the executor is moving from one owner to the next: a completion between
`active.remove` and its resolution, or a popped envelope not yet admitted or resolved. -/
def ExecPc.inHand : ExecPc φ → Option ℕ
  | .unregister c _ => some c.sequence
  | .admitFlag e _ | .admitClock e _ | .tombstone e _ | .admitExpire e _ | .admitRelease e _
  | .admitUnregister e _ _ => some e.sequence
  | _ => none

/-- Accepted and no longer in the input queue. -/
def State.LeftInput (s : State φ) (q : ℕ) : Prop :=
  q < s.nextSequence ∧ ∀ e ∈ s.input, e.sequence ≠ q

/-- Every undelivered sequence that left the input queue is active, resolved or in hand. -/
def State.Covered (s : State φ) : Prop :=
  ∀ q, s.LeftInput q → s.nextDelivery ≤ q → s.pc.inHand ≠ some q →
    s.active.contains q = true ∨ s.ordered.contains q = true

/-- The results in `log` were produced in increasing sequence order, all below `next`. -/
structure Ascending (log : List (StreamCompletion φ)) (next : ℕ) : Prop where
  increasing : (log.map StreamCompletion.sequence).Pairwise (· < ·)
  below : ∀ c ∈ log, c.sequence < next

theorem Ascending.snoc {log : List (StreamCompletion φ)} {next : ℕ} (h : Ascending log next)
    (c : StreamCompletion φ) (hc : c.sequence = next) : Ascending (log ++ [c]) (next + 1) where
  increasing := by
    simp only [List.map_append, List.pairwise_append, List.map_cons, List.map_nil]
    refine ⟨h.increasing, List.pairwise_singleton _ _, ?_⟩
    intro a ha b hb
    obtain ⟨x, hx, rfl⟩ := List.mem_map.mp ha
    rw [List.mem_singleton.mp hb, hc]
    exact h.below x hx
  below := by
    intro x hx
    rcases List.mem_append.mp hx with hx | hx
    · exact (h.below x hx).trans (Nat.lt_succ_self next)
    · rw [List.mem_singleton.mp hx, hc]
      exact Nat.lt_succ_self next

theorem Ascending.mono {log : List (StreamCompletion φ)} {m n : ℕ} (h : Ascending log m)
    (hmn : m ≤ n) : Ascending log n :=
  ⟨h.increasing, fun c hc => (h.below c hc).trans_le hmn⟩

/-- Delivery extends the log in order, whatever was handed to the caller before. -/
theorem flushStrict_ascending (log : List (StreamCompletion φ)) (fuel : ℕ) (d : Delivery φ)
    (h : Ascending (log ++ d.results) d.nextDelivery) :
    Ascending (log ++ (flushStrict o fuel d).results) (flushStrict o fuel d).nextDelivery := by
  induction fuel generalizing d with
  | zero => exact h
  | succ fuel ih =>
    simp only [flushStrict]
    split
    · exact h
    · apply ih
      simp only [Delivery.advance, List.append_nil]
      exact h.mono (Nat.le_succ _)
    · split_ifs
      · exact h
      · apply ih
        simp only [Delivery.advance, ← List.append_assoc]
        exact h.snoc _ rfl

/-- Delivery only removes entries it has delivered or skipped. -/
theorem flushStrict_ordered (fuel : ℕ) (d : Delivery φ) :
    d.nextDelivery ≤ (flushStrict o fuel d).nextDelivery ∧
      ∀ q, (flushStrict o fuel d).nextDelivery ≤ q →
        (flushStrict o fuel d).ordered.get? q = d.ordered.get? q := by
  induction fuel generalizing d with
  | zero => exact ⟨le_rfl, fun _ _ => rfl⟩
  | succ fuel ih =>
    have hadvance : ∀ out, d.nextDelivery ≤ (flushStrict o fuel (d.advance out)).nextDelivery ∧
        ∀ q, (flushStrict o fuel (d.advance out)).nextDelivery ≤ q →
          (flushStrict o fuel (d.advance out)).ordered.get? q = d.ordered.get? q := by
      intro out
      obtain ⟨hle, hget⟩ := ih (d.advance out)
      have hlt : d.nextDelivery + 1 ≤ (flushStrict o fuel (d.advance out)).nextDelivery := hle
      refine ⟨by omega, fun q hq => ?_⟩
      rw [hget q hq, Delivery.advance, SortedMap.get?_erase, if_neg (by omega)]
    simp only [flushStrict]
    split
    · exact ⟨le_rfl, fun _ _ => rfl⟩
    · exact hadvance _
    · split_ifs
      · exact ⟨le_rfl, fun _ _ => rfl⟩
      · exact hadvance _

/-- The delivery block serves the relaxed buffer first and then, under strict ordering, the
head of line. -/
theorem flush_eq : ∃ d : Delivery φ, d.ordered = s.ordered ∧ d.nextDelivery = s.nextDelivery ∧
    d.results = (flushRelaxed o.resultCapacity s.relaxed s.results).2 ∧
    ∃ m, s.flush o = { s with
      relaxed := (flushRelaxed o.resultCapacity s.relaxed s.results).1
      ordered := (if o.ordering = .strict then flushStrict o s.ordered.entries.length d else d).ordered
      nextDelivery :=
        (if o.ordering = .strict then flushStrict o s.ordered.entries.length d else d).nextDelivery
      results := (if o.ordering = .strict then flushStrict o s.ordered.entries.length d else d).results
      madeProgress :=
        (if o.ordering = .strict then flushStrict o s.ordered.entries.length d else d).progressed
      metrics := m } :=
  ⟨_, rfl, rfl, rfl, (s.flush o).metrics, rfl⟩

/-- Under strict ordering the delivery block is the strict loop on the executor's buffers. -/
theorem flush_strict (hs : o.ordering = .strict) (hr : s.relaxed = []) :
    ∃ d : Delivery φ, d.ordered = s.ordered ∧ d.nextDelivery = s.nextDelivery ∧
      d.results = s.results ∧ d.progressed = s.madeProgress ∧ ∃ m, s.flush o = { s with
        ordered := (flushStrict o s.ordered.entries.length d).ordered
        nextDelivery := (flushStrict o s.ordered.entries.length d).nextDelivery
        results := (flushStrict o s.ordered.entries.length d).results
        madeProgress := (flushStrict o s.ordered.entries.length d).progressed
        metrics := m } := by
  refine ⟨⟨s.ordered, s.nextDelivery, s.results, s.madeProgress, s.metrics.resultBackpressure⟩,
    rfl, rfl, rfl, rfl, (s.flush o).metrics, ?_⟩
  simp [State.flush, flushRelaxed, hs, hr]

/-- The delivery invariant of a strict stream. -/
structure OrderInv (s : State φ) : Prop where
  relaxed : s.relaxed = []
  ascending : Ascending (s.delivered ++ s.results) s.nextDelivery
  closing : s.pc = .finalize ∨ s.pc = .stopped → s.closed = true
  covered : s.closed = false → s.Covered

theorem orderInv_initial : OrderInv (State.initial : State φ) where
  relaxed := rfl
  ascending := ⟨List.Pairwise.nil, by simp [State.initial]⟩
  closing := by simp [State.initial]
  covered := by
    intro _ q hq
    exact absurd hq.1 (Nat.not_lt_zero q)

theorem OrderInv.congr (hi : OrderInv s) (hb : SameBuffers s s')
    (hh : s'.pc.inHand = s.pc.inHand)
    (hf : s'.pc = .finalize ∨ s'.pc = .stopped → s.closed = true) : OrderInv s' where
  relaxed := hb.relaxed.trans hi.relaxed
  ascending := by
    rw [hb.delivered, hb.results, hb.nextDelivery]
    exact hi.ascending
  closing h := hb.closed.trans (hf h)
  covered := by
    intro hc q hq hn hp
    have hc' : s.closed = false := hb.closed ▸ hc
    have hq' : s.LeftInput q := ⟨hb.nextSequence ▸ hq.1, hb.input ▸ hq.2⟩
    rw [hb.active, hb.ordered]
    exact hi.covered hc' q hq' (hb.nextDelivery ▸ hn) (hh ▸ hp)

theorem OrderInv.of_sameExecutor (hi : OrderInv s) (h : SameExecutor s s') : OrderInv s' := by
  have hpc : s'.pc.inHand = s.pc.inHand ∧
      (s'.pc = .finalize ∨ s'.pc = .stopped → s.pc = .finalize ∨ s.pc = .stopped) := by
    rcases h.pc with h | h
    · exact ⟨by rw [h], fun hf => h ▸ hf⟩
    · rcases ExecPc.woken_cases s.pc with hw | ⟨next, hp, hw⟩
      · exact ⟨by rw [h, hw], fun hf => (h.trans hw) ▸ hf⟩
      · refine ⟨by rw [h, hw, hp]; rfl, fun hf => ?_⟩
        simp [h, hw] at hf
  exact hi.congr h.toSameBuffers hpc.1 fun hf => hi.closing (hpc.2 hf)

theorem orderInv_flush (hs : o.ordering = .strict) (hi : OrderInv s) (hc : s.closed = false)
    (hh : s.pc.inHand = none) : OrderInv { s.flush o with pc := .launch [] } := by
  obtain ⟨d, ho, hn, hr, -, m, hf⟩ := flush_strict hs hi.relaxed
  rw [hf]
  constructor
  · exact hi.relaxed
  · apply flushStrict_ascending
    rw [hr, hn]
    exact hi.ascending
  · simp
  · intro _ q hq hq' _
    obtain ⟨hle, hget⟩ := flushStrict_ordered (o := o) s.ordered.entries.length d
    have hcov := hi.covered hc q hq (by rw [← hn]; exact hle.trans hq') (by simp [hh])
    have hg := hget q hq'
    simp only [SortedMap.contains] at hcov ⊢
    rw [hg, ho]
    exact hcov

theorem OrderInv.recover (hi : OrderInv s) (hr : s'.relaxed = s.relaxed)
    (hd : s'.delivered = s.delivered) (hres : s'.results = s.results)
    (hn : s'.nextDelivery = s.nextDelivery) (hc : s'.closed = s.closed)
    (hf : s'.pc ≠ .finalize ∧ s'.pc ≠ .stopped) (hcov : s.Covered → s'.Covered) :
    OrderInv s' where
  relaxed := hr.trans hi.relaxed
  ascending := by
    rw [hd, hres, hn]
    exact hi.ascending
  closing h := absurd h (by simp [hf])
  covered h := hcov (hi.covered (hc ▸ h))

/-- One action of the executor keeps the delivery invariant. -/
theorem orderInv_execStep (hs : o.ordering = .strict) {spawned : Bool} (hi : OrderInv s)
    (h : s.execStep o spawned = some s') : OrderInv s' := by
  have hb : ∀ pc, SameBuffers s { s with pc := pc } := fun pc => by constructor <;> rfl
  have hrel : o.ordering ≠ .relaxed := by simp [hs]
  -- the sequence in hand is the only one a step may move; grind follows it through the maps
  cases execStep_branch h with
  | topClosed hc hpc | deliverClosed hc hpc =>
    exact hi.congr (hb _) (by rw [hpc]; rfl) fun _ => hc
  | top _ hpc =>
    refine hi.recover rfl rfl rfl rfl rfl (by simp) fun hcov q hq hn _ => ?_
    exact hcov q hq hn (by simp [hpc, ExecPc.inHand])
  | resolve c cs hpc =>
    refine hi.recover rfl rfl rfl rfl rfl (by simp) fun hcov q hq hn hh => ?_
    have := hcov q hq hn (by simp [hpc, ExecPc.inHand])
    simp only [ExecPc.inHand, ne_eq, Option.some.injEq] at hh
    grind
  | unregister c cs hpc =>
    refine hi.recover (by simp [State.bufferCompletion, State.buffer, hrel]) rfl rfl rfl rfl
      (by simp) fun hcov q hq hn _ => ?_
    have := hcov q hq hn
    simp only [hpc, ExecPc.inHand, State.bufferCompletion, State.buffer, hs, true_and,
      State.removeRegistration] at *
    grind
  | scanCancelled now q' r rest _ hpc =>
    refine hi.recover (by simp [State.bufferTombstone, State.buffer, hrel]) rfl rfl rfl rfl
      (by simp) fun hcov q hq hn _ => ?_
    have := hcov q hq hn (by simp [hpc, ExecPc.inHand])
    simp only [State.bufferTombstone, State.buffer, hs, true_and] at *
    grind
  | expired now q' r rest hpc =>
    refine hi.recover (by simp [State.bufferTimeout, State.buffer, hrel]) rfl rfl rfl rfl
      (by simp) fun hcov q hq hn _ => ?_
    have := hcov q hq hn (by simp [hpc, ExecPc.inHand])
    simp only [State.bufferTimeout, State.buffer, hs, true_and, State.takeLease,
      State.setTerminal] at *
    grind
  | deliver hc hpc =>
    exact orderInv_flush hs hi (by simpa using hc) (by simp [hpc, ExecPc.inHand])
  | launch ls e es hin _ hpc =>
    refine hi.recover rfl rfl rfl rfl rfl (by simp) fun hcov q hq hn hh => ?_
    refine hcov q ⟨hq.1, ?_⟩ hn (by simp [hpc, ExecPc.inHand])
    simp only [ExecPc.inHand, ne_eq, Option.some.injEq] at hh
    rw [hin]
    exact List.forall_mem_cons.mpr ⟨hh, hq.2⟩
  | admitClock e ls _ hpc =>
    refine hi.recover rfl rfl rfl rfl rfl (by simp) fun hcov q hq hn _ => ?_
    have := hcov q hq hn
    simp only [hpc, ExecPc.inHand] at *
    grind
  | tombstone e ls hpc | admitUnregister e _ ls hpc =>
    refine hi.recover (by simp [State.buffer, hrel]) rfl rfl rfl rfl
      (by simp) fun hcov q hq hn _ => ?_
    have := hcov q hq hn
    simp only [hpc, ExecPc.inHand, State.buffer, hs, true_and, State.removeRegistration] at *
    grind
  | expire _ _ _ _ _ hpc | admitExpire _ _ _ hpc | admitRelease _ _ hpc | spawn _ _ _ hpc
  | spawnFinish _ _ _ hpc | spawnRelease _ _ hpc | spawnPush _ _ _ hpc =>
    exact hi.congr (by constructor <;> rfl) (by rw [hpc]; rfl) (by simp)
  | finalize hpc =>
    have hc := hi.closing (.inl hpc)
    exact ⟨rfl, hi.ascending, fun _ => hc, fun hc' => by simp [hc] at hc'⟩
  | _ =>
    rename_i hpc
    exact hi.congr (hb _) (by rw [hpc]; rfl) (by simp)

theorem orderInv_trySubmit (hi : OrderInv s) (r : AsyncRequest φ) (lifecycle : ℕ) :
    OrderInv (s.trySubmit o r lifecycle) := by
  rcases trySubmit_cases (o := o) (s := s) r lifecycle with ⟨m, h⟩ | ⟨-, -, m, h⟩ <;> rw [h]
  · exact hi.of_sameExecutor ⟨by constructor <;> rfl, .inl rfl⟩
  · have hw : OrderInv s.notifyAll := hi.of_sameExecutor ⟨by constructor <;> rfl, .inr rfl⟩
    refine ⟨hi.relaxed, hi.ascending, hw.closing, fun hc q hq => ?_⟩
    -- the fresh sequence is still in the input queue
    have hne : q ≠ s.nextSequence := fun he => by
      subst he
      exact hq.2 _ (List.mem_append_right _ (List.mem_singleton_self _)) rfl
    have hlt : q < s.nextSequence + 1 := hq.1
    exact hw.covered hc q ⟨by simp only [State.notifyAll]; omega,
      fun e he => hq.2 e (List.mem_append_left _ he)⟩

theorem orderInv_tryRecv (hi : OrderInv s) : OrderInv s.tryRecv := by
  rcases tryRecv_cases (s := s) with h | ⟨c, cs, m, hr, h⟩ <;> rw [h]
  · exact hi
  · have hw : OrderInv s.notifyAll := hi.of_sameExecutor ⟨by constructor <;> rfl, .inr rfl⟩
    refine ⟨hi.relaxed, ?_, hw.closing, hw.covered⟩
    simpa [hr, List.append_assoc] using hi.ascending

theorem orderInv_close (hi : OrderInv s) {order : List ℕ} (hp : s.stop = .close)
    (h : s.stopStep order = some s') : OrderInv s' := by
  simp only [State.stopStep, hp] at h
  split_ifs at h
  cases h
  refine ⟨hi.relaxed, ⟨?_, ?_⟩, fun _ => rfl, fun hc => by simp at hc⟩
  · have := hi.ascending.increasing
    rw [List.map_append] at this
    simpa using (List.pairwise_append.mp this).1
  · intro c hc
    exact hi.ascending.below c (List.mem_append_left _ (by simpa using hc))

theorem orderInv_step (hs : o.ordering = .strict) {a : Label φ} (hi : OrderInv s)
    (h : s.step o a = some s') : OrderInv s' := by
  cases a with
  | trySubmit r lifecycle =>
    simp only [State.step] at h
    split_ifs at h
    cases h
    exact orderInv_trySubmit hi r lifecycle
  | tryRecv =>
    simp only [State.step] at h
    split_ifs at h
    cases h
    exact orderInv_tryRecv hi
  | exec spawned => exact orderInv_execStep hs hi h
  | worker q out => exact hi.of_sameExecutor (workerStep_sameExecutor h)
  | cancelBegin requestId => cases h; exact hi.of_sameExecutor ⟨by constructor <;> rfl, .inl rfl⟩
  | cancel i => exact hi.of_sameExecutor (cancelStep_sameExecutor h)
  | requestStop =>
    simp only [State.step] at h
    split_ifs at h <;> cases h <;> exact hi.of_sameExecutor ⟨by constructor <;> rfl, .inl rfl⟩
  | stop order =>
    by_cases hp : s.stop = .close
    · exact orderInv_close hi hp h
    · exact hi.of_sameExecutor (stopStep_sameExecutor hp h)
  | tick d => cases h; exact hi.of_sameExecutor ⟨by constructor <;> rfl, .inl rfl⟩
  | wake =>
    simp only [State.step] at h
    split at h <;> cases h
    rename_i next hp
    exact hi.of_sameExecutor ⟨by constructor <;> rfl, .inr (by rw [hp]; rfl)⟩

theorem orderInv (hs : o.ordering = .strict) {C : State φ → Label φ → Prop}
    (hr : (system o).ReachableBy C s) : OrderInv s :=
  invariant orderInv_initial (fun _ _ _ hi h => orderInv_step hs hi h) hr.reachable

end Muxiva.Stream
