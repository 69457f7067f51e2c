import Muxiva.Stream.Calls
import Muxiva.Stream.Order

/-! Wake-ups of a strict stream by `cancel`. A cancel call stores its flag and notifies
without the mailbox lock, so its notification can fall between the executor's reading of the
flag and its wait. Outside that window no cancellation is lost. -/
set_option linter.all false
namespace Muxiva.Stream

variable {φ : Type} {o : ManagedStreamOptions φ} {s s' : State φ}

/-- The executor has read the flag of `q` in this pass, made no progress so far, and is not
yet waiting: a notification sent now reaches nobody. -/
def State.pastCheck (s : State φ) (q : ℕ) : Bool :=
  match s.pc with
  | .scan _ rest | .expire _ _ _ rest | .expired _ _ _ rest =>
    !s.madeProgress && !(rest.map Prod.fst).contains q
  | .deliver | .launch _ | .settle _ => !s.madeProgress
  | .deadlines .. => true
  | _ => false

/-- `q` is active and has neither been delivered nor resolved. -/
def State.unresolved (s : State φ) (q : ℕ) : Bool :=
  s.active.contains q && decide (s.nextDelivery ≤ q) && !s.ordered.contains q

/-- A call is about to notify. -/
def State.NotificationInFlight (s : State φ) : Prop :=
  (∃ q won, .notify q won ∈ s.cancels) ∨ s.stop = .notify

/-- The executor sleeps without a timeout although an active, unresolved request is cancelled. -/
def State.LostCancellation (s : State φ) : Prop :=
  s.pc = .parked none ∧ ¬ s.NotificationInFlight ∧ s.closed = false ∧
    ∃ q, s.unresolved q = true ∧ .returned (some q) true ∈ s.cancels

/-- No cancel call notifies about an unresolved request whose flag the executor has already
read in a pass that may end in a wait. -/
def notifiesInTime (s : State φ) : Label φ → Bool
  | .cancel i =>
    match s.cancels[i]? with
    | some (.notify q _) => !(s.pastCheck q && s.unresolved q)
    | _ => true
  | _ => true

/-- Holding an envelope popped in this pass. -/
def ExecPc.admitting : ExecPc φ → Bool
  | .admitFlag .. | .admitClock .. | .tombstone .. | .admitExpire .. | .admitRelease ..
  | .admitUnregister .. => true
  | _ => false

def ExecPc.waiting : ExecPc φ → Bool
  | .parked _ => true
  | _ => false

theorem ExecPc.woken_ne_of_waiting {pc : ExecPc φ} (h : pc.waiting = true) : pc.woken ≠ pc := by
  unfold ExecPc.waiting at h
  split at h
  · intro heq
    cases heq
  · cases h

theorem flushStrict_progressed (fuel : ℕ) (d : Delivery φ) (h : d.progressed = true) :
    (flushStrict o fuel d).progressed = true := by
  induction fuel generalizing d with
  | zero => exact h
  | succ fuel ih =>
    simp only [flushStrict]
    split
    · exact h
    · exact ih _ rfl
    · split_ifs
      · exact h
      · exact ih _ rfl

/-- The delivery block never takes progress back and never un-resolves a sequence. -/
theorem flush_keeps (hs : o.ordering = .strict) (hr : s.relaxed = []) {q : ℕ} :
    ((s.flush o).madeProgress = false → s.madeProgress = false) ∧
      ((s.flush o).unresolved q = true → s.unresolved q = true) := by
  obtain ⟨d, ho, hn, -, hp, m, hf⟩ := flush_strict hs hr
  obtain ⟨hle, hget⟩ := flushStrict_ordered (o := o) s.ordered.entries.length d
  rw [hf]
  constructor
  · intro h
    by_contra hne
    have := flushStrict_progressed (o := o) s.ordered.entries.length d
      (by simpa [hp] using hne)
    simp [this] at h
  · simp only [State.unresolved, SortedMap.contains, Bool.and_eq_true, decide_eq_true_eq]
    rintro ⟨⟨ha, hq⟩, hno⟩
    rw [hget q hq, ho] at hno
    exact ⟨⟨ha, by omega⟩, hno⟩

/-- Buffering a resolution never un-resolves a sequence. -/
theorem unresolved_of_buffer {keep : Prop} [Decidable keep] {k requestId q : ℕ}
    {r : Option (StreamResult φ)} (h : (s.buffer o keep k requestId r).unresolved q = true) :
    s.unresolved q = true := by
  simp only [State.unresolved, State.buffer, Bool.and_eq_true, Bool.not_eq_true'] at h ⊢
  refine ⟨h.1, ?_⟩
  have hno := h.2
  split_ifs at hno
  · simp only [SortedMap.contains_insert, Bool.or_eq_false_iff] at hno
    exact hno.2
  · exact hno

theorem not_unresolved_of_tombstone (hs : o.ordering = .strict) {q requestId : ℕ} :
    (s.bufferTombstone o q requestId).unresolved q = false := by
  simp only [State.unresolved, State.bufferTombstone, State.buffer, hs, true_and]
  grind

/-- The executor enters the window for `q`, or its wait, only from inside the window or by
reading the flag of `q` unset. -/
theorem execStep_pastCheck (hs : o.ordering = .strict) (hr : s.relaxed = [])
    (hadm : s.pc.admitting = true → s.madeProgress = true) {spawned : Bool}
    (h : s.execStep o spawned = some s') {q : ℕ}
    (hq : s'.pastCheck q = true ∨ s'.pc.waiting = true) (hu : s'.unresolved q = true) :
    (s.pastCheck q = true ∧ s.unresolved q = true) ∨ (s.terminals q).cancelled = false := by
  cases execStep_branch h with
  | resolved hpc =>
    -- every active request is still to be scanned
    simp only [State.pastCheck, ExecPc.waiting, State.unresolved, SortedMap.contains_iff,
      ← SortedMap.mem_keys_iff, SortedMap.keys, Bool.and_eq_true] at hq hu
    simp [hu.1.1] at hq
  | scanCancelled now q' r rest hc hpc =>
    by_cases he : q = q'
    · subst he
      have : (s.bufferTombstone o q r.requestId).unresolved q = true := hu
      simp [not_unresolved_of_tombstone hs] at this
    · refine .inl ⟨?_, unresolved_of_buffer hu⟩
      simpa [State.pastCheck, ExecPc.waiting, hpc, he, State.bufferTombstone, State.buffer]
        using hq
  | scanDue now q' r rest _ hc hpc | scan now q' r rest _ hc hpc =>
    by_cases he : q = q'
    · subst he
      exact .inr (by simpa using hc)
    · exact .inl ⟨by simpa [State.pastCheck, ExecPc.waiting, hpc, he] using hq, hu⟩
  | scanned _ hpc | expireLost _ _ _ _ _ hpc | expire _ _ _ _ _ hpc | launchFull _ _ hpc
  | launchEmpty _ _ _ hpc =>
    exact .inl ⟨by simpa [State.pastCheck, ExecPc.waiting, hpc] using hq, hu⟩
  | expired now q' r rest hpc =>
    refine .inl ⟨?_, unresolved_of_buffer hu⟩
    simpa [State.pastCheck, ExecPc.waiting, hpc, State.bufferTimeout, State.buffer] using hq
  | deliver _ hpc =>
    obtain ⟨hp, hun⟩ := flush_keeps (q := q) hs hr
    refine .inl ⟨?_, hun hu⟩
    simpa [State.pastCheck, hpc] using
      hp (by simpa [State.pastCheck, ExecPc.waiting] using hq)
  | admitClock _ _ _ hpc | tombstone _ _ hpc | admitUnregister _ _ _ hpc =>
    -- the pass has made progress, so it does not end in a wait
    have := hadm (by rw [hpc]; rfl)
    simp [State.pastCheck, ExecPc.waiting, State.buffer, this] at hq
  | settleIdle ls _ hidle hpc => exact .inl ⟨by simpa [State.pastCheck, hpc] using hidle.2, hu⟩
  | deadlinesDone _ hpc | deadlinesTerminal _ _ _ _ _ hpc | deadlines _ _ _ _ _ hpc =>
    exact .inl ⟨by simp [State.pastCheck, hpc], hu⟩
  | _ => simp [State.pastCheck, ExecPc.waiting] at hq

/-- Inside the window and in the wait no cancel call has returned for an unresolved request. -/
structure WakeInv (s : State φ) : Prop where
  admitting : s.pc.admitting = true → s.madeProgress = true
  exposed : s.closed = false → ∀ q, s.pastCheck q = true ∨ s.pc.waiting = true →
    s.unresolved q = true → ∀ won, .returned (some q) won ∉ s.cancels

theorem wakeInv_initial : WakeInv (State.initial : State φ) := by
  constructor <;> simp [State.initial, ExecPc.admitting]

/-- A step that leaves the executor alone, or wakes it, only has to keep the calls that may
have returned for requests in the window. -/
theorem WakeInv.of_sameExecutor (hi : WakeInv s) (h : SameExecutor s s')
    (hc : s'.pc = s.pc → ∀ q won, s.pastCheck q = true ∨ s.pc.waiting = true →
      s.unresolved q = true → .returned (some q) won ∈ s'.cancels →
      ∃ won', .returned (some q) won' ∈ s.cancels) : WakeInv s' := by
  have hpast : s'.pc = s.pc → ∀ q, s'.pastCheck q = s.pastCheck q := fun hp q => by
    simp only [State.pastCheck, hp, h.madeProgress]
  have hsame : s'.pc = s.pc → WakeInv s' := fun hp =>
    ⟨by rw [hp, h.madeProgress]; exact hi.admitting, fun hcl q hq hu won hmem => by
      rw [hpast hp, hp] at hq
      have hu' : s.unresolved q = true := by
        simpa only [State.unresolved, h.active, h.nextDelivery, h.ordered] using hu
      obtain ⟨won', hmem'⟩ := hc hp q won hq hu' hmem
      exact hi.exposed (h.closed ▸ hcl) q hq hu' won' hmem'⟩
  rcases h.pc with hp | hp
  · exact hsame hp
  · rcases ExecPc.woken_cases s.pc with hw | ⟨next, -, hw⟩
    · exact hsame (hp.trans hw)
    · refine ⟨by simp [hp, hw, ExecPc.admitting], fun _ q hq => ?_⟩
      simp [State.pastCheck, hp, hw, ExecPc.waiting] at hq

theorem WakeInv.of_sameCancels (hi : WakeInv s) (h : SameExecutor s s')
    (hc : s'.cancels = s.cancels) : WakeInv s' :=
  hi.of_sameExecutor h fun _ _ won _ _ hmem => ⟨won, hc ▸ hmem⟩

theorem execStep_admitting {spawned : Bool} (hadm : s.pc.admitting = true → s.madeProgress = true)
    (h : s.execStep o spawned = some s') (ha : s'.pc.admitting = true) :
    s'.madeProgress = true := by
  cases execStep_branch h with
  | launch => rfl
  | admitCancelled _ _ _ hpc | admitFlag _ _ _ hpc | admitDue _ _ _ hpc
  | admitExpireLost _ _ _ hpc | admitExpire _ _ _ hpc | admitRelease _ _ hpc =>
    exact hadm (by rw [hpc]; rfl)
  | _ => exact (Bool.false_ne_true ha).elim

theorem wakeInv_execStep (hs : o.ordering = .strict) {spawned : Bool} (hi : WakeInv s)
    (ho : OrderInv s) (hcall : CallInv s) (h : s.execStep o spawned = some s') : WakeInv s' := by
  have hsame := execStep_sameCalls h
  refine ⟨execStep_admitting hi.admitting h, fun hcl q hq hu won hmem => ?_⟩
  rw [hsame.cancels] at hmem
  rcases execStep_pastCheck hs ho.relaxed hi.admitting h hq hu with ⟨hq', hu'⟩ | hflag
  · exact hi.exposed (hsame.closed ▸ hcl) q (.inl hq') hu' won hmem
  · have := hcall.raised _ hmem q rfl
    simp [hflag] at this

theorem wakeInv_cancelStep {i : ℕ} (hi : WakeInv s)
    (hc : notifiesInTime s (.cancel i) = true) (h : s.cancelStep i = some s') : WakeInv s' := by
  have hsame := cancelStep_sameExecutor h
  have hold : ∀ {c' : CancelPc} {q : ℕ} {won : Bool}, (∀ q' w, c' ≠ .returned (some q') w) →
      .returned (some q) won ∈ s.cancels.set i c' → ∃ w, .returned (some q) w ∈ s.cancels :=
    fun hne hmem => (List.mem_or_eq_of_mem_set hmem).elim (fun h => ⟨_, h⟩)
      fun h => absurd h.symm (hne _ _)
  obtain ⟨_, -, rfl⟩ | ⟨_, q', -, -, -, rfl⟩ | ⟨q', -, rfl⟩ | ⟨q', -, -, rfl⟩ | ⟨q', -, -, rfl⟩ |
    ⟨q', m, -, rfl⟩ | ⟨q', won', hget, rfl⟩ := cancelStep_cases h
  · exact hi.of_sameExecutor hsame fun _ _ _ _ _ hmem => hold (by simp) hmem
  · exact hi.of_sameExecutor hsame fun _ _ _ _ _ hmem => hold (by simp) hmem
  · exact hi.of_sameExecutor hsame fun _ _ _ _ _ hmem => hold (by simp) hmem
  · exact hi.of_sameExecutor hsame fun _ _ _ _ _ hmem => hold (by simp) hmem
  · exact hi.of_sameExecutor hsame fun _ _ _ _ _ hmem => hold (by simp) hmem
  · exact hi.of_sameExecutor hsame fun _ _ _ _ _ hmem => hold (by simp) hmem
  · refine hi.of_sameExecutor hsame fun hpc q won hq hu hmem => ?_
    rcases List.mem_or_eq_of_mem_set hmem with hmem | heq
    · exact ⟨won, hmem⟩
    · -- the notification is inside the window, or it has woken the executor
      cases heq
      rcases hq with hq | hq
      · simp [notifiesInTime, hget, hq, hu] at hc
      · exact absurd hpc (ExecPc.woken_ne_of_waiting hq)

theorem wakeInv_close (hi : WakeInv s) {order : List ℕ} (hp : s.stop = .close)
    (h : s.stopStep order = some s') : WakeInv s' := by
  simp only [State.stopStep, hp] at h
  split_ifs at h
  cases h
  exact ⟨hi.admitting, fun hcl => by simp at hcl⟩

theorem wakeInv_trySubmit (hi : WakeInv s) (r : AsyncRequest φ) (lifecycle : ℕ) :
    WakeInv (s.trySubmit o r lifecycle) := by
  rcases trySubmit_cases (o := o) (s := s) r lifecycle with ⟨m, h⟩ | ⟨-, -, m, h⟩ <;> rw [h]
  · exact hi.of_sameCancels ⟨by constructor <;> rfl, .inl rfl⟩ rfl
  · have hw : WakeInv s.notifyAll := hi.of_sameCancels ⟨by constructor <;> rfl, .inr rfl⟩ rfl
    exact ⟨hw.admitting, hw.exposed⟩

theorem wakeInv_tryRecv (hi : WakeInv s) : WakeInv s.tryRecv := by
  rcases tryRecv_cases (s := s) with h | ⟨c, cs, m, -, h⟩ <;> rw [h]
  · exact hi
  · have hw : WakeInv s.notifyAll := hi.of_sameCancels ⟨by constructor <;> rfl, .inr rfl⟩ rfl
    exact ⟨hw.admitting, hw.exposed⟩

theorem wakeInv_step (hs : o.ordering = .strict) {a : Label φ} (hi : WakeInv s)
    (ho : OrderInv s) (hcall : CallInv s) (hc : notifiesInTime s a = true)
    (h : s.step o a = some s') : WakeInv s' := by
  cases a with
  | trySubmit r lifecycle =>
    simp only [State.step] at h
    split_ifs at h
    cases h
    exact wakeInv_trySubmit hi r lifecycle
  | tryRecv =>
    simp only [State.step] at h
    split_ifs at h
    cases h
    exact wakeInv_tryRecv hi
  | exec spawned => exact wakeInv_execStep hs hi ho hcall h
  | worker q out =>
    exact hi.of_sameCancels (workerStep_sameExecutor h) (workerStep_sameCalls h).cancels
  | cancelBegin requestId =>
    cases h
    refine hi.of_sameExecutor ⟨by constructor <;> rfl, .inl rfl⟩ fun _ q won _ _ hmem => ?_
    rcases List.mem_append.mp hmem with hmem | hmem
    · exact ⟨won, hmem⟩
    · simp at hmem
  | cancel i => exact wakeInv_cancelStep hi hc h
  | requestStop =>
    simp only [State.step] at h
    split_ifs at h <;> cases h <;>
      exact hi.of_sameCancels ⟨by constructor <;> rfl, .inl rfl⟩ rfl
  | stop order =>
    by_cases hp : s.stop = .close
    · exact wakeInv_close hi hp h
    · exact hi.of_sameCancels (stopStep_sameExecutor hp h) (stopStep_cancels h)
  | tick d => cases h; exact hi.of_sameCancels ⟨by constructor <;> rfl, .inl rfl⟩ rfl
  | wake =>
    simp only [State.step] at h
    split at h <;> cases h
    rename_i next hp
    exact hi.of_sameCancels ⟨by constructor <;> rfl, .inr (by rw [hp]; rfl)⟩ rfl

/-- In every run of a strict stream in which no cancel call notifies inside the window between
the executor's reading of that request's flag and its wait, no cancellation is lost. -/
theorem no_lost_cancellation (o : ManagedStreamOptions φ) (hs : o.ordering = .strict)
    (s : State φ) (hr : (system o).ReachableBy (fun s a => notifiesInTime s a = true) s) :
    ¬ s.LostCancellation := by
  have hi : WakeInv s := by
    refine invariantBy wakeInv_initial (fun s a s' hr hi hc h => ?_) hr
    exact wakeInv_step hs hi (orderInv hs hr) (callInv hr) hc h
  rintro ⟨hp, -, hcl, q, hu, hmem⟩
  exact hi.exposed hcl q (.inr (by rw [hp]; rfl)) hu true hmem

def ExecPc.sleeping : ExecPc φ → Bool
  | .parked none => true
  | _ => false

theorem ExecPc.eq_of_sleeping {pc : ExecPc φ} (h : pc.sleeping = true) : pc = .parked none := by
  unfold ExecPc.sleeping at h
  split at h
  · rfl
  · cases h

/-- A cancellation that notifies while the executor waits is seen by the next pass. -/
theorem no_lost_cancellation_parked :
    ∃ s, (system (sampleOptions .strict)).ReachableBy (fun s a => notifiesInTime s a = true) s ∧
      s.pc = .parked none ∧ .returned (some 0) true ∈ s.cancels ∧ s.active.contains 0 = true ∧
      ¬ s.LostCancellation := by
  obtain ⟨s, hr, ht⟩ := (system (sampleOptions .strict)).exists_reachableBy_of_runBy rfl
    ([Label.submit 7] ++ Label.execs 21 ++ Label.cancelCall 0 7 ++ Label.execs 18)
    (fun s => s.pc.sleeping ∧ .returned (some 0) true ∈ s.cancels ∧ s.active.contains 0)
    (C := fun s a => notifiesInTime s a = true) (by decide +kernel)
  simp only [decide_eq_true_eq] at ht
  exact ⟨s, hr, ExecPc.eq_of_sleeping ht.1, ht.2.1, ht.2.2,
    no_lost_cancellation (sampleOptions .strict) rfl s hr⟩

/-- The executor has read the flag of the only active request, the whole cancel call runs,
and the executor then waits without a timeout. -/
theorem lost_cancellation :
    ∃ s, (system (sampleOptions .strict)).Reachable s ∧ s.LostCancellation := by
  obtain ⟨s, hr, ht⟩ := (system (sampleOptions .strict)).exists_reachable_of_run rfl
    ([Label.submit 7] ++ Label.execs 15 ++ Label.cancelCall 0 7 ++ Label.execs 6)
    (fun s => s.pc.sleeping ∧ s.cancels = [.returned (some 0) true] ∧ s.stop = .idle ∧
      s.closed = false ∧ s.unresolved 0) (by decide +kernel)
  simp only [decide_eq_true_eq] at ht
  obtain ⟨hp, hc, hstop, hcl, hu⟩ := ht
  refine ⟨s, hr, ExecPc.eq_of_sleeping hp, ?_, hcl, 0, hu, by simp [hc]⟩
  simp [State.NotificationInFlight, hc, hstop]

end Muxiva.Stream
