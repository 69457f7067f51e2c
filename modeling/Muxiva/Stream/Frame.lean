import Muxiva.Stream.Model

/-! What the parties other than the executor leave alone. Workers, cancel calls, the clock
and the later phases of `request_stop` never touch the executor's buffers or the mailbox
contents the executor delivers from; at most they wake a parked executor. -/
set_option linter.all false
namespace Muxiva.Stream

variable {φ : Type} {o : ManagedStreamOptions φ} {s s' : State φ}

/-- `s'` has the buffers, the mailbox queues served from them and the delivery log of `s`. -/
structure SameBuffers (s s' : State φ) : Prop where
  nextSequence : s'.nextSequence = s.nextSequence
  input : s'.input = s.input
  results : s'.results = s.results
  closed : s'.closed = s.closed
  active : s'.active = s.active
  ordered : s'.ordered = s.ordered
  relaxed : s'.relaxed = s.relaxed
  nextDelivery : s'.nextDelivery = s.nextDelivery
  madeProgress : s'.madeProgress = s.madeProgress
  delivered : s'.delivered = s.delivered

/-- The executor has not moved, except that it may have been woken. -/
structure SameExecutor (s s' : State φ) : Prop extends SameBuffers s s' where
  pc : s'.pc = s.pc ∨ s'.pc = s.pc.woken

theorem ExecPc.woken_cases (pc : ExecPc φ) :
    pc.woken = pc ∨ ∃ next, pc = .parked next ∧ pc.woken = .top := by
  cases pc <;> simp [ExecPc.woken]

/-- Still inside the attempt loop. -/
def WorkerPc.attempting : WorkerPc φ → Bool
  | .checkFlag .. | .checkClock .. | .call _ => true
  | _ => false

theorem WorkerPc.live_of_attempting {pc : WorkerPc φ} (h : pc.attempting = true) :
    pc.live = true := by
  cases pc <;> first | rfl | cases h

theorem respond_cases (attempt limit : ℕ) (r : AdapterResponse φ) :
    (respond o attempt limit r).attempting = true ∨
      ∃ result, respond o attempt limit r = .finish (some result) := by
  cases r with
  | frames fs => simp only [respond]; split <;> exact .inr ⟨_, rfl⟩
  | failed e => exact .inr ⟨_, rfl⟩
  | retryable e =>
    simp only [respond]
    split_ifs
    · exact .inl rfl
    · exact .inr ⟨_, rfl⟩

theorem proceed_cases (q : ℕ) (w : Worker φ) (attempt : ℕ) (c : CheckPoint φ) :
    ∃ pc m, (pc.attempting = true ∨ ∃ result, pc = .finish (some result)) ∧
      s.proceed o q w attempt c = { s.setWorker q w pc with metrics := m } := by
  cases c with
  | begin =>
    simp only [State.proceed]
    split_ifs <;> exact ⟨_, _, .inl rfl, rfl⟩
  | reconnected => exact ⟨_, _, .inl rfl, rfl⟩
  | responded r =>
    refine ⟨respond o attempt w.envelope.attemptLimit r, ?_, respond_cases _ _ r, ?_⟩
    · exact (s.proceed o q w attempt (.responded r)).metrics
    · cases r with
      | frames fs => rfl
      | failed e => rfl
      | retryable e => simp only [State.proceed]; split_ifs <;> rfl

/-- What one action of a worker can do: go on attempting, or reach `finish` with no result
only after seeing the flag; lose or win the terminal flag; take the lease; hand over the
completion; drop the envelope. -/
theorem workerStep_cases {q : ℕ} {out : AdapterOutcome φ} (h : s.workerStep o q out = some s') :
    ∃ w, s.workers q = some w ∧
      ((w.pc.attempting = true ∧ ∃ pc m, (pc.attempting = true ∨ ∃ r, pc = .finish r ∧
          (r = none → (s.terminals q).cancelled = true)) ∧
          s' = { s.setWorker q w pc with metrics := m }) ∨
        (∃ r m, w.pc = .finish r ∧ (s.terminals q).terminal = true ∧
          s' = { s.setWorker q w (.push none) with metrics := m }) ∨
        (∃ r, w.pc = .finish r ∧ ¬ (s.terminals q).terminal = true ∧
          s' = (s.win q .worker).setWorker q w (.release r)) ∨
        (∃ r m, w.pc = .release r ∧
          s' = { (s.takeLease q).setWorker q w (.push r) with metrics := m }) ∨
        (∃ r, w.pc = .push r ∧ s.pc.locked = false ∧
          s' = (s.pushWorkerCompletion ⟨q, w.envelope.requestId, r⟩).setWorker q w .leave) ∨
        (w.pc = .leave ∧ s' = s.setWorker q w .exited)) := by
  obtain ⟨w, hw, h⟩ := Option.bind_eq_some_iff.mp h
  refine ⟨w, hw, ?_⟩
  cases hp : w.pc with
  | checkFlag attempt c =>
    simp only [hp] at h
    split_ifs at h with hc <;> cases h
    · exact .inl ⟨rfl, _, s.metrics, .inr ⟨none, rfl, fun _ => hc⟩, rfl⟩
    · exact .inl ⟨rfl, _, s.metrics, .inl rfl, rfl⟩
  | checkClock attempt c =>
    simp only [hp] at h
    split_ifs at h <;> cases h
    · exact .inl ⟨rfl, _, s.metrics, .inr ⟨_, rfl, by simp⟩, rfl⟩
    · obtain ⟨pc, m, hpc, heq⟩ := proceed_cases (o := o) (s := s) q w attempt c
      refine .inl ⟨rfl, pc, m, hpc.imp_right ?_, heq⟩
      rintro ⟨r, rfl⟩
      exact ⟨_, rfl, by simp⟩
  | call attempt =>
    simp only [hp] at h
    cases h
    exact .inl ⟨rfl, _, s.metrics, .inl rfl, rfl⟩
  | finish r =>
    simp only [hp] at h
    split_ifs at h with ht <;> cases h
    · exact .inr (.inl ⟨r, _, rfl, ht, rfl⟩)
    · exact .inr (.inr (.inl ⟨r, rfl, ht, rfl⟩))
  | release r =>
    simp only [hp] at h
    cases h
    exact .inr (.inr (.inr (.inl ⟨r, _, rfl, rfl⟩)))
  | push r =>
    simp only [hp] at h
    split_ifs at h with hl
    cases h
    exact .inr (.inr (.inr (.inr (.inl ⟨r, rfl, by simpa using hl, rfl⟩))))
  | leave =>
    simp only [hp] at h
    cases h
    exact .inr (.inr (.inr (.inr (.inr ⟨rfl, rfl⟩))))
  | exited => simp [hp] at h

theorem workerStep_sameExecutor {q : ℕ} {out : AdapterOutcome φ}
    (h : s.workerStep o q out = some s') : SameExecutor s s' := by
  obtain ⟨w, -, ⟨-, pc, m, -, rfl⟩ | ⟨r, m, -, -, rfl⟩ | ⟨r, -, -, rfl⟩ | ⟨r, m, -, rfl⟩ |
    ⟨r, -, -, rfl⟩ | ⟨-, rfl⟩⟩ := workerStep_cases h
  · exact ⟨by constructor <;> rfl, .inl rfl⟩
  · exact ⟨by constructor <;> rfl, .inl rfl⟩
  · exact ⟨by constructor <;> rfl, .inl rfl⟩
  · exact ⟨by constructor <;> rfl, .inl rfl⟩
  · refine ⟨by constructor <;> rfl, ?_⟩
    cases hcl : s.closed <;> simp [hcl]
  · exact ⟨by constructor <;> rfl, .inl rfl⟩

/-- What one action of the `i`-th cancel call can do. -/
theorem cancelStep_cases {i : ℕ} (h : s.cancelStep i = some s') :
    (∃ id, s.cancels[i]? = some (.lookup id) ∧
      s' = { s with cancels := s.cancels.set i (.returned none false) }) ∨
    (∃ id q, s.cancels[i]? = some (.lookup id) ∧ s.registrations.get? id = some q ∧
      s.upgrade q = true ∧ s' = { s with cancels := s.cancels.set i (.flag q) }) ∨
    (∃ q, s.cancels[i]? = some (.flag q) ∧
      s' = { s.raise q with cancels := s.cancels.set i (.swap q) }) ∨
    (∃ q, s.cancels[i]? = some (.swap q) ∧ (s.terminals q).terminal = true ∧
      s' = { s with cancels := s.cancels.set i (.notify q false) }) ∨
    (∃ q, s.cancels[i]? = some (.swap q) ∧ ¬ (s.terminals q).terminal = true ∧
      s' = { s.win q .cancel with cancels := s.cancels.set i (.release q) }) ∨
    (∃ q m, s.cancels[i]? = some (.release q) ∧
      s' = { s.takeLease q with metrics := m, cancels := s.cancels.set i (.notify q true) }) ∨
    (∃ q won, s.cancels[i]? = some (.notify q won) ∧
      s' = { s.notifyAll with cancels := s.cancels.set i (.returned (some q) won) }) := by
  obtain ⟨c, hc, h⟩ := Option.bind_eq_some_iff.mp h
  rw [hc]
  cases c with
  | lookup id =>
    simp only at h
    split at h
    · cases h
      exact .inl ⟨id, rfl, rfl⟩
    · rename_i q hq
      cases h
      obtain ⟨hq, hu⟩ := Option.filter_eq_some_iff.mp hq
      exact .inr (.inl ⟨id, q, rfl, hq, hu, rfl⟩)
  | flag q => cases h; exact .inr (.inr (.inl ⟨q, rfl, rfl⟩))
  | swap q =>
    simp only at h
    split_ifs at h with ht <;> cases h
    · exact .inr (.inr (.inr (.inl ⟨q, rfl, ht, rfl⟩)))
    · exact .inr (.inr (.inr (.inr (.inl ⟨q, rfl, ht, rfl⟩))))
  | release q => cases h; exact .inr (.inr (.inr (.inr (.inr (.inl ⟨q, _, rfl, rfl⟩)))))
  | notify q won => cases h; exact .inr (.inr (.inr (.inr (.inr (.inr ⟨q, won, rfl, rfl⟩)))))
  | returned q won => cases h

theorem cancelStep_sameExecutor {i : ℕ} (h : s.cancelStep i = some s') : SameExecutor s s' := by
  obtain ⟨id, -, rfl⟩ | ⟨id, q, -, -, -, rfl⟩ | ⟨q, -, rfl⟩ | ⟨q, -, -, rfl⟩ | ⟨q, -, -, rfl⟩ |
    ⟨q, m, -, rfl⟩ | ⟨q, won, -, rfl⟩ := cancelStep_cases h
  · exact ⟨by constructor <;> rfl, .inl rfl⟩
  · exact ⟨by constructor <;> rfl, .inl rfl⟩
  · exact ⟨by constructor <;> rfl, .inl rfl⟩
  · exact ⟨by constructor <;> rfl, .inl rfl⟩
  · exact ⟨by constructor <;> rfl, .inl rfl⟩
  · exact ⟨by constructor <;> rfl, .inl rfl⟩
  · exact ⟨by constructor <;> rfl, .inr rfl⟩

/-- After the mailbox is closed `request_stop` only works on registrations and terminals. -/
theorem stopStep_sameExecutor {order : List ℕ} (hc : s.stop ≠ .close)
    (h : s.stopStep order = some s') : SameExecutor s s' := by
  cases hp : s.stop with
  | idle => simp [State.stopStep, hp] at h
  | close => exact absurd hp hc
  | collect =>
    simp only [State.stopStep, hp] at h
    split_ifs at h
    cases h
    exact ⟨by constructor <;> rfl, .inl rfl⟩
  | flag qs =>
    cases qs with
    | nil => simp only [State.stopStep, hp] at h; cases h; exact ⟨by constructor <;> rfl, .inl rfl⟩
    | cons q qs => simp only [State.stopStep, hp] at h; cases h; exact ⟨by constructor <;> rfl, .inl rfl⟩
  | swap q qs =>
    simp only [State.stopStep, hp] at h
    split_ifs at h <;> cases h <;> exact ⟨by constructor <;> rfl, .inl rfl⟩
  | release q qs => simp only [State.stopStep, hp] at h; cases h; exact ⟨by constructor <;> rfl, .inl rfl⟩
  | notify =>
    simp only [State.stopStep, hp] at h
    cases h
    exact ⟨by constructor <;> rfl, .inr rfl⟩
  | returned => simp [State.stopStep, hp] at h

theorem stopStep_cancels {order : List ℕ} (h : s.stopStep order = some s') :
    s'.cancels = s.cancels := by
  unfold State.stopStep at h
  split at h <;> (try split_ifs at h) <;> cases h <;> rfl

/-- `s'` has the calls in flight and the cancellation flags of `s`, no new registration, and
no terminal flag was taken back. -/
structure SameCalls (s s' : State φ) : Prop where
  nextSequence : s'.nextSequence = s.nextSequence
  cancels : s'.cancels = s.cancels
  stop : s'.stop = s.stop
  closed : s'.closed = s.closed
  lifecycle : s'.lifecycle = 0 → s.lifecycle = 0
  flags : ∀ q, (s'.terminals q).cancelled = (s.terminals q).cancelled
  winners : ∀ q w, (s.terminals q).winner = some w → (s'.terminals q).winner = some w
  registrations : ∀ i q, s'.registrations.get? i = some q → s.registrations.get? i = some q

theorem update_terminal {P : ℕ → TerminalState → Prop} {t : ℕ → TerminalState} {q : ℕ}
    {u : TerminalState} (h : ∀ q', P q' (t q')) (hu : P q u) (q' : ℕ) :
    P q' (Function.update t q u q') := by
  by_cases hq : q' = q
  · subst hq
    simpa using hu
  · simpa [hq] using h q'

theorem erase_registrations {m : SortedMap ℕ ℕ} {i j q : ℕ} (h : (m.erase i).get? j = some q) :
    m.get? j = some q := by
  rw [SortedMap.get?_erase] at h
  split_ifs at h
  exact h

theorem TerminalState.winner_of_not_terminal {t : TerminalState} (h : ¬ t.terminal = true) :
    t.winner = none := by
  simpa [TerminalState.terminal] using h

theorem sameCalls_win (q : ℕ) (w : Winner) (hq : ¬ (s.terminals q).terminal = true) :
    SameCalls s (s.win q w) := by
  have hnone := TerminalState.winner_of_not_terminal hq
  refine ⟨rfl, rfl, rfl, rfl, id, ?_, ?_, fun _ _ => id⟩
  · exact update_terminal (P := fun q t => t.cancelled = (s.terminals q).cancelled)
      (fun _ => rfl) rfl
  · refine update_terminal (P := fun q t => ∀ w, (s.terminals q).winner = some w →
      t.winner = some w) (fun _ _ => id) fun w h => ?_
    simp [hnone] at h

theorem sameCalls_takeLease (q : ℕ) : SameCalls s (s.takeLease q) := by
  refine ⟨rfl, rfl, rfl, rfl, id, ?_, ?_, fun _ _ => id⟩
  · exact update_terminal (P := fun q t => t.cancelled = (s.terminals q).cancelled)
      (fun _ => rfl) rfl
  · exact update_terminal (P := fun q t => ∀ w, (s.terminals q).winner = some w →
      t.winner = some w) (fun _ _ => id) fun _ => id

/-- The branches of `execStep`: the phase the executor is in, what it reads there, and the state
it leaves. -/
inductive ExecBranch (o : ManagedStreamOptions φ) (s : State φ) (spawned : Bool) :
    State φ → Prop
  | topClosed (hif : s.closed = true) (hpc : s.pc = .top) :
      ExecBranch o s spawned { s with pc := .finalize }
  | top (hif : ¬ s.closed = true) (hpc : s.pc = .top) : ExecBranch o s spawned { s with
      workerCompletions := []
      madeProgress := !s.workerCompletions.isEmpty
      pc := .resolve s.workerCompletions }
  | resolved (hpc : s.pc = .resolve []) :
      ExecBranch o s spawned { s with pc := .scan s.clock s.active.entries }
  | resolve (c : WorkerCompletion φ) (cs : List (WorkerCompletion φ))
      (hpc : s.pc = .resolve (c :: cs)) : ExecBranch o s spawned
        { s with active := s.active.erase c.sequence, pc := .unregister c cs }
  | unregister (c : WorkerCompletion φ) (cs : List (WorkerCompletion φ))
      (hpc : s.pc = .unregister c cs) : ExecBranch o s spawned
        { (s.removeRegistration c.requestId).bufferCompletion o c with pc := .resolve cs }
  | scanned (now : ℕ) (hpc : s.pc = .scan now []) :
      ExecBranch o s spawned { s with pc := .deliver }
  | scanCancelled (now q : ℕ) (r : ActiveRequest) (rest : List (ℕ × ActiveRequest))
      (hif : (s.terminals q).cancelled = true) (hpc : s.pc = .scan now ((q, r) :: rest)) :
      ExecBranch o s spawned { s.bufferTombstone o q r.requestId with pc := .scan now rest }
  | scanDue (now q : ℕ) (r : ActiveRequest) (rest : List (ℕ × ActiveRequest))
      (hdue : r.deadline ≤ now) (hif : ¬ (s.terminals q).cancelled = true)
      (hpc : s.pc = .scan now ((q, r) :: rest)) :
      ExecBranch o s spawned { s with pc := .expire now q r rest }
  | scan (now q : ℕ) (r : ActiveRequest) (rest : List (ℕ × ActiveRequest))
      (hdue : ¬ r.deadline ≤ now) (hif : ¬ (s.terminals q).cancelled = true)
      (hpc : s.pc = .scan now ((q, r) :: rest)) :
      ExecBranch o s spawned { s with pc := .scan now rest }
  | expireLost (now q : ℕ) (r : ActiveRequest) (rest : List (ℕ × ActiveRequest))
      (hif : (s.terminals q).terminal = true) (hpc : s.pc = .expire now q r rest) :
      ExecBranch o s spawned { s with pc := .scan now rest }
  | expire (now q : ℕ) (r : ActiveRequest) (rest : List (ℕ × ActiveRequest))
      (hif : ¬ (s.terminals q).terminal = true) (hpc : s.pc = .expire now q r rest) :
      ExecBranch o s spawned { s.win q .deadline with pc := .expired now q r rest }
  | expired (now q : ℕ) (r : ActiveRequest) (rest : List (ℕ × ActiveRequest))
      (hpc : s.pc = .expired now q r rest) : ExecBranch o s spawned
        { (s.takeLease q).bufferTimeout o q r.requestId with
          metrics := timeoutMetrics s.metrics
          pc := .scan now rest }
  | deliverClosed (hif : s.closed = true) (hpc : s.pc = .deliver) :
      ExecBranch o s spawned { s with pc := .finalize }
  | deliver (hif : ¬ s.closed = true) (hpc : s.pc = .deliver) :
      ExecBranch o s spawned { s.flush o with pc := .launch [] }
  | launchFull (ls : List (Envelope φ)) (hif : o.maxInFlight ≤ s.inFlight)
      (hpc : s.pc = .launch ls) : ExecBranch o s spawned { s with pc := .settle ls }
  | launchEmpty (ls : List (Envelope φ)) (hinput : s.input = [])
      (hif : ¬ o.maxInFlight ≤ s.inFlight) (hpc : s.pc = .launch ls) :
      ExecBranch o s spawned { s with pc := .settle ls }
  | launch (ls : List (Envelope φ)) (e : Envelope φ) (es : List (Envelope φ))
      (hinput : s.input = e :: es) (hif : ¬ o.maxInFlight ≤ s.inFlight)
      (hpc : s.pc = .launch ls) : ExecBranch o s spawned
        { s with input := es, madeProgress := true, pc := .admitFlag e ls }
  | admitCancelled (e : Envelope φ) (ls : List (Envelope φ))
      (hif : (s.terminals e.sequence).cancelled = true) (hpc : s.pc = .admitFlag e ls) :
      ExecBranch o s spawned { s with pc := .tombstone e ls }
  | admitFlag (e : Envelope φ) (ls : List (Envelope φ))
      (hif : ¬ (s.terminals e.sequence).cancelled = true) (hpc : s.pc = .admitFlag e ls) :
      ExecBranch o s spawned { s with pc := .admitClock e ls }
  | admitDue (e : Envelope φ) (ls : List (Envelope φ)) (hif : e.deadline ≤ s.clock)
      (hpc : s.pc = .admitClock e ls) : ExecBranch o s spawned { s with pc := .admitExpire e ls }
  | admitClock (e : Envelope φ) (ls : List (Envelope φ)) (hif : ¬ e.deadline ≤ s.clock)
      (hpc : s.pc = .admitClock e ls) : ExecBranch o s spawned { s with
        active := s.active.insert e.sequence ⟨e.requestId, e.deadline⟩
        metrics := { s.metrics with started := s.metrics.started + 1 }
        pc := .launch (ls ++ [e]) }
  | tombstone (e : Envelope φ) (ls : List (Envelope φ)) (hpc : s.pc = .tombstone e ls) :
      ExecBranch o s spawned
        { (s.removeRegistration e.requestId).buffer o True e.sequence e.requestId none with
          pc := .launch ls }
  | admitExpireLost (e : Envelope φ) (ls : List (Envelope φ))
      (hif : (s.terminals e.sequence).terminal = true) (hpc : s.pc = .admitExpire e ls) :
      ExecBranch o s spawned { s with pc := .admitUnregister e none ls }
  | admitExpire (e : Envelope φ) (ls : List (Envelope φ))
      (hif : ¬ (s.terminals e.sequence).terminal = true) (hpc : s.pc = .admitExpire e ls) :
      ExecBranch o s spawned { s.win e.sequence .deadline with pc := .admitRelease e ls }
  | admitRelease (e : Envelope φ) (ls : List (Envelope φ)) (hpc : s.pc = .admitRelease e ls) :
      ExecBranch o s spawned { s.takeLease e.sequence with
        metrics := timeoutMetrics s.metrics
        pc := .admitUnregister e (some (.failed .timeout)) ls }
  | admitUnregister (e : Envelope φ) (r : Option (StreamResult φ)) (ls : List (Envelope φ))
      (hpc : s.pc = .admitUnregister e r ls) : ExecBranch o s spawned
        { (s.removeRegistration e.requestId).buffer o True e.sequence e.requestId r with
          pc := .launch ls }
  | settleIdle (ls : List (Envelope φ)) (hempty : s.workerCompletions.isEmpty = true)
      (hif : ls.isEmpty = true ∧ ¬ s.madeProgress = true) (hpc : s.pc = .settle ls) :
      ExecBranch o s spawned { s with pc := .deadlines s.active.entries none }
  | settleAgain (ls : List (Envelope φ)) (hempty : ¬ s.workerCompletions.isEmpty = true)
      (hif : ls.isEmpty = true ∧ ¬ s.madeProgress = true) (hpc : s.pc = .settle ls) :
      ExecBranch o s spawned { s with pc := .top }
  | settle (ls : List (Envelope φ)) (hif : ¬ (ls.isEmpty = true ∧ ¬ s.madeProgress = true))
      (hpc : s.pc = .settle ls) : ExecBranch o s spawned { s with pc := .spawn ls }
  | deadlinesDone (next : Option ℕ) (hpc : s.pc = .deadlines [] next) :
      ExecBranch o s spawned { s with pc := .parked next }
  | deadlinesTerminal (q : ℕ) (r : ActiveRequest) (rest : List (ℕ × ActiveRequest))
      (next : Option ℕ) (hif : (s.terminals q).terminal = true)
      (hpc : s.pc = .deadlines ((q, r) :: rest) next) :
      ExecBranch o s spawned { s with pc := .deadlines rest next }
  | deadlines (q : ℕ) (r : ActiveRequest) (rest : List (ℕ × ActiveRequest)) (next : Option ℕ)
      (hif : ¬ (s.terminals q).terminal = true)
      (hpc : s.pc = .deadlines ((q, r) :: rest) next) :
      ExecBranch o s spawned { s with pc := .deadlines rest (minDeadline next r.deadline) }
  | spawnDone (hpc : s.pc = .spawn []) : ExecBranch o s spawned { s with pc := .notify }
  | spawn (e : Envelope φ) (ls : List (Envelope φ)) (hif : spawned = true)
      (hpc : s.pc = .spawn (e :: ls)) : ExecBranch o s spawned { s with
        workers := Function.update s.workers e.sequence (some ⟨e, .checkFlag 1 .begin⟩)
        pc := .spawn ls }
  | spawnFailed (e : Envelope φ) (ls : List (Envelope φ)) (hif : ¬ spawned = true)
      (hpc : s.pc = .spawn (e :: ls)) :
      ExecBranch o s spawned { s with pc := .spawnFinish e ls }
  | spawnLost (e : Envelope φ) (ls : List (Envelope φ))
      (hif : (s.terminals e.sequence).terminal = true) (hpc : s.pc = .spawnFinish e ls) :
      ExecBranch o s spawned { s with pc := .spawnPush e none ls }
  | spawnFinish (e : Envelope φ) (ls : List (Envelope φ))
      (hif : ¬ (s.terminals e.sequence).terminal = true) (hpc : s.pc = .spawnFinish e ls) :
      ExecBranch o s spawned { s.win e.sequence .worker with pc := .spawnRelease e ls }
  | spawnRelease (e : Envelope φ) (ls : List (Envelope φ)) (hpc : s.pc = .spawnRelease e ls) :
      ExecBranch o s spawned { s.takeLease e.sequence with
        metrics := { s.metrics with
          completed := s.metrics.completed + 1, failed := s.metrics.failed + 1 }
        pc := .spawnPush e (some (.failed .workerStart)) ls }
  | spawnPush (e : Envelope φ) (r : Option (StreamResult φ)) (ls : List (Envelope φ))
      (hpc : s.pc = .spawnPush e r ls) : ExecBranch o s spawned
        { s.pushWorkerCompletion ⟨e.sequence, e.requestId, r⟩ with pc := .spawn ls }
  | notify (hpc : s.pc = .notify) : ExecBranch o s spawned { s with pc := .top }
  | finalize (hpc : s.pc = .finalize) : ExecBranch o s spawned { s with
      lifecycle := 2, active := .empty, ordered := .empty, relaxed := [], pc := .stopped }

/-- A step of the executor takes one of its branches. -/
theorem execStep_branch {spawned : Bool} (h : s.execStep o spawned = some s') :
    ExecBranch o s spawned s' := by
  unfold State.execStep at h
  split at h <;> rename_i hpc <;> (try split_ifs at h with hif) <;> (try split at h) <;> cases h
  · exact .topClosed hif hpc
  · exact .top hif hpc
  · exact .resolved hpc
  · exact .resolve _ _ hpc
  · exact .unregister _ _ hpc
  · exact .scanned _ hpc
  · exact .scanCancelled _ _ _ _ hif hpc
  · exact .scanDue _ _ _ _ ‹_› hif hpc
  · exact .scan _ _ _ _ ‹_› hif hpc
  · exact .expireLost _ _ _ _ hif hpc
  · exact .expire _ _ _ _ hif hpc
  · exact .expired _ _ _ _ hpc
  · exact .deliverClosed hif hpc
  · exact .deliver hif hpc
  · exact .launchFull _ hif hpc
  · exact .launchEmpty _ ‹_› hif hpc
  · exact .launch _ _ _ ‹_› hif hpc
  · exact .admitCancelled _ _ hif hpc
  · exact .admitFlag _ _ hif hpc
  · exact .admitDue _ _ hif hpc
  · exact .admitClock _ _ hif hpc
  · exact .tombstone _ _ hpc
  · exact .admitExpireLost _ _ hif hpc
  · exact .admitExpire _ _ hif hpc
  · exact .admitRelease _ _ hpc
  · exact .admitUnregister _ _ _ hpc
  · exact .settleIdle _ ‹_› hif hpc
  · exact .settleAgain _ ‹_› hif hpc
  · exact .settle _ hif hpc
  · exact .deadlinesDone _ hpc
  · exact .deadlinesTerminal _ _ _ _ hif hpc
  · exact .deadlines _ _ _ _ hif hpc
  · exact .spawnDone hpc
  · exact .spawn _ _ hif hpc
  · exact .spawnFailed _ _ hif hpc
  · exact .spawnLost _ _ hif hpc
  · exact .spawnFinish _ _ hif hpc
  · exact .spawnRelease _ _ hpc
  · exact .spawnPush _ _ _ hpc
  · exact .notify hpc
  · exact .finalize hpc

/-- The executor raises no flag, registers nothing and leaves the callers alone. -/
theorem execStep_sameCalls {spawned : Bool} (h : s.execStep o spawned = some s') :
    SameCalls s s' := by
  have hsame : SameCalls s s := ⟨rfl, rfl, rfl, rfl, id, fun _ => rfl, fun _ _ => id, fun _ _ => id⟩
  have herase : ∀ i, SameCalls s (s.removeRegistration i) := fun i =>
    ⟨rfl, rfl, rfl, rfl, id, fun _ => rfl, fun _ _ => id, fun _ _ => erase_registrations⟩
  have hlease := fun q => sameCalls_takeLease (s := s) q
  have hwin := fun q w hq => sameCalls_win (s := s) q w hq
  -- each successor differs from one of four states only in fields that `SameCalls` ignores
  cases execStep_branch h with
  | unregister | tombstone | admitUnregister =>
    exact ⟨rfl, rfl, rfl, rfl, id, hsame.flags, hsame.winners, (herase _).registrations⟩
  | expired | admitRelease | spawnRelease =>
    exact ⟨rfl, rfl, rfl, rfl, id, (hlease _).flags, (hlease _).winners, hsame.registrations⟩
  | expire _ _ _ _ hif | admitExpire _ _ hif | spawnFinish _ _ hif =>
    exact ⟨rfl, rfl, rfl, rfl, id, (hwin _ _ hif).flags, (hwin _ _ hif).winners,
      hsame.registrations⟩
  | finalize =>
    exact ⟨rfl, rfl, rfl, rfl, by simp, hsame.flags, hsame.winners, hsame.registrations⟩
  | _ => exact ⟨rfl, rfl, rfl, rfl, id, hsame.flags, hsame.winners, hsame.registrations⟩

theorem workerStep_sameCalls {q : ℕ} {out : AdapterOutcome φ}
    (h : s.workerStep o q out = some s') : SameCalls s s' := by
  obtain ⟨w, -, ⟨-, pc, m, -, rfl⟩ | ⟨r, m, -, -, rfl⟩ | ⟨r, -, ht, rfl⟩ | ⟨r, m, -, rfl⟩ |
    ⟨r, -, -, rfl⟩ | ⟨-, rfl⟩⟩ := workerStep_cases h
  · exact ⟨rfl, rfl, rfl, rfl, id, fun _ => rfl, fun _ _ => id, fun _ _ => id⟩
  · exact ⟨rfl, rfl, rfl, rfl, id, fun _ => rfl, fun _ _ => id, fun _ _ => id⟩
  · have := sameCalls_win q .worker ht
    exact ⟨rfl, rfl, rfl, rfl, id, this.flags, this.winners, fun _ _ => id⟩
  · have := sameCalls_takeLease (s := s) q
    exact ⟨rfl, rfl, rfl, rfl, id, this.flags, this.winners, fun _ _ => id⟩
  · exact ⟨rfl, rfl, rfl, rfl, id, fun _ => rfl, fun _ _ => id, fun _ _ => id⟩
  · exact ⟨rfl, rfl, rfl, rfl, id, fun _ => rfl, fun _ _ => id, fun _ _ => id⟩

theorem cancelled_update {t : ℕ → TerminalState} {q q' : ℕ} {u : TerminalState}
    (hu : (t q).cancelled = true → u.cancelled = true) (h : (t q').cancelled = true) :
    (Function.update t q u q').cancelled = true :=
  update_terminal (P := fun q u => (t q).cancelled = true → u.cancelled = true)
    (fun _ => id) hu q' h

/-- A cancel call never lowers a flag. -/
theorem cancelStep_flags {i : ℕ} (h : s.cancelStep i = some s') (q : ℕ)
    (hq : (s.terminals q).cancelled = true) : (s'.terminals q).cancelled = true := by
  obtain ⟨_, -, rfl⟩ | ⟨_, k, -, -, -, rfl⟩ | ⟨k, -, rfl⟩ | ⟨k, -, -, rfl⟩ | ⟨k, -, -, rfl⟩ |
    ⟨k, m, -, rfl⟩ | ⟨k, won, -, rfl⟩ := cancelStep_cases h
  · exact hq
  · exact hq
  · exact cancelled_update (fun _ => rfl) hq
  · exact hq
  · exact cancelled_update id hq
  · exact cancelled_update id hq
  · exact hq

theorem stopStep_flags {order : List ℕ} (h : s.stopStep order = some s') :
    (s'.pc = s.pc ∨ s'.pc = s.pc.woken) ∧ ∀ q, (s.terminals q).cancelled = true →
      (s'.terminals q).cancelled = true := by
  unfold State.stopStep at h
  split at h <;> (try split_ifs at h) <;> cases h
  all_goals first
    | exact ⟨.inl rfl, fun _ => id⟩
    | exact ⟨.inl rfl, fun _ => cancelled_update fun _ => rfl⟩
    | exact ⟨.inl rfl, fun _ => cancelled_update id⟩
    | exact ⟨.inr rfl, fun _ => id⟩

theorem execStep_stopReturned {spawned : Bool} (h : s.execStep o spawned = some s') :
    s'.stopReturned = s.stopReturned := by
  cases execStep_branch h <;> rfl

theorem workerStep_stopReturned {q : ℕ} {out : AdapterOutcome φ}
    (h : s.workerStep o q out = some s') : s'.stopReturned = s.stopReturned := by
  obtain ⟨w, -, ⟨-, pc, m, -, rfl⟩ | ⟨r, m, -, -, rfl⟩ | ⟨r, -, -, rfl⟩ | ⟨r, m, -, rfl⟩ |
    ⟨r, -, -, rfl⟩ | ⟨-, rfl⟩⟩ := workerStep_cases h <;> rfl

/-- The three things `try_submit` can do to the stream: nothing the executor sees, or append
one fresh envelope with its registration. -/
theorem trySubmit_cases (r : AsyncRequest φ) (lifecycle : ℕ) :
    (∃ m, s.trySubmit o r lifecycle = { s with metrics := m }) ∨
    (s.closed = false ∧ (s.registrations.get? r.requestId).any s.upgrade = false ∧
      ∃ m, s.trySubmit o r lifecycle = { s with
        registrations := s.registrations.insert r.requestId s.nextSequence
        terminals := Function.update s.terminals s.nextSequence ⟨false, none, true⟩
        nextSequence := s.nextSequence + 1
        input := s.input ++
          [⟨s.nextSequence, r.requestId, r.input, r.deadline, r.attemptLimit⟩]
        metrics := m
        pc := s.pc.woken }) := by
  simp only [State.trySubmit]
  by_cases h1 : r.sessionId ≠ o.sessionId
  · rw [if_pos h1]
    exact .inl ⟨_, rfl⟩
  rw [if_neg h1]
  by_cases h2 : lifecycle ≠ 0
  · rw [if_pos h2]
    exact .inl ⟨_, rfl⟩
  rw [if_neg h2]
  by_cases h3 : s.closed = true
  · rw [if_pos h3]
    exact .inl ⟨_, rfl⟩
  rw [if_neg h3]
  by_cases h4 : s.input.length = o.inputCapacity
  · rw [if_pos h4]
    exact .inl ⟨_, rfl⟩
  rw [if_neg h4]
  split
  · exact .inl ⟨_, rfl⟩
  · rename_i h5
    exact .inr ⟨Bool.eq_false_of_not_eq_true h3, Bool.eq_false_of_not_eq_true h5, _, rfl⟩

/-- `try_recv` moves at most the head of the results to the caller. -/
theorem tryRecv_cases :
    s.tryRecv = s ∨ ∃ c cs m, s.results = c :: cs ∧ s.tryRecv = { s with
      results := cs, delivered := s.delivered ++ [c], metrics := m, pc := s.pc.woken } := by
  unfold State.tryRecv
  split
  · exact .inl rfl
  · rename_i c cs hr
    exact .inr ⟨c, cs, _, hr, rfl⟩

end Muxiva.Stream
