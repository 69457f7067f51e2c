import Muxiva.Stream.Registration
import Mathlib.Data.Bool.Basic

/-! What the counters add up to. Whoever wins the terminal flag of a request counts it when it takes
the lease, so the completed requests are the terminal ones less those whose winner is about to
count. A stop that clears the input queue leaves behind the requests that nobody else points to. -/
set_option linter.all false
namespace Muxiva.Stream

variable {φ : Type} {o : ManagedStreamOptions φ} {s s' : State φ}

theorem countP_range_congr {p p' : ℕ → Bool} {n : ℕ} (h : ∀ i < n, p' i = p i) :
    (List.range n).countP p' = (List.range n).countP p :=
  List.countP_congr fun i hi => by rw [h i (List.mem_range.mp hi)]

/-- One entry changes. -/
theorem countP_range_update {p p' : ℕ → Bool} {n k : ℕ} (hk : k < n)
    (h : ∀ i, i ≠ k → p' i = p i) :
    (List.range n).countP p' + (p k).toNat = (List.range n).countP p + (p' k).toNat := by
  induction n with
  | zero => omega
  | succ n ih =>
    simp only [List.range_succ, List.countP_append, List.countP_singleton]
    by_cases hkn : k = n
    · subst hkn
      rw [countP_range_congr fun i hi => h i (by omega)]
      cases p k <;> cases p' k <;> simp
    · have hrest := ih (by omega)
      rw [h n (Ne.symm hkn)]
      omega

theorem countP_set_of_getElem? {α : Type} {p : α → Bool} {l : List α} {i : ℕ} {a b : α}
    (h : l[i]? = some a) : (l.set i b).countP p + (p a).toNat = l.countP p + (p b).toNat := by
  obtain ⟨hi, rfl⟩ := List.getElem?_eq_some_iff.mp h
  have hle := List.boole_getElem_le_countP (p := p) hi
  rw [List.countP_set hi]
  cases hp : p l[i] <;> cases p b <;> simp only [hp, Bool.false_eq_true, if_true, if_false,
    Bool.toNat_true, Bool.toNat_false] at hle ⊢ <;> omega

/-- The terminal classes of the counters. -/
def Metrics.classes (m : Metrics) : ℕ :=
  m.succeeded + m.retryExhausted + m.failed + m.timedOut + m.cancelled

/-- `k` more requests are counted as completed, each in one class. -/
structure Counted (k : ℕ) (m m' : Metrics) : Prop where
  accepted : m'.accepted = m.accepted
  completed : m'.completed = m.completed + k
  classes : m'.classes = m.classes + k

theorem Counted.refl (m : Metrics) : Counted 0 m m := ⟨rfl, rfl, rfl⟩

theorem counted_timeout (m : Metrics) : Counted 1 m (timeoutMetrics m) := by
  refine ⟨rfl, rfl, ?_⟩
  simp only [Metrics.classes, timeoutMetrics]
  omega

theorem counted_cancel (m : Metrics) : Counted 1 m (cancelMetrics m) := by
  refine ⟨rfl, rfl, ?_⟩
  simp only [Metrics.classes, cancelMetrics]
  omega

theorem counted_recordTerminal (m : Metrics) (r : Option (StreamResult φ)) :
    Counted 1 m (m.recordTerminal r) := by
  unfold Metrics.recordTerminal
  split
  · refine ⟨rfl, rfl, ?_⟩
    simp only [Metrics.classes]
    omega
  · refine ⟨rfl, rfl, ?_⟩
    simp only [Metrics.classes]
    omega
  · split_ifs
    all_goals
      refine ⟨rfl, rfl, ?_⟩
      simp only [Metrics.classes]
      omega
  · refine ⟨rfl, rfl, ?_⟩
    simp only [Metrics.classes]
    omega

def CancelPc.releasing : CancelPc → Bool
  | .release _ => true
  | _ => false

theorem execStep_counted {spawned : Bool} (h : s.execStep o spawned = some s') :
    Counted s.pc.releasing.isSome.toNat s.metrics s'.metrics := by
  cases execStep_branch h with
  | expired _ _ _ _ hpc | admitRelease _ _ hpc =>
    rw [hpc]
    exact counted_timeout s.metrics
  | spawnRelease _ _ hpc =>
    rw [hpc]
    refine ⟨rfl, rfl, ?_⟩
    simp only [Metrics.classes, ExecPc.releasing, Option.isSome_some, Bool.toNat_true]
    omega
  | _ =>
    rename_i hpc
    rw [hpc]
    exact ⟨rfl, rfl, rfl⟩

theorem workerStep_counted {q : ℕ} {out : AdapterOutcome φ} {w : Worker φ}
    (hw : s.workers q = some w) (h : s.workerStep o q out = some s') :
    Counted w.pc.releasing.toNat s.metrics s'.metrics := by
  simp only [State.workerStep, hw, Option.bind_some] at h
  cases hp : w.pc with
  | checkFlag attempt point =>
    simp only [hp] at h
    split_ifs at h <;> cases h <;> exact .refl _
  | checkClock attempt point =>
    simp only [hp] at h
    split_ifs at h <;> cases h
    · exact .refl _
    · cases point with
      | begin => simp only [State.proceed]; split_ifs <;> exact ⟨rfl, rfl, rfl⟩
      | reconnected => exact .refl _
      | responded r =>
        cases r with
        | retryable e => simp only [State.proceed]; split_ifs <;> exact ⟨rfl, rfl, rfl⟩
        | frames fs => exact .refl _
        | failed e => exact .refl _
  | call attempt =>
    simp only [hp] at h
    cases h
    exact .refl _
  | finish r =>
    simp only [hp] at h
    split_ifs at h <;> cases h <;> exact ⟨rfl, rfl, rfl⟩
  | release r =>
    simp only [hp] at h
    cases h
    exact counted_recordTerminal _ r
  | push r =>
    simp only [hp] at h
    split_ifs at h
    cases h
    exact ⟨rfl, rfl, rfl⟩
  | leave =>
    simp only [hp] at h
    cases h
    exact .refl _
  | exited => simp [hp] at h

theorem cancelStep_counted {i : ℕ} {c : CancelPc} (hc : s.cancels[i]? = some c)
    (h : s.cancelStep i = some s') : Counted c.releasing.toNat s.metrics s'.metrics := by
  simp only [State.cancelStep, hc, Option.bind_some] at h
  cases c with
  | lookup requestId =>
    simp only at h
    split at h <;> cases h <;> exact .refl _
  | flag q => cases h; exact .refl _
  | swap q =>
    simp only at h
    split_ifs at h <;> cases h <;> exact .refl _
  | release q => cases h; exact counted_cancel _
  | notify q won => cases h; exact .refl _
  | returned q won => cases h

theorem stopStep_counted {order : List ℕ} (h : s.stopStep order = some s') :
    Counted s.stop.releasing.isSome.toNat s.metrics s'.metrics := by
  unfold State.stopStep at h
  split at h <;> rename_i hpc <;> (try split_ifs at h with hif) <;> cases h <;> rw [hpc]
  all_goals exact ⟨rfl, rfl, rfl⟩

/-- Parties between their swap of a terminal flag and their count. -/
def State.releasers (s : State φ) : ℕ :=
  s.cancels.countP CancelPc.releasing + s.stop.releasing.isSome.toNat +
    s.pc.releasing.isSome.toNat +
    (List.range s.nextSequence).countP fun q => (s.workers q).any (·.pc.releasing)

/-- Accepted requests whose terminal flag is set. -/
def State.terminated (s : State φ) : ℕ :=
  (List.range s.nextSequence).countP fun q => (s.terminals q).terminal

structure Tally (s : State φ) : Prop where
  classes : s.metrics.completed = s.metrics.classes
  accepted : s.metrics.accepted = s.nextSequence
  completed : s.metrics.completed + s.releasers = s.terminated

theorem tally_initial : Tally (State.initial : State φ) := by
  constructor <;> simp [State.initial, State.releasers, State.terminated, Metrics.classes,
    StopPc.releasing, ExecPc.releasing]

/-- A step that counts `k` requests. -/
theorem Tally.move {k : ℕ} (hi : Tally s) (hm : Counted k s.metrics s'.metrics)
    (hn : s'.nextSequence = s.nextSequence)
    (hc : k + s'.releasers + s.terminated = s.releasers + s'.terminated) : Tally s' := by
  have hclasses := hi.classes
  have haccepted := hi.accepted
  have hcompleted := hi.completed
  refine ⟨?_, ?_, ?_⟩
  · rw [hm.completed, hm.classes, hclasses]
  · rw [hm.accepted, hn, haccepted]
  · rw [hm.completed]
    omega

/-- Only the flag of `k` may be won. -/
theorem terminated_update {k : ℕ} (hk : k < s.nextSequence)
    (hn : s'.nextSequence = s.nextSequence)
    (h : ∀ q, q ≠ k → (s'.terminals q).terminal = (s.terminals q).terminal) :
    s'.terminated + (s.terminals k).terminal.toNat =
      s.terminated + (s'.terminals k).terminal.toNat := by
  rw [State.terminated, State.terminated, hn]
  exact countP_range_update hk h

theorem terminated_congr (hn : s'.nextSequence = s.nextSequence)
    (h : ∀ q, (s'.terminals q).terminal = (s.terminals q).terminal) :
    s'.terminated = s.terminated := by
  rw [State.terminated, State.terminated, hn]
  exact countP_range_congr fun q _ => h q

theorem terminal_win (q q' : ℕ) (w : Winner) :
    ((s.win q w).terminals q').terminal = (decide (q' = q) || (s.terminals q').terminal) := by
  by_cases h : q' = q
  · subst h
    simp [TerminalState.terminal]
  · simp [h]

theorem terminal_takeLease (q q' : ℕ) :
    ((s.takeLease q).terminals q').terminal = (s.terminals q').terminal := by
  by_cases h : q' = q
  · subst h
    simp [TerminalState.terminal]
  · simp [h]

theorem terminal_raise (q q' : ℕ) :
    ((s.raise q).terminals q').terminal = (s.terminals q').terminal := by
  by_cases h : q' = q
  · subst h
    simp [TerminalState.terminal]
  · simp [h]

/-- The swap that finds the flag clear. -/
theorem terminated_win {k : ℕ} {w : Winner} (hk : k < s.nextSequence)
    (hfree : ¬ (s.terminals k).terminal = true) (hn : s'.nextSequence = s.nextSequence)
    (ht : s'.terminals = (s.win k w).terminals) : s'.terminated = s.terminated + 1 := by
  have hcount := terminated_update hk hn fun q hq => by rw [ht, terminal_win]; simp [hq]
  have hset : (s'.terminals k).terminal = true := by rw [ht, terminal_win]; simp
  rw [Bool.not_eq_true] at hfree
  rw [hset, hfree, Bool.toNat_true, Bool.toNat_false] at hcount
  omega

theorem tally_execStep {spawned : Bool} (hi : Tally s) (ho : Owned s) (ho' : Owned s')
    (h : s.execStep o spawned = some s') : Tally s' := by
  have hsame := execStep_sameCalls h
  have hn := hsame.nextSequence
  have hworkers : ((List.range s'.nextSequence).countP fun q =>
      (s'.workers q).any (·.pc.releasing)) =
      (List.range s.nextSequence).countP fun q => (s.workers q).any (·.pc.releasing) := by
    rw [hn]
    refine countP_range_congr fun q _ => ?_
    rcases execStep_workers h with hw | ⟨e, ls, hpc, rfl⟩
    · rw [hw]
    · by_cases hq : q = e.sequence
      · subst hq
        rw [ho.not_spawned (by simp [hpc, ExecPc.launches])]
        simp [WorkerPc.releasing]
      · simp [hq]
  refine hi.move (execStep_counted h) hn ?_
  simp only [State.releasers, hsame.cancels, hsame.stop, hworkers]
  rcases execStep_terminals h with ⟨hp, hp', ht⟩ | ⟨k, w, -, hp, hp', hfree, ht⟩ | ⟨k, hp, hp', ht⟩
  · rw [hp, hp', terminated_congr hn fun q => by rw [ht]]
    simp only [Option.isSome_none, Bool.toNat_false]
    omega
  · have hk : k < s.nextSequence := by
      rw [← hn]
      refine (ho'.decided k ?_).1
      exact ExecPc.decided_of_releasing hp'
    rw [hp, hp', terminated_win hk hfree hn ht]
    simp only [Option.isSome_none, Option.isSome_some, Bool.toNat_false, Bool.toNat_true]
    omega
  · rw [hp, hp', terminated_congr hn fun q => by rw [ht, terminal_takeLease]]
    simp only [Option.isSome_none, Option.isSome_some, Bool.toNat_false, Bool.toNat_true]
    omega

theorem tally_workerStep {k : ℕ} {out : AdapterOutcome φ} (hi : Tally s) (ho : Owned s)
    (h : s.workerStep o k out = some s') : Tally s' := by
  have hsame := workerStep_sameCalls h
  have hn := hsame.nextSequence
  have hpc := (ExecPc.holds_of_woken (workerStep_sameExecutor h).pc).2.2.2.2.2
  have hcases := workerStep_cases h
  obtain ⟨w, hw, hcases⟩ := hcases
  have hk := (ho.workers k w hw).1
  have hm := workerStep_counted hw h
  have hcount : ∀ pc, s'.workers = Function.update s.workers k (some { w with pc := pc }) →
      s'.releasers + w.pc.releasing.toNat = s.releasers + pc.releasing.toNat := by
    intro pc hws
    have hupdate := @countP_range_update (fun q => (s.workers q).any (·.pc.releasing))
      (fun q => (s'.workers q).any (·.pc.releasing)) _ k hk fun q hq => by simp [hws, hq]
    simp only [hw, hws, Function.update_self, Option.any_some] at hupdate
    simp only [State.releasers, hsame.cancels, hsame.stop, hpc, hn, hws]
    omega
  have hkeep : ∀ pc, s'.workers = Function.update s.workers k (some { w with pc := pc }) →
      s'.terminated = s.terminated → pc.releasing = false → Tally s' := by
    intro pc hws ht hfalse
    have hc := hcount pc hws
    rw [hfalse, Bool.toNat_false] at hc
    exact hi.move hm hn (by omega)
  obtain ⟨-, pc, m, hnew, rfl⟩ | ⟨r, m, hp, -, rfl⟩ | ⟨r, hp, hfree, rfl⟩ | ⟨r, m, hp, rfl⟩ |
    ⟨r, hp, -, rfl⟩ | ⟨hp, rfl⟩ := hcases
  · rcases hnew with hatt | ⟨r, rfl, -⟩
    · exact hkeep pc rfl rfl (WorkerPc.not_releasing_of_attempting hatt)
    · exact hkeep _ rfl rfl rfl
  · exact hkeep _ rfl rfl rfl
  · have hc := hcount (.release r) rfl
    have ht : ((s.win k .worker).setWorker k w (.release r)).terminated = s.terminated + 1 :=
      terminated_win hk hfree rfl rfl
    rw [hp] at hm hc
    refine hi.move hm hn ?_
    simp only [WorkerPc.releasing, Bool.toNat_true, Bool.toNat_false] at hc ⊢
    omega
  · exact hkeep _ rfl (terminated_congr rfl fun q => terminal_takeLease k q) rfl
  · exact hkeep _ rfl rfl rfl
  · exact hkeep _ rfl rfl rfl

theorem tally_cancelStep {i : ℕ} (hi : Tally s) (hcall : CallInv s)
    (h : s.cancelStep i = some s') : Tally s' := by
  have hsame := cancelStep_sameOwners h
  have hn := hsame.nextSequence
  have hpc := (ExecPc.holds_of_woken hsame.pc).2.2.2.2.2
  have hcount : ∀ {c c' : CancelPc}, s.cancels[i]? = some c → s'.cancels = s.cancels.set i c' →
      s'.stop = s.stop →
      s'.releasers + c.releasing.toNat = s.releasers + c'.releasing.toNat := by
    intro c c' hc hcs hst
    have hset := countP_set_of_getElem? (p := CancelPc.releasing) (b := c') hc
    simp only [State.releasers, hcs, hst, hpc, hn, hsame.workers]
    omega
  have hkeep : ∀ {c c' : CancelPc}, s.cancels[i]? = some c → s'.cancels = s.cancels.set i c' →
      s'.stop = s.stop → s'.terminated = s.terminated → c'.releasing = false → Tally s' := by
    intro c c' hc hcs hst ht hfalse
    have hrel := hcount hc hcs hst
    rw [hfalse, Bool.toNat_false] at hrel
    exact hi.move (cancelStep_counted hc h) hn (by omega)
  obtain ⟨_, hc, rfl⟩ | ⟨_, q', hc, -, -, rfl⟩ | ⟨k, hc, rfl⟩ | ⟨k, hc, -, rfl⟩ |
    ⟨k, hc, hfree, rfl⟩ | ⟨k, m, hc, rfl⟩ | ⟨k, won, hc, rfl⟩ := cancelStep_cases h
  · exact hkeep hc rfl rfl rfl rfl
  · exact hkeep hc rfl rfl rfl rfl
  · exact hkeep hc rfl rfl (terminated_congr rfl fun q => terminal_raise k q) rfl
  · exact hkeep hc rfl rfl rfl rfl
  · have hrel := hcount hc rfl rfl
    have hk := hcall.called _ (List.mem_of_getElem? hc) k rfl
    have ht : State.terminated { s.win k .cancel with cancels := s.cancels.set i (.release k) } =
        s.terminated + 1 := terminated_win hk hfree rfl rfl
    refine hi.move (cancelStep_counted hc h) hn ?_
    rw [ht]
    simp only [CancelPc.releasing, Bool.toNat_true, Bool.toNat_false] at hrel ⊢
    omega
  · exact hkeep hc rfl rfl (terminated_congr rfl fun q => terminal_takeLease k q) rfl
  · exact hkeep hc rfl rfl rfl rfl

theorem tally_stopStep {order : List ℕ} (hi : Tally s) (hcall : CallInv s)
    (h : s.stopStep order = some s') : Tally s' := by
  have hm := stopStep_counted h
  have hcs := stopStep_cancels h
  have hpc : s'.pc.releasing = s.pc.releasing :=
    (ExecPc.holds_of_woken (stopStep_flags h).1).2.2.2.2.2
  have hkeep : s'.nextSequence = s.nextSequence → s'.workers = s.workers →
      s'.terminated = s.terminated → s'.stop.releasing = none → Tally s' := by
    intro hn hw ht hst
    refine hi.move hm hn ?_
    simp only [State.releasers, hcs, hpc, hn, hw, hst, Option.isSome_none, Bool.toNat_false]
    omega
  have hstep := h
  unfold State.stopStep at h
  split at h <;> rename_i hp <;> (try split_ifs at h with hif) <;> cases h
  · exact hkeep rfl rfl rfl rfl
  · exact hkeep rfl rfl rfl rfl
  · exact hkeep rfl rfl rfl rfl
  · exact hkeep rfl rfl (terminated_congr rfl fun q => terminal_raise _ q) rfl
  · exact hkeep rfl rfl rfl rfl
  · rename_i k qs
    have hk := hcall.stopping k (by simp [hp, StopPc.targets])
    have ht : State.terminated { s.win k .cancel with stop := .release k qs } =
        s.terminated + 1 := terminated_win hk hif rfl rfl
    refine hi.move hm rfl ?_
    rw [ht]
    simp only [State.releasers, hp, StopPc.releasing, Option.isSome_none, Option.isSome_some,
      Bool.toNat_false, Bool.toNat_true, State.win, State.setTerminal]
    omega
  · exact hkeep rfl rfl (terminated_congr rfl fun q => terminal_takeLease _ q) rfl
  · exact hkeep rfl rfl rfl rfl

/-- A step of a caller or of the clock. -/
theorem Tally.of_same (hi : Tally s) (hm : Counted 0 s.metrics s'.metrics)
    (hn : s'.nextSequence = s.nextSequence) (ht : s'.terminals = s.terminals)
    (hc : s'.cancels.countP CancelPc.releasing = s.cancels.countP CancelPc.releasing)
    (hst : s'.stop.releasing = s.stop.releasing) (hpc : s'.pc.releasing = s.pc.releasing)
    (hw : s'.workers = s.workers) : Tally s' := by
  refine hi.move hm hn ?_
  simp only [State.releasers, State.terminated, hn, ht, hc, hst, hpc, hw]
  omega

/-- A new request is not terminal and has no worker. -/
theorem tally_trySubmit (hi : Tally s) (ho : Owned s) (r : AsyncRequest φ) (lifecycle : ℕ) :
    Tally (s.trySubmit o r lifecycle) := by
  have hwoken := s.pc.holds_woken.2.2.2.2.2
  unfold State.trySubmit
  simp only
  refine iteInduction (motive := Tally) (fun _ => ?_) fun _ => ?_
  · exact hi.of_same ⟨rfl, rfl, rfl⟩ rfl rfl rfl rfl rfl rfl
  refine iteInduction (motive := Tally) (fun _ => ?_) fun _ => ?_
  · exact hi.of_same ⟨rfl, rfl, rfl⟩ rfl rfl rfl rfl rfl rfl
  refine iteInduction (motive := Tally) (fun _ => ?_) fun _ => ?_
  · exact hi.of_same ⟨rfl, rfl, rfl⟩ rfl rfl rfl rfl rfl rfl
  refine iteInduction (motive := Tally) (fun _ => ?_) fun _ => ?_
  · exact hi.of_same ⟨rfl, rfl, rfl⟩ rfl rfl rfl rfl rfl rfl
  refine iteInduction (motive := Tally) (fun _ => ?_) fun _ => ?_
  · exact hi.of_same ⟨rfl, rfl, rfl⟩ rfl rfl rfl rfl rfl rfl
  have hnew : s.workers s.nextSequence = none := by
    by_contra hne
    obtain ⟨w, hw⟩ := Option.ne_none_iff_exists'.mp hne
    exact absurd (ho.workers _ w hw).1 (lt_irrefl _)
  refine ⟨hi.classes, by simp [hi.accepted], ?_⟩
  have hcompleted := hi.completed
  have hold : (List.range s.nextSequence).countP (fun q =>
      (Function.update s.terminals s.nextSequence ⟨false, none, true⟩ q).terminal) =
      s.terminated :=
    countP_range_congr fun q hq => by simp [hq.ne]
  simp only [State.releasers, State.terminated, List.range_succ, List.countP_append,
    List.countP_singleton, hwoken, hnew, Function.update_self] at hcompleted hold ⊢
  rw [hold]
  simpa [TerminalState.terminal] using hcompleted

theorem tally_step {a : Label φ} (hi : Tally s) (ho : Owned s) (hcall : CallInv s)
    (h : s.step o a = some s') : Tally s' := by
  have hwoken := s.pc.holds_woken.2.2.2.2.2
  cases a with
  | trySubmit r lifecycle =>
    simp only [State.step] at h
    split_ifs at h
    cases h
    exact tally_trySubmit hi ho r lifecycle
  | tryRecv =>
    simp only [State.step] at h
    split_ifs at h
    cases h
    unfold State.tryRecv
    split
    · exact hi
    · exact hi.of_same ⟨rfl, rfl, rfl⟩ rfl rfl rfl rfl hwoken rfl
  | exec spawned => exact tally_execStep hi ho (owned_step (a := .exec spawned) ho h) h
  | worker q out => exact tally_workerStep hi ho h
  | cancelBegin requestId =>
    cases h
    refine hi.of_same (.refl _) rfl rfl ?_ rfl rfl rfl
    simp [CancelPc.releasing]
  | cancel i => exact tally_cancelStep hi hcall h
  | requestStop =>
    simp only [State.step] at h
    split_ifs at h with hl <;> cases h
    · refine hi.of_same (.refl _) rfl rfl rfl ?_ rfl rfl
      rw [hcall.running hl]
      rfl
    · exact hi.of_same (.refl _) rfl rfl rfl rfl rfl rfl
  | stop order => exact tally_stopStep hi hcall h
  | tick d => cases h; exact hi.of_same (.refl _) rfl rfl rfl rfl rfl rfl
  | wake =>
    simp only [State.step] at h
    split at h <;> cases h
    rename_i next hp
    exact hi.of_same (.refl _) rfl rfl rfl rfl (by rw [hp]; rfl) rfl

theorem tally {C : State φ → Label φ → Prop} (hr : (system o).ReachableBy C s) : Tally s :=
  invariantBy (I := Tally) tally_initial
    (fun _ _ _ hr hi _ h => tally_step hi (owned hr) (callInv hr) h) hr

/-- A cancel call that will yet swap the terminal flag of a request. -/
def CancelPc.toSwap : CancelPc → Option ℕ
  | .flag q | .swap q => some q
  | _ => none

def StopPc.toSwap : StopPc → List ℕ
  | .flag qs => qs
  | .swap q qs => q :: qs
  | .release _ qs => qs
  | _ => []

/-- Somebody will yet make `q` terminal, or has a worker for it. -/
def State.Handled (s : State φ) (q : ℕ) : Prop :=
  (∃ e ∈ s.waiting, e.sequence = q) ∨ (∃ e ∈ s.pc.launches, e.sequence = q) ∨
    (∃ w, s.workers q = some w) ∨ (∃ c ∈ s.cancels, c.toSwap = some q) ∨ q ∈ s.stop.toSwap

/-- The clearing of the input queue loses no request: each queued one is terminal or a cancel call
is about to make it so. -/
def losesNone (s : State φ) : Label φ → Bool
  | .stop _ => decide (s.stop = .close → ∀ e ∈ s.input, (s.terminals e.sequence).terminal = true ∨
      s.cancels.any (·.toSwap = some e.sequence) = true)
  | _ => true

structure Handling (s : State φ) : Prop where
  handled : ∀ q < s.nextSequence, (s.terminals q).terminal = false → s.Handled q
  cleared : s.closed = true → s.input = []

theorem handling_initial : Handling (State.initial : State φ) := by
  constructor <;> simp [State.initial]

theorem Handling.move (hi : Handling s) (hn : s'.nextSequence = s.nextSequence)
    (ht : ∀ q, (s.terminals q).terminal = true → (s'.terminals q).terminal = true)
    (hh : ∀ q, (s'.terminals q).terminal = false → s.Handled q → s'.Handled q)
    (hcl : s'.closed = true → s'.input = []) : Handling s' := by
  refine ⟨fun q hq hfree => hh q hfree (hi.handled q (hn ▸ hq) ?_), hcl⟩
  by_contra hne
  have := ht q (by simpa using hne)
  simp [hfree] at this

/-- A step that leaves queue, workers and calls alone. -/
theorem State.Handled.congr {q : ℕ} (h : s.Handled q) (hpc : s'.pc = s.pc ∨ s'.pc = s.pc.woken)
    (hin : ∀ e ∈ s.input, e ∈ s'.input)
    (hw : ∀ w, s.workers q = some w → ∃ w', s'.workers q = some w')
    (hc : ∀ c ∈ s.cancels, c.toSwap = some q → ∃ c ∈ s'.cancels, c.toSwap = some q)
    (hs : q ∈ s.stop.toSwap → q ∈ s'.stop.toSwap) : s'.Handled q := by
  obtain ⟨hpop, hlaunch, -⟩ := ExecPc.holds_of_woken hpc
  rcases h with ⟨e, he, hq⟩ | ⟨e, he, hq⟩ | ⟨w, hq⟩ | ⟨c, hm, hq⟩ | h
  · refine .inl ⟨e, ?_, hq⟩
    simp only [State.waiting, hpop, List.mem_append] at he ⊢
    exact he.imp_right (hin e)
  · exact .inr (.inl ⟨e, hlaunch ▸ he, hq⟩)
  · exact .inr (.inr (.inl (hw w hq)))
  · exact .inr (.inr (.inr (.inl (hc c hm hq))))
  · exact .inr (.inr (.inr (.inr (hs h))))

theorem handling_execStep {spawned : Bool} (hi : Handling s) (ho : Owned s) (hcall : CallInv s)
    (htomb : s.Tombstoned) (h : s.execStep o spawned = some s') : Handling s' := by
  have hsame := execStep_sameCalls h
  have hcleared : s'.closed = true → s'.input = [] := by
    intro hcl
    have hin := hi.cleared (hsame.closed ▸ hcl)
    cases execStep_move h with
    | stay hin' | unregister _ _ _ hin' | launch _ _ hin' | drop _ _ _ hin' => rw [hin', hin]
    | complete c cs hpc hnext | spawn e ls hpc hnext | spawnFailed e r ls hpc hnext
    | finalize hpc hnext =>
      rw [hnext]
      exact hin
    | pop e es hpop hhead => simp [hin] at hhead
  refine hi.move hsame.nextSequence (fun q hq => hsame.terminal hq) (fun q hfree hh => ?_) hcleared
  have hfree' : ¬ (s.terminals q).terminal = true := fun ht => by
    simp [hsame.terminal ht] at hfree
  have hcalls : (∃ c ∈ s.cancels, c.toSwap = some q) ∨ q ∈ s.stop.toSwap → s'.Handled q := by
    rintro (hc | hs)
    · exact .inr (.inr (.inr (.inl (by rw [hsame.cancels]; exact hc))))
    · exact .inr (.inr (.inr (.inr (by rw [hsame.stop]; exact hs))))
  have hswap : s.Swapping q → s'.Handled q := by
    rintro (hm | ⟨qs, hs⟩)
    · exact hcalls (.inl ⟨_, hm, rfl⟩)
    · exact hcalls (.inr (by simp [hs, StopPc.toSwap]))
  cases execStep_move h with
  | stay hin hact hpop hlaunch hreg hw =>
    rcases hh with hh | hh | hh | hh
    · exact .inl (by simpa only [State.waiting, hin, hpop] using hh)
    · exact .inr (.inl (by rw [hlaunch]; exact hh))
    · exact .inr (.inr (.inl (by rw [hw]; exact hh)))
    · exact hcalls hh
  | unregister c cs hpc hin hact hpop hlaunch hreg hw =>
    rcases hh with hh | hh | hh | hh
    · exact .inl (by simpa only [State.waiting, hin, hpop] using hh)
    · exact .inr (.inl (by rw [hlaunch]; exact hh))
    · exact .inr (.inr (.inl (by rw [hw]; exact hh)))
    · exact hcalls hh
  | complete c cs hpc hnext =>
    subst hnext
    simpa [State.Handled, State.waiting, hpc, ExecPc.popped, ExecPc.launches] using hh
  | pop e es hpop hhead hin hact hpop' hlaunch hreg hw =>
    rcases hh with hh | hh | hh | hh
    · exact .inl (by simpa [State.waiting, hin, hpop, hpop', hhead] using hh)
    · exact .inr (.inl (by rw [hlaunch]; exact hh))
    · exact .inr (.inr (.inl (by rw [hw]; exact hh)))
    · exact hcalls hh
  | launch e hpop hin hact hpop' hlaunch hreg hw =>
    rcases hh with ⟨e', he', hq⟩ | ⟨e', he', hq⟩ | hh | hh
    · simp only [State.waiting, hpop, Option.toList_some, List.singleton_append,
        List.mem_cons] at he'
      rcases he' with rfl | he'
      · exact .inr (.inl ⟨e', by simp [hlaunch], hq⟩)
      · exact .inl ⟨e', by simpa [State.waiting, hpop', hin] using he', hq⟩
    · exact .inr (.inl ⟨e', by rw [hlaunch]; exact List.mem_append_left _ he', hq⟩)
    · exact .inr (.inr (.inl (by rw [hw]; exact hh)))
    · exact hcalls hh
  | drop e hpop hreason hin hact hpop' hlaunch hreg hw =>
    rcases hh with ⟨e', he', hq⟩ | hh | hh | hh
    · simp only [State.waiting, hpop, Option.toList_some, List.singleton_append,
        List.mem_cons] at he'
      rcases he' with rfl | he'
      · -- a tombstone leaves its request to the call that raised the flag
        rcases hreason with ⟨ls, hpc⟩ | ⟨r, ls, hpc⟩
        · refine hswap (hcall.swapping q (hq ▸ htomb _ _ hpc) ?_)
          exact TerminalState.winner_of_not_terminal hfree'
        · exact absurd (hq ▸ (ho.decided e'.sequence (by rw [hpc]; rfl)).2) hfree'
      · exact .inl ⟨e', by simpa [State.waiting, hpop', hin] using he', hq⟩
    · exact .inr (.inl (by rw [hlaunch]; exact hh))
    · exact .inr (.inr (.inl (by rw [hw]; exact hh)))
    · exact hcalls hh
  | spawn e ls hpc hnext =>
    subst hnext
    rcases hh with hh | ⟨e', he', hq⟩ | ⟨w, hw⟩ | hh
    · exact .inl (by simpa [State.waiting, hpc, ExecPc.popped] using hh)
    · rw [hpc] at he'
      rcases List.mem_cons.mp he' with rfl | he'
      · exact .inr (.inr (.inl ⟨_, by rw [← hq]; exact Function.update_self ..⟩))
      · exact .inr (.inl ⟨e', he', hq⟩)
    · by_cases hqe : q = e.sequence
      · exact .inr (.inr (.inl ⟨_, by rw [hqe]; exact Function.update_self ..⟩))
      · exact .inr (.inr (.inl ⟨w, by simpa [hqe] using hw⟩))
    · exact hcalls hh
  | spawnFailed e r ls hpc hnext =>
    subst hnext
    rcases hh with hh | ⟨e', he', hq⟩ | hh | hh
    · exact .inl (by simpa [State.waiting, hpc, ExecPc.popped] using hh)
    · rw [hpc] at he'
      rcases List.mem_cons.mp he' with rfl | he'
      · exact absurd (hq ▸ (ho.decided e'.sequence (by rw [hpc]; rfl)).2) hfree'
      · exact .inr (.inl ⟨e', he', hq⟩)
    · exact .inr (.inr (.inl hh))
    · exact hcalls hh
  | finalize hpc hnext =>
    subst hnext
    simpa [State.Handled, State.waiting, hpc, ExecPc.popped, ExecPc.launches] using hh

theorem handling_workerStep {k : ℕ} {out : AdapterOutcome φ} (hi : Handling s)
    (h : s.workerStep o k out = some s') : Handling s' := by
  have hexec := workerStep_sameExecutor h
  have hsame := workerStep_sameCalls h
  have hws : ∀ q w, s.workers q = some w → ∃ w', s'.workers q = some w' := by
    intro q w hq
    have hset : ∃ (w : Worker φ) (pc : WorkerPc φ),
        s'.workers = Function.update s.workers k (some { w with pc := pc }) := by
      obtain ⟨w, -, ⟨-, pc, m, -, rfl⟩ | ⟨r, m, -, -, rfl⟩ | ⟨r, -, -, rfl⟩ | ⟨r, m, -, rfl⟩ |
        ⟨r, -, -, rfl⟩ | ⟨-, rfl⟩⟩ := workerStep_cases h <;> exact ⟨w, _, rfl⟩
    obtain ⟨w', pc, hset⟩ := hset
    by_cases hqk : q = k
    · exact ⟨_, by rw [hset, hqk]; exact Function.update_self ..⟩
    · exact ⟨w, by rw [hset, Function.update_of_ne hqk, hq]⟩
  refine hi.move hsame.nextSequence (fun q hq => hsame.terminal hq) (fun q _ hh => ?_)
    fun hcl => by rw [hexec.input]; exact hi.cleared (hsame.closed ▸ hcl)
  exact hh.congr hexec.pc (by rw [hexec.input]; exact fun _ => id) (hws q)
    (fun c hc hq => ⟨c, by rw [hsame.cancels]; exact hc, hq⟩) (by rw [hsame.stop]; exact id)

theorem handling_cancelStep {i : ℕ} (hi : Handling s) (h : s.cancelStep i = some s') :
    Handling s' := by
  have hsame := cancelStep_sameOwners h
  have hexec := cancelStep_sameExecutor h
  have hcl : s'.closed = s.closed := hexec.closed
  have hmove : ∀ {c c' : CancelPc}, s.cancels[i]? = some c → s'.cancels = s.cancels.set i c' →
      s'.stop = s.stop → (∀ q, c.toSwap = some q → (s'.terminals q).terminal = false →
        c'.toSwap = some q) → Handling s' := by
    intro c c' hc hcs hst hswap
    refine hi.move hsame.nextSequence hsame.terminals (fun q hfree hh => ?_)
      fun h => by rw [hsame.input]; exact hi.cleared (hcl ▸ h)
    refine hh.congr hsame.pc (by rw [hsame.input]; exact fun _ => id)
      (fun w hw => ⟨w, by rw [hsame.workers]; exact hw⟩) (fun d hd hq => ?_)
      (by rw [hst]; exact id)
    by_cases hdc : d = c
    · exact ⟨c', by rw [hcs]; exact mem_set_self hc, hswap q (hdc ▸ hq) hfree⟩
    · exact ⟨d, by rw [hcs]; exact mem_set_of_ne hc hd hdc, hq⟩
  obtain ⟨_, hc, rfl⟩ | ⟨_, q', hc, -, -, rfl⟩ | ⟨k, hc, rfl⟩ | ⟨k, hc, ht, rfl⟩ |
    ⟨k, hc, -, rfl⟩ | ⟨k, m, hc, rfl⟩ | ⟨k, won, hc, rfl⟩ := cancelStep_cases h
  · exact hmove hc rfl rfl (by simp [CancelPc.toSwap])
  · exact hmove hc rfl rfl (by simp [CancelPc.toSwap])
  · exact hmove hc rfl rfl fun q hq _ => hq
  · refine hmove hc rfl rfl fun q hq hfree => ?_
    cases hq
    simp [ht] at hfree
  · refine hmove hc rfl rfl fun q hq hfree => ?_
    cases hq
    simp [TerminalState.terminal] at hfree
  · exact hmove hc rfl rfl (by simp [CancelPc.toSwap])
  · exact hmove hc rfl rfl (by simp [CancelPc.toSwap])

theorem handling_stopStep {order : List ℕ} (hi : Handling s)
    (hc : losesNone s (.stop order) = true) (h : s.stopStep order = some s') : Handling s' := by
  by_cases hp : s.stop = .close
  · simp only [losesNone, decide_eq_true_eq] at hc
    have hc := hc hp
    simp only [State.stopStep, hp] at h
    split_ifs at h
    cases h
    refine hi.move rfl (fun _ => id) (fun q hfree hh => ?_) fun _ => rfl
    rcases hh with ⟨e, he, rfl⟩ | hh | hh | hh | hs
    · rcases List.mem_append.mp he with he | he
      · exact .inl ⟨e, List.mem_append_left _ he, rfl⟩
      · rcases hc e he with ht | hm
        · simp [ht] at hfree
        · simp only [List.any_eq_true, decide_eq_true_eq] at hm
          exact .inr (.inr (.inr (.inl hm)))
    · exact .inr (.inl hh)
    · exact .inr (.inr (.inl hh))
    · exact .inr (.inr (.inr (.inl hh)))
    · simp [hp, StopPc.toSwap] at hs
  · have hsame := stopStep_sameOwners hp h
    have hcs := stopStep_cancels h
    have hmove : (∀ q, q ∈ s.stop.toSwap → (s'.terminals q).terminal = false →
        q ∈ s'.stop.toSwap) → s'.closed = s.closed → Handling s' := by
      intro hswap hcl
      refine hi.move hsame.nextSequence hsame.terminals (fun q hfree hh => ?_)
        fun h => by rw [hsame.input]; exact hi.cleared (hcl ▸ h)
      exact hh.congr hsame.pc (by rw [hsame.input]; exact fun _ => id)
        (fun w hw => ⟨w, by rw [hsame.workers]; exact hw⟩)
        (fun d hd hq => ⟨d, by rw [hcs]; exact hd, hq⟩) fun hq => hswap q hq hfree
    unfold State.stopStep at h
    split at h <;> rename_i hst <;> (try split_ifs at h with hif) <;> cases h
    · exact absurd hst hp
    · exact hmove (by simp [hst, StopPc.toSwap]) rfl
    · exact hmove (by simp [hst, StopPc.toSwap]) rfl
    · exact hmove (fun q hq _ => by simpa [hst, StopPc.toSwap] using hq) rfl
    · refine hmove (fun q hq hfree => ?_) rfl
      simp only [hst, StopPc.toSwap, List.mem_cons] at hq
      rcases hq with rfl | hq
      · simp [hif] at hfree
      · exact hq
    · refine hmove (fun q hq hfree => ?_) rfl
      simp only [hst, StopPc.toSwap, List.mem_cons] at hq
      rcases hq with rfl | hq
      · simp [TerminalState.terminal] at hfree
      · exact hq
    · exact hmove (fun q hq _ => by simpa [hst, StopPc.toSwap] using hq) rfl
    · exact hmove (by simp [hst, StopPc.toSwap]) rfl

theorem handling_trySubmit (hi : Handling s) (r : AsyncRequest φ) (lifecycle : ℕ) :
    Handling (s.trySubmit o r lifecycle) := by
  rcases trySubmit_cases (o := o) (s := s) r lifecycle with ⟨m, h⟩ | ⟨hcl, -, m, h⟩ <;> rw [h]
  · exact ⟨hi.handled, hi.cleared⟩
  · refine ⟨fun q hq hfree => ?_, fun h => by simp [hcl] at h⟩
    by_cases hnew : q = s.nextSequence
    · exact .inl ⟨_, List.mem_append_right _ (List.mem_append_right _ (List.mem_singleton_self _)),
        hnew.symm⟩
    · have hlt : q < s.nextSequence := by
        have hq' : q < s.nextSequence + 1 := hq
        omega
      have hfree' : (s.terminals q).terminal = false := by simpa [hnew] using hfree
      exact (hi.handled q hlt hfree').congr (.inr rfl) (fun e he => List.mem_append_left _ he)
        (fun w hw => ⟨w, hw⟩) (fun c hc hq => ⟨c, hc, hq⟩) id

theorem handling_step {a : Label φ} (hi : Handling s) (ho : Owned s) (hcall : CallInv s)
    (htomb : s.Tombstoned) (hc : losesNone s a = true) (h : s.step o a = some s') :
    Handling s' := by
  have hsame : ∀ {t : State φ}, (t.pc = s.pc ∨ t.pc = s.pc.woken) →
      t.nextSequence = s.nextSequence → t.terminals = s.terminals → t.input = s.input →
      t.workers = s.workers → t.closed = s.closed → (∀ c ∈ s.cancels, c ∈ t.cancels) →
      (∀ q ∈ s.stop.toSwap, q ∈ t.stop.toSwap) → Handling t := by
    intro t hpc hn ht hin hw hcl hcs hst
    refine hi.move hn (by rw [ht]; exact fun _ => id) (fun q _ hh => ?_)
      fun h => by rw [hin]; exact hi.cleared (hcl ▸ h)
    exact hh.congr hpc (by rw [hin]; exact fun _ => id)
      (fun w hq => ⟨w, by rw [hw]; exact hq⟩) (fun c hc hq => ⟨c, hcs c hc, hq⟩) (hst q)
  cases a with
  | trySubmit r lifecycle =>
    simp only [State.step] at h
    split_ifs at h
    cases h
    exact handling_trySubmit hi r lifecycle
  | tryRecv =>
    simp only [State.step] at h
    split_ifs at h
    cases h
    rcases tryRecv_cases (s := s) with h | ⟨c, cs, m, -, h⟩ <;> rw [h]
    · exact hi
    · exact hsame (.inr rfl) rfl rfl rfl rfl rfl (fun _ => id) fun _ => id
  | exec spawned => exact handling_execStep hi ho hcall htomb h
  | worker q out => exact handling_workerStep hi h
  | cancelBegin requestId =>
    cases h
    exact hsame (.inl rfl) rfl rfl rfl rfl rfl (fun _ => List.mem_append_left _) fun _ => id
  | cancel i => exact handling_cancelStep hi h
  | requestStop =>
    simp only [State.step] at h
    split_ifs at h with hl <;> cases h
    · exact hsame (.inl rfl) rfl rfl rfl rfl rfl (fun _ => id)
        (by simp [hcall.running hl, StopPc.toSwap])
    · exact hsame (.inl rfl) rfl rfl rfl rfl rfl (fun _ => id) fun _ => id
  | stop order => exact handling_stopStep hi hc h
  | tick d => cases h; exact hsame (.inl rfl) rfl rfl rfl rfl rfl (fun _ => id) fun _ => id
  | wake =>
    simp only [State.step] at h
    split at h <;> cases h
    rename_i next hp
    exact hsame (.inr (by rw [hp]; rfl)) rfl rfl rfl rfl rfl (fun _ => id) fun _ => id

theorem handling (hr : (system o).ReachableBy (fun s a => losesNone s a = true) s) :
    Handling s :=
  invariantBy (I := Handling) handling_initial (fun _ _ _ hr hi hc h =>
    handling_step hi (owned hr) (callInv hr) (tombstoned hr) hc h) hr

/-- The stream has stopped, and no worker, cancel call or stop call is running. -/
def State.over (s : State φ) : Bool :=
  (s.pc matches .stopped) && decide (s.stop = .returned) &&
    s.cancels.all (fun c => c matches .returned ..) &&
    (List.range s.nextSequence).all fun q => !(s.workers q).any (·.pc.live)

theorem ExecPc.eq_stopped {pc : ExecPc φ} (h : (pc matches .stopped) = true) : pc = .stopped := by
  cases pc <;> first | rfl | cases h

theorem WorkerPc.exited_of_not_live {pc : WorkerPc φ} (h : pc.live = false) : pc = .exited := by
  cases pc <;> first | rfl | cases h

/-- Nobody is about to count a request any more. -/
theorem releasers_of_over (h : s.over = true) : s.releasers = 0 := by
  simp only [State.over, Bool.and_eq_true, decide_eq_true_eq, List.all_eq_true] at h
  obtain ⟨⟨⟨hpc, hstop⟩, hcancels⟩, hworkers⟩ := h
  have hexec : s.pc.releasing = none := by
    rw [ExecPc.eq_stopped hpc]
    rfl
  have hcalls : s.cancels.countP CancelPc.releasing = 0 := by
    rw [List.countP_eq_zero]
    intro c hc
    have hret := hcancels c hc
    cases c <;> simp [CancelPc.releasing] at hret ⊢
  have hthreads : ((List.range s.nextSequence).countP fun q =>
      (s.workers q).any (·.pc.releasing)) = 0 := by
    rw [List.countP_eq_zero]
    intro q hq
    have hlive := hworkers q hq
    cases hw : s.workers q with
    | none => simp
    | some w =>
      have hexit : w.pc.live = false := by simpa [hw] using hlive
      simp [WorkerPc.exited_of_not_live hexit, WorkerPc.releasing]
  simp [State.releasers, hexec, hcalls, hthreads, hstop, StopPc.releasing]

/-- A request that was handled is terminal at the end. -/
theorem terminal_of_over (hr : (system o).Reachable s) (hi : Handling s) (h : s.over = true)
    {q : ℕ} (hq : q < s.nextSequence) : (s.terminals q).terminal = true := by
  have ho := owned hr
  have hcall := callInv hr
  simp only [State.over, Bool.and_eq_true, decide_eq_true_eq, List.all_eq_true,
    List.mem_range] at h
  obtain ⟨⟨⟨hpc, hstop⟩, hcancels⟩, hworkers⟩ := h
  have hinput : s.input = [] := hi.cleared (hcall.closing.mpr (by simp [hstop]))
  have hstopped := ExecPc.eq_stopped hpc
  have hpop : s.pc.popped = none := by rw [hstopped]; rfl
  have hlaunch : s.pc.launches = [] := by rw [hstopped]; rfl
  by_contra hfree
  rcases hi.handled q hq (by simpa using hfree) with ⟨e, he, -⟩ | ⟨e, he, -⟩ | ⟨w, hw⟩ |
    ⟨c, hc, hswap⟩ | hswap
  · simp [State.waiting, hinput, hpop] at he
  · simp [hlaunch] at he
  · have hlive := hworkers q hq
    refine hfree ((ho.workers q w hw).2 ?_)
    have hexit : w.pc.live = false := by simpa [hw] using hlive
    rw [WorkerPc.exited_of_not_live hexit]
    rfl
  · have hret := hcancels c hc
    cases c <;> simp_all [CancelPc.toSwap]
  · simp [hstop, StopPc.toSwap] at hswap

/-- The classes always add up. Unless a stop clears a request out of the queue that nobody else
points to, every accepted request has been counted once all is over. -/
theorem terminal_counts (o : ManagedStreamOptions φ) :
    (∀ s, (system o).Reachable s → s.metrics.completed = s.metrics.succeeded +
      s.metrics.retryExhausted + s.metrics.failed + s.metrics.timedOut + s.metrics.cancelled) ∧
    ∀ s, (system o).ReachableBy (fun s a => losesNone s a = true) s → s.over = true →
      s.metrics.accepted = s.metrics.completed := by
  refine ⟨fun s hr => (tally hr).classes, fun s hr hover => ?_⟩
  have hi := tally hr
  have hall : s.terminated = s.nextSequence := by
    rw [State.terminated, List.countP_eq_length.mpr, List.length_range]
    intro q hq
    exact terminal_of_over hr.reachable (handling hr) hover (List.mem_range.mp hq)
  have hcompleted := hi.completed
  rw [releasers_of_over hover, hall] at hcompleted
  rw [hi.accepted, ← hcompleted]
  omega

def Label.stopCall : List (Label Unit) :=
  [.requestStop, .stop [], .stop [], .stop [], .stop []]

/-- A request that is answered before the stop. -/
theorem terminal_counts_answered :
    ∃ s, (system (sampleOptions .strict)).ReachableBy (fun s a => losesNone s a = true) s ∧
      s.over = true ∧ s.metrics.accepted = 1 ∧ s.metrics.accepted = s.metrics.completed := by
  obtain ⟨s, hr, ht⟩ := (system (sampleOptions .strict)).exists_reachableBy_of_runBy rfl
    ([Label.submit 7] ++ Label.execs 11 ++ Label.works 0 9 ++ Label.execs 11 ++ Label.stopCall ++
      Label.execs 2)
    (fun s => s.over ∧ s.metrics.accepted = 1)
    (C := fun s a => losesNone s a = true) (by decide +kernel)
  simp only [decide_eq_true_eq] at ht
  exact ⟨s, hr, ht.1, ht.2, (terminal_counts _).2 s hr ht.1⟩

/-- The queue holds the only pointer to a request: `request_stop` clears it and then finds nothing
to cancel. -/
theorem terminal_counts_queued :
    ∃ s, (system (sampleOptions .strict)).Reachable s ∧ s.over = true ∧
      s.metrics.accepted = 1 ∧ s.metrics.completed = 0 := by
  obtain ⟨s, hr, ht⟩ := (system (sampleOptions .strict)).exists_reachable_of_run rfl
    ([Label.submit 7] ++ Label.stopCall ++ Label.execs 2)
    (fun s => s.over ∧ s.metrics.accepted = 1 ∧ s.metrics.completed = 0) (by decide +kernel)
  simp only [decide_eq_true_eq] at ht
  exact ⟨s, hr, ht⟩

end Muxiva.Stream
