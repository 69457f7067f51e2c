import Muxiva.Stream.Ownership
import Muxiva.Stream.Order

/-! One outcome per request. A request whose terminal flag was won by its worker or by its
deadline has exactly one result on its way to the caller, and a request whose flag was won by
a cancel call has none, as long as no party acts on the cancellation flag of a cancel call
that loses the race for the terminal flag. -/
set_option linter.all false
namespace Muxiva.Stream

variable {φ : Type} {o : ManagedStreamOptions φ} {s s' : State φ}

/-- Already delivered, skipped or buffered by the strict delivery order. -/
def State.resolved (s : State φ) (q : ℕ) : Bool :=
  decide (q < s.nextDelivery) || s.ordered.contains q

/-- Steps of runs without a stop in which a cancel call that loses the terminal race changes
nothing: a worker does not win with the empty result of a cancelled attempt loop nor after its
request was resolved, and the sweep does not resolve a request its worker has won. -/
def cancelsWhole (o : ManagedStreamOptions φ) (s : State φ) : Label φ → Bool
  | .requestStop => false
  | .worker q _ =>
    match s.workers q with
    | some ⟨_, .finish r⟩ => (s.terminals q).terminal || (r.isSome && !s.resolved q)
    | _ => true
  | .exec _ =>
    match s.pc with
    | .scan _ ((q, _) :: _) => !((s.terminals q).cancelled && decide (o.ordering = .strict) &&
        !s.resolved q && decide ((s.terminals q).winner = some .worker))
    | _ => true
  | _ => true

/-- The result-carrying results of `q` in a delivery list. -/
def resultTokens (l : List (StreamCompletion φ)) (q : ℕ) : ℕ := l.countP (·.sequence = q)

def completionTokens (l : List (WorkerCompletion φ)) (q : ℕ) : ℕ :=
  l.countP fun c => c.sequence = q ∧ c.result.isSome

def orderedTokens (m : SortedMap ℕ (OrderedResolution φ)) (q : ℕ) : ℕ :=
  if (m.get? q).any (·.result.isSome) then 1 else 0

/-- A worker past its won swap whose completion is not handed over yet. -/
def workerTokens : Option (Worker φ) → ℕ
  | some ⟨_, .release (some _)⟩ | some ⟨_, .push (some _)⟩ => 1
  | _ => 0

/-- Results the executor has in hand outside its buffers. -/
def ExecPc.tokens : ExecPc φ → ℕ → ℕ
  | .resolve cs, q => completionTokens cs q
  | .unregister c cs, q => completionTokens (c :: cs) q
  | .expired _ k _ _, q => if k = q then 1 else 0
  | .admitRelease e _, q | .spawnRelease e _, q => if e.sequence = q then 1 else 0
  | .admitUnregister e r _, q | .spawnPush e r _, q =>
    if e.sequence = q ∧ r.isSome then 1 else 0
  | _, _ => 0

/-- Results of request `q` anywhere between the party that produced them and the caller. -/
def State.tokens (s : State φ) (q : ℕ) : ℕ :=
  workerTokens (s.workers q) + s.pc.tokens q + completionTokens s.workerCompletions q +
    orderedTokens s.ordered q + resultTokens s.relaxed q + resultTokens s.results q +
    resultTokens s.delivered q

@[simp] theorem completionTokens_nil (q : ℕ) :
    completionTokens ([] : List (WorkerCompletion φ)) q = 0 := rfl

@[simp] theorem completionTokens_cons (c : WorkerCompletion φ) (l : List (WorkerCompletion φ))
    (q : ℕ) : completionTokens (c :: l) q =
      completionTokens l q + if c.sequence = q ∧ c.result.isSome then 1 else 0 := by
  simp [completionTokens, List.countP_cons]

@[simp] theorem completionTokens_append (l l' : List (WorkerCompletion φ)) (q : ℕ) :
    completionTokens (l ++ l') q = completionTokens l q + completionTokens l' q :=
  List.countP_append

@[simp] theorem resultTokens_nil (q : ℕ) : resultTokens ([] : List (StreamCompletion φ)) q = 0 := rfl

@[simp] theorem resultTokens_cons (c : StreamCompletion φ) (l : List (StreamCompletion φ))
    (q : ℕ) : resultTokens (c :: l) q = resultTokens l q + if c.sequence = q then 1 else 0 := by
  simp [resultTokens, List.countP_cons]

@[simp] theorem resultTokens_append (l l' : List (StreamCompletion φ)) (q : ℕ) :
    resultTokens (l ++ l') q = resultTokens l q + resultTokens l' q :=
  List.countP_append

theorem get?_of_not_contains {m : SortedMap ℕ (OrderedResolution φ)} {k : ℕ}
    (h : m.contains k = false) : m.get? k = none := by
  simpa [SortedMap.contains] using h

/-- A buffered resolution adds its result once, when nothing was buffered for it before. -/
theorem buffer_tokens (s : State φ) (keep : Prop) [Decidable keep] (k requestId : ℕ)
    (r : Option (StreamResult φ)) (hk : keep → s.ordered.contains k = false)
    (hr : r.isSome = true → keep) (q : ℕ) :
    orderedTokens (s.buffer o keep k requestId r).ordered q +
        resultTokens (s.buffer o keep k requestId r).relaxed q =
      orderedTokens s.ordered q + resultTokens s.relaxed q +
        if k = q ∧ r.isSome then 1 else 0 := by
  cases hord : o.ordering with
  | strict =>
    simp only [State.buffer, hord, true_and, reduceCtorEq, if_false]
    by_cases hkeep : keep
    · simp only [if_pos hkeep, orderedTokens, SortedMap.get?_insert]
      by_cases hq : q = k
      · subst hq
        simp [get?_of_not_contains (hk hkeep), Nat.add_comm]
      · simp [hq, Ne.symm hq]
    · have hnone : ¬ r.isSome = true := fun h => hkeep (hr h)
      simp [hkeep, hnone]
  | relaxed =>
    simp only [State.buffer, hord, reduceCtorEq, false_and, if_false, if_true,
      resultTokens_append]
    cases r with
    | none => simp
    | some r => simp [Nat.add_assoc]

theorem flushRelaxed_tokens (cap : ℕ) (l results : List (StreamCompletion φ)) (q : ℕ) :
    resultTokens (flushRelaxed cap l results).1 q + resultTokens (flushRelaxed cap l results).2 q =
      resultTokens l q + resultTokens results q := by
  induction l generalizing results with
  | nil => simp [flushRelaxed]
  | cons c cs ih =>
    simp only [flushRelaxed]
    split_ifs
    · rw [ih]
      simp
      omega
    · rfl

theorem flushStrict_tokens (fuel : ℕ) (d : Delivery φ) (q : ℕ) :
    orderedTokens (flushStrict o fuel d).ordered q + resultTokens (flushStrict o fuel d).results q =
      orderedTokens d.ordered q + resultTokens d.results q := by
  induction fuel generalizing d with
  | zero => rfl
  | succ fuel ih =>
    simp only [flushStrict]
    split
    · rfl
    · rename_i id hget
      rw [ih]
      simp only [Delivery.advance, List.append_nil, orderedTokens, SortedMap.get?_erase]
      by_cases hq : q = d.nextDelivery
      · subst hq
        simp [hget]
      · simp [hq]
    · rename_i id r hget
      split_ifs
      · rfl
      · rw [ih]
        simp only [Delivery.advance, orderedTokens, SortedMap.get?_erase, resultTokens_append,
          resultTokens_cons, resultTokens_nil, Nat.zero_add]
        by_cases hq : q = d.nextDelivery
        · subst hq
          simp [hget]
          omega
        · simp [hq, Ne.symm hq]

/-- The delivery block moves results, it neither drops nor copies them. -/
theorem flush_tokens (q : ℕ) :
    orderedTokens (s.flush o).ordered q + resultTokens (s.flush o).relaxed q +
        resultTokens (s.flush o).results q =
      orderedTokens s.ordered q + resultTokens s.relaxed q + resultTokens s.results q := by
  have hrel := flushRelaxed_tokens o.resultCapacity s.relaxed s.results q
  obtain ⟨d, ho, -, hr, m, hf⟩ := flush_eq (s := s) (o := o)
  have hstr := flushStrict_tokens (o := o) s.ordered.entries.length d q
  rw [ho, hr] at hstr
  rw [hf]
  by_cases hs : o.ordering = .strict
  · simp only [if_pos hs]
    omega
  · simp only [if_neg hs, ho, hr]
    omega

/-- A result the executor had in hand is in the buffer afterwards. -/
theorem tokens_buffer (s : State φ) (keep : Prop) [Decidable keep] (k requestId : ℕ)
    (r : Option (StreamResult φ)) (hk : keep → s.ordered.contains k = false)
    (hr : r.isSome = true → keep) (m : Metrics) {pc : ExecPc φ} {q : ℕ}
    (hq : s.pc.tokens q = pc.tokens q + if k = q ∧ r.isSome then 1 else 0) :
    ({ s.buffer o keep k requestId r with metrics := m, pc := pc } : State φ).tokens q =
      s.tokens q := by
  have hbuf := buffer_tokens (o := o) s keep k requestId r hk hr q
  simp only [State.tokens]
  simp only [State.buffer] at hbuf ⊢
  omega

/-- What the executor has to know when it buffers or hands over a result: nothing was
resolved for that request before. -/
structure BufferReady (s : State φ) : Prop where
  opened : s.closed = false
  staying : s.pc ≠ .finalize
  completed : ∀ c cs, s.pc = .unregister c cs → c.result.isSome = true →
    s.resolved c.sequence = false
  expired : ∀ now k r rest, s.pc = .expired now k r rest → s.ordered.contains k = false
  popped : ∀ e, s.pc.popped = some e → s.ordered.contains e.sequence = false
  spawning : ∀ e ls, s.pc = .spawn (e :: ls) → s.workers e.sequence = none

/-- A step that wins no flag and keeps the results where they count. -/
theorem tokens_idle {q : ℕ} (h : s'.tokens q = s.tokens q) (hr : s'.pc.releasing = none) :
    s'.tokens q = s.tokens q + if s.pc.releasing = none ∧ s'.pc.releasing = some q then 1 else 0 := by
  rw [if_neg (by simp [hr]), h, Nat.add_zero]

/-- One executor action neither loses nor copies a result; it adds one when it wins a flag. -/
theorem execStep_tokens {spawned : Bool} (hb : BufferReady s)
    (h : s.execStep o spawned = some s') (q : ℕ) :
    s'.tokens q = s.tokens q +
      if s.pc.releasing = none ∧ s'.pc.releasing = some q then 1 else 0 := by
  cases execStep_branch h with
  | topClosed hcl | deliverClosed hcl => simp [hb.opened] at hcl
  | top _ hpc | resolved hpc | admitExpireLost _ _ _ hpc | admitRelease _ _ hpc
  | spawnLost _ _ _ hpc | spawnRelease _ _ hpc =>
    simp [State.tokens, ExecPc.tokens, ExecPc.releasing, hpc]
  | unregister c cs hpc =>
    exact tokens_idle (tokens_buffer (s.removeRegistration c.requestId) _ c.sequence c.requestId
      c.result (fun h => h.2) (fun hr => by simpa [State.resolved] using hb.completed c cs hpc hr) _
      (by simp [hpc, ExecPc.tokens])) rfl
  | scanCancelled now k r rest _ hpc =>
    exact tokens_idle (tokens_buffer s _ k r.requestId none (fun h => h.2) (by simp) _
      (by simp [hpc, ExecPc.tokens])) rfl
  | expire now k r rest _ hpc =>
    simp [State.tokens, ExecPc.tokens, ExecPc.releasing, hpc]
    omega
  | expired now k r rest hpc =>
    have hk := hb.expired now k r rest hpc
    exact tokens_idle (tokens_buffer (s.takeLease k) _ k r.requestId (some (.failed .timeout))
      (fun h => h) (fun _ => hk) _ (by simp [hpc, ExecPc.tokens])) rfl
  | deliver _ hpc =>
    refine tokens_idle ?_ rfl
    have hflush := flush_tokens (s := s) (o := o) q
    simp only [State.tokens, ExecPc.tokens, hpc]
    have hsame : (s.flush o).workers = s.workers ∧
        (s.flush o).workerCompletions = s.workerCompletions ∧
        (s.flush o).delivered = s.delivered := ⟨rfl, rfl, rfl⟩
    rw [hsame.1, hsame.2.1, hsame.2.2]
    omega
  | tombstone e ls hpc =>
    exact tokens_idle (tokens_buffer (s.removeRegistration e.requestId) True e.sequence
      e.requestId none (fun _ => hb.popped e (by rw [hpc]; rfl)) (fun _ => trivial) _
      (by simp [hpc, ExecPc.tokens])) rfl
  | admitUnregister e r ls hpc =>
    exact tokens_idle (tokens_buffer (s.removeRegistration e.requestId) True e.sequence
      e.requestId r (fun _ => hb.popped e (by rw [hpc]; rfl)) (fun _ => trivial) _
      (by simp [hpc, ExecPc.tokens])) rfl
  | admitExpire e ls _ hpc | spawnFinish e ls _ hpc =>
    simp [State.tokens, ExecPc.tokens, ExecPc.releasing, hpc]
    omega
  | spawn e ls _ hpc =>
    have hnone := hb.spawning e ls hpc
    have hw : workerTokens (Function.update s.workers e.sequence
        (some ⟨e, .checkFlag 1 .begin⟩) q) = workerTokens (s.workers q) := by
      by_cases hq : q = e.sequence
      · subst hq
        simp [hnone, workerTokens]
      · simp [hq]
    simp [State.tokens, ExecPc.tokens, ExecPc.releasing, hpc, hw]
  | spawnPush e r ls hpc =>
    simp [State.tokens, ExecPc.tokens, ExecPc.releasing, hpc, hb.opened]
    omega
  | finalize hpc => exact absurd hpc hb.staying
  | _ =>
    rename_i hpc
    exact tokens_idle (by simp only [State.tokens, hpc]; rfl) rfl

/-- The request a cancel call has won. -/
def CancelPc.won : CancelPc → Option ℕ
  | .release q | .notify q true | .returned (some q) true => some q
  | _ => none

/-- Who has won which terminal flag, in a run without a stop. -/
structure WinnerInv (s : State φ) : Prop where
  idle : s.stop = .idle
  running : s.pc ≠ .finalize ∧ s.pc ≠ .stopped
  fresh : ∀ q w, (s.terminals q).winner = some w → q < s.nextSequence
  winnerless : ∀ q < s.nextSequence, (s.terminals q).winner = none →
    (∃ e ∈ s.waiting, e.sequence = q) ∨ s.active.contains q = true ∨ .swap q ∈ s.cancels
  cancelled : ∀ q, (s.terminals q).winner = some .cancel ↔ ∃ c ∈ s.cancels, c.won = some q

theorem winnerInv_initial : WinnerInv (State.initial : State φ) := by
  constructor <;> simp [State.initial]

theorem WinnerInv.opened (hi : WinnerInv s) (hcall : CallInv s) : s.closed = false := by
  by_contra hne
  exact (hcall.closing.mp (by simpa using hne)).1 hi.idle

/-- A step that keeps requests, calls and winners. -/
theorem WinnerInv.of_same (hi : WinnerInv s) (hstop : s'.stop = s.stop)
    (hpc : s'.pc = s.pc ∨ s'.pc = s.pc.woken) (hn : s'.nextSequence = s.nextSequence)
    (hin : s'.input = s.input) (hact : s'.active = s.active)
    (hw : ∀ q, (s'.terminals q).winner = (s.terminals q).winner)
    (hsw : ∀ q, .swap q ∈ s.cancels → .swap q ∈ s'.cancels)
    (hwon : ∀ q, (∃ c ∈ s'.cancels, c.won = some q) ↔ ∃ c ∈ s.cancels, c.won = some q) :
    WinnerInv s' := by
  obtain ⟨hpop, -⟩ := ExecPc.holds_of_woken hpc
  have hwait : s'.waiting = s.waiting := by simp only [State.waiting, hpop, hin]
  refine ⟨hstop.trans hi.idle, ?_, fun q w h => ?_, fun q hq h => ?_, fun q => ?_⟩
  · rcases hpc with h | h
    · exact h ▸ hi.running
    · rcases ExecPc.woken_cases s.pc with h' | ⟨next, -, h'⟩
      · exact (h.trans h') ▸ hi.running
      · simp [h, h']
  · rw [hn]
    exact hi.fresh q w (hw q ▸ h)
  · rw [hwait, hact]
    exact (hi.winnerless q (hn ▸ hq) (hw q ▸ h)).imp_right (Or.imp_right (hsw q))
  · rw [hw, hi.cancelled q, hwon]

theorem won_set_iff {l : List CancelPc} {i : ℕ} {c d : CancelPc} (hi : l[i]? = some c)
    (hc : d.won = c.won) (q : ℕ) :
    (∃ x ∈ l.set i d, x.won = some q) ↔ ∃ x ∈ l, x.won = some q := by
  constructor
  · rintro ⟨x, hx, hq⟩
    rcases List.mem_or_eq_of_mem_set hx with hx | rfl
    · exact ⟨x, hx, hq⟩
    · exact ⟨c, List.mem_of_getElem? hi, hc ▸ hq⟩
  · rintro ⟨x, hx, hq⟩
    by_cases hxc : x = c
    · exact ⟨d, mem_set_self hi, hc.trans (hxc ▸ hq)⟩
    · exact ⟨x, mem_set_of_ne hi hx hxc, hq⟩

theorem winnerInv_cancelStep {i : ℕ} (hi : WinnerInv s) (hcall : CallInv s)
    (h : s.cancelStep i = some s') : WinnerInv s' := by
  have hexec := cancelStep_sameExecutor h
  have hmove := fun (hstop : s'.stop = s.stop) =>
    hi.of_same hstop hexec.pc hexec.nextSequence hexec.input hexec.active
  have hupd : ∀ {k : ℕ} {u : TerminalState}, u.winner = (s.terminals k).winner → ∀ q,
      (Function.update s.terminals k u q).winner = (s.terminals q).winner := fun hu =>
    update_terminal (P := fun q t => t.winner = (s.terminals q).winner) (fun _ => rfl) hu
  obtain ⟨_, hc, rfl⟩ | ⟨_, k, hc, -, -, rfl⟩ | ⟨k, hc, rfl⟩ | ⟨k, hc, ht, rfl⟩ |
    ⟨k, hc, ht, rfl⟩ | ⟨k, m, hc, rfl⟩ | ⟨k, won, hc, rfl⟩ := cancelStep_cases h
  · exact hmove rfl (fun _ => rfl) (fun q hq => mem_set_of_ne hc hq (by simp)) (won_set_iff hc rfl)
  · exact hmove rfl (fun _ => rfl) (fun q hq => mem_set_of_ne hc hq (by simp)) (won_set_iff hc rfl)
  · exact hmove rfl (hupd rfl) (fun q hq => mem_set_of_ne hc hq (by simp)) (won_set_iff hc rfl)
  · -- the call loses: its request has a winner
    refine ⟨hi.idle, hi.running, hi.fresh, fun q hq hw => ?_, fun q => ?_⟩
    · refine (hi.winnerless q hq hw).imp_right (Or.imp_right fun hm => mem_set_of_ne hc hm ?_)
      rintro heq
      cases heq
      have hnone : (s.terminals k).winner = none := hw
      simp [TerminalState.terminal, hnone] at ht
    · rw [hi.cancelled q]
      exact (won_set_iff (d := .notify k false) hc rfl q).symm
  · refine ⟨hi.idle, hi.running, fun q w hw => ?_, fun q hq hw => ?_, fun q => ?_⟩
    · by_cases hq : q = k
      · exact hq ▸ hcall.called _ (List.mem_of_getElem? hc) k rfl
      · simp only [State.win, State.setTerminal, Function.update_of_ne hq] at hw
        exact hi.fresh q w hw
    · have hne : q ≠ k := by
        rintro rfl
        simp at hw
      simp only [State.win, State.setTerminal, Function.update_of_ne hne] at hw
      refine (hi.winnerless q hq hw).imp_right (Or.imp_right fun hm => mem_set_of_ne hc hm ?_)
      rintro heq
      cases heq
      exact hne rfl
    · by_cases hq : q = k
      · subst hq
        simp only [State.win, State.setTerminal, Function.update_self, true_iff]
        exact ⟨_, mem_set_self hc, rfl⟩
      · simp only [State.win, State.setTerminal, Function.update_of_ne hq]
        rw [hi.cancelled q]
        constructor
        · rintro ⟨d, hd, hdq⟩
          refine ⟨d, mem_set_of_ne hc hd ?_, hdq⟩
          rintro rfl
          simp [CancelPc.won] at hdq
        · rintro ⟨d, hd, hdq⟩
          rcases List.mem_or_eq_of_mem_set hd with hd | rfl
          · exact ⟨d, hd, hdq⟩
          · simp [CancelPc.won, Ne.symm hq] at hdq
  · exact hmove rfl (hupd rfl) (fun q hq => mem_set_of_ne hc hq (by simp)) (won_set_iff hc rfl)
  · refine hmove rfl (fun _ => rfl) (fun q hq => mem_set_of_ne hc hq (by simp)) (won_set_iff hc ?_)
    cases won <;> rfl

/-- A party other than a cancel call wins the free flag of an accepted request, or nothing
changes for the winners. -/
theorem WinnerInv.terminals_move {k : ℕ} {w : Winner} (hi : WinnerInv s)
    (hw : w ≠ .cancel) (hk : k < s.nextSequence) (ht : ¬ (s.terminals k).terminal = true) (q : ℕ) :
    (((s.win k w).terminals q).winner = some .cancel ↔ ∃ c ∈ s.cancels, c.won = some q) ∧
      ∀ w', ((s.win k w).terminals q).winner = some w' → q < s.nextSequence := by
  have hnone := TerminalState.winner_of_not_terminal ht
  by_cases hq : q = k
  · subst hq
    refine ⟨?_, fun _ _ => hk⟩
    rw [← hi.cancelled q, hnone]
    simp [hw]
  · simp only [State.win, State.setTerminal, Function.update_of_ne hq]
    exact ⟨hi.cancelled q, fun w' => hi.fresh q w'⟩

theorem execStep_running {spawned : Bool} (hcl : s.closed = false) (hrun : s.pc ≠ .finalize)
    (h : s.execStep o spawned = some s') : s'.pc ≠ .finalize ∧ s'.pc ≠ .stopped := by
  cases execStep_branch h with
  | topClosed hc | deliverClosed hc => exact absurd hc (Bool.eq_false_iff.mp hcl)
  | finalize hpc => exact absurd hpc hrun
  | _ => constructor <;> intro hx <;> cases hx

/-- A waiting request goes on waiting, is launched, or is dropped for one of two reasons. -/
theorem execStep_waiting {spawned : Bool} (h : s.execStep o spawned = some s') {e : Envelope φ}
    (he : e ∈ s.waiting) : e ∈ s'.waiting ∨ s'.active.contains e.sequence = true ∨
      (∃ ls, s.pc = .tombstone e ls) ∨ ∃ r ls, s.pc = .admitUnregister e r ls := by
  simp only [State.waiting] at he ⊢
  cases execStep_move h with
  | stay hin _ hpop | unregister _ _ _ hin _ hpop =>
    rw [hin, hpop]
    exact .inl he
  | complete _ _ hpc hnext | spawn _ _ hpc hnext | spawnFailed _ _ _ hpc hnext
  | finalize hpc hnext =>
    rw [hnext]
    rw [hpc] at he
    exact .inl he
  | pop e' es hpop hhead hin hact hpop' hlaunch hreg hw =>
    rw [hin, hpop']
    rw [hpop, hhead] at he
    exact .inl he
  | launch e' hpop hin hact hpop' hlaunch hreg hw =>
    rw [hin, hact, hpop']
    rw [hpop] at he
    rcases List.mem_cons.mp he with rfl | he
    · exact .inr (.inl (by simp))
    · exact .inl he
  | drop e' hpop hreason hin hact hpop' hlaunch hreg hw =>
    rw [hin, hpop']
    rw [hpop] at he
    rcases List.mem_cons.mp he with rfl | he
    · exact .inr (.inr hreason)
    · exact .inl he

theorem execStep_active {spawned : Bool} (hrun : s.pc ≠ .finalize)
    (h : s.execStep o spawned = some s') {q : ℕ} (hq : s.active.contains q = true) :
    s'.active.contains q = true ∨ ∃ c ∈ s.completions, c.sequence = q := by
  cases execStep_move h with
  | stay _ hact | unregister _ _ _ _ hact | pop _ _ _ _ _ hact | drop _ _ _ _ hact =>
    exact .inl (hact ▸ hq)
  | launch e hpop hin hact => exact .inl (by simp [hact, hq])
  | complete c cs hpc hnext =>
    by_cases hc : c.sequence = q
    · exact .inr ⟨c, by simp [State.completions, hpc, ExecPc.completions], hc⟩
    · exact .inl (by simp [hnext, hq, Ne.symm hc])
  | spawn e ls hpc hnext => exact .inl (by rw [hnext]; exact hq)
  | spawnFailed e r ls hpc hnext => exact .inl (by rw [hnext]; exact hq)
  | finalize hpc hnext => exact absurd hpc hrun

theorem winnerInv_execStep {spawned : Bool} (hi : WinnerInv s) (ho : Owned s) (hcall : CallInv s)
    (htomb : s.Tombstoned) (h : s.execStep o spawned = some s') : WinnerInv s' := by
  have hsame := execStep_sameCalls h
  have hopen := hi.opened hcall
  have hterms : ∀ q, ((s'.terminals q).winner = some .cancel ↔ ∃ c ∈ s.cancels, c.won = some q) ∧
      ∀ w, (s'.terminals q).winner = some w → q < s.nextSequence := by
    intro q
    rcases execStep_terminals h with ⟨-, -, ht⟩ | ⟨k, w, hw, hp, hp', hk, ht⟩ | ⟨k, -, -, ht⟩
    · rw [ht]
      exact ⟨hi.cancelled q, hi.fresh q⟩
    · rw [ht]
      have hd : s'.pc.decided = some k := ExecPc.decided_of_releasing hp'
      refine hi.terminals_move hw ?_ hk q
      have := (owned_execStep ho h).decided k hd
      rw [hsame.nextSequence] at this
      exact this.1
    · have hwin : (s'.terminals q).winner = (s.terminals q).winner := by
        rw [ht]
        by_cases hq : q = k
        · subst hq
          simp
        · simp [hq]
      rw [hwin]
      exact ⟨hi.cancelled q, hi.fresh q⟩
  refine ⟨hsame.stop.trans hi.idle, execStep_running hopen hi.running.1 h,
    fun q w hw => hsame.nextSequence ▸ (hterms q).2 w hw, fun q hq hw => ?_,
    fun q => hsame.cancels ▸ (hterms q).1⟩
  have hnone : (s.terminals q).winner = none := by
    cases hs : (s.terminals q).winner with
    | none => rfl
    | some w => simp [hsame.winners q w hs] at hw
  have hnt : ¬ (s.terminals q).terminal = true := by simp [TerminalState.terminal, hnone]
  rw [hsame.cancels]
  rcases hi.winnerless q (hsame.nextSequence ▸ hq) hnone with ⟨e, he, rfl⟩ | ha | hs
  · rcases execStep_waiting h he with he | ha | ⟨ls, hpc⟩ | ⟨r, ls, hpc⟩
    · exact .inl ⟨e, he, rfl⟩
    · exact .inr (.inl ha)
    · -- the flag was raised by a call that has not swapped yet
      refine .inr (.inr ((hcall.swapping _ (htomb e ls hpc) hnone).resolve_right ?_))
      simp [hi.idle]
    · exact absurd (ho.decided _ (by rw [hpc]; rfl)).2 hnt
  · rcases execStep_active hi.running.1 h ha with ha | ⟨c, hc, rfl⟩
    · exact .inr (.inl ha)
    · exact absurd (ho.completed c hc).2 hnt
  · exact .inr (.inr hs)

theorem winnerInv_workerStep {k : ℕ} {out : AdapterOutcome φ} (hi : WinnerInv s) (ho : Owned s)
    (h : s.workerStep o k out = some s') : WinnerInv s' := by
  have hexec := workerStep_sameExecutor h
  have hsame := workerStep_sameCalls h
  have hmove := fun hw => hi.of_same hsame.stop hexec.pc hexec.nextSequence hexec.input
    hexec.active hw (by rw [hsame.cancels]; exact fun _ => id) (by rw [hsame.cancels]; exact fun _ => Iff.rfl)
  obtain ⟨w, hw, ⟨-, pc, m, -, rfl⟩ | ⟨r, m, -, -, rfl⟩ | ⟨r, -, ht, rfl⟩ | ⟨r, m, -, rfl⟩ |
    ⟨r, -, -, rfl⟩ | ⟨-, rfl⟩⟩ := workerStep_cases h
  · exact hmove fun _ => rfl
  · exact hmove fun _ => rfl
  · have hk := (ho.workers k w hw).1
    have hterms := hi.terminals_move (w := .worker) (by simp) hk ht
    refine ⟨hi.idle, hi.running, fun q => (hterms q).2, fun q hq hnone => ?_,
      fun q => (hterms q).1⟩
    have hne : q ≠ k := by
      rintro rfl
      simp at hnone
    simp only [State.setWorker, State.win, State.setTerminal, Function.update_of_ne hne] at hnone
    exact hi.winnerless q hq hnone
  · exact hmove (update_terminal (P := fun q t => t.winner = (s.terminals q).winner)
      (fun _ => rfl) rfl)
  · exact hmove fun _ => rfl
  · exact hmove fun _ => rfl

theorem winnerInv_trySubmit (hi : WinnerInv s) (hcall : CallInv s) (r : AsyncRequest φ)
    (lifecycle : ℕ) : WinnerInv (s.trySubmit o r lifecycle) := by
  rcases trySubmit_cases (o := o) (s := s) r lifecycle with ⟨m, h⟩ | ⟨-, -, m, h⟩ <;> rw [h]
  · exact hi.of_same rfl (.inl rfl) rfl rfl rfl (fun _ => rfl) (fun _ => id) fun _ => Iff.rfl
  · have hw : WinnerInv s.notifyAll :=
      hi.of_same rfl (.inr rfl) rfl rfl rfl (fun _ => rfl) (fun _ => id) fun _ => Iff.rfl
    refine ⟨hi.idle, hw.running, fun q w h => ?_, fun q hq h => ?_, fun q => ?_⟩
    · have hne : q ≠ s.nextSequence := by
        rintro rfl
        simp at h
      simp only [Function.update_of_ne hne] at h
      exact (hi.fresh q w h).trans (Nat.lt_succ_self _)
    · simp only [State.waiting, ← List.append_assoc]
      by_cases hne : q = s.nextSequence
      · exact .inl ⟨_, List.mem_append_right _ (List.mem_singleton_self _), hne.symm⟩
      · simp only [Function.update_of_ne hne] at h
        have hlt : q < s.nextSequence + 1 := hq
        refine (hw.winnerless q (show q < s.nextSequence by omega) h).imp_left ?_
        rintro ⟨e, he, heq⟩
        exact ⟨e, List.mem_append_left _ he, heq⟩
    · by_cases hne : q = s.nextSequence
      · subst hne
        simp only [Function.update_self, reduceCtorEq, false_iff]
        rintro ⟨c, hc, hwon⟩
        have : c.request = some s.nextSequence := by
          cases c with
          | returned q won => cases q <;> cases won <;> simp_all [CancelPc.won, CancelPc.request]
          | notify q won => cases won <;> simp_all [CancelPc.won, CancelPc.request]
          | _ => simp_all [CancelPc.won, CancelPc.request]
        exact absurd (hcall.called c hc _ this) (Nat.lt_irrefl _)
      · simp only [Function.update_of_ne hne]
        exact hi.cancelled q

theorem winnerInv_step {a : Label φ} (hi : WinnerInv s) (ho : Owned s) (hcall : CallInv s)
    (htomb : s.Tombstoned) (hc : cancelsWhole o s a = true) (h : s.step o a = some s') :
    WinnerInv s' := by
  cases a with
  | trySubmit r lifecycle =>
    simp only [State.step] at h
    split_ifs at h
    cases h
    exact winnerInv_trySubmit hi hcall r lifecycle
  | tryRecv =>
    simp only [State.step] at h
    split_ifs at h
    cases h
    rcases tryRecv_cases (s := s) with h | ⟨c, cs, m, -, h⟩ <;> rw [h]
    · exact hi
    · exact hi.of_same rfl (.inr rfl) rfl rfl rfl (fun _ => rfl) (fun _ => id) fun _ => Iff.rfl
  | exec spawned => exact winnerInv_execStep hi ho hcall htomb h
  | worker q out => exact winnerInv_workerStep hi ho h
  | cancelBegin requestId =>
    cases h
    refine hi.of_same rfl (.inl rfl) rfl rfl rfl (fun _ => rfl)
      (fun q hq => List.mem_append_left _ hq) fun q => ?_
    simp [or_and_right, exists_or, CancelPc.won]
  | cancel i => exact winnerInv_cancelStep hi hcall h
  | requestStop => simp [cancelsWhole] at hc
  | stop order => simp [State.step, State.stopStep, hi.idle] at h
  | tick d =>
    cases h
    exact hi.of_same rfl (.inl rfl) rfl rfl rfl (fun _ => rfl) (fun _ => id) fun _ => Iff.rfl
  | wake =>
    simp only [State.step] at h
    split at h <;> cases h
    rename_i next hp
    exact hi.of_same rfl (.inr (by rw [hp]; rfl)) rfl rfl rfl (fun _ => rfl) (fun _ => id)
      fun _ => Iff.rfl

theorem flushStrict_resolved (fuel : ℕ) (d : Delivery φ) {q : ℕ}
    (h : q < (flushStrict o fuel d).nextDelivery ∨
      (flushStrict o fuel d).ordered.contains q = true) :
    q < d.nextDelivery ∨ d.ordered.contains q = true := by
  induction fuel generalizing d with
  | zero => exact h
  | succ fuel ih =>
    -- moving past the head of line resolves nothing that was not buffered
    have hadvance : ∀ out r, d.ordered.get? d.nextDelivery = some r →
        (q < (d.advance out).nextDelivery ∨ (d.advance out).ordered.contains q = true) →
        q < d.nextDelivery ∨ d.ordered.contains q = true := by
      intro out r hget hq
      simp only [Delivery.advance, SortedMap.contains_erase, Bool.and_eq_true] at hq
      rcases hq with hq | hq
      · rcases Nat.lt_succ_iff_lt_or_eq.mp hq with hq | rfl
        · exact .inl hq
        · exact .inr (by simp [SortedMap.contains, hget])
      · exact .inr hq.2
    simp only [flushStrict] at h
    split at h
    · exact h
    · rename_i hget
      exact hadvance _ _ hget (ih _ h)
    · rename_i hget
      split_ifs at h
      · exact h
      · exact hadvance _ _ hget (ih _ h)

theorem resolved_of_flush {q : ℕ} (h : (s.flush o).resolved q = true) : s.resolved q = true := by
  obtain ⟨d, ho, hn, -, m, hf⟩ := flush_eq (s := s) (o := o)
  simp only [State.resolved, Bool.or_eq_true, decide_eq_true_eq] at h ⊢
  rw [hf] at h
  rw [← hn, ← ho]
  by_cases hs : o.ordering = .strict
  · simp only [if_pos hs] at h
    exact flushStrict_resolved _ _ h
  · simp only [if_neg hs] at h
    exact h

theorem resolved_of_buffer {keep : Prop} [Decidable keep] {k requestId q : ℕ}
    {r : Option (StreamResult φ)} (h : (s.buffer o keep k requestId r).resolved q = true) :
    s.resolved q = true ∨ (o.ordering = .strict ∧ keep ∧ q = k) := by
  simp only [State.resolved, State.buffer] at h ⊢
  by_cases hk : o.ordering = .strict ∧ keep
  · simp only [if_pos hk, SortedMap.contains_insert, Bool.or_eq_true, decide_eq_true_eq] at h ⊢
    rcases h with h | rfl | h
    · exact .inl (.inl (of_decide_eq_true h))
    · exact .inr ⟨hk.1, hk.2, rfl⟩
    · exact .inl (.inr h)
  · simp only [if_neg hk] at h
    exact .inl h

/-- What the executor can resolve: a drained completion, an active request seen cancelled or
just timed out, or the request it is dropping. -/
theorem execStep_resolved {spawned : Bool} (hrun : s.pc ≠ .finalize)
    (h : s.execStep o spawned = some s') {q : ℕ} (hq : s'.resolved q = true) :
    s.resolved q = true ∨ (∃ c cs, s.pc = .unregister c cs ∧ c.sequence = q) ∨
    (∃ now r rest, s.pc = .scan now ((q, r) :: rest) ∧ (s.terminals q).cancelled = true ∧
      o.ordering = .strict) ∨
    (∃ now r rest, s.pc = .expired now q r rest) ∨
    ∃ e, s.pc.popped = some e ∧ e.sequence = q ∧ s'.pc.popped = none ∧
      s'.pc.launches = s.pc.launches ∧ s'.input = s.input ∧ s'.active = s.active := by
  cases execStep_branch h with
  | unregister c cs hpc =>
    rcases resolved_of_buffer (s := s.removeRegistration c.requestId) hq with hq | ⟨-, -, rfl⟩
    · exact .inl hq
    · exact .inr (.inl ⟨c, cs, hpc, rfl⟩)
  | scanCancelled now k r rest hcan hpc =>
    rcases resolved_of_buffer (s := s) hq with hq | ⟨hs, -, rfl⟩
    · exact .inl hq
    · exact .inr (.inr (.inl ⟨now, r, rest, hpc, hcan, hs⟩))
  | expired now k r rest hpc =>
    rcases resolved_of_buffer (s := s.takeLease k) hq with hq | ⟨-, -, rfl⟩
    · exact .inl hq
    · exact .inr (.inr (.inr (.inl ⟨now, r, rest, hpc⟩)))
  | tombstone e ls hpc | admitUnregister e _ ls hpc =>
    rcases resolved_of_buffer (s := s.removeRegistration e.requestId) hq with hq | ⟨-, -, rfl⟩
    · exact .inl hq
    · rw [hpc]
      exact .inr (.inr (.inr (.inr ⟨e, rfl, rfl, rfl, rfl, rfl, rfl⟩)))
  | deliver => exact .inl (resolved_of_flush hq)
  | finalize hpc => exact absurd hpc hrun
  | _ => exact .inl hq

/-- Results a worker or a failed spawn has produced and the executor has not resolved. -/
def ExecPc.spawnTokens : ExecPc φ → ℕ → ℕ
  | .spawnRelease e _, q => if e.sequence = q then 1 else 0
  | .spawnPush e r _, q => if e.sequence = q ∧ r.isSome then 1 else 0
  | _, _ => 0

theorem ExecPc.decided_of_spawnTokens {pc : ExecPc φ} {q : ℕ} (h : pc.spawnTokens q ≠ 0) :
    pc.decided = some q := by
  cases pc with
  | spawnRelease e ls => exact congrArg some (ite_ne_right_iff.mp h).1
  | spawnPush e r ls => exact congrArg some (ite_ne_right_iff.mp h).1.1
  | _ => exact absurd rfl h

theorem ExecPc.spawnTokens_of_popped {pc : ExecPc φ} {e : Envelope φ} (h : pc.popped = some e)
    (q : ℕ) : pc.spawnTokens q = 0 := by
  cases pc <;> first | rfl | cases h

def State.produced (s : State φ) (q : ℕ) : ℕ :=
  workerTokens (s.workers q) + completionTokens s.completions q + s.pc.spawnTokens q

/-- The outcome invariant of a run without a stop in which losing cancel calls change nothing. -/
structure OutcomeInv (s : State φ) : Prop where
  tokens : ∀ q, s.tokens q = if (s.terminals q).winner = some .worker ∨
    (s.terminals q).winner = some .deadline then 1 else 0
  produced : ∀ q, 0 < s.produced q →
    (s.terminals q).winner = some .worker ∧ s.resolved q = false
  expired : ∀ now k r rest, s.pc = .expired now k r rest →
    (s.terminals k).winner = some .deadline ∧ s.resolved k = false
  expiring : ∀ now k r rest, s.pc = .expire now k r rest → s.resolved k = true →
    (s.terminals k).terminal = true
  active : ∀ q, s.active.contains q = true → s.resolved q = true →
    (s.terminals q).cancelled = true ∨ (s.terminals q).terminal = true
  resolved : ∀ q, s.resolved q = true → q < s.nextSequence ∧ s.Past q

theorem outcomeInv_initial : OutcomeInv (State.initial : State φ) := by
  constructor <;> simp [State.initial, State.tokens, State.produced, State.completions,
    State.resolved, ExecPc.tokens, ExecPc.completions, ExecPc.spawnTokens, workerTokens,
    orderedTokens, SortedMap.contains]

theorem completionTokens_pos {l : List (WorkerCompletion φ)} {q : ℕ} :
    0 < completionTokens l q ↔ ∃ c ∈ l, c.sequence = q ∧ c.result.isSome = true := by
  simp [completionTokens, List.countP_pos_iff]

theorem OutcomeInv.bufferReady (hi : OutcomeInv s) (ho : Owned s) (hw : WinnerInv s)
    (hcall : CallInv s) : BufferReady s where
  opened := hw.opened hcall
  staying := hw.running.1
  completed c cs hpc hr := by
    refine (hi.produced c.sequence ?_).2
    have : 0 < completionTokens s.completions c.sequence :=
      completionTokens_pos.mpr ⟨c, by simp [State.completions, hpc, ExecPc.completions], rfl, hr⟩
    simp only [State.produced]
    omega
  expired now k r rest hpc := by
    have := (hi.expired now k r rest hpc).2
    simp only [State.resolved, Bool.or_eq_false_iff] at this
    exact this.2
  popped e hpc := by
    by_contra hne
    have hres : s.resolved e.sequence = true := by
      simp only [State.resolved, Bool.or_eq_true]
      exact .inr (Bool.not_eq_false _ ▸ hne)
    exact Nat.lt_irrefl _ ((hi.resolved _ hres).2.1 e (by simp [State.waiting, hpc]))
  spawning e ls hpc := ho.not_spawned (by simp [hpc, ExecPc.launches])

theorem completionTokens_sublist {l l' : List (WorkerCompletion φ)} (h : l.Sublist l') (q : ℕ) :
    completionTokens l q ≤ completionTokens l' q :=
  h.countP_le

theorem execStep_spawnTokens {spawned : Bool} (h : s.execStep o spawned = some s') (q : ℕ) :
    s'.pc.spawnTokens q = 0 ∨ (∃ e ls, s.pc = .spawnFinish e ls) ∨
      ∃ e ls, s.pc = .spawnRelease e ls := by
  cases execStep_branch h with
  | spawnLost e ls _ hpc | spawnFinish e ls _ hpc => exact .inr (.inl ⟨e, ls, hpc⟩)
  | spawnRelease e ls hpc => exact .inr (.inr ⟨e, ls, hpc⟩)
  | _ => exact .inl rfl

/-- The executor produces a result only for a request whose spawn failed. -/
theorem execStep_produced {spawned : Bool} (h : s.execStep o spawned = some s')
    (q : ℕ) : s'.produced q ≤ s.produced q ∨ ∃ e ls, s.pc = .spawnFinish e ls ∧ e.sequence = q ∧
      (s'.terminals q).winner = some .worker ∧ s'.resolved q = s.resolved q := by
  have hworkers : workerTokens (s'.workers q) ≤ workerTokens (s.workers q) := by
    rcases execStep_workers h with hw | ⟨e, ls, hpc, rfl⟩
    · rw [hw]
    · by_cases hq : q = e.sequence
      · subst hq
        simp [workerTokens]
      · simp [hq]
  simp only [State.produced]
  rcases execStep_spawnTokens h q with hspawn | ⟨e, ls, hpc⟩ | ⟨e, ls, hpc⟩
  · rcases completions_sublist h with hs | ⟨e, r, ls, hpc, hs⟩
    · have := completionTokens_sublist hs q
      omega
    · left
      rw [hs, hpc, hspawn]
      simp only [completionTokens_append, completionTokens_cons, completionTokens_nil,
        ExecPc.spawnTokens]
      omega
  · simp only [State.execStep, hpc] at h
    split_ifs at h <;> cases h
    · simp [State.completions, hpc, ExecPc.completions, ExecPc.spawnTokens]
    · by_cases hq : e.sequence = q
      · exact .inr ⟨e, ls, hpc, hq, by simp [← hq], rfl⟩
      · simp [State.completions, hpc, ExecPc.completions, ExecPc.spawnTokens, hq]
  · simp only [State.execStep, hpc] at h
    cases h
    simp [State.completions, hpc, ExecPc.completions, ExecPc.spawnTokens]

/-- Nothing is produced for a request that is still waiting. -/
theorem produced_of_waiting (ho : Owned s) (hcomp : Completing s) {e : Envelope φ}
    (he : e ∈ s.waiting) (hpc : s.pc.popped = some e) : s.produced e.sequence = 0 := by
  have hw : s.workers e.sequence = none := by
    cases hw : s.workers e.sequence with
    | none => rfl
    | some w => exact absurd ((ho.spawned _ w hw).1 e he) (Nat.lt_irrefl _)
  have hc : completionTokens s.completions e.sequence = 0 := by
    by_contra hne
    obtain ⟨c, hc, hcs, -⟩ := completionTokens_pos.mp (Nat.pos_of_ne_zero hne)
    have := (hcomp.past c hc).1 e he
    omega
  have hs : s.pc.spawnTokens e.sequence = 0 := ExecPc.spawnTokens_of_popped hpc _
  simp [State.produced, hw, hc, hs, workerTokens]

/-- After the completion of `q` is drained nothing is produced for it any more. -/
theorem produced_of_unregister (hcomp : Completing s) {c : WorkerCompletion φ}
    {cs : List (WorkerCompletion φ)} (hpc : s.pc = .unregister c cs) {spawned : Bool}
    (h : s.execStep o spawned = some s') : s'.produced c.sequence = 0 := by
  have hcs : s.completions = s.workerCompletions ++ c :: cs := by
    rw [State.completions, hpc]
    rfl
  have hw : workerTokens (s.workers c.sequence) = 0 := by
    cases hw : s.workers c.sequence with
    | none => rfl
    | some w =>
      have hleft := hcomp.left c (by simp [hcs]) w hw
      obtain ⟨e, pc⟩ := w
      cases pc <;> simp_all [WorkerPc.left, workerTokens]
  have hdist := hcomp.distinct
  rw [hcs, List.map_append, List.map_cons, List.nodup_middle, List.nodup_cons] at hdist
  simp only [State.execStep, hpc] at h
  cases h
  have hnone : completionTokens (s.workerCompletions ++ cs) c.sequence = 0 := by
    by_contra hne
    obtain ⟨c', hc', hseq, -⟩ := completionTokens_pos.mp (Nat.pos_of_ne_zero hne)
    rw [← List.map_append] at hdist
    exact hdist.1 (List.mem_map.mpr ⟨c', hc', hseq⟩)
  simp only [State.produced, State.completions, ExecPc.completions, ExecPc.spawnTokens,
    Nat.add_zero]
  change workerTokens (s.workers c.sequence) + completionTokens (s.workerCompletions ++ cs) _ = 0
  rw [hw, hnone]

theorem execStep_expired {spawned : Bool} (h : s.execStep o spawned = some s') {now k : ℕ}
    {r : ActiveRequest} {rest : List (ℕ × ActiveRequest)} (hpc : s'.pc = .expired now k r rest) :
    s.pc = .expire now k r rest ∧ ¬ (s.terminals k).terminal = true ∧
      (s'.terminals k).winner = some .deadline ∧ s'.resolved k = s.resolved k := by
  cases execStep_branch h <;> cases hpc
  case expire hif hp => exact ⟨hp, hif, by simp, rfl⟩

theorem execStep_expire {spawned : Bool} (h : s.execStep o spawned = some s') {now k : ℕ}
    {r : ActiveRequest} {rest : List (ℕ × ActiveRequest)} (hpc : s'.pc = .expire now k r rest) :
    s.pc = .scan now ((k, r) :: rest) ∧ (s.terminals k).cancelled = false ∧
      s'.terminals = s.terminals ∧ s'.resolved k = s.resolved k := by
  cases execStep_branch h <;> cases hpc
  case scanDue =>
    exact ⟨by assumption, by simpa using ‹¬ (s.terminals k).cancelled = true›, rfl, rfl⟩

/-- Where a request that the executor resolves comes from: its completion was drained, or it is
active and the executor is past the input queue, or it is the one being dropped. -/
theorem resolves_past (ho : Owned s) (hcomp : Completing s) {q : ℕ}
    (h : (∃ c cs, s.pc = .unregister c cs ∧ c.sequence = q) ∨
      (∃ r, (q, r) ∈ s.pc.scanned ∧ s.pc.launches = [])) : q < s.nextSequence ∧ s.Past q := by
  rcases h with ⟨c, cs, hpc, rfl⟩ | ⟨r, hm, hl⟩
  · have hc : c ∈ s.completions := by simp [State.completions, hpc, ExecPc.completions]
    exact ⟨(ho.completed c hc).1, hcomp.past c hc⟩
  · have ha : s.active.contains q = true := by
      simp [SortedMap.contains, ho.scanned (q, r) hm]
    exact ⟨(ho.active q ha).1, (ho.active q ha).2, by simp [hl]⟩

theorem outcomeInv_execStep {spawned : Bool} (hi : OutcomeInv s) (ho : Owned s)
    (hcomp : Completing s) (hw : WinnerInv s) (hcall : CallInv s)
    (hc : cancelsWhole o s (.exec spawned) = true) (h : s.execStep o spawned = some s') :
    OutcomeInv s' := by
  have hsame := execStep_sameCalls h
  have hrun := hw.running.1
  obtain ⟨-, -, -, -, -, hpast⟩ := ho.queue_move hsame.nextSequence (execStep_move h)
  have hres := fun {q} => execStep_resolved (q := q) hrun h
  refine ⟨fun q => ?_, fun q hq => ?_, fun now k r rest hpc => ?_, fun now k r rest hpc hk => ?_,
    fun q ha hq => ?_, fun q hq => ?_⟩
  · rw [execStep_tokens (hi.bufferReady ho hw hcall) h q, hi.tokens q]
    rcases execStep_terminals h with ⟨-, hp', ht⟩ | ⟨k, w, hne, hp, hp', hk, ht⟩ | ⟨k, hp, -, ht⟩
    · simp [hp', ht]
    · have hnone := TerminalState.winner_of_not_terminal hk
      by_cases hq : q = k
      · subst hq
        cases w <;> simp [hp, hp', ht, hnone] at hne ⊢
      · simp [hp, hp', ht, hq, Ne.symm hq]
    · have hwin : (s'.terminals q).winner = (s.terminals q).winner := by
        rw [ht]
        by_cases hq : q = k
        · subst hq
          simp
        · simp [hq]
      simp [hp, hwin]
  · rcases execStep_produced h q with hle | ⟨e, ls, hpc, rfl, hwin, hsr⟩
    · obtain ⟨hwin, hun⟩ := hi.produced q (by omega)
      refine ⟨hsame.winners q _ hwin, ?_⟩
      by_contra hne
      rcases hres (by simpa using hne) with hq' | ⟨c, cs, hpc, rfl⟩ |
        ⟨now, r, rest, hpc, hcan, hs⟩ | ⟨now, r, rest, hpc⟩ | ⟨e, hpop, rfl, -⟩
      · simp [hun] at hq'
      · have := produced_of_unregister hcomp hpc h
        omega
      · simp [cancelsWhole, hpc, hcan, hs, hun, hwin] at hc
      · simp [(hi.expired now q r rest hpc).1] at hwin
      · have := produced_of_waiting ho hcomp (e := e) (by simp [State.waiting, hpop]) hpop
        omega
    · refine ⟨hwin, ?_⟩
      by_contra hne
      have hq' : s.resolved e.sequence = true := by simpa [hsr] using hne
      exact (hi.resolved _ hq').2.2 e (by simp [hpc, ExecPc.launches]) rfl
  · obtain ⟨hp, ht, hwin, hsr⟩ := execStep_expired h hpc
    refine ⟨hwin, ?_⟩
    by_contra hne
    exact ht (hi.expiring now k r rest hp (by simpa [hsr] using hne))
  · obtain ⟨hp, hcan, ht, hsr⟩ := execStep_expire h hpc
    rw [ht]
    have ha : s.active.contains k = true := by
      simp [SortedMap.contains, ho.scanned (k, r) (by simp [hp, ExecPc.scanned])]
    exact (hi.active k ha (hsr ▸ hk)).resolve_left (by simp [hcan])
  · have hkeep : (s.terminals q).cancelled = true ∨ (s.terminals q).terminal = true →
        (s'.terminals q).cancelled = true ∨ (s'.terminals q).terminal = true :=
      Or.imp (fun hf => (hsame.flags q).trans hf) hsame.terminal
    -- an active request was active before, or is launched by this step and not resolved
    have hact : s.active.contains q = true ∨ ∃ e ∈ s.waiting, e.sequence = q := by
      obtain ⟨r, hr⟩ := (s'.active.contains_iff q).mp ha
      cases execStep_move h with
      | stay _ hact | unregister _ _ _ _ hact | pop _ _ _ _ _ hact | drop _ _ _ _ hact =>
        exact .inl (hact ▸ ha)
      | complete c cs hpc hnext =>
        rw [hnext] at ha
        simp only [SortedMap.contains_erase, Bool.and_eq_true] at ha
        exact .inl ha.2
      | launch e hpop hin hact =>
        rw [hact, SortedMap.contains_insert, Bool.or_eq_true, decide_eq_true_eq] at ha
        exact ha.symm.imp_right fun he => ⟨e, by simp [State.waiting, hpop], he.symm⟩
      | spawn e ls hpc hnext => exact .inl (by rw [hnext] at ha; exact ha)
      | spawnFailed e r ls hpc hnext => exact .inl (by rw [hnext] at ha; exact ha)
      | finalize hpc hnext => exact absurd hpc hrun
    rcases hres hq with hq' | ⟨c, cs, hpc, rfl⟩ | ⟨now, r, rest, hpc, hcan, -⟩ |
      ⟨now, r, rest, hpc⟩ | ⟨e, hpop, rfl, -, -, -, hsa⟩
    · rcases hact with ha | ⟨e, he, rfl⟩
      · exact hkeep (hi.active q ha hq')
      · exact absurd ((hi.resolved _ hq').2.1 e he) (Nat.lt_irrefl _)
    · exact hkeep (.inr (ho.completed c (by simp [hpc, ExecPc.completions])).2)
    · exact hkeep (.inl hcan)
    · exact hkeep (.inr (ho.decided q (by rw [hpc]; rfl)).2)
    · exact absurd ((ho.active _ (hsa ▸ ha)).2 e (by simp [State.waiting, hpop]))
        (Nat.lt_irrefl _)
  · rw [hsame.nextSequence]
    rcases hres hq with hq' | hq' | ⟨now, r, rest, hpc, -, -⟩ | ⟨now, r, rest, hpc⟩ |
      ⟨e, hpop, rfl, hnone, hl, hin, -⟩
    · exact ⟨(hi.resolved q hq').1, hpast q (hi.resolved q hq').2⟩
    · obtain ⟨hlt, hp⟩ := resolves_past ho hcomp (.inl hq')
      exact ⟨hlt, hpast q hp⟩
    · obtain ⟨hlt, hp⟩ := resolves_past ho hcomp (q := q)
        (.inr ⟨r, by simp [hpc, ExecPc.scanned], by rw [hpc]; rfl⟩)
      exact ⟨hlt, hpast q hp⟩
    · obtain ⟨hlt, hp⟩ := resolves_past ho hcomp (q := q)
        (.inr ⟨r, by simp [hpc, ExecPc.scanned], by rw [hpc]; rfl⟩)
      exact ⟨hlt, hpast q hp⟩
    · have he : e ∈ s.waiting := by simp [State.waiting, hpop]
      have horder := ho.order
      simp only [State.waiting, hpop, Option.toList_some, List.singleton_append, List.map_cons]
        at horder
      refine ⟨ho.bound e he, fun e' he' => ?_, fun e' he' => ?_⟩
      · simp only [State.waiting, hnone, hin, Option.toList_none, List.nil_append] at he'
        exact (List.pairwise_cons.mp horder).1 _ (List.mem_map_of_mem he')
      · rw [hl] at he'
        exact ((ho.active _ (ho.launched e' he')).2 e he).ne

theorem ExecPc.tokens_of_woken {pc pc' : ExecPc φ} (h : pc' = pc ∨ pc' = pc.woken) (q : ℕ) :
    pc'.tokens q = pc.tokens q ∧ pc'.spawnTokens q = pc.spawnTokens q := by
  rcases h with rfl | rfl
  · exact ⟨rfl, rfl⟩
  · cases pc <;> exact ⟨rfl, rfl⟩

/-- The winner of `q` owes the caller a result. -/
def State.owes (s : State φ) (q : ℕ) : Prop :=
  (s.terminals q).winner = some .worker ∨ (s.terminals q).winner = some .deadline

instance (q : ℕ) : Decidable (s.owes q) := inferInstanceAs (Decidable (_ ∨ _))

/-- A step of a party other than the executor: it resolves nothing, and what it does to the
results in flight is accounted for. -/
theorem OutcomeInv.of_frame (hi : OutcomeInv s) (ho : Owned s)
    (hpc : s'.pc = s.pc ∨ s'.pc = s.pc.woken) (hn : s.nextSequence ≤ s'.nextSequence)
    (hwait : ∀ e ∈ s'.input, e ∈ s.input ∨ s.nextSequence ≤ e.sequence)
    (hact : s'.active = s.active) (hord : s'.ordered = s.ordered)
    (hnext : s'.nextDelivery = s.nextDelivery)
    (hflags : ∀ q < s.nextSequence, (s.terminals q).cancelled = true →
      (s'.terminals q).cancelled = true)
    (hwins : ∀ q < s.nextSequence, ∀ w, (s.terminals q).winner = some w →
      (s'.terminals q).winner = some w)
    (htok : ∀ q, s'.tokens q = if s'.owes q then 1 else 0)
    (hprod : ∀ q, 0 < s'.produced q →
      (s'.terminals q).winner = some .worker ∧ s.resolved q = false) : OutcomeInv s' := by
  obtain ⟨hpop, hlaunch, hscan, -, hdec, -⟩ := ExecPc.holds_of_woken hpc
  have hres : ∀ q, s'.resolved q = s.resolved q := fun q => by
    simp only [State.resolved, hord, hnext]
  have hterm : ∀ q < s.nextSequence, (s.terminals q).terminal = true →
      (s'.terminals q).terminal = true := fun q hq ht => by
    obtain ⟨w, hw⟩ := Option.isSome_iff_exists.mp ht
    simp [TerminalState.terminal, hwins q hq w hw]
  have hscanned : ∀ k r, (k, r) ∈ s.pc.scanned → k < s.nextSequence := fun k r hk =>
    (ho.active k (by simp [SortedMap.contains, ho.scanned (k, r) hk])).1
  -- a wake-up only moves a parked executor
  have hstay : ∀ {pc : ExecPc φ}, pc.scanned ≠ [] → s'.pc = pc → s.pc = pc := by
    intro pc hne hp
    rcases hpc with h | h
    · exact h ▸ hp
    · rcases ExecPc.woken_cases s.pc with hw | ⟨_, -, hw⟩
      · exact (h.trans hw) ▸ hp
      · rw [← hp, h, hw] at hne
        exact absurd rfl hne
  refine ⟨htok, fun q hq => hres q ▸ hprod q hq, fun now k r rest hp => ?_,
    fun now k r rest hp hk => ?_, fun q ha hq => ?_, fun q hq => ?_⟩
  · have hp' := hstay (by simp [ExecPc.scanned]) hp
    have hlt := hscanned k r (by simp [hp', ExecPc.scanned])
    obtain ⟨hw, hr⟩ := hi.expired now k r rest hp'
    exact ⟨hwins k hlt _ hw, hres k ▸ hr⟩
  · have hp' := hstay (by simp [ExecPc.scanned]) hp
    have hlt := hscanned k r (by simp [hp', ExecPc.scanned])
    exact hterm k hlt (hi.expiring now k r rest hp' (hres k ▸ hk))
  · rw [hact] at ha
    have hlt := (ho.active q ha).1
    exact (hi.active q ha (hres q ▸ hq)).imp (hflags q hlt) (hterm q hlt)
  · obtain ⟨hlt, hw, hl⟩ := hi.resolved q (hres q ▸ hq)
    refine ⟨hlt.trans_le hn, fun e he => ?_, hlaunch ▸ hl⟩
    simp only [State.waiting, hpop, List.mem_append] at he hw
    rcases he with he | he
    · exact hw e (.inl he)
    · rcases hwait e he with he | he
      · exact hw e (.inr he)
      · exact hlt.trans_le he

/-- A step that leaves workers, completions and buffers alone. -/
theorem OutcomeInv.of_calls (hi : OutcomeInv s) (ho : Owned s) (hw : WinnerInv s)
    (hpc : s'.pc = s.pc ∨ s'.pc = s.pc.woken) (hn : s.nextSequence ≤ s'.nextSequence)
    (hwait : ∀ e ∈ s'.input, e ∈ s.input ∨ s.nextSequence ≤ e.sequence)
    (hact : s'.active = s.active) (hord : s'.ordered = s.ordered)
    (hnext : s'.nextDelivery = s.nextDelivery)
    (hworkers : s'.workers = s.workers) (hcs : s'.workerCompletions = s.workerCompletions)
    (hres : ∀ q, resultTokens s'.relaxed q + resultTokens s'.results q +
        resultTokens s'.delivered q =
      resultTokens s.relaxed q + resultTokens s.results q + resultTokens s.delivered q)
    (hflags : ∀ q < s.nextSequence, (s.terminals q).cancelled = true →
      (s'.terminals q).cancelled = true)
    (hwins : ∀ q < s.nextSequence, ∀ w, (s.terminals q).winner = some w →
      (s'.terminals q).winner = some w)
    (howes : ∀ q, s'.owes q ↔ s.owes q) : OutcomeInv s' := by
  obtain ⟨-, -, -, hcomp, -, -⟩ := ExecPc.holds_of_woken hpc
  refine hi.of_frame ho hpc hn hwait hact hord hnext hflags hwins (fun q => ?_) (fun q hq => ?_)
  · have htok : s'.tokens q = s.tokens q := by
      have := hres q
      have := (ExecPc.tokens_of_woken hpc q).1
      simp only [State.tokens, hworkers, hcs, hord]
      omega
    rw [htok, hi.tokens q]
    exact if_congr (howes q).symm rfl rfl
  · have hsame : s'.produced q = s.produced q := by
      simp only [State.produced, State.completions, hworkers, hcs, hcomp,
        (ExecPc.tokens_of_woken hpc q).2]
    obtain ⟨hwin, hr⟩ := hi.produced q (hsame ▸ hq)
    exact ⟨hwins q (hw.fresh q _ hwin) _ hwin, hr⟩

theorem outcomeInv_trySubmit (hi : OutcomeInv s) (ho : Owned s) (hw : WinnerInv s)
    (r : AsyncRequest φ) (lifecycle : ℕ) : OutcomeInv (s.trySubmit o r lifecycle) := by
  rcases trySubmit_cases (o := o) (s := s) r lifecycle with ⟨m, h⟩ | ⟨-, -, m, h⟩ <;> rw [h]
  · exact hi.of_calls ho hw (.inl rfl) le_rfl (fun _ => .inl) rfl rfl rfl rfl rfl (fun _ => rfl)
      (fun _ _ => id) (fun _ _ _ => id) fun _ => Iff.rfl
  · refine hi.of_calls ho hw (.inr rfl) (Nat.le_succ _) (fun e he => ?_) rfl rfl rfl rfl rfl
      (fun _ => rfl) (fun q hq hf => ?_) (fun q hq w hwin => ?_) fun q => ?_
    · rcases List.mem_append.mp he with he | he
      · exact .inl he
      · cases List.mem_singleton.mp he
        exact .inr le_rfl
    · simp only [Function.update_of_ne hq.ne]
      exact hf
    · simp only [Function.update_of_ne hq.ne]
      exact hwin
    · by_cases hq : q = s.nextSequence
      · subst hq
        have hfresh : ∀ w, (s.terminals s.nextSequence).winner ≠ some w := fun w hwin =>
          Nat.lt_irrefl _ (hw.fresh _ w hwin)
        simp [State.owes, hfresh]
      · simp [State.owes, Function.update_of_ne hq]

theorem outcomeInv_cancelStep {i : ℕ} (hi : OutcomeInv s) (ho : Owned s) (hw : WinnerInv s)
    (h : s.cancelStep i = some s') : OutcomeInv s' := by
  have hexec := cancelStep_sameExecutor h
  have howner := cancelStep_sameOwners h
  have hwins : ∀ q, (∀ w, (s.terminals q).winner = some w → (s'.terminals q).winner = some w) ∧
      (s'.owes q ↔ s.owes q) := by
    obtain ⟨_, -, rfl⟩ | ⟨_, k, -, -, -, rfl⟩ | ⟨k, -, rfl⟩ | ⟨k, -, -, rfl⟩ | ⟨k, -, ht, rfl⟩ |
      ⟨k, m, -, rfl⟩ | ⟨k, won, -, rfl⟩ := cancelStep_cases h
    · exact fun q => ⟨fun _ => id, Iff.rfl⟩
    · exact fun q => ⟨fun _ => id, Iff.rfl⟩
    · intro q
      by_cases hq : q = k
      · subst hq
        simp [State.owes]
      · simp [State.owes, hq]
    · exact fun q => ⟨fun _ => id, Iff.rfl⟩
    · have hnone := TerminalState.winner_of_not_terminal ht
      intro q
      by_cases hq : q = k
      · subst hq
        simp [State.owes, hnone]
      · simp [State.owes, hq]
    · intro q
      by_cases hq : q = k
      · subst hq
        simp [State.owes]
      · simp [State.owes, hq]
    · exact fun q => ⟨fun _ => id, Iff.rfl⟩
  refine hi.of_calls ho hw hexec.pc hexec.nextSequence.ge
    (fun e he => .inl (hexec.input ▸ he)) hexec.active hexec.ordered hexec.nextDelivery
    howner.workers howner.workerCompletions (fun q => ?_) (fun q _ => cancelStep_flags h q)
    (fun q _ => (hwins q).1) fun q => (hwins q).2
  rw [hexec.relaxed, hexec.results, hexec.delivered]

/-- A worker action that moves its own results by `move` and hands over `out`. -/
theorem OutcomeInv.of_worker {k : ℕ} (hi : OutcomeInv s) (ho : Owned s)
    (hexec : SameExecutor s s') (hcalls : SameCalls s s')
    (hothers : ∀ q, q ≠ k → workerTokens (s'.workers q) = workerTokens (s.workers q) ∧
      completionTokens s'.workerCompletions q = completionTokens s.workerCompletions q ∧
      (s'.owes q ↔ s.owes q))
    (hself : workerTokens (s'.workers k) + completionTokens s'.workerCompletions k =
        workerTokens (s.workers k) + completionTokens s.workerCompletions k ∧
        (s'.owes k ↔ s.owes k) ∨
      workerTokens (s'.workers k) + completionTokens s'.workerCompletions k =
        workerTokens (s.workers k) + completionTokens s.workerCompletions k + 1 ∧
        (s.terminals k).winner = none ∧ (s'.terminals k).winner = some .worker ∧
        s.resolved k = false) : OutcomeInv s' := by
  obtain ⟨-, -, -, hcomp, -, -⟩ := ExecPc.holds_of_woken hexec.pc
  have hpcs := fun q => ExecPc.tokens_of_woken hexec.pc q
  refine hi.of_frame ho hexec.pc hexec.nextSequence.ge (fun e he => .inl (hexec.input ▸ he))
    hexec.active hexec.ordered hexec.nextDelivery (fun q _ hf => (hcalls.flags q).trans hf)
    (fun q _ => hcalls.winners q) (fun q => ?_) (fun q hq => ?_)
  · have htok := hi.tokens q
    change s.tokens q = if s.owes q then 1 else 0 at htok
    have hpc := (hpcs q).1
    simp only [State.tokens, hexec.ordered, hexec.relaxed, hexec.results, hexec.delivered]
      at htok ⊢
    by_cases hk : q = k
    · subst hk
      rcases hself with ⟨hsum, howes⟩ | ⟨hsum, hnone, hwin, -⟩
      · rw [if_congr howes rfl rfl, ← htok]
        omega
      · have hbefore : ¬ s.owes q := by simp [State.owes, hnone]
        have hafter : s'.owes q := .inl hwin
        rw [if_neg hbefore] at htok
        rw [if_pos hafter]
        omega
    · obtain ⟨h1, h2, h3⟩ := hothers q hk
      rw [if_congr h3 rfl rfl, ← htok]
      omega
  · have hprod := hi.produced q
    have hpc := (hpcs q).2
    simp only [State.produced, State.completions, completionTokens_append, hcomp] at hprod hq
    have hkeep : ∀ h : (s.terminals q).winner = some .worker ∧ s.resolved q = false,
        (s'.terminals q).winner = some .worker ∧ s.resolved q = false := fun h =>
      ⟨hcalls.winners q _ h.1, h.2⟩
    by_cases hk : q = k
    · subst hk
      rcases hself with ⟨hsum, -⟩ | ⟨-, -, hwin, hres⟩
      · exact hkeep (hprod (by omega))
      · exact ⟨hwin, hres⟩
    · obtain ⟨h1, h2, -⟩ := hothers q hk
      exact hkeep (hprod (by omega))

theorem outcomeInv_workerStep {k : ℕ} {out : AdapterOutcome φ} (hi : OutcomeInv s) (ho : Owned s)
    (hw : WinnerInv s) (hcall : CallInv s) (hc : cancelsWhole o s (.worker k out) = true)
    (h : s.workerStep o k out = some s') : OutcomeInv s' := by
  have hcl := hw.opened hcall
  have hexec := workerStep_sameExecutor h
  have hcalls := workerStep_sameCalls h
  obtain ⟨⟨e, pc⟩, hwk, hcase⟩ := workerStep_cases h
  -- a step of the worker that keeps the completions and the winners
  have hquiet : ∀ pc', s'.workers = Function.update s.workers k (some ⟨e, pc'⟩) →
      workerTokens (some ⟨e, pc'⟩) = workerTokens (some ⟨e, pc⟩) →
      s'.workerCompletions = s.workerCompletions →
      (∀ q, (s'.terminals q).winner = (s.terminals q).winner) → OutcomeInv s' := by
    intro pc' hws htok hcs hwin
    have howes : ∀ q, s'.owes q ↔ s.owes q := fun q => by simp only [State.owes, hwin]
    refine hi.of_worker (k := k) ho hexec hcalls (fun q hq => ⟨?_, by rw [hcs], howes q⟩)
      (.inl ⟨?_, howes k⟩)
    · rw [hws, Function.update_of_ne hq]
    · rw [hcs, hws, Function.update_self, htok, hwk]
  obtain ⟨hatt, pc', m, hpc', rfl⟩ | ⟨r, m, hpc, -, rfl⟩ | ⟨r, hpc, ht, rfl⟩ | ⟨r, m, hpc, rfl⟩ |
    ⟨r, hpc, -, rfl⟩ | ⟨hpc, rfl⟩ := hcase
  · refine hquiet pc' rfl ?_ rfl fun _ => rfl
    have hold : workerTokens (some (⟨e, pc⟩ : Worker φ)) = 0 := by
      cases pc <;> first | rfl | cases hatt
    have hnew : workerTokens (some (⟨e, pc'⟩ : Worker φ)) = 0 := by
      rcases hpc' with hatt' | ⟨r, rfl, -⟩
      · cases pc' <;> first | rfl | cases hatt'
      · rfl
    rw [hold, hnew]
  · cases hpc
    exact hquiet _ rfl rfl rfl fun _ => rfl
  · cases hpc
    have hnone := TerminalState.winner_of_not_terminal ht
    simp only [cancelsWhole, hwk, Bool.or_eq_true, Bool.and_eq_true] at hc
    obtain ⟨hr, hres⟩ := hc.resolve_left ht
    obtain ⟨r, rfl⟩ := Option.isSome_iff_exists.mp hr
    refine hi.of_worker (k := k) ho hexec hcalls (fun q hq => ⟨?_, rfl, ?_⟩)
      (.inr ⟨?_, hnone, ?_, by simpa using hres⟩)
    · simp [hq]
    · simp [State.owes, hq]
    · simp [hwk, workerTokens]
      omega
    · simp
  · cases hpc
    refine hquiet _ rfl ?_ rfl fun q => ?_
    · cases r <;> rfl
    · by_cases hq : q = k
      · subst hq
        simp
      · simp [hq]
  · cases hpc
    refine hi.of_worker (k := k) ho hexec hcalls (fun q hq => ⟨?_, ?_, Iff.rfl⟩)
      (.inl ⟨?_, Iff.rfl⟩)
    · simp [hq]
    · simp [hcl, Ne.symm hq]
    · cases r with
      | none => simp [hcl, hwk, workerTokens]
      | some r =>
        simp [hcl, hwk, workerTokens]
        omega
  · cases hpc
    exact hquiet _ rfl rfl rfl fun _ => rfl

theorem outcomeInv_step {a : Label φ} (hi : OutcomeInv s) (ho : Owned s) (hcomp : Completing s)
    (hw : WinnerInv s) (hcall : CallInv s) (hc : cancelsWhole o s a = true)
    (h : s.step o a = some s') : OutcomeInv s' := by
  have hquiet : ∀ {t : State φ}, (t.pc = s.pc ∨ t.pc = s.pc.woken) → t.nextSequence = s.nextSequence →
      t.input = s.input → t.active = s.active → t.ordered = s.ordered →
      t.nextDelivery = s.nextDelivery → t.workers = s.workers →
      t.workerCompletions = s.workerCompletions → (∀ q, resultTokens t.relaxed q +
        resultTokens t.results q + resultTokens t.delivered q = resultTokens s.relaxed q +
        resultTokens s.results q + resultTokens s.delivered q) →
      t.terminals = s.terminals → OutcomeInv t :=
    fun hpc hn hin hact hord hnext hws hcs hres ht =>
      hi.of_calls ho hw hpc hn.ge (fun e he => .inl (hin ▸ he)) hact hord hnext hws hcs hres
        (fun q _ hf => by rw [ht]; exact hf) (fun q _ w hwin => by rw [ht]; exact hwin)
        fun q => by simp only [State.owes, ht]
  cases a with
  | trySubmit r lifecycle =>
    simp only [State.step] at h
    split_ifs at h
    cases h
    exact outcomeInv_trySubmit hi ho hw r lifecycle
  | tryRecv =>
    simp only [State.step] at h
    split_ifs at h
    cases h
    rcases tryRecv_cases (s := s) with h | ⟨c, cs, m, hcs, h⟩ <;> rw [h]
    · exact hi
    · refine hquiet (.inr rfl) rfl rfl rfl rfl rfl rfl rfl (fun q => ?_) rfl
      simp [hcs]
      omega
  | exec spawned => exact outcomeInv_execStep hi ho hcomp hw hcall hc h
  | worker q out => exact outcomeInv_workerStep hi ho hw hcall hc h
  | cancelBegin requestId =>
    cases h
    exact hquiet (.inl rfl) rfl rfl rfl rfl rfl rfl rfl (fun _ => rfl) rfl
  | cancel i => exact outcomeInv_cancelStep hi ho hw h
  | requestStop => simp [cancelsWhole] at hc
  | stop order => simp [State.step, State.stopStep, hw.idle] at h
  | tick d =>
    cases h
    exact hquiet (.inl rfl) rfl rfl rfl rfl rfl rfl rfl (fun _ => rfl) rfl
  | wake =>
    simp only [State.step] at h
    split at h <;> cases h
    rename_i next hp
    exact hquiet (.inr (by rw [hp]; rfl)) rfl rfl rfl rfl rfl rfl rfl (fun _ => rfl) rfl

theorem outcomeInv (hr : (system o).ReachableBy (fun s a => cancelsWhole o s a = true) s) :
    WinnerInv s ∧ OutcomeInv s := by
  refine invariantBy (I := fun s => WinnerInv s ∧ OutcomeInv s)
    ⟨winnerInv_initial, outcomeInv_initial⟩ (fun s a s' hr hi hc h => ?_) hr
  have ho := owned hr
  have hcall := callInv hr
  exact ⟨winnerInv_step hi.1 ho hcall (tombstoned hr) hc h,
    outcomeInv_step hi.2 ho (completing hr) hi.1 hcall hc h⟩

/-- Nothing is left to do: no worker is running, every queue and buffer is empty, the executor
holds neither a request nor a result, and every cancel call has returned. -/
def State.quiescent (s : State φ) : Bool :=
  s.input.isEmpty && s.workerCompletions.isEmpty && s.ordered.entries.isEmpty &&
    s.relaxed.isEmpty && s.results.isEmpty && s.pc.popped.isNone && s.pc.launches.isEmpty &&
    s.pc.completions.isEmpty && s.pc.releasing.isNone &&
    (List.range s.nextSequence).all (fun q =>
      (s.workers q).all fun w => match w.pc with | .exited => true | _ => false) &&
    s.cancels.all fun c => match c with | .returned .. => true | _ => false

/-- Either a cancel call answered that it cancelled `q` and nothing was delivered for `q`, or
no call did and exactly one completion was delivered. -/
def State.OneOutcome (s : State φ) (q : ℕ) : Prop :=
  Xor (.returned (some q) true ∈ s.cancels ∧ resultTokens s.delivered q = 0)
    (.returned (some q) true ∉ s.cancels ∧ resultTokens s.delivered q = 1)

instance (q : ℕ) : Decidable (s.OneOutcome q) := inferInstanceAs (Decidable (Xor _ _))

theorem ExecPc.tokens_of_idle {pc : ExecPc φ} (hpop : pc.popped = none) (hl : pc.launches = [])
    (hc : pc.completions = []) (hr : pc.releasing = none) (q : ℕ) : pc.tokens q = 0 := by
  cases pc <;> simp_all [ExecPc.popped, ExecPc.launches, ExecPc.completions, ExecPc.releasing,
    ExecPc.tokens]

/-- In a run whose cancel calls are all-or-nothing, a quiescent stream has settled every
accepted request exactly once. -/
theorem one_outcome (o : ManagedStreamOptions φ) (s : State φ)
    (hr : (system o).ReachableBy (fun s a => cancelsWhole o s a = true) s)
    (hq : s.quiescent = true) : ∀ q < s.nextSequence, s.OneOutcome q := by
  intro q hlt
  obtain ⟨hw, hi⟩ := outcomeInv hr
  simp only [State.quiescent, Bool.and_eq_true, List.isEmpty_iff, Option.isNone_iff_eq_none,
    List.all_eq_true, List.mem_range] at hq
  obtain ⟨⟨⟨⟨⟨⟨⟨⟨⟨⟨hin, hwc⟩, hord⟩, hrel⟩, hres⟩, hpop⟩, hl⟩, hcs⟩, hrls⟩, hexit⟩, hret⟩ := hq
  have hgone : ∀ k < s.nextSequence, ∀ w, s.workers k = some w → w.pc = .exited := by
    intro k hk w hwk
    have := hexit k hk
    rw [hwk] at this
    obtain ⟨e, pc⟩ := w
    cases pc <;> simp_all
  have hcompl : s.completions = [] := by simp [State.completions, hwc, hcs]
  have hactive : ∀ k, s.active.contains k = false := by
    intro k
    by_contra hne
    have ha : s.active.contains k = true := by simpa using hne
    rcases (completing hr).owner (hw.opened (callInv hr)) k ha with
      ⟨e, he, -⟩ | ⟨w, hwk, hleft⟩ | ⟨c, hc, -⟩
    · simp [hl] at he
    · rw [hgone k ((owned hr).active k ha).1 w hwk] at hleft
      cases hleft
    · simp [hcompl] at hc
  have hreturned : ∀ c ∈ s.cancels, c.won = some q ↔ c = .returned (some q) true := by
    intro c hc
    have := hret c hc
    cases c with
    | returned k won => cases k <;> cases won <;> simp [CancelPc.won]
    | _ => cases this
  have hcancelled : (s.terminals q).winner = some .cancel ↔ .returned (some q) true ∈ s.cancels := by
    rw [hw.cancelled q]
    constructor
    · rintro ⟨c, hc, hwon⟩
      exact (hreturned c hc).mp hwon ▸ hc
    · exact fun hc => ⟨_, hc, rfl⟩
  have htok : s.tokens q = resultTokens s.delivered q := by
    have hwt : workerTokens (s.workers q) = 0 := by
      cases hwk : s.workers q with
      | none => rfl
      | some w =>
        obtain ⟨e, pc⟩ := w
        cases hgone q hlt _ hwk
        rfl
    have hot : orderedTokens s.ordered q = 0 := by
      simp [orderedTokens, SortedMap.get?, hord]
    simp [State.tokens, hwt, hot, ExecPc.tokens_of_idle hpop hl hcs hrls, hwc, hrel, hres]
  rw [State.OneOutcome, ← hcancelled, ← htok, hi.tokens q]
  cases hwin : (s.terminals q).winner with
  | none =>
    rcases hw.winnerless q hlt hwin with ⟨e, he, -⟩ | ha | hs
    · simp [State.waiting, hpop, hin] at he
    · simp [hactive q] at ha
    · exact absurd (hret _ hs) (by simp)
  | some w => cases w <;> simp [Xor]

/-- One request cancelled while queued, a later one answered and received. -/
theorem one_outcome_cancelled_and_delivered :
    ∃ s, (system (sampleOptions .strict)).ReachableBy
        (fun s a => cancelsWhole (sampleOptions .strict) s a = true) s ∧ s.quiescent = true ∧
      .returned (some 0) true ∈ s.cancels ∧ s.delivered.map StreamCompletion.sequence = [1] ∧
      ∀ q < s.nextSequence, s.OneOutcome q := by
  obtain ⟨s, hr, ht⟩ := (system (sampleOptions .strict)).exists_reachableBy_of_runBy rfl
    ([Label.submit 7, Label.submit 8] ++ Label.cancelCall 0 7 ++ Label.execs 14 ++
      Label.works 1 9 ++ Label.execs 10 ++ [Label.tryRecv])
    (fun s => s.quiescent ∧ .returned (some 0) true ∈ s.cancels ∧
      s.delivered.map StreamCompletion.sequence = [1])
    (C := fun s a => cancelsWhole (sampleOptions .strict) s a = true) (by decide +kernel)
  simp only [decide_eq_true_eq] at ht
  exact ⟨s, hr, ht.1, ht.2.1, ht.2.2, one_outcome (sampleOptions .strict) s hr ht.1⟩

def Label.stops : Label φ → Bool
  | .requestStop => true
  | _ => false

/-- A cancel call raises its flag, the worker sees it and wins the terminal flag with no
result; the call then answers that it cancelled nothing, and nothing is delivered. -/
theorem no_outcome :
    ∃ s, (system (sampleOptions .strict)).ReachableBy (fun _ a => a.stops = false) s ∧
      s.quiescent = true ∧ 0 < s.nextSequence ∧ ¬ s.OneOutcome 0 := by
  obtain ⟨s, hr, ht⟩ := (system (sampleOptions .strict)).exists_reachableBy_of_runBy rfl
    ([Label.submit 7] ++ Label.execs 11 ++ [Label.cancelBegin 7, .cancel 0, .cancel 0] ++
      Label.works 0 5 ++ [Label.cancel 0, .cancel 0] ++ Label.execs 18)
    (fun s => s.quiescent ∧ 0 < s.nextSequence ∧ ¬ s.OneOutcome 0)
    (C := fun _ a => a.stops = false) (by decide +kernel)
  simp only [decide_eq_true_eq] at ht
  exact ⟨s, hr, ht.1, ht.2.1, ht.2.2⟩

end Muxiva.Stream
