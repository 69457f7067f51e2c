import Muxiva.Stream.Frame

/-! The calls in flight. A `cancel` call and the winning `request_stop` work on requests that
were accepted, raise the cancellation flag before they compete for the terminal flag, and a
raised flag without a terminal one means that such a call is about to swap. -/
set_option linter.all false
namespace Muxiva.Stream

variable {φ : Type} {o : ManagedStreamOptions φ} {s s' : State φ}

/-- The request a cancel call works on or worked on. -/
def CancelPc.request : CancelPc → Option ℕ
  | .flag q | .swap q | .release q | .notify q _ | .returned (some q) _ => some q
  | .lookup _ | .returned none _ => none

/-- The request whose flag a cancel call has raised. -/
def CancelPc.raised : CancelPc → Option ℕ
  | .swap q | .release q | .notify q _ | .returned (some q) _ => some q
  | .lookup _ | .flag _ | .returned none _ => none

/-- A call raised the flag of `q` and has not yet swapped its terminal flag. -/
def State.Swapping (s : State φ) (q : ℕ) : Prop :=
  .swap q ∈ s.cancels ∨ ∃ qs, s.stop = .swap q qs

structure CallInv (s : State φ) : Prop where
  registered : ∀ i q, s.registrations.get? i = some q → q < s.nextSequence
  called : ∀ c ∈ s.cancels, ∀ q, c.request = some q → q < s.nextSequence
  stopping : ∀ q ∈ s.stop.targets, q < s.nextSequence
  raised : ∀ c ∈ s.cancels, ∀ q, c.raised = some q → (s.terminals q).cancelled = true
  swapping : ∀ q, (s.terminals q).cancelled = true → (s.terminals q).winner = none → s.Swapping q
  closing : s.closed = true ↔ s.stop ≠ .idle ∧ s.stop ≠ .close
  running : s.lifecycle = 0 → s.stop = .idle

theorem callInv_initial : CallInv (State.initial : State φ) := by
  constructor <;> simp [State.initial, StopPc.targets]

theorem CancelPc.request_of_raised {c : CancelPc} {q : ℕ} (h : c.raised = some q) :
    c.request = some q := by
  cases c with
  | returned q won => cases q <;> simp_all [CancelPc.raised, CancelPc.request]
  | _ => simp_all [CancelPc.raised, CancelPc.request]

theorem mem_set_of_ne {l : List CancelPc} {i : ℕ} {c c' d : CancelPc} (hi : l[i]? = some c)
    (hd : d ∈ l) (hne : d ≠ c) : d ∈ l.set i c' := by
  obtain ⟨j, hj⟩ := List.mem_iff_getElem?.mp hd
  refine List.mem_iff_getElem?.mpr ⟨j, ?_⟩
  have hij : i ≠ j := fun he => hne (by rw [he, hj] at hi; exact Option.some.inj hi)
  rwa [List.getElem?_set_ne hij]

theorem mem_set_self {l : List CancelPc} {i : ℕ} {c c' : CancelPc} (hi : l[i]? = some c) :
    c' ∈ l.set i c' :=
  List.mem_set (List.getElem?_eq_some_iff.mp hi).1 c'

theorem CallInv.of_sameCalls (hi : CallInv s) (h : SameCalls s s') : CallInv s' where
  registered i q hq := by
    rw [h.nextSequence]
    exact hi.registered i q (h.registrations i q hq)
  called := by
    rw [h.cancels, h.nextSequence]
    exact hi.called
  stopping := by
    rw [h.stop, h.nextSequence]
    exact hi.stopping
  raised c hc q hq := by
    rw [h.flags]
    exact hi.raised c (h.cancels ▸ hc) q hq
  swapping q hf hw := by
    have hw' : (s.terminals q).winner = none := by
      cases hs : (s.terminals q).winner with
      | none => rfl
      | some w => simp [h.winners q w hs] at hw
    have := hi.swapping q (h.flags q ▸ hf) hw'
    simpa only [State.Swapping, h.cancels, h.stop] using this
  closing := by
    rw [h.closed, h.stop]
    exact hi.closing
  running hl := by
    rw [h.stop]
    exact hi.running (h.lifecycle hl)

/-- The `i`-th call moves from `c` to `c'`: the bounds and the raised flags only depend on the
requests the two positions name. -/
theorem CallInv.call_move {i : ℕ} {c c' : CancelPc} (hi : CallInv s) (hc : s.cancels[i]? = some c)
    (hcs : s'.cancels = s.cancels.set i c')
    (hreq : ∀ q, c'.request = some q → q < s.nextSequence)
    (hn : s'.nextSequence = s.nextSequence) (hs : s'.stop = s.stop) (hcl : s'.closed = s.closed)
    (hl : s'.lifecycle = s.lifecycle) (hr : s'.registrations = s.registrations)
    (hf : ∀ q, (s.terminals q).cancelled = true → (s'.terminals q).cancelled = true)
    (hraise : ∀ q, c'.raised = some q → (s'.terminals q).cancelled = true)
    (hsw : ∀ q, (s'.terminals q).cancelled = true → (s'.terminals q).winner = none →
      c' = .swap q ∨ (c ≠ .swap q ∧ (s.terminals q).cancelled = true ∧
        (s.terminals q).winner = none)) : CallInv s' where
  registered i q hq := by
    rw [hn]
    exact hi.registered i q (hr ▸ hq)
  called d hd q hq := by
    rw [hn]
    rw [hcs] at hd
    rcases List.mem_or_eq_of_mem_set hd with hd | rfl
    · exact hi.called d hd q hq
    · exact hreq q hq
  stopping := by
    rw [hs, hn]
    exact hi.stopping
  raised d hd q hq := by
    rw [hcs] at hd
    rcases List.mem_or_eq_of_mem_set hd with hd | rfl
    · exact hf q (hi.raised d hd q hq)
    · exact hraise q hq
  swapping q hq hw := by
    simp only [State.Swapping, hcs, hs]
    rcases hsw q hq hw with rfl | ⟨hne, hq', hw'⟩
    · exact .inl (mem_set_self hc)
    · exact (hi.swapping q hq' hw').imp_left fun h => mem_set_of_ne hc h (Ne.symm hne)
  closing := by
    rw [hcl, hs]
    exact hi.closing
  running h := by
    rw [hs]
    exact hi.running (hl ▸ h)

theorem callInv_cancelStep {i : ℕ} (hi : CallInv s) (h : s.cancelStep i = some s') :
    CallInv s' := by
  have hcalled : ∀ {c : CancelPc}, s.cancels[i]? = some c → ∀ q, c.request = some q →
      q < s.nextSequence := fun h => hi.called _ (List.mem_of_getElem? h)
  have hraised : ∀ {c : CancelPc}, s.cancels[i]? = some c → ∀ q, c.raised = some q →
      (s.terminals q).cancelled = true := fun h => hi.raised _ (List.mem_of_getElem? h)
  obtain ⟨_, hc, rfl⟩ | ⟨j, q, hc, hq, -, rfl⟩ | ⟨q, hc, rfl⟩ | ⟨q, hc, ht, rfl⟩ |
    ⟨q, hc, ht, rfl⟩ | ⟨q, m, hc, rfl⟩ | ⟨q, won, hc, rfl⟩ := cancelStep_cases h
  · refine hi.call_move hc rfl (by simp [CancelPc.request]) rfl rfl rfl rfl rfl (fun _ => id)
      (by simp [CancelPc.raised]) fun q' h1 h2 => .inr ⟨by simp, h1, h2⟩
  · refine hi.call_move hc rfl ?_ rfl rfl rfl rfl rfl (fun _ => id)
      (by simp [CancelPc.raised]) fun q' h1 h2 => .inr ⟨by simp, h1, h2⟩
    rintro q' h
    cases h
    exact hi.registered j q hq
  · refine hi.call_move hc rfl (fun q' h => hcalled hc q' h) rfl rfl rfl rfl rfl ?_ ?_ ?_
    · exact update_terminal (P := fun q t => (s.terminals q).cancelled = true →
        t.cancelled = true) (fun _ => id) fun _ => rfl
    · rintro q' h
      cases h
      simp
    · intro q' h1 h2
      by_cases hq : q' = q
      · exact .inl (by rw [hq])
      · simp only [State.raise, State.setTerminal, Function.update_of_ne hq] at h1 h2
        exact .inr ⟨by simp, h1, h2⟩
  · refine hi.call_move hc rfl (fun q' h => hcalled hc q' h) rfl rfl rfl rfl rfl (fun _ => id)
      (fun q' h => hraised hc q' h) fun q' h1 h2 => .inr ⟨?_, h1, h2⟩
    rintro h
    cases h
    have hnone : (s.terminals q).winner = none := h2
    simp [TerminalState.terminal, hnone] at ht
  · have hsame := sameCalls_win q .cancel ht
    refine hi.call_move hc rfl (fun q' h => hcalled hc q' h) rfl rfl rfl rfl rfl
      (fun q' h => (hsame.flags q').trans h)
      (fun q' h => (hsame.flags q').trans (hraised hc q' h)) ?_
    intro q' h1 h2
    have hne : q' ≠ q := by
      rintro rfl
      simp at h2
    simp only [State.win, State.setTerminal, Function.update_of_ne hne] at h1 h2
    exact .inr ⟨fun h => hne (by cases h; rfl), h1, h2⟩
  · have hsame := sameCalls_takeLease (s := s) q
    refine hi.call_move hc rfl (fun q' h => hcalled hc q' h) rfl rfl rfl rfl rfl
      (fun q' h => (hsame.flags q').trans h)
      (fun q' h => (hsame.flags q').trans (hraised hc q' h)) ?_
    intro q' h1 h2
    refine .inr ⟨by simp, (hsame.flags q').symm.trans h1, ?_⟩
    by_cases hq : q' = q
    · subst hq
      simpa using h2
    · simpa [hq] using h2
  · exact hi.call_move hc rfl (fun q' h => hcalled hc q' h) rfl rfl rfl rfl rfl (fun _ => id)
      (fun q' h => hraised hc q' h) fun q' h1 h2 => .inr ⟨by simp, h1, h2⟩

theorem mem_registered {q : ℕ} : q ∈ s.registered ↔
    (∃ i, s.registrations.get? i = some q) ∧ s.upgrade q = true := by
  simp only [State.registered, List.mem_filter, List.mem_map, Prod.exists, exists_eq_right,
    SortedMap.mem_entries_iff]

theorem callInv_stopStep {order : List ℕ} (hi : CallInv s) (h : s.stopStep order = some s') :
    CallInv s' := by
  have hclosed : s.stop ≠ .idle → s.stop ≠ .close → s.closed = true :=
    fun h1 h2 => hi.closing.mpr ⟨h1, h2⟩
  have hrun : s.stop ≠ .idle → s.lifecycle = 0 → False := fun h1 h2 => h1 (hi.running h2)
  have hsw : ∀ q, (s.terminals q).cancelled = true → (s.terminals q).winner = none →
      (∀ qs, s.stop ≠ .swap q qs) → .swap q ∈ s.cancels := fun q h1 h2 h3 =>
    (hi.swapping q h1 h2).resolve_right fun ⟨qs, h⟩ => h3 qs h
  cases hp : s.stop with
  | idle => simp [State.stopStep, hp] at h
  | close =>
    simp only [State.stopStep, hp] at h
    split_ifs at h
    cases h
    refine ⟨hi.registered, hi.called, by simp [StopPc.targets], hi.raised, fun q h1 h2 => ?_,
      by simp, fun hl => absurd hl (hrun (by simp [hp]))⟩
    exact .inl (hsw q h1 h2 (by simp [hp]))
  | collect =>
    simp only [State.stopStep, hp] at h
    split_ifs at h with hperm
    cases h
    refine ⟨by simp, hi.called, fun q hq => ?_, hi.raised, fun q h1 h2 => ?_, ?_,
      fun hl => absurd hl (hrun (by simp [hp]))⟩
    · obtain ⟨⟨i, hreg⟩, -⟩ := mem_registered.mp (hperm.mem_iff.mp hq)
      exact hi.registered i q hreg
    · exact .inl (hsw q h1 h2 (by simp [hp]))
    · simp [hclosed (by simp [hp]) (by simp [hp])]
  | flag qs =>
    have hcl := hclosed (by simp [hp]) (by simp [hp])
    have hl := hrun (by simp [hp])
    have hst := hi.stopping
    rw [hp] at hst
    cases qs with
    | nil =>
      simp only [State.stopStep, hp] at h
      cases h
      exact ⟨hi.registered, hi.called, by simp [StopPc.targets], hi.raised,
        fun q h1 h2 => .inl (hsw q h1 h2 (by simp [hp])), by simp [hcl], fun h => absurd h hl⟩
    | cons q qs =>
      simp only [State.stopStep, hp] at h
      cases h
      refine ⟨hi.registered, hi.called, hst, fun c hc q' hq' => ?_, fun q' h1 h2 => ?_,
        by simp [hcl], fun h => absurd h hl⟩
      · exact update_terminal (P := fun q t => (s.terminals q).cancelled = true →
          t.cancelled = true) (fun _ => id) (fun _ => rfl) q' (hi.raised c hc q' hq')
      · by_cases hq : q' = q
        · exact .inr ⟨qs, by rw [hq]⟩
        · simp only [State.raise, State.setTerminal, Function.update_of_ne hq] at h1 h2
          exact .inl (hsw q' h1 h2 (by simp [hp]))
  | swap q qs =>
    have hcl := hclosed (by simp [hp]) (by simp [hp])
    have hl := hrun (by simp [hp])
    have hst := hi.stopping
    rw [hp] at hst
    simp only [State.stopStep, hp] at h
    split_ifs at h with ht <;> cases h
    · refine ⟨hi.registered, hi.called, fun q' hq' => hst q' (List.mem_cons_of_mem _ hq'),
        hi.raised, fun q' h1 h2 => .inl (hsw q' h1 h2 ?_), by simp [hcl], fun h => absurd h hl⟩
      intro qs' he
      rw [hp] at he
      cases he
      have hnone : (s.terminals q).winner = none := h2
      simp [TerminalState.terminal, hnone] at ht
    · have hsame := sameCalls_win q .cancel ht
      refine ⟨hi.registered, hi.called, hst, fun c hc q' hq' =>
        (hsame.flags q').trans (hi.raised c hc q' hq'), fun q' h1 h2 => ?_, by simp [hcl],
        fun h => absurd h hl⟩
      have hne : q' ≠ q := by
        rintro rfl
        simp at h2
      simp only [State.win, State.setTerminal, Function.update_of_ne hne] at h1 h2
      refine .inl (hsw q' h1 h2 fun qs' he => ?_)
      rw [hp] at he
      cases he
      exact hne rfl
  | release q qs =>
    have hcl := hclosed (by simp [hp]) (by simp [hp])
    have hl := hrun (by simp [hp])
    have hst := hi.stopping
    rw [hp] at hst
    simp only [State.stopStep, hp] at h
    cases h
    have hsame := sameCalls_takeLease (s := s) q
    refine ⟨hi.registered, hi.called, fun q' hq' => hst q' (List.mem_cons_of_mem _ hq'),
      fun c hc q' hq' => (hsame.flags q').trans (hi.raised c hc q' hq'), fun q' h1 h2 => ?_,
      by simp [hcl], fun h => absurd h hl⟩
    have hw : (s.terminals q').winner = none := by
      by_cases hq : q' = q
      · subst hq
        simpa using h2
      · simpa [hq] using h2
    exact .inl (hsw q' ((hsame.flags q').symm.trans h1) hw (by simp [hp]))
  | notify =>
    have hcl := hclosed (by simp [hp]) (by simp [hp])
    simp only [State.stopStep, hp] at h
    cases h
    exact ⟨hi.registered, hi.called, by simp [StopPc.targets], hi.raised,
      fun q h1 h2 => .inl (hsw q h1 h2 (by simp [hp])), by simp [hcl],
      fun h => absurd h (hrun (by simp [hp]))⟩
  | returned => simp [State.stopStep, hp] at h

theorem callInv_trySubmit (hi : CallInv s) (r : AsyncRequest φ) (lifecycle : ℕ) :
    CallInv (s.trySubmit o r lifecycle) := by
  rcases trySubmit_cases (o := o) (s := s) r lifecycle with ⟨m, h⟩ | ⟨-, -, m, h⟩ <;> rw [h]
  · exact ⟨hi.registered, hi.called, hi.stopping, hi.raised, hi.swapping, hi.closing, hi.running⟩
  · -- the fresh sequence is below none of the requests the calls know
    refine ⟨fun i q hq => ?_, fun c hc q hq => (hi.called c hc q hq).trans (Nat.lt_succ_self _),
      fun q hq => (hi.stopping q hq).trans (Nat.lt_succ_self _), fun c hc q hq => ?_,
      fun q h1 h2 => ?_, hi.closing, hi.running⟩
    · simp only [SortedMap.get?_insert] at hq
      split_ifs at hq
      · cases hq
        exact Nat.lt_succ_self _
      · exact (hi.registered i q hq).trans (Nat.lt_succ_self _)
    · have hne : q ≠ s.nextSequence := (hi.called c hc q (c.request_of_raised hq)).ne
      simpa [Function.update_of_ne hne] using hi.raised c hc q hq
    · have hne : q ≠ s.nextSequence := by
        rintro rfl
        simp at h1
      simp only [Function.update_of_ne hne] at h1 h2
      exact hi.swapping q h1 h2

theorem callInv_step {a : Label φ} (hi : CallInv s) (h : s.step o a = some s') : CallInv s' := by
  have hsame : ∀ {t : State φ}, t.nextSequence = s.nextSequence → t.cancels = s.cancels →
      t.stop = s.stop → t.closed = s.closed → t.lifecycle = s.lifecycle →
      t.terminals = s.terminals → t.registrations = s.registrations → CallInv t :=
    fun h1 h2 h3 h4 h5 h6 h7 => hi.of_sameCalls
      ⟨h1, h2, h3, h4, by simp [h5], by simp [h6], by simp [h6], by simp [h7]⟩
  cases a with
  | trySubmit r lifecycle =>
    simp only [State.step] at h
    split_ifs at h
    cases h
    exact callInv_trySubmit hi r lifecycle
  | tryRecv =>
    simp only [State.step] at h
    split_ifs at h
    cases h
    rcases tryRecv_cases (s := s) with h | ⟨c, cs, m, -, h⟩ <;> rw [h]
    · exact hi
    · exact hsame rfl rfl rfl rfl rfl rfl rfl
  | exec spawned => exact hi.of_sameCalls (execStep_sameCalls h)
  | worker q out => exact hi.of_sameCalls (workerStep_sameCalls h)
  | cancelBegin requestId =>
    cases h
    refine ⟨hi.registered, fun c hc => ?_, hi.stopping, fun c hc => ?_, fun q h1 h2 => ?_,
      hi.closing, hi.running⟩
    · rcases List.mem_append.mp hc with hc | hc
      · exact hi.called c hc
      · simp [List.mem_singleton.mp hc, CancelPc.request]
    · rcases List.mem_append.mp hc with hc | hc
      · exact hi.raised c hc
      · simp [List.mem_singleton.mp hc, CancelPc.raised]
    · exact (hi.swapping q h1 h2).imp_left fun h => List.mem_append_left _ h
  | cancel i => exact callInv_cancelStep hi h
  | requestStop =>
    simp only [State.step] at h
    split_ifs at h with hl <;> cases h
    · have hidle := hi.running hl
      refine ⟨hi.registered, hi.called, by simp [StopPc.targets], hi.raised, fun q h1 h2 => ?_,
        ?_, by simp⟩
      · exact .inl ((hi.swapping q h1 h2).resolve_right (by simp [hidle]))
      · have := hi.closing
        simp only [hidle, ne_eq, not_true_eq_false, false_and, iff_false] at this
        simp [this]
    · exact hsame rfl rfl rfl rfl rfl rfl rfl
  | stop order => exact callInv_stopStep hi h
  | tick d => cases h; exact hsame rfl rfl rfl rfl rfl rfl rfl
  | wake =>
    simp only [State.step] at h
    split at h <;> cases h
    exact hsame rfl rfl rfl rfl rfl rfl rfl

theorem callInv {C : State φ → Label φ → Prop} (hr : (system o).ReachableBy C s) : CallInv s :=
  invariant callInv_initial (fun _ _ _ hi h => callInv_step hi h) hr.reachable

end Muxiva.Stream
