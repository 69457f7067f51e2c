import Muxiva.Admission.Model
import Mathlib.Data.List.Perm.Basic

/-! Every lease is owned by a caller, stored in the terminal state of a request, on its way back or
back, and the slots count the first three. -/
set_option linter.all false
namespace Muxiva.Stream

variable {φ : Type} {o : ManagedStreamOptions φ} {s s' : State φ}

/-- Only `try_submit` hands out sequence numbers. -/
theorem nextSequence_of_step {a : Label φ} (ha : ∀ r lifecycle, a ≠ .trySubmit r lifecycle)
    (h : s.step o a = some s') : s'.nextSequence = s.nextSequence := by
  cases a with
  | trySubmit r lifecycle => exact absurd rfl (ha r lifecycle)
  | tryRecv =>
    simp only [State.step] at h
    split_ifs at h
    cases h
    rcases tryRecv_cases (s := s) with h | ⟨c, cs, m, -, h⟩ <;> rw [h]
  | exec spawned => exact (execStep_sameCalls h).nextSequence
  | worker q out => exact (workerStep_sameCalls h).nextSequence
  | cancelBegin requestId => cases h; rfl
  | cancel i => exact (cancelStep_sameOwners h).nextSequence
  | requestStop =>
    simp only [State.step] at h
    split_ifs at h <;> cases h <;> rfl
  | stop order =>
    by_cases hp : s.stop = .close
    · simp only [State.step, State.stopStep, hp] at h
      split_ifs at h
      cases h
      rfl
    · exact (stopStep_sameOwners hp h).nextSequence
  | tick d => cases h; rfl
  | wake =>
    simp only [State.step] at h
    split at h <;> cases h
    rfl

/-- An accepted request brings its lease; the others keep theirs. -/
theorem leaseHeld_of_submit {r : AsyncRequest φ} {lifecycle : ℕ} {t : State φ}
    (h : s.step o (.trySubmit r lifecycle) = some t) :
    t.nextSequence = s.nextSequence ∧ (∀ q, t.leaseHeld q = s.leaseHeld q) ∨
    t.nextSequence = s.nextSequence + 1 ∧ t.leaseHeld s.nextSequence = true ∧
      ∀ q < s.nextSequence, t.leaseHeld q = s.leaseHeld q := by
  have hstep := h
  simp only [State.step] at h
  split_ifs at h
  cases h
  rcases trySubmit_cases (o := o) (s := s) r lifecycle with ⟨m, h⟩ | ⟨-, -, m, h⟩
  · rw [h]
    exact .inl ⟨rfl, fun _ => rfl⟩
  · obtain ⟨hpop, hlaunch, -⟩ := s.pc.holds_woken
    refine .inr ⟨by rw [h], ?_, fun q hq => ?_⟩
    · have hup : (s.trySubmit o r lifecycle).upgrade s.nextSequence = true := by
        refine upgrade_iff.mpr (.inl ⟨⟨s.nextSequence, r.requestId, r.input, r.deadline,
          r.attemptLimit⟩, ?_, rfl⟩)
        simp [h, State.waiting]
      rw [State.leaseHeld, hup, h]
      simp
    · cases hheld : s.leaseHeld q with
      | false =>
        by_contra hne
        have := leaseHeld_of_step (.inr hq) hstep (Bool.not_eq_false _ ▸ hne)
        simp [hheld] at this
      | true =>
        simp only [State.leaseHeld, Bool.and_eq_true] at hheld ⊢
        refine ⟨by simpa [h, hq.ne] using hheld.1, ?_⟩
        have hu := hheld.2
        rw [upgrade_iff] at hu ⊢
        simp only [State.waiting, h, hpop, hlaunch] at hu ⊢
        rcases hu with ⟨e, he, hq⟩ | hrest
        · refine .inl ⟨e, ?_, hq⟩
          exact (List.mem_append.mp he).elim (List.mem_append_left _)
            fun he => List.mem_append_right _ (List.mem_append_left _ he)
        · exact .inr hrest

theorem leaseInv {C : State φ → Label φ → Prop} (hr : (system o).ReachableBy C s) :
    s.LeaseInv := by
  refine invariantBy (I := State.LeaseInv) (fun q ht => ?_) (fun s a s' hr hi _ h => ?_) hr
  · simp [State.initial, TerminalState.terminal] at ht
  · exact leaseInv_step hi (owned hr) (callInv hr) h

end Muxiva.Stream

namespace Muxiva.Admission

open Muxiva.Stream (ManagedStreamOptions AsyncRequest)

variable {φ : Type} {o : ManagedStreamOptions φ} {cap : ℕ} {s s' : State φ}

/-- Where the leases are, and what the slots know about it. -/
structure Ledger (cap : ℕ) (s : State φ) : Prop where
  leases : (s.outstanding ++ s.released).Perm (List.range s.leases)
  inFlight : s.slots.inFlight = s.outstanding.length
  max : s.slots.max = cap
  bound : s.slots.inFlight ≤ cap
  underflow : s.underflow = false
  gone : ∀ q < s.stream.nextSequence, ∀ l, s.carried q = some l → s.stream.leaseHeld q = false →
    l ∈ s.pending.map Prod.snd ∨ l ∈ s.released

theorem ledger_initial : Ledger cap (State.initial cap : State φ) := by
  constructor <;> simp [State.initial, State.outstanding, State.inside, keeping, Stream.State.initial]

/-- A step that moves leases between their owners without handing out or returning any. -/
theorem Ledger.move (hi : Ledger cap s) (hout : s'.outstanding.Perm s.outstanding)
    (hslots : s'.slots.inFlight = s.slots.inFlight ∧ s'.slots.max = s.slots.max)
    (hl : s'.leases = s.leases) (hrel : s'.released = s.released)
    (hunder : s'.underflow = s.underflow)
    (hgone : ∀ q < s'.stream.nextSequence, ∀ l, s'.carried q = some l →
      s'.stream.leaseHeld q = false → l ∈ s'.pending.map Prod.snd ∨ l ∈ s'.released) :
    Ledger cap s' := by
  refine ⟨?_, ?_, hslots.2.trans hi.max, hslots.1 ▸ hi.bound, hunder.trans hi.underflow, hgone⟩
  · rw [hl, hrel]
    exact (hout.append_right _).trans hi.leases
  · rw [hslots.1, hi.inFlight, hout.length_eq]

/-- A lease is handed out below the limit. -/
theorem ledger_grant (hi : Ledger cap s) (hlt : s.slots.inFlight < cap) :
    Ledger cap (s.acquired (.ok (true, { s.slots with inFlight := s.slots.inFlight + 1 }))) := by
  have hperm : (s.acquired (.ok (true, { s.slots with
      inFlight := s.slots.inFlight + 1 }))).outstanding.Perm (s.outstanding ++ [s.leases]) := by
    rw [List.perm_iff_count]
    intro x
    simp only [State.acquired, State.outstanding, State.inside, List.count_append]
    omega
  refine ⟨?_, ?_, hi.max, hlt, hi.underflow, hi.gone⟩
  · refine (hperm.append_right _).trans ?_
    change ((s.outstanding ++ [s.leases]) ++ s.released).Perm (List.range (s.leases + 1))
    rw [List.range_succ]
    refine List.Perm.trans ?_ (hi.leases.append_right _)
    rw [List.perm_iff_count]
    intro x
    simp only [List.count_append]
    omega
  · rw [hperm.length_eq, List.length_append, ← hi.inFlight]
    rfl

theorem ledger_acquired (hi : Ledger cap s) {res : Except AdmissionError (Bool × AdmissionSlots)}
    (h : res = s.slots.tryAcquire ∨ res = s.slots.acquire) : Ledger cap (s.acquired res) := by
  have hmax := hi.max
  have hbound := hi.bound
  rcases h with rfl | rfl
  · unfold AdmissionSlots.tryAcquire
    split_ifs with hc hfull
    · exact hi
    · exact hi
    · exact ledger_grant hi (by omega)
  · unfold AdmissionSlots.acquire
    split_ifs with hc hfree
    · exact hi
    · exact ledger_grant hi (by omega)
    · exact hi

theorem ledger_release (hi : Ledger cap s) {i : ℕ} {p : Option Thread × ℕ}
    (hp : s.pending[i]? = some p) :
    Ledger cap { s with
      slots := s.slots.release
      pending := s.pending.eraseIdx i
      released := s.released ++ [p.2]
      underflow := s.underflow || decide (s.slots.inFlight = 0) } := by
  obtain ⟨hlt, rfl⟩ := List.getElem?_eq_some_iff.mp hp
  have hpending := (List.getElem_cons_eraseIdx_perm hlt).map Prod.snd
  have hcount : s.outstanding.Perm (s.pending[i].2 :: (s.held ++ s.inside ++
      (s.pending.eraseIdx i).map Prod.snd)) := by
    refine List.Perm.trans ((hpending.symm).append_left _) ?_
    exact List.perm_middle
  have hlen := hcount.length_eq
  rw [List.length_cons, ← hi.inFlight] at hlen
  refine ⟨?_, ?_, hi.max, ?_, ?_, fun q hq l hl hheld => ?_⟩
  · refine List.Perm.trans ?_ hi.leases
    refine List.Perm.trans ?_ (hcount.symm.append_right _)
    change ((s.held ++ s.inside ++ (s.pending.eraseIdx i).map Prod.snd) ++
      (s.released ++ [s.pending[i].2])).Perm _
    rw [List.perm_iff_count]
    intro x
    simp only [List.count_append, List.cons_append, List.count_cons, List.count_nil]
    omega
  · change s.slots.inFlight - 1 = (s.held ++ s.inside ++
      (s.pending.eraseIdx i).map Prod.snd).length
    omega
  · have hbound := hi.bound
    change s.slots.inFlight - 1 ≤ cap
    omega
  · have hpos : s.slots.inFlight ≠ 0 := by omega
    simp [hi.underflow, hpos]
  · rcases hi.gone q hq l hl hheld with hmem | hmem
    · rcases List.mem_cons.mp (hpending.mem_iff.mpr hmem) with rfl | hmem
      · exact .inr (List.mem_append_right _ (List.mem_singleton_self _))
      · exact .inl hmem
    · exact .inr (List.mem_append_left _ hmem)

/-- The leases inside the stream stay or are dropped. -/
theorem inside_split {t : Stream.State φ} (hn : t.nextSequence = s.stream.nextSequence)
    (hback : ∀ q < s.stream.nextSequence, t.leaseHeld q = true → s.stream.leaseHeld q = true) :
    (({ s with stream := t } : State φ).inside ++ s.dropped t).Perm s.inside := by
  have hkeep : keeping t (List.range s.stream.nextSequence) =
      (keeping s.stream (List.range s.stream.nextSequence)).filter fun q => t.leaseHeld q := by
    rw [keeping, keeping, List.filter_filter]
    refine List.filter_congr fun q hq => ?_
    have hq' := hback q (List.mem_range.mp hq)
    cases ht : t.leaseHeld q
    · rfl
    · simp [hq' ht]
  simp only [State.inside, State.dropped, hn, hkeep, ← List.filterMap_append]
  refine List.Perm.filterMap _ ?_
  simpa using List.filter_append_perm (fun q => t.leaseHeld q)
    (keeping s.stream (List.range s.stream.nextSequence))

theorem mem_dropped {t : Stream.State φ} {q l : ℕ} (hq : q < s.stream.nextSequence)
    (hl : s.carried q = some l) (hs : s.stream.leaseHeld q = true) (ht : t.leaseHeld q = false) :
    l ∈ s.dropped t := by
  refine List.mem_filterMap.mpr ⟨q, ?_, hl⟩
  simp [keeping, hq, hs, ht]

theorem ledger_stream (hi : Ledger cap s) {a : Stream.Label φ} {t : Stream.State φ}
    (ha : ∀ r lifecycle, a ≠ .trySubmit r lifecycle) (h : s.stream.step o a = some t) :
    Ledger cap { s with
      stream := t, pending := s.pending ++ (s.dropped t).map (threadOf a, ·) } := by
  have hn := Stream.nextSequence_of_step ha h
  have hback : ∀ q < s.stream.nextSequence, t.leaseHeld q = true → s.stream.leaseHeld q = true :=
    fun q hq => Stream.leaseHeld_of_step (.inr hq) h
  have hsnd : ((s.dropped t).map (threadOf a, ·)).map Prod.snd = s.dropped t := by
    simp [Function.comp_def]
  refine hi.move ?_ ⟨rfl, rfl⟩ rfl rfl rfl fun q hq l hl hheld => ?_
  · have hsplit := List.perm_iff_count.mp (inside_split hn hback)
    rw [List.perm_iff_count]
    intro x
    have hx := hsplit x
    simp only [State.outstanding, List.map_append, hsnd, List.count_append, State.inside] at hx ⊢
    omega
  · rw [List.map_append, hsnd, List.mem_append]
    rw [hn] at hq
    cases hs : s.stream.leaseHeld q with
    | true => exact .inl (.inr (mem_dropped hq hl hs hheld))
    | false => exact (hi.gone q hq l hl hs).imp_left .inl

/-- A caller owns the lease it drops or submits. -/
theorem held_split {lease : Option ℕ} (hl : ∀ l, lease = some l → l ∈ s.held) :
    (lease.toList ++ lease.elim s.held s.held.erase).Perm s.held := by
  cases lease with
  | none => exact .refl _
  | some l => exact (List.perm_cons_erase (hl l rfl)).symm

theorem ledger_submit (hi : Ledger cap s) {r : AsyncRequest φ} {lifecycle : ℕ}
    {lease : Option ℕ} (h : s.step o (.submit r lifecycle lease) = some s') : Ledger cap s' := by
  simp only [State.step] at h
  split_ifs at h with hl
  obtain ⟨t, ht, h⟩ := Option.map_eq_some_iff.mp h
  have hheld := List.perm_iff_count.mp (held_split hl)
  rcases Stream.leaseHeld_of_submit ht with ⟨hn, hsame⟩ | ⟨hn, hnew, hsame⟩
  · rw [if_neg (by omega)] at h
    subst h
    have hinside : ∀ s₁ : State φ, s₁.stream = t → s₁.carried = s.carried →
        s₁.inside = s.inside := by
      intro s₁ h₁ h₂
      simp only [State.inside, keeping, h₁, h₂, hn, hsame]
    refine hi.move ?_ ⟨rfl, rfl⟩ rfl rfl rfl fun q hq l hc hlost => ?_
    · rw [List.perm_iff_count]
      intro x
      have hx := hheld x
      simp only [State.outstanding, hinside, List.map_append, List.map_map, Function.comp_def,
        List.map_id', List.count_append] at hx ⊢
      omega
    · rw [List.map_append, List.mem_append]
      exact (hi.gone q (hn ▸ hq) l hc (hsame q ▸ hlost)).imp_left .inl
  · rw [if_pos hn] at h
    subst h
    refine hi.move ?_ ⟨rfl, rfl⟩ rfl rfl rfl fun q hq l hc hlost => ?_
    · have hinside : ({ s with
          stream := t
          held := lease.elim s.held s.held.erase
          carried := Function.update s.carried s.stream.nextSequence lease } : State φ).inside =
          s.inside ++ lease.toList := by
        have hkeep : keeping t (List.range s.stream.nextSequence) =
            keeping s.stream (List.range s.stream.nextSequence) :=
          List.filter_congr fun q hq => hsame q (List.mem_range.mp hq)
        have hold : ∀ q ∈ keeping s.stream (List.range s.stream.nextSequence),
            Function.update s.carried s.stream.nextSequence lease q = s.carried q := by
          intro q hq
          have hlt := List.mem_range.mp (List.mem_filter.mp hq).1
          exact Function.update_of_ne hlt.ne _ _
        simp only [State.inside, hn, List.range_succ]
        rw [show keeping t (List.range s.stream.nextSequence ++ [s.stream.nextSequence]) =
          keeping t (List.range s.stream.nextSequence) ++ [s.stream.nextSequence] by
            simp [keeping, hnew], hkeep, List.filterMap_append, List.filterMap_congr hold]
        cases lease <;> simp
      rw [List.perm_iff_count]
      intro x
      have hx := hheld x
      simp only [State.outstanding, hinside, List.count_append] at hx ⊢
      omega
    · have hlt : q < s.stream.nextSequence := by
        by_contra hge
        have heq : q = s.stream.nextSequence := by
          simp only [hn] at hq
          omega
        simp [heq, hnew] at hlost
      have hc' : Function.update s.carried s.stream.nextSequence lease q = some l := hc
      rw [Function.update_of_ne hlt.ne] at hc'
      exact hi.gone q hlt l hc' (hsame q hlt ▸ hlost)

theorem ledger_step {a : Label φ} (hi : Ledger cap s) (h : s.step o a = some s') :
    Ledger cap s' := by
  cases a with
  | tryAcquire =>
    cases h
    exact ledger_acquired hi (.inl rfl)
  | acquire =>
    cases h
    exact ledger_acquired hi (.inr rfl)
  | close =>
    cases h
    exact hi.move (.refl _) ⟨rfl, rfl⟩ rfl rfl rfl hi.gone
  | drop lease =>
    simp only [State.step] at h
    split_ifs at h with hmem
    cases h
    refine hi.move ?_ ⟨rfl, rfl⟩ rfl rfl rfl fun q hq l hl hheld => ?_
    · have hsplit := List.perm_iff_count.mp (List.perm_cons_erase hmem)
      change (s.held.erase lease ++ s.inside ++
        (s.pending ++ [(none, lease)]).map Prod.snd).Perm s.outstanding
      rw [List.perm_iff_count]
      intro x
      have hx := hsplit x
      simp only [State.outstanding, List.map_append, List.map_cons, List.map_nil,
        List.count_append, List.count_cons, List.count_nil] at hx ⊢
      omega
    · rw [List.map_append, List.mem_append]
      exact (hi.gone q hq l hl hheld).imp_left .inl
  | release i =>
    simp only [State.step] at h
    split at h
    · cases h
    · rename_i thread lease hp
      cases h
      exact ledger_release hi hp
  | submit r lifecycle lease => exact ledger_submit hi h
  | stream a =>
    simp only [State.step] at h
    split at h
    · cases h
    · rename_i ha
      split_ifs at h
      obtain ⟨t, ht, rfl⟩ := Option.map_eq_some_iff.mp h
      exact ledger_stream hi ha ht

theorem ledger (hr : (system o cap).Reachable s) : Ledger cap s := by
  refine hr.invariant (I := Ledger cap) (fun s h => ?_) (fun s a s' _ hi h => ?_)
  · rw [show s = State.initial cap from h]
    exact ledger_initial
  · exact ledger_step (o := o) (a := a) hi h

/-- The stream of a run with admission runs as one without. -/
theorem stream_reachable (hr : (system o cap).Reachable s) :
    (Stream.system o).Reachable s.stream := by
  refine hr.invariant (I := fun s => (Stream.system o).Reachable s.stream) (fun s h => ?_)
    (fun s a s' _ hi h => ?_)
  · rw [show s = State.initial cap from h]
    exact .init rfl
  · have hacquired : ∀ res, (s.acquired res).stream = s.stream := by
      intro res
      rcases res with e | ⟨_ | _, slots⟩ <;> rfl
    change s.step o a = some s' at h
    cases a with
    | tryAcquire => cases h; rw [hacquired]; exact hi
    | acquire => cases h; rw [hacquired]; exact hi
    | close => cases h; exact hi
    | drop lease =>
      simp only [State.step] at h
      split_ifs at h
      cases h
      exact hi
    | release i =>
      simp only [State.step] at h
      split at h <;> cases h
      exact hi
    | submit r lifecycle lease =>
      simp only [State.step] at h
      split_ifs at h
      obtain ⟨t, ht, rfl⟩ := Option.map_eq_some_iff.mp h
      split_ifs <;> exact .step (a := .trySubmit r lifecycle) hi trivial ht
    | stream a =>
      simp only [State.step] at h
      split at h
      · cases h
      · split_ifs at h
        obtain ⟨t, ht, rfl⟩ := Option.map_eq_some_iff.mp h
        exact .step hi trivial ht

/-- Of the pointers to a queued request's terminal state only those of `cancel` calls outlive the
clearing of the queue. -/
theorem cancel_of_cleared {t : Stream.State φ} {order : List ℕ} {e : Stream.Envelope φ}
    (ho : Stream.Owned s.stream) (hstop : s.stream.stop = .close)
    (h : s.stream.stopStep order = some t) (he : e ∈ s.stream.input)
    (hu : t.upgrade e.sequence = true) :
    ∃ c ∈ s.stream.cancels, c.target = some e.sequence := by
  simp only [Stream.State.stopStep, hstop] at h
  split_ifs at h
  cases h
  have hwait : e ∈ s.stream.waiting := List.mem_append_right _ he
  have hactive : s.stream.active.contains e.sequence = false := by
    by_contra hc
    exact absurd ((ho.active _ (by simpa using hc)).2 e hwait) (lt_irrefl _)
  rcases Stream.upgrade_iff.mp hu with ⟨e', he', hq⟩ | hc | ⟨e', he', hq⟩ | ⟨w, hw, -⟩ |
    ⟨c, hc, ht⟩ | htargets
  · have hpop : s.stream.pc.popped = some e' := by simpa [Stream.State.waiting] using he'
    have horder := ho.order
    simp only [Stream.State.waiting, hpop, Option.toList_some, List.singleton_append,
      List.map_cons, List.pairwise_cons] at horder
    have hlt := horder.1 e.sequence (List.mem_map_of_mem he)
    omega
  · simp [hactive] at hc
  · have hc := ho.launched e' he'
    rw [hq, hactive] at hc
    cases hc
  · exact absurd ((ho.spawned _ w hw).1 e hwait) (lt_irrefl _)
  · exact ⟨c, hc, ht⟩
  · simp [Stream.StopPc.targets] at htargets

/-- The slots count the leases that are out, every lease is out or came back once, and the lease of
an accepted request comes back with the `finish` call that made its terminal state terminal or with
the last pointer to that state. -/
theorem admission_accounting (o : ManagedStreamOptions φ) (cap : ℕ) (s : State φ)
    (hr : (system o cap).Reachable s) :
    (s.slots.inFlight = s.outstanding.length ∧ s.slots.max = cap ∧ s.slots.inFlight ≤ cap ∧
      s.underflow = false) ∧
    (s.outstanding ++ s.released).Perm (List.range s.leases) ∧
    (∀ q < s.stream.nextSequence, ∀ l, s.carried q = some l → l ∉ s.released →
      (∃ t, (t, l) ∈ s.pending) ∨ s.stream.upgrade q = true ∧
        ((s.stream.terminals q).terminal = true → s.stream.releasing q = true)) ∧
    ∀ order s', s.stream.stop = .close → s.step o (.stream (.stop order)) = some s' →
      ∀ e ∈ s.stream.input, ∀ l, s.carried e.sequence = some l → l ∉ s'.released →
        (∃ t, (t, l) ∈ s'.pending) ∨ ∃ c ∈ s.stream.cancels, c.target = some e.sequence := by
  have hi := ledger hr
  have hstream := stream_reachable hr
  refine ⟨⟨hi.inFlight, hi.max, hi.bound, hi.underflow⟩, hi.leases,
    fun q hq l hl hnot => ?_, fun order s' hstop h e he l hl hnot => ?_⟩
  · cases hheld : s.stream.leaseHeld q with
    | true =>
      simp only [Stream.State.leaseHeld, Bool.and_eq_true] at hheld
      exact .inr ⟨hheld.2, fun ht => Stream.leaseInv hstream q ht hheld.1⟩
    | false =>
      obtain ⟨p, hp, rfl⟩ := List.mem_map.mp ((hi.gone q hq l hl hheld).resolve_right hnot)
      exact .inl ⟨p.1, hp⟩
  · have ho := Stream.owned hstream
    have hq := ho.bound e (List.mem_append_right _ he)
    simp only [State.step] at h
    split_ifs at h
    obtain ⟨t, ht, rfl⟩ := Option.map_eq_some_iff.mp h
    cases hheld : s.stream.leaseHeld e.sequence with
    | true =>
      cases hheld' : t.leaseHeld e.sequence with
      | true =>
        simp only [Stream.State.leaseHeld, Bool.and_eq_true] at hheld'
        exact .inr (cancel_of_cleared ho hstop ht he hheld'.2)
      | false =>
        have hmem := mem_dropped hq hl hheld hheld'
        exact .inl ⟨some .stop, List.mem_append_right _ (List.mem_map_of_mem hmem)⟩
    | false =>
      obtain ⟨p, hp, rfl⟩ := List.mem_map.mp ((hi.gone _ hq l hl hheld).resolve_right hnot)
      exact .inl ⟨p.1, List.mem_append_left _ hp⟩

namespace Label

/-- A request under id 7 with the first lease. -/
def submitFirst : List (Label Unit) := [.tryAcquire, .submit ⟨7, 0, (), 100, 1⟩ 0 (some 0)]

def cancels (n : ℕ) : List (Label Unit) :=
  .stream (.cancelBegin 7) :: .replicate n (.stream (.cancel 0))

end Label

/-- A cancelled request has given back its slot. -/
theorem admission_accounting_cancelled :
    ∃ s, (system (Stream.sampleOptions .strict) 1).Reachable s ∧ s.carried 0 = some 0 ∧
      s.slots.inFlight = 0 ∧ s.outstanding = [] ∧ s.released = [0] := by
  obtain ⟨s, hr, ht⟩ := (system (Stream.sampleOptions .strict) 1).exists_reachable_of_run rfl
    (Label.submitFirst ++ Label.cancels 4 ++ [Label.release 0])
    (fun s => s.carried 0 = some 0 ∧ s.released = [0] ∧ s.leases = 1) (by decide +kernel)
  simp only [decide_eq_true_eq] at ht
  obtain ⟨hc, hrel, hl⟩ := ht
  obtain ⟨⟨hcount, -⟩, hperm, -⟩ := admission_accounting _ _ s hr
  have hlen := hperm.length_eq
  rw [hrel, hl, List.length_append, List.length_range, List.length_singleton] at hlen
  have hnone : s.outstanding = [] := List.length_eq_zero_iff.mp (by omega)
  exact ⟨s, hr, hc, by rw [hcount, hnone]; rfl, hnone, hrel⟩

/-- A lease is still out while its request is terminal, between the swap and the take of a
`cancel` call, and after `request_stop` discarded the envelope while a `cancel` call holds the
terminal state. -/
theorem admission_accounting_late :
    (∃ s, (system (Stream.sampleOptions .strict) 1).Reachable s ∧ s.carried 0 = some 0 ∧
      (s.stream.terminals 0).terminal = true ∧ s.released = [] ∧ s.slots.inFlight = 1) ∧
    ∃ s, (system (Stream.sampleOptions .strict) 1).Reachable s ∧ s.carried 0 = some 0 ∧
      s.stream.closed = true ∧ s.stream.input = [] ∧ s.released = [] ∧ s.pending = [] ∧
      s.slots.inFlight = 1 := by
  constructor
  · obtain ⟨s, hr, ht⟩ := (system (Stream.sampleOptions .strict) 1).exists_reachable_of_run rfl
      (Label.submitFirst ++ Label.cancels 3)
      (fun s => s.carried 0 = some 0 ∧ (s.stream.terminals 0).terminal = true ∧
        s.released = [] ∧ s.slots.inFlight = 1) (by decide +kernel)
    exact ⟨s, hr, by simpa using ht⟩
  · obtain ⟨s, hr, ht⟩ := (system (Stream.sampleOptions .strict) 1).exists_reachable_of_run rfl
      (Label.submitFirst ++ Label.cancels 1 ++
        [Label.stream .requestStop, .stream (.stop [])])
      (fun s => s.carried 0 = some 0 ∧ s.stream.closed = true ∧ s.stream.input = [] ∧
        s.released = [] ∧ s.pending = [] ∧ s.slots.inFlight = 1) (by decide +kernel)
    exact ⟨s, hr, by simpa using ht⟩

end Muxiva.Admission
