import Muxiva.Agora.Drain

/-! `leave` over whole runs, and the numbers of the frames. -/
set_option linter.all false
namespace Muxiva.Agora

open Transition Transition.System

/-- The number and the frame of a callback that is about to submit. -/
def Pc.number : Pc → Option (ℕ × Callback)
  | .numbered c current => some (current, c)
  | _ => none

namespace Adapter

/-- How many frames have the number `n`. -/
def uses (s : Adapter) (n : ℕ) : ℕ :=
  s.submitted.countP (fun p => p.1 == n) + s.threads.countP (fun pc => pc.number.any (·.1 == n))

structure Numbered (maxPacketBytes : UInt64) (s : Adapter) : Prop where
  once : ∀ n, s.uses n = if 0 < n ∧ n ≤ s.sequence then 1 else 0
  checked : ∀ p ∈ s.submitted, p.2.valid maxPacketBytes = true
  waiting : ∀ pc ∈ s.threads, ∀ p, pc.number = some p → p.2.valid maxPacketBytes = true

/-- What became of the frames so far. -/
def outcome (s : Adapter) : ℕ × ℕ × ℕ × ℕ × ℕ × List (ℕ × Callback) :=
  (s.accepted, s.full, s.closed, s.sequence, s.lastSequence, s.submitted)

variable {maxPacketBytes : UInt64} {s t : Adapter} {i : ℕ} {pc pc' : Pc}

theorem stepLifecycle_frame {ok : Bool} (hs : s.stepLifecycle i ok pc = some t) :
    ∃ pc', t.threads = (s.moveTo i pc').threads ∧ pc.number = none ∧ pc'.number = none ∧
      t.outcome = s.outcome := by
  cases pc <;> simp only [Adapter.stepLifecycle] at hs
  case wantsConnect | wantsLeave =>
    split at hs
    next =>
      cases hs
      exact ⟨_, rfl, rfl, rfl, rfl⟩
    next => cases hs
  case checks | initializes | joins | exchanges =>
    cases hs
    refine ⟨_, rfl, rfl, ?_, rfl⟩
    split <;> rfl
  case drains =>
    split at hs
    next =>
      cases hs
      exact ⟨_, rfl, rfl, rfl, rfl⟩
    next =>
      split at hs
      next => cases hs
      next =>
        cases hs
        exact ⟨_, rfl, rfl, rfl, rfl⟩
  all_goals
    cases hs
    try exact ⟨_, rfl, rfl, rfl, rfl⟩

/-- What a step of a callback does to the numbers. -/
theorem stepCallback_numbers {ok : Bool} {status : SubmitStatus}
    (hs : s.stepCallback maxPacketBytes i ok status pc = some t) :
    (∃ c, pc = .admitted c ∧ c.valid maxPacketBytes = true ∧
      t = { s.moveTo i (.numbered c (s.sequence + 1)) with sequence := s.sequence + 1 }) ∨
    (∃ c current, pc = .numbered c current ∧
      t = { s.moveTo i (.accounts status current) with
        submitted := s.submitted ++ [(current, c)] }) ∨
    ∃ pc', t.threads = (s.moveTo i pc').threads ∧ pc.number = none ∧ pc'.number = none ∧
      t.sequence = s.sequence ∧ t.submitted = s.submitted := by
  cases pc <;> simp only [Adapter.stepCallback] at hs
  case admitted c =>
    split at hs
    next hvalid =>
      cases hs
      exact .inl ⟨c, rfl, hvalid.1, rfl⟩
    next =>
      cases hs
      exact .inr (.inr ⟨_, rfl, rfl, rfl, rfl, rfl⟩)
  case numbered c current =>
    cases hs
    exact .inr (.inl ⟨c, current, rfl, rfl⟩)
  case builds =>
    split at hs <;> cases hs <;> exact .inr (.inr ⟨_, rfl, rfl, rfl, rfl, rfl⟩)
  case looks c =>
    cases hs
    refine .inr (.inr ⟨_, rfl, rfl, ?_, rfl, rfl⟩)
    split <;> rfl
  case accounts answer current =>
    cases hs
    refine .inr (.inr ⟨.stores current, ?_, rfl, rfl, ?_, ?_⟩) <;> cases answer <;> rfl
  all_goals
    cases hs
    try exact .inr (.inr ⟨_, rfl, rfl, rfl, rfl, rfl⟩)

/-- A callback that is not past the gate changes no outcome. -/
theorem stepCallback_outside {ok : Bool} {status : SubmitStatus} (houtside : pc.inside = false)
    (hs : s.stepCallback maxPacketBytes i ok status pc = some t) : t.outcome = s.outcome := by
  cases pc <;> simp only [Adapter.stepCallback] at hs
  case builds => split at hs <;> cases hs <;> rfl
  case admitted | numbered | accounts | stores => cases houtside
  all_goals
    cases hs
    try rfl

theorem numbered_new : new.Numbered maxPacketBytes := by
  constructor
  · intro n
    rw [if_neg (by simp only [new]; omega)]
    rfl
  · intro p hp
    cases hp
  · intro pc hpc
    cases hpc

/-- A thread moves that neither takes nor submits a number. -/
theorem Numbered.moves (h : s.Numbered maxPacketBytes) (hpc : s.threads[i]? = some pc)
    (hthreads : t.threads = (s.moveTo i pc').threads) (hold : pc.number = none)
    (hnew : pc'.number = none) (hsequence : t.sequence = s.sequence)
    (hsubmitted : t.submitted = s.submitted) : t.Numbered maxPacketBytes := by
  refine ⟨?_, ?_, ?_⟩
  · intro n
    have hcount := countP_moveTo (fun pc => pc.number.any (·.1 == n)) hpc pc'
    have honce := h.once n
    simp only [hold, hnew, Option.any_none, Bool.toNat_false, Nat.add_zero] at hcount
    rw [uses, hthreads, hcount, hsubmitted, hsequence]
    exact honce
  · rw [hsubmitted]
    exact h.checked
  · intro q hq p hp
    rw [hthreads] at hq
    rcases List.mem_or_eq_of_mem_set hq with hq | rfl
    · exact h.waiting q hq p hp
    · rw [hnew] at hp
      cases hp

theorem Numbered.starts (h : s.Numbered maxPacketBytes) (call : Call) :
    ({ s with threads := s.threads ++ [call.entry] } : Adapter).Numbered maxPacketBytes := by
  have hentry : call.entry.number = none := by
    rcases call with (_ | _ | _) | _ | _ <;> rfl
  refine ⟨?_, h.checked, ?_⟩
  · intro n
    simp only [uses, List.countP_append, List.countP_singleton, hentry, Option.any_none,
      Bool.false_eq_true, if_false, Nat.add_zero]
    exact h.once n
  · intro q hq p hp
    rw [List.mem_append, List.mem_singleton] at hq
    rcases hq with hq | rfl
    · exact h.waiting q hq p hp
    · rw [hentry] at hp
      cases hp

/-- The next number is new. -/
theorem Numbered.takes (h : s.Numbered maxPacketBytes) {c : Callback}
    (hpc : s.threads[i]? = some (.admitted c)) (hvalid : c.valid maxPacketBytes = true) :
    ({ s.moveTo i (.numbered c (s.sequence + 1)) with sequence := s.sequence + 1 } :
      Adapter).Numbered maxPacketBytes := by
  refine ⟨?_, h.checked, ?_⟩
  · intro n
    have hcount := countP_moveTo (fun pc => pc.number.any (·.1 == n)) hpc
      (.numbered c (s.sequence + 1))
    have honce := h.once n
    have hold : (Pc.admitted c).number = none := rfl
    have hnew : (Pc.numbered c (s.sequence + 1)).number = some (s.sequence + 1, c) := rfl
    simp only [hold, hnew, Option.any_none, Option.any_some, Bool.toNat_false] at hcount
    simp only [uses] at honce ⊢
    change s.submitted.countP _ + (s.moveTo i _).threads.countP _ = _
    by_cases hn : s.sequence + 1 = n
    · simp only [hn, beq_self_eq_true, Bool.toNat_true] at hcount ⊢
      rw [if_neg (by omega)] at honce
      rw [if_pos (by omega)]
      omega
    · simp only [beq_eq_false_iff_ne.mpr hn, Bool.toNat_false] at hcount
      split at honce <;> split <;> omega
  · intro q hq p hp
    rcases List.mem_or_eq_of_mem_set hq with hq | rfl
    · exact h.waiting q hq p hp
    · cases hp
      exact hvalid

theorem Numbered.submits (h : s.Numbered maxPacketBytes) {c : Callback} {current : ℕ}
    (hpc : s.threads[i]? = some (.numbered c current)) (status : SubmitStatus) :
    ({ s.moveTo i (.accounts status current) with submitted := s.submitted ++ [(current, c)] } :
      Adapter).Numbered maxPacketBytes := by
  refine ⟨?_, ?_, ?_⟩
  · intro n
    have hcount := countP_moveTo (fun pc => pc.number.any (·.1 == n)) hpc (.accounts status current)
    have honce := h.once n
    have hold : (Pc.numbered c current).number = some (current, c) := rfl
    have hnew : (Pc.accounts status current).number = none := rfl
    simp only [hold, hnew, Option.any_none, Option.any_some, Bool.toNat_false] at hcount
    simp only [uses, List.countP_append, List.countP_singleton] at honce ⊢
    change _ + _ + (s.moveTo i _).threads.countP _ = if 0 < n ∧ n ≤ s.sequence then 1 else 0
    cases hn : current == n <;>
      simp only [hn, Bool.toNat_true, Bool.toNat_false, Bool.false_eq_true, if_true,
        if_false] at hcount ⊢ <;> omega
  · intro p hp
    rw [List.mem_append, List.mem_singleton] at hp
    rcases hp with hp | rfl
    · exact h.checked p hp
    · exact h.waiting _ (List.mem_of_getElem? hpc) _ rfl
  · intro q hq p hp
    rcases List.mem_or_eq_of_mem_set hq with hq | rfl
    · exact h.waiting q hq p hp
    · cases hp

theorem Numbered.step (h : s.Numbered maxPacketBytes) {a : AdapterAction}
    (hs : s.step maxPacketBytes a = some t) : t.Numbered maxPacketBytes := by
  rcases step_cases hs with ⟨call, rfl⟩ | ⟨i, pc, ok, status, hpc, hs | hs⟩
  · exact h.starts call
  · rcases stepCallback_numbers hs with ⟨c, rfl, hvalid, rfl⟩ | ⟨c, current, rfl, rfl⟩ |
      ⟨pc', hthreads, hold, hnew, hsequence, hsubmitted⟩
    · exact h.takes hpc hvalid
    · exact h.submits hpc status
    · exact h.moves hpc hthreads hold hnew hsequence hsubmitted
  · obtain ⟨pc', hthreads, hold, hnew, houtcome⟩ := stepLifecycle_frame hs
    simp only [outcome, Prod.mk.injEq] at houtcome
    obtain ⟨-, -, -, hsequence, -, hsubmitted⟩ := houtcome
    exact h.moves hpc hthreads hold hnew hsequence hsubmitted

theorem numbered_of_reachable (hr : (adapterSystem maxPacketBytes).Reachable s) :
    s.Numbered maxPacketBytes :=
  hr.invariant (fun s h0 => by rw [h0]; exact numbered_new) fun _ _ _ _ h hs => h.step hs

/-- A call of `leave` that has returned stays. -/
theorem left_stays {b : Bool} {a : AdapterAction} (hs : s.step maxPacketBytes a = some t)
    (hleft : .left b ∈ s.threads) : .left b ∈ t.threads := by
  obtain ⟨j, hj⟩ := List.mem_iff_getElem?.mp hleft
  rcases step_cases hs with ⟨call, rfl⟩ | ⟨i, pc, ok, status, hpc, hs⟩
  · exact List.mem_append_left _ hleft
  · have hji : j ≠ i := by
      rintro rfl
      rw [hj] at hpc
      cases hpc
      rcases hs with hs | hs <;> cases hs
    have hthreads : ∃ pc', t.threads = (s.moveTo i pc').threads := by
      rcases hs with hs | hs
      · rcases stepCallback_numbers hs with ⟨c, -, -, rfl⟩ | ⟨c, current, -, rfl⟩ | ⟨pc', h, -⟩
        · exact ⟨_, rfl⟩
        · exact ⟨_, rfl⟩
        · exact ⟨pc', h⟩
      · obtain ⟨pc', h, -⟩ := stepLifecycle_frame hs
        exact ⟨pc', h⟩
    obtain ⟨pc', hthreads⟩ := hthreads
    apply List.mem_of_getElem? (i := j)
    rw [hthreads, getElem?_moveTo_of_ne hji]
    exact hj

/-- While no callback is past the gate no step changes an outcome. -/
theorem outcome_step (hidle : ∀ pc ∈ s.threads, pc.inside = false) {a : AdapterAction}
    (hs : s.step maxPacketBytes a = some t) : t.outcome = s.outcome := by
  rcases step_cases hs with ⟨call, rfl⟩ | ⟨i, pc, ok, status, hpc, hs | hs⟩
  · rfl
  · exact stepCallback_outside (hidle pc (List.mem_of_getElem? hpc)) hs
  · obtain ⟨-, -, -, -, houtcome⟩ := stepLifecycle_frame hs
    exact houtcome

end Adapter

open Adapter

/-- In every run, whatever the threads do: the callbacks in flight and those counted are the ones
there are, the frames submitted passed their checks and no two have one number, and the SDK and the
ingress are shut down at most once. When a call of `leave` has returned the gate stays shut, and
when it reported the callbacks drained nothing is submitted or accounted any more. -/
theorem leave_drained {maxPacketBytes : UInt64} {s : Adapter}
    (hr : (adapterSystem maxPacketBytes).Reachable s) :
    s.inFlight = s.threads.countP Pc.flying ∧
    s.counted + s.threads.countP Pc.uncounted = s.threads.countP Pc.isCallback ∧
    (s.submitted.map Prod.fst).Nodup ∧
    (∀ p ∈ s.submitted, 0 < p.1 ∧ p.1 ≤ s.sequence ∧ p.2.valid maxPacketBytes = true) ∧
    (s.lifecycle = none →
      s.shutdowns = s.closedOnce.toNat ∧ s.ingressCloses = s.closedOnce.toNat) ∧
    ∀ drained, .left drained ∈ s.threads → ∀ t, (adapterSystem maxPacketBytes).Steps s t →
      t.closedOnce = true ∧ t.accepting = false ∧ t.shutdowns = 1 ∧ t.ingressCloses = 1 ∧
        (drained = true → (∀ pc ∈ t.threads, pc.inside = false) ∧ t.outcome = s.outcome) := by
  have hsound := sound_of_reachable hr
  have hnumbered := numbered_of_reachable hr
  refine ⟨hsound.flights, hsound.tally, ?_, ?_, ?_, ?_⟩
  · rw [List.nodup_iff_count]
    intro n
    have honce := hnumbered.once n
    rw [List.count_eq_countP, List.countP_map]
    simp only [uses] at honce
    change s.submitted.countP (fun p => p.1 == n) ≤ 1
    split at honce <;> omega
  · intro p hp
    have honce := hnumbered.once p.1
    have hpos : 0 < s.submitted.countP (fun q => q.1 == p.1) :=
      List.countP_pos_iff.mpr ⟨p, hp, beq_self_eq_true p.1⟩
    simp only [uses] at honce
    split at honce
    next hbounds => exact ⟨hbounds.1, hbounds.2, hnumbered.checked p hp⟩
    next => omega
  · intro hfree
    have hrest := hsound.rest hfree
    cases hclosed : s.closedOnce with
    | false => exact hrest.fresh hclosed
    | true => exact (hrest.settled hclosed).2
  · intro drained hleft t hsteps
    obtain ⟨hrt, hleft, houtcome⟩ := hsteps.invariant
      (I := fun u => .left drained ∈ u.threads ∧ (drained = true → u.outcome = s.outcome))
      (by
        intro u a u' hru hu hs
        refine ⟨left_stays hs hu.1, ?_⟩
        rintro rfl
        exact (outcome_step ((sound_of_reachable hru).drained hu.1) hs).trans (hu.2 rfl))
      hr ⟨hleft, fun _ => rfl⟩
    have hsound := sound_of_reachable hrt
    obtain ⟨hclosed, hgate, hshutdown, hingress⟩ := hsound.shut _ hleft rfl
    refine ⟨hclosed, hgate, hshutdown, hingress, ?_⟩
    rintro rfl
    exact ⟨hsound.drained hleft, houtcome rfl⟩

/-- One control callback is past the gate when `leave` shuts it; a second comes too late, and
`leave` waits for the first. -/
def sampleRun : List AdapterAction :=
  List.flatten [[.start .connect], List.replicate 6 (.step 0 true .ok),
    [.start (.callback .control), .start .leave, .start (.callback .control)],
    List.replicate 3 (.step 1 true .ok), List.replicate 6 (.step 2 true .ok),
    List.replicate 4 (.step 3 true .ok), [.step 1 true .ok, .step 1 true .closed],
    List.replicate 3 (.step 1 true .ok), [.step 3 true .ok, .step 2 true .ok]]

theorem leave_drained_sample : ∃ s, (adapterSystem 1024).Reachable s ∧
    s.outcome = (0, 0, 1, 1, 1, [(1, .control)]) ∧ s.late = 1 ∧
      ∀ t, (adapterSystem 1024).Steps s t → t.accepting = false ∧ t.outcome = s.outcome := by
  obtain ⟨s, hr, hs⟩ := exists_reachable_of_run (M := adapterSystem 1024) (s := .new) rfl sampleRun
    (fun s => s.threads[2]? == some (Pc.left true) && s.late == 1 &&
      s.outcome == (0, 0, 1, 1, 1, [(1, .control)])) (by decide +kernel)
  simp only [Bool.and_eq_true, beq_iff_eq] at hs
  obtain ⟨⟨hleft, hlate⟩, houtcome⟩ := hs
  refine ⟨s, hr, houtcome, hlate, ?_⟩
  intro t hsteps
  obtain ⟨-, hgate, -, -, hdrained⟩ :=
    (leave_drained hr).2.2.2.2.2 true (List.mem_of_getElem? hleft) t hsteps
  exact ⟨hgate, (hdrained rfl).2⟩

end Muxiva.Agora
