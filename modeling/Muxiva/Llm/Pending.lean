import Mathlib.Algebra.BigOperators.Group.Finset.Basic
import Muxiva.Llm.Generations

/-! The counter of pending results and the tick. A result is counted before it is sent and
subtracted after it is taken, so a counter of zero after the worker has finished leaves nothing of
its results in the channel. -/
set_option linter.all false
namespace Muxiva.Llm

open LlmOpenAiCompatible Transition.System

variable {c : Config} {s s' : LlmOpenAiCompatible}

theorem Worker.Same.counted {w w' : Worker} (h : Worker.Same w w') : w'.counted = w.counted := by
  unfold Worker.counted
  rw [h.place]

/-- The results counted and not yet sent. -/
def LlmOpenAiCompatible.unsent (s : LlmOpenAiCompatible) : ℕ :=
  ∑ i ∈ Finset.range s.spawned, (s.workers i).counted.toNat

theorem unsent_congr (hspawned : s'.spawned = s.spawned)
    (hworkers : ∀ i, (s'.workers i).counted = (s.workers i).counted) : s'.unsent = s.unsent := by
  unfold unsent
  rw [hspawned]
  exact Finset.sum_congr rfl fun i _ => by rw [hworkers]

/-- One worker's part of the sum. -/
theorem unsent_update (s' : LlmOpenAiCompatible) {i : ℕ} (hi : i < s.spawned) {counted : Bool}
    (hspawned : s'.spawned = s.spawned)
    (hworkers : ∀ j, (s'.workers j).counted = if j = i then counted else (s.workers j).counted) :
    s'.unsent + (s.workers i).counted.toNat = s.unsent + counted.toNat := by
  have hmem : i ∈ Finset.range s.spawned := Finset.mem_range.mpr hi
  have hrest : ∑ j ∈ (Finset.range s.spawned).erase i, (s'.workers j).counted.toNat =
      ∑ j ∈ (Finset.range s.spawned).erase i, (s.workers j).counted.toNat := by
    apply Finset.sum_congr rfl
    intro j hj
    rw [hworkers, if_neg (Finset.ne_of_mem_erase hj)]
  have hself : (s'.workers i).counted = counted := by
    rw [hworkers, if_pos rfl]
  have hnew : s'.unsent = counted.toNat +
      ∑ j ∈ (Finset.range s.spawned).erase i, (s.workers j).counted.toNat := by
    unfold unsent
    rw [hspawned, ← hrest, ← hself]
    exact (Finset.add_sum_erase _ _ hmem).symm
  have hold : s.unsent = (s.workers i).counted.toNat +
      ∑ j ∈ (Finset.range s.spawned).erase i, (s.workers j).counted.toNat :=
    (Finset.add_sum_erase _ _ hmem).symm
  omega

theorem counted_setWorker (i j : ℕ) (w : Worker) :
    ((s.setWorker i w).workers j).counted = if j = i then w.counted else (s.workers j).counted := by
  rw [workers_setWorker]
  split_ifs <;> rfl

theorem unsent_spawn (user : Text) (sequence : ℕ) :
    (s.spawn c user sequence).unsent = s.unsent := by
  have hnew : ((s.spawn c user sequence).workers s.spawned).counted = false := by
    simp [LlmOpenAiCompatible.spawn, Worker.counted]
  have hold : ∑ i ∈ Finset.range s.spawned, ((s.spawn c user sequence).workers i).counted.toNat =
      ∑ i ∈ Finset.range s.spawned, (s.workers i).counted.toNat := by
    apply Finset.sum_congr rfl
    intro i hi
    have hne : i ≠ s.spawned := by
      have := Finset.mem_range.mp hi
      omega
    simp [LlmOpenAiCompatible.spawn, hne]
  have hsum : (s.spawn c user sequence).unsent =
      ∑ i ∈ Finset.range (s.spawned + 1), ((s.spawn c user sequence).workers i).counted.toNat := rfl
  rw [hsum, Finset.sum_range_succ, hnew, hold]
  rfl

/-- The counter counts what is in the channel, what a worker is about to send, and what the node has
taken and not yet subtracted. -/
def Accounted (s : LlmOpenAiCompatible) : Prop :=
  s.pending = (s.results.length + s.unsent + s.phase.inHand.length : ℕ)

theorem Goes.inHand {phase : Phase} {scheduled : Bool} (h : Goes s phase scheduled) :
    s.phase.inHand = [] ∧ phase.inHand = [] := by
  cases h with
  | @emptied after hs =>
    rw [hs]
    cases after <;> exact ⟨rfl, rfl⟩
  | refuses hs => exact ⟨inHand_rest hs, rfl⟩
  | ignores hs => exact ⟨inHand_rest hs, rfl⟩
  | ticks hs => exact ⟨inHand_rest hs, rfl⟩
  | drained hs =>
    rw [hs]
    exact ⟨rfl, rfl⟩
  | running hs =>
    rw [hs]
    exact ⟨rfl, rfl⟩
  | stopped hs =>
    rw [hs]
    exact ⟨rfl, rfl⟩
  | checked hs =>
    rw [hs]
    exact ⟨rfl, rfl⟩

theorem counted_of_sends {w : Worker} {result : LlmResult} (h : w.place = .sends result) :
    w.counted = true := by
  unfold Worker.counted
  rw [h]

theorem counted_of_ne {w : Worker} (h : ∀ result, w.place ≠ .sends result) : w.counted = false := by
  unfold Worker.counted
  split
  · rename_i result hresult
    exact absurd hresult (h result)
  · rfl

/-- A result taken out of the channel into the node's hand. -/
theorem Accounted.takes {result : LlmResult} {results : List LlmResult} {phase : Phase}
    (h : Accounted s) (hresults : s.results = result :: results) (hs : s.phase.inHand = [])
    (hphase : phase.inHand = [result]) : Accounted { s with results, phase } := by
  have hunsent : LlmOpenAiCompatible.unsent { s with results, phase } = s.unsent :=
    unsent_congr rfl fun _ => rfl
  unfold Accounted at h ⊢
  rw [hs, hresults] at h
  rw [hunsent, hphase]
  simp only [List.length_cons, List.length_nil] at h ⊢
  omega

/-- The result in the node's hand subtracted. -/
theorem Accounted.subtracts {result : LlmResult} {handled : List LlmResult}
    {history : List (Text × Text)} {log : List Entry} {phase : Phase} (h : Accounted s)
    (hs : s.phase.inHand = [result]) (hphase : phase.inHand = []) :
    Accounted { s with pending := s.pending - 1, handled, history, log, phase } := by
  have hunsent : LlmOpenAiCompatible.unsent
      { s with pending := s.pending - 1, handled, history, log, phase } = s.unsent :=
    unsent_congr rfl fun _ => rfl
  unfold Accounted at h ⊢
  rw [hs] at h
  rw [hunsent, hphase]
  simp only [List.length_cons, List.length_nil] at h ⊢
  omega

theorem Move.accounted (h : Move c s s') (hs : Accounted s) : Accounted s' := by
  cases h with
  | @goes phase scheduled h =>
    have hunsent : LlmOpenAiCompatible.unsent { s with phase, scheduled } = s.unsent :=
      unsent_congr rfl fun _ => rfl
    unfold Accounted at hs ⊢
    rw [h.inHand.1] at hs
    rw [hunsent, h.inHand.2]
    exact hs
  | @cancels after scheduled hphase =>
    have hunsent : ({ s with scheduled }.cancelCurrent after).unsent = s.unsent := by
      refine unsent_congr rfl fun i => ?_
      have hsame := storeCancel_same (s := { s with scheduled }) i
      exact hsame.counted
    unfold Accounted at hs ⊢
    rw [hphase] at hs
    rw [hunsent]
    exact hs
  | takesStale hphase hresults =>
    exact hs.takes hresults (by rw [hphase]; rfl) rfl
  | discards hphase => exact hs.subtracts (by rw [hphase]; rfl) rfl
  | spawns hphase =>
    unfold Accounted at hs ⊢
    rw [hphase] at hs
    rw [unsent_spawn]
    exact hs
  | takes hphase hresults => exact hs.takes hresults (by rw [hphase]; rfl) rfl
  | drops hphase hnext =>
    apply hs.subtracts (by rw [hphase]; rfl)
    rcases hnext with ⟨rfl, _⟩ | ⟨rfl, _⟩ | ⟨error, rfl⟩ <;> rfl
  | emits hphase _ _ hnext =>
    apply hs.subtracts (by rw [hphase]; rfl)
    rcases hnext with rfl | rfl <;> rfl
  | @walks i place hi hfrom hplace _ _ =>
    have hset := unsent_update (s.setWorker i { s.workers i with place }) hi rfl
      fun j => counted_setWorker i j _
    rw [hfrom, counted_of_ne hplace] at hset
    have hunsent : (s.setWorker i { s.workers i with place }).unsent = s.unsent := by omega
    unfold Accounted at hs ⊢
    rw [hunsent]
    exact hs
  | @counts i result answer hi hfrom _ _ =>
    have hset := unsent_update (s.count i { s.workers i with answer } result) hi rfl
      fun j => counted_setWorker i j _
    rw [hfrom, counted_of_sends rfl] at hset
    have hunsent : (s.count i { s.workers i with answer } result).unsent = s.unsent + 1 := hset
    unfold Accounted at hs ⊢
    rw [hunsent]
    show s.pending + 1 = ((s.results.length + (s.unsent + 1) + s.phase.inHand.length : ℕ) : ℤ)
    omega
  | @sends i result hi hfrom =>
    have hset := unsent_update (s.send c i (s.workers i) result) hi rfl
      fun j => counted_setWorker i j _
    rw [counted_of_sends hfrom, counted_of_ne (afterSend_ne result)] at hset
    have hunsent : (s.send c i (s.workers i) result).unsent + 1 = s.unsent := hset
    unfold Accounted at hs ⊢
    show s.pending = (((s.results ++ [result]).length +
      (s.send c i (s.workers i) result).unsent + s.phase.inHand.length : ℕ) : ℤ)
    rw [List.length_append, List.length_singleton]
    omega

theorem reachable_accounted (hr : (llmSystem c).Reachable s) : Accounted s := by
  refine hr.invariant (I := Accounted) ?_ ?_
  · rintro _ rfl
    rfl
  · intro s a s' _ hi hstep
    exact (step_moves hstep).accounted hi

/-- Nothing comes from the node's worker any more, and nothing of it is left. -/
def Silent (s : LlmOpenAiCompatible) : Prop :=
  ∀ i, s.worker = some i → (s.workers i).place = .finished ∧
    ∀ result ∈ s.results, result.generation ≠ s.generation

/-- What the two checks of `has_pending_work` have found so far. -/
structure Checked (s : LlmOpenAiCompatible) : Prop where
  worker : s.phase = .checksPending → ∀ i, s.worker = some i → (s.workers i).place = .finished
  rest : s.phase = .rest → s.scheduled ∨ Silent s

/-- A worker that does not belong to the current generation, or has not finished, moves. -/
theorem Checked.setWorker {results : List LlmResult} {pending : ℤ} {i : ℕ} {w : Worker}
    (h : Checked s) (hrun : (s.workers i).place ≠ .finished)
    (hresults : s.worker ≠ some i →
      ∀ result ∈ results, result ∉ s.results → result.generation ≠ s.generation) :
    Checked ({ s with results, pending }.setWorker i w) := by
  constructor
  · intro hphase j hj
    have hfinished := h.worker hphase j hj
    rw [workers_setWorker, if_neg]
    · exact hfinished
    · rintro rfl
      exact hrun hfinished
  · intro hphase
    apply (h.rest hphase).imp_right
    intro hsilent j hj
    obtain ⟨hfinished, hgone⟩ := hsilent j hj
    have hne : j ≠ i := by
      rintro rfl
      exact hrun hfinished
    refine ⟨?_, ?_⟩
    · rw [workers_setWorker, if_neg hne]
      exact hfinished
    · intro result hmem
      by_cases hold : result ∈ s.results
      · exact hgone result hold
      · apply hresults _ result hmem hold
        intro hi
        have hj' : s.worker = some j := hj
        rw [hi] at hj'
        exact hne (Option.some.inj hj').symm

theorem Move.checked (h : Move c s s') (hs : Checked s) (hg : Generations s) (hp : Accounted s)
    (hscript : ∀ i, Worker.Script (s.workers i)) : Checked s' := by
  have elsewhere : ∀ {t : LlmOpenAiCompatible}, t.phase ≠ .checksPending → t.phase ≠ .rest →
      Checked t := fun h h' => ⟨fun ht => absurd ht h, fun ht => absurd ht h'⟩
  cases h with
  | @goes phase scheduled h =>
    cases h with
    | refuses => exact elsewhere (by simp) (by simp)
    | ignores => exact elsewhere (by simp) (by simp)
    | ticks => exact elsewhere (by simp) (by simp)
    | @emptied after hphase =>
      have hnone : s.worker = none := hg.cancelling (by rw [hphase]; trivial)
      constructor
      · intro _ i hi
        rw [hnone] at hi
        cases hi
      · intro _
        right
        intro i hi
        rw [hnone] at hi
        cases hi
    | drained => exact elsewhere (by simp) (by simp)
    | running =>
      refine ⟨?_, fun _ => .inl rfl⟩
      intro hphase
      cases hphase
    | stopped hphase hw =>
      constructor
      · intro _ i hi
        have hi' : s.worker = some i := hi
        simpa [workerRuns, hi'] using hw
      · intro hphase
        cases hphase
    | checked hphase =>
      constructor
      · intro hphase
        cases hphase
      intro _
      by_cases hpending : 0 < s.pending
      · left
        simp [hpending]
      · right
        have hempty : s.results = [] := by
          unfold Accounted at hp
          apply List.eq_nil_of_length_eq_zero
          omega
        intro i hi
        refine ⟨hs.worker hphase i hi, ?_⟩
        intro result hmem
        simp [hempty] at hmem
  | cancels => exact elsewhere (by simp [cancelCurrent]) (by simp [cancelCurrent])
  | takesStale => exact elsewhere (by simp) (by simp)
  | discards => exact elsewhere (by simp) (by simp)
  | spawns =>
    exact elsewhere (by simp [LlmOpenAiCompatible.spawn]) (by simp [LlmOpenAiCompatible.spawn])
  | takes => exact elsewhere (by simp) (by simp)
  | drops _ hnext =>
    rcases hnext with ⟨rfl, _⟩ | ⟨rfl, _⟩ | ⟨error, rfl⟩ <;>
      exact elsewhere (by simp) (by simp)
  | emits _ _ _ hnext =>
    rcases hnext with rfl | rfl <;> exact elsewhere (by simp) (by simp)
  | @walks i place _ _ _ hrun _ =>
    exact hs.setWorker hrun fun _ result hmem hnew => absurd hmem hnew
  | @counts i result answer hi _ hrun _ =>
    apply hs.setWorker
    · intro hfinished
      rw [hfinished] at hrun
      exact hrun trivial
    · exact fun _ result hmem hnew => absurd hmem hnew
  | @sends i result hi hfrom =>
    apply hs.setWorker
    · rw [hfrom]
      simp
    · intro hother result' hmem hnew heq
      rcases List.mem_append.mp hmem with hmem | hmem
      · exact hnew hmem
      · rw [List.mem_singleton.mp hmem, (hscript i).next result hfrom] at heq
        exact hother (hg.own i hi heq)

theorem reachable_checked (hr : (llmSystem c).ReachableBy (Within c) s) : Checked s := by
  refine hr.invariant (I := Checked) ?_ ?_
  · rintro _ rfl
    constructor
    · intro h
      cases h
    · intro _
      right
      intro i hi
      cases hi
  · intro s a s' hr hi _ hstep
    exact (step_moves hstep).checked hi (reachable_generations hr)
      (reachable_accounted hr.reachable) (reachable_script hr)

end Muxiva.Llm
