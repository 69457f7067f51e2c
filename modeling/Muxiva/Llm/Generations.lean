import Mathlib.Data.UInt
import Muxiva.Lib.History
import Muxiva.Llm.Moves

/-! The generations. Fewer than 2^64 calls of `cancel_current` give every worker one of its own, the
newest at most the node's, and the node's own while its worker is not cancelled. -/
set_option linter.all false
namespace Muxiva.Llm

open LlmOpenAiCompatible Transition.System

/-- The generation of the latest text accepted that nothing later cancelled. -/
def latestAccepted (log : List Entry) : Option UInt64 :=
  log.foldl (fun latest entry =>
    match entry with
    | .accepted generation => some generation
    | .cancelled => none
    | .emitted _ => latest) none

@[simp] theorem latestAccepted_accepted (log : List Entry) (generation : UInt64) :
    latestAccepted (log ++ [Entry.accepted generation]) = some generation := by
  simp [latestAccepted]

@[simp] theorem latestAccepted_emitted (log : List Entry) (emission : Emission) :
    latestAccepted (log ++ [Entry.emitted emission]) = latestAccepted log := by
  simp [latestAccepted]

/-- Fewer than 2^64 generations. -/
def Bounded (s : LlmOpenAiCompatible) : Prop := s.cancellations < 2 ^ 64

/-- Every step leaves fewer than 2^64 generations. -/
abbrev Within (c : Config) (s : LlmOpenAiCompatible) (a : Action) : Prop :=
  ∀ s', (llmSystem c).step s a = some s' → Bounded s'

variable {c : Config} {s s' : LlmOpenAiCompatible}

theorem Move.cancellations_le (h : Move c s s') : s.cancellations ≤ s'.cancellations := by
  cases h with
  | cancels => exact Nat.le_succ _
  | _ => exact Nat.le_refl _

theorem reachable_within (hr : (llmSystem c).Reachable s) (hs : Bounded s) :
    (llmSystem c).ReachableBy (Within c) s :=
  hr.below (fun _ _ _ hstep => (step_moves hstep).cancellations_le) hs

theorem workers_setWorker (i j : ℕ) (w : Worker) :
    (s.setWorker i w).workers j = if j = i then w else s.workers j := by
  unfold setWorker
  by_cases h : j = i
  · subst h
    simp
  · simp [h]

/-- A worker's thread, apart from its cancel flag. -/
structure Worker.Same (w w' : Worker) : Prop where
  generation : w'.generation = w.generation
  place : w'.place = w.place
  sent : w'.sent = w.sent

theorem storeCancel_same (i : ℕ) : Worker.Same (s.workers i) (s.storeCancel i) := by
  unfold storeCancel
  cases s.cancel with
  | none => exact ⟨rfl, rfl, rfl⟩
  | some j =>
    by_cases h : i = j
    · subst h
      simp only [Function.update_self]
      exact ⟨rfl, rfl, rfl⟩
    · simp only [Function.update_of_ne h]
      exact ⟨rfl, rfl, rfl⟩

/-- What a worker has sent: deltas, and after them nothing or the result it quits with. -/
structure Worker.Script (w : Worker) : Prop where
  own : ∀ result ∈ w.sent, result.generation = w.generation
  next : ∀ result, w.place = .sends result → result.generation = w.generation
  deltas : ¬w.place.quit → ∀ result ∈ w.sent, result.isDelta
  last : ∀ result ∈ w.sent.dropLast, result.isDelta

theorem Worker.Script.congr {w w' : Worker} (h : Worker.Script w) (hsame : Worker.Same w w') :
    Worker.Script w' := by
  obtain ⟨hgeneration, hplace, hsent⟩ := hsame
  constructor
  · rw [hsent, hgeneration]
    exact h.own
  · rw [hplace, hgeneration]
    exact h.next
  · rw [hplace, hsent]
    exact h.deltas
  · rw [hsent]
    exact h.last

theorem Worker.Script.send {w : Worker} {result : LlmResult} (h : Worker.Script w)
    (hw : w.place = .sends result) {place : Place} (hplace : ∀ result, place ≠ .sends result)
    (hquit : ¬place.quit → result.isDelta) :
    Worker.Script { w with sent := w.sent ++ [result], place } := by
  have hdeltas : ∀ result ∈ w.sent, result.isDelta := h.deltas (by simp [hw, Place.quit])
  constructor
  · intro result' hmem
    rcases List.mem_append.mp hmem with hmem | hmem
    · exact h.own result' hmem
    · rw [List.mem_singleton.mp hmem]
      exact h.next result hw
  · intro result' hresult
    exact absurd hresult (hplace result')
  · intro hrun result' hmem
    rcases List.mem_append.mp hmem with hmem | hmem
    · exact hdeltas result' hmem
    · rw [List.mem_singleton.mp hmem]
      exact hquit hrun
  · intro result' hmem
    simp only [List.dropLast_concat] at hmem
    exact hdeltas result' hmem

theorem afterSend_ne (result result' : LlmResult) : c.afterSend result ≠ .sends result' := by
  unfold Config.afterSend
  cases result with
  | delta => split_ifs <;> simp
  | done => simp
  | error => simp

theorem isDelta_of_afterSend (result : LlmResult) (h : ¬(c.afterSend result).quit) :
    result.isDelta := by
  cases result with
  | delta => rfl
  | done => exact absurd trivial h
  | error => exact absurd trivial h

theorem Move.script (h : Move c s s') (hs : ∀ i, Worker.Script (s.workers i)) (i : ℕ) :
    Worker.Script (s'.workers i) := by
  cases h with
  | cancels => exact (hs i).congr (storeCancel_same (s := { s with scheduled := _ }) i)
  | spawns =>
    unfold LlmOpenAiCompatible.spawn
    by_cases h : i = s.spawned
    · subst h
      simp only [Function.update_self]
      constructor <;> simp
    · simp only [Function.update_of_ne h]
      exact hs i
  | @walks j place hi hfrom hplace hrun hquit =>
    rw [workers_setWorker]
    split_ifs with h
    · subst h
      refine ⟨(hs i).own, ?_, ?_, (hs i).last⟩
      · intro result hresult
        exact absurd hresult (hplace result)
      · intro hstill
        exact (hs i).deltas (mt hquit hstill)
    · exact hs i
  | @counts j result answer hi hfrom hrun hresult =>
    unfold count
    rw [workers_setWorker]
    split_ifs with h
    · subst h
      refine ⟨(hs i).own, ?_, fun _ => (hs i).deltas hrun, (hs i).last⟩
      intro result' hresult'
      cases hresult'
      exact hresult
    · exact hs i
  | @sends j result hi hfrom =>
    unfold LlmOpenAiCompatible.send
    rw [workers_setWorker]
    split_ifs with h
    · subst h
      exact (hs i).send hfrom (afterSend_ne result) (isDelta_of_afterSend result)
    · exact hs i
  | _ => exact hs i

theorem reachable_script {C : LlmOpenAiCompatible → Action → Prop}
    (hr : (llmSystem c).ReachableBy C s) : ∀ i, Worker.Script (s.workers i) := by
  refine hr.invariant (I := fun s => ∀ i, Worker.Script (s.workers i)) ?_ ?_
  · rintro _ rfl i
    constructor <;> simp [LlmOpenAiCompatible.new, Worker.absent]
  · intro s a s' _ hi _ hstep
    exact (step_moves hstep).script hi

/-- Each worker has a generation of its own, and the one that has the node's is the node's. -/
structure Generations (s : LlmOpenAiCompatible) : Prop where
  count : s.generation.toNat = s.cancellations
  older : ∀ i < s.spawned, (s.workers i).generation ≤ s.generation
  ordered : ∀ i < s.spawned, ∀ j < i, (s.workers j).generation < (s.workers i).generation
  own : ∀ i < s.spawned, (s.workers i).generation = s.generation → s.worker = some i
  current : ∀ i, s.worker = some i → i < s.spawned ∧ (s.workers i).generation = s.generation
  cancelling : s.phase.cancelling → s.worker = none
  accepted : s.worker.isSome ∨ s.phase.starting → latestAccepted s.log = some s.generation

theorem Generations.init : Generations .new := by
  constructor <;> simp [LlmOpenAiCompatible.new, Phase.cancelling, Phase.starting]

/-- What keeps the workers' generations, the node's worker and the phases of `cancel_current`. -/
theorem Generations.congr (h : Generations s) (hgeneration : s'.generation = s.generation)
    (hcancellations : s'.cancellations = s.cancellations) (hspawned : s'.spawned = s.spawned)
    (hworker : s'.worker = s.worker)
    (hworkers : ∀ i, (s'.workers i).generation = (s.workers i).generation)
    (hlog : latestAccepted s'.log = latestAccepted s.log)
    (hcancelling : s'.phase.cancelling → s.phase.cancelling)
    (hstarting : s'.phase.starting → s.phase.starting) : Generations s' := by
  constructor
  · rw [hgeneration, hcancellations]
    exact h.count
  · simp only [hworkers, hgeneration, hspawned]
    exact h.older
  · simp only [hworkers, hspawned]
    exact h.ordered
  · simp only [hworkers, hgeneration, hspawned, hworker]
    exact h.own
  · simp only [hworkers, hgeneration, hspawned, hworker]
    exact h.current
  · intro hs
    rw [hworker]
    exact h.cancelling (hcancelling hs)
  · intro hs
    rw [hlog, hgeneration]
    rw [hworker] at hs
    exact h.accepted (hs.imp_right hstarting)

theorem Generations.cancel (h : Generations s) (after : After)
    (hbound : Bounded (s.cancelCurrent after)) : Generations (s.cancelCurrent after) := by
  have hcount := h.count
  have hnext : s.cancellations + 1 < 2 ^ 64 := hbound
  have hgeneration : (s.generation + 1).toNat = s.generation.toNat + 1 := by
    rw [UInt64.toNat_add]
    simp only [UInt64.toNat_one]
    omega
  have hworkers : ∀ i, ((s.cancelCurrent after).workers i).generation = (s.workers i).generation :=
    fun i => (storeCancel_same i).generation
  have hlt : ∀ i < s.spawned, (s.workers i).generation < s.generation + 1 := by
    intro i hi
    have hle := UInt64.le_iff_toNat_le.mp (h.older i hi)
    rw [UInt64.lt_iff_toNat_lt]
    omega
  constructor
  · show (s.generation + 1).toNat = s.cancellations + 1
    omega
  · intro i hi
    rw [hworkers]
    exact UInt64.le_of_lt (hlt i hi)
  · intro i hi j hj
    rw [hworkers, hworkers]
    exact h.ordered i hi j hj
  · intro i hi heq
    rw [hworkers] at heq
    exact absurd heq (UInt64.ne_of_lt (hlt i hi))
  · intro i hi
    cases hi
  · intro _
    rfl
  · intro hs
    cases after with
    | starts text sequence => simp [cancelCurrent, entry]
    | returns => simp [cancelCurrent, Phase.starting] at hs
    | ends => simp [cancelCurrent, Phase.starting] at hs

theorem Generations.spawn (h : Generations s) {user : Text} {sequence : ℕ}
    (hs : s.phase = .spawns user sequence) : Generations (s.spawn c user sequence) := by
  have hnone : s.worker = none := h.cancelling (by rw [hs]; trivial)
  have hlt : ∀ i < s.spawned, (s.workers i).generation < s.generation := by
    intro i hi
    apply UInt64.lt_of_le_of_ne (h.older i hi)
    intro heq
    have hown := h.own i hi heq
    rw [hnone] at hown
    cases hown
  have hnew : ((s.spawn c user sequence).workers s.spawned).generation = s.generation := by
    simp [LlmOpenAiCompatible.spawn]
  have hold : ∀ i < s.spawned,
      ((s.spawn c user sequence).workers i).generation = (s.workers i).generation := by
    intro i hi
    have hne : i ≠ s.spawned := by omega
    simp [LlmOpenAiCompatible.spawn, hne]
  have hcases : ∀ i < s.spawned + 1, i < s.spawned ∨ i = s.spawned := by
    intro i hi
    omega
  constructor
  · exact h.count
  · intro i hi
    rcases hcases i hi with hi | rfl
    · rw [hold i hi]
      exact h.older i hi
    · rw [hnew]
      exact UInt64.le_refl _
  · intro i hi j hj
    rcases hcases i hi with hi | rfl
    · rw [hold i hi, hold j (by omega)]
      exact h.ordered i hi j hj
    · rw [hnew, hold j hj]
      exact hlt j hj
  · intro i hi heq
    rcases hcases i hi with hi | rfl
    · rw [hold i hi] at heq
      exact absurd heq (UInt64.ne_of_lt (hlt i hi))
    · rfl
  · intro i hi
    cases hi
    exact ⟨Nat.lt_succ_self _, hnew⟩
  · intro hphase
    exact absurd hphase (by simp [LlmOpenAiCompatible.spawn, Phase.cancelling])
  · intro _
    exact h.accepted (.inr (by rw [hs]; trivial))

theorem Goes.cancelling {phase : Phase} {scheduled : Bool} (h : Goes s phase scheduled) :
    (phase.cancelling → s.phase.cancelling) ∧ (phase.starting → s.phase.starting) := by
  cases h with
  | @emptied after hs =>
    rw [hs]
    cases after <;> simp [afterCancel, Phase.cancelling, Phase.starting]
  | _ => simp [Phase.cancelling, Phase.starting]

theorem Move.generations (h : Move c s s') (hs : Generations s) (hbound : Bounded s') :
    Generations s' := by
  cases h with
  | goes h =>
    exact hs.congr rfl rfl rfl rfl (fun _ => rfl) rfl h.cancelling.1 h.cancelling.2
  | @cancels after scheduled hphase =>
    have hs' : Generations { s with scheduled } :=
      hs.congr rfl rfl rfl rfl (fun _ => rfl) rfl id id
    exact hs'.cancel after hbound
  | @takesStale after result results hphase hresults =>
    refine hs.congr rfl rfl rfl rfl (fun _ => rfl) rfl ?_ ?_
    · simp [hphase, Phase.cancelling]
    · rw [hphase]
      cases after <;> simp [Phase.starting]
  | @discards after result hphase =>
    refine hs.congr rfl rfl rfl rfl (fun _ => rfl) rfl ?_ ?_
    · simp [hphase, Phase.cancelling]
    · rw [hphase]
      cases after <;> simp [Phase.starting]
  | spawns hphase => exact hs.spawn hphase
  | takes hphase hresults =>
    exact hs.congr rfl rfl rfl rfl (fun _ => rfl) rfl False.elim False.elim
  | @drops left result history phase hphase hnext =>
    rcases hnext with ⟨rfl, _⟩ | ⟨rfl, _⟩ | ⟨error, rfl⟩ <;>
      exact hs.congr rfl rfl rfl rfl (fun _ => rfl) rfl False.elim False.elim
  | @emits left result emission history phase hphase _ _ hnext =>
    rcases hnext with rfl | rfl <;>
      exact hs.congr rfl rfl rfl rfl (fun _ => rfl) (latestAccepted_emitted _ _) False.elim False.elim
  | @walks j =>
    refine hs.congr rfl rfl rfl rfl ?_ rfl id id
    intro i
    rw [workers_setWorker]
    split_ifs with h
    · rw [h]
    · rfl
  | @counts j =>
    refine hs.congr rfl rfl rfl rfl ?_ rfl id id
    intro i
    unfold count
    rw [workers_setWorker]
    split_ifs with h
    · rw [h]
    · rfl
  | @sends j =>
    refine hs.congr rfl rfl rfl rfl ?_ rfl id id
    intro i
    unfold LlmOpenAiCompatible.send
    rw [workers_setWorker]
    split_ifs with h
    · rw [h]
    · rfl

theorem reachable_generations (hr : (llmSystem c).ReachableBy (Within c) s) : Generations s := by
  refine hr.invariant (I := Generations) ?_ ?_
  · rintro _ rfl
    exact .init
  · intro s a s' _ hi hwithin hstep
    exact (step_moves hstep).generations hi (hwithin s' hstep)

/-- No two workers have one generation. -/
theorem Generations.injective (h : Generations s) {i j : ℕ} (hi : i < s.spawned)
    (hj : j < s.spawned) (heq : (s.workers i).generation = (s.workers j).generation) : i = j := by
  rcases Nat.lt_trichotomy i j with hlt | rfl | hlt
  · exact absurd heq (UInt64.ne_of_lt (h.ordered j hj i hlt))
  · rfl
  · exact absurd heq.symm (UInt64.ne_of_lt (h.ordered i hi j hlt))

end Muxiva.Llm
