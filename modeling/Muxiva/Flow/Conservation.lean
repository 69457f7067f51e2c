import Mathlib.Algebra.BigOperators.Group.List.Basic
import Muxiva.Flow.Model

/-! What is enqueued on a controller stays on exactly one of its accounts: queued, in flight,
completed or dropped. -/
set_option linter.all false
namespace Muxiva.Flow

variable {F : Type}

namespace FlowM
variable {α β : Type} {c d : AdaptiveFlowController F} {r : Except FlowError β}

theorem call_bind (m : FlowM F α) (f : α → FlowM F β) :
    (m >>= f).call c =
      match m.call c with
      | (.ok a, t) => (f a).call t
      | (.error e, t) => (.error e, t) := by
  simp only [call, ExceptT.run_bind, StateT.run_bind]
  rcases m.run.run c with ⟨_ | a, t⟩
  · rfl
  · rfl

theorem call_bind_ok {m : FlowM F α} {f : α → FlowM F β} {b : β} :
    (m >>= f).call c = (.ok b, d) ↔
      ∃ a t, m.call c = (.ok a, t) ∧ (f a).call t = (.ok b, d) := by
  rw [call_bind]
  rcases m.call c with ⟨e | a, t⟩
  · simp
  · constructor
    · intro h
      exact ⟨a, t, rfl, h⟩
    · rintro ⟨a, t, h, hf⟩
      cases h
      exact hf

theorem call_pure (a : α) : (pure a : FlowM F α).call c = (.ok a, c) := rfl

theorem call_throw (e : FlowError) : (throw e : FlowM F α).call c = (.error e, c) := rfl

theorem call_get : (get : FlowM F _).call c = (.ok c, c) := rfl

theorem call_set : (set d : FlowM F _).call c = (.ok ⟨⟩, d) := rfl

theorem call_modify (g : AdaptiveFlowController F → AdaptiveFlowController F) :
    (modify g : FlowM F PUnit).call c = (.ok ⟨⟩, g c) := rfl

theorem call_get_bind (f : AdaptiveFlowController F → FlowM F β) :
    (get >>= f).call c = (f c).call c := by
  rw [call_bind, call_get]

theorem call_set_bind (f : PUnit → FlowM F β) : (set d >>= f).call c = (f ⟨⟩).call d := by
  rw [call_bind, call_set]

theorem call_modify_bind (g : AdaptiveFlowController F → AdaptiveFlowController F)
    (f : PUnit → FlowM F β) : (modify g >>= f).call c = (f ⟨⟩).call (g c) := by
  rw [call_bind, call_modify]

theorem call_ofOption_bind_ok {e : FlowError} {o : Option α} {f : α → FlowM F β} {b : β} :
    (ofOption e o >>= f).call c = (.ok b, d) ↔
      ∃ a, o = some a ∧ (f a).call c = (.ok b, d) := by
  rw [call_bind_ok]
  cases o with
  | none => simp [ofOption, call_throw]
  | some x => simp [ofOption, call_pure]

theorem call_failIf_bind_ok {p : Prop} [Decidable p] {e : FlowError} {f : Unit → FlowM F β}
    {b : β} :
    (failIf p e >>= f).call c = (.ok b, d) ↔ ¬ p ∧ (f ()).call c = (.ok b, d) := by
  rw [call_bind_ok]
  unfold failIf
  split
  case isTrue h => simp [call_throw, h]
  case isFalse h => simp [call_pure, h, Unique.exists_iff]

end FlowM

open FlowM

theorem checkedAdd_eq_some {limit a b n : ℕ} :
    checkedAdd limit a b = some n ↔ a + b ≤ limit ∧ n = a + b := by
  unfold checkedAdd
  split
  · simp_all [eq_comm]
  · simp_all

namespace AdaptiveFlowController

/-- What a controller keeps count of. -/
structure Accounts where
  identity : ℕ
  nextAdmissionId : ℕ
  activeAdmissions : Finset ℕ
  queuedFrames : ℕ
  queuedBytes : ℕ
  queuedMedia : ℕ
  inFlight : ℕ
  inFlightBytes : ℕ
  inFlightMedia : ℕ
  inputMediaTotal : ℕ
  completedMediaTotal : ℕ
  droppedFrames : ℕ
  droppedBytes : ℕ
  droppedMedia : ℕ

def accounts (c : AdaptiveFlowController F) : Accounts :=
  { c with }

variable {c d : AdaptiveFlowController F}

@[simp] theorem accounts_transition (desired : FlowState) (healthy : Bool) :
    (c.transition desired healthy).accounts = c.accounts := by
  unfold transition
  split
  · rfl
  · rfl
  · split
    · dsimp only
      split <;> rfl
    · rfl
  · split
    · dsimp only
      split <;> rfl
    · rfl
  · rfl
  · rfl

@[simp] theorem accounts_recordSignal (signal : FlowSignalObservation) :
    (c.recordSignal signal).accounts = c.accounts := by
  unfold recordSignal
  split <;> rfl

variable [Float64 F]

@[simp] theorem accounts_evaluate : c.evaluate.2.accounts = c.accounts := by
  unfold evaluate
  dsimp only
  split
  · simp
  · split <;> simp

theorem accounts_evaluateM {u : FlowUpdate} (h : evaluateM.call c = (.ok u, d)) :
    d.accounts = c.accounts := by
  simp only [evaluateM, call_get_bind, call_set_bind, call_pure, Prod.mk.injEq] at h
  rw [← h.2]
  exact accounts_evaluate

theorem accounts_observeInput {m : FrameMeasurement} {now : ℕ} {a : Unit}
    (h : (observeInput m now).call c = (.ok a, d)) : d.accounts = c.accounts := by
  unfold observeInput at h
  rw [call_get_bind] at h
  cases hlast : c.lastInputAt with
  | none =>
    simp only [hlast, call_pure, Prod.mk.injEq] at h
    rw [h.2]
  | some previous =>
    simp only [hlast, call_ofOption_bind_ok, call_modify, Prod.mk.injEq] at h
    obtain ⟨elapsed, -, -, rfl⟩ := h
    split <;> rfl

/-- An enqueued frame enters the queued account. -/
theorem recordEnqueue_ok {m : FrameMeasurement} {now : ℕ} {u : FlowUpdate}
    (h : (recordEnqueue m now).call c = (.ok u, d)) :
    d.accounts = { c.accounts with
      queuedFrames := c.queuedFrames + 1
      queuedBytes := c.queuedBytes + m.bytes
      queuedMedia := c.queuedMedia + m.mediaDuration
      inputMediaTotal := c.inputMediaTotal + m.mediaDuration } := by
  unfold recordEnqueue at h
  rw [call_bind_ok] at h
  obtain ⟨_, t, hobserve, h⟩ := h
  simp only [call_get_bind, call_modify_bind, call_ofOption_bind_ok, checkedAdd_eq_some] at h
  obtain ⟨_, ⟨-, rfl⟩, _, ⟨-, rfl⟩, _, ⟨-, rfl⟩, _, ⟨-, rfl⟩, h⟩ := h
  have hsame := accounts_observeInput hobserve
  rw [accounts_evaluateM h]
  simp only [accounts, Accounts.mk.injEq] at hsame ⊢
  simp [hsame]

/-- An admitted frame leaves the queued account for the one in flight, under a new id. -/
theorem recordAdmission_ok {m : FrameMeasurement} {now : ℕ} {w : FlowWork}
    {u : FlowUpdate} (h : (recordAdmission m now).call c = (.ok (w, u), d)) :
    c.queuedFrames ≠ 0 ∧ m.bytes ≤ c.queuedBytes ∧ m.mediaDuration ≤ c.queuedMedia ∧
      c.nextAdmissionId ∉ c.activeAdmissions ∧
      w = ⟨c.identity, c.nextAdmissionId, m, now⟩ ∧
      d.accounts = { c.accounts with
        nextAdmissionId := c.nextAdmissionId + 1
        activeAdmissions := insert c.nextAdmissionId c.activeAdmissions
        queuedFrames := c.queuedFrames - 1
        queuedBytes := c.queuedBytes - m.bytes
        queuedMedia := c.queuedMedia - m.mediaDuration
        inFlight := c.inFlight + 1
        inFlightBytes := c.inFlightBytes + m.bytes
        inFlightMedia := c.inFlightMedia + m.mediaDuration } := by
  unfold recordAdmission at h
  simp only [call_get_bind, call_modify_bind, call_ofOption_bind_ok, call_failIf_bind_ok,
    checkedAdd_eq_some] at h
  obtain ⟨hqueued, _, ⟨-, rfl⟩, _, ⟨-, rfl⟩, _, ⟨-, rfl⟩, _, ⟨-, rfl⟩, hfresh, h⟩ := h
  rw [call_bind_ok] at h
  obtain ⟨v, t, heval, h⟩ := h
  simp only [call_pure, Prod.mk.injEq, Except.ok.injEq] at h
  obtain ⟨⟨rfl, -⟩, rfl⟩ := h
  simp only [lacksQueued, Bool.or_eq_true, decide_eq_true_eq, not_or, not_lt] at hqueued
  obtain ⟨⟨hframes, hbytes⟩, hmedia⟩ := hqueued
  refine ⟨hframes, hbytes, hmedia, hfresh, rfl, ?_⟩
  rw [accounts_evaluateM heval]
  rfl

@[simp] theorem accounts_observeCompletion (w : FlowWork) (serviceTime : ℕ) :
    (observeCompletion w serviceTime c).accounts = c.accounts := by
  unfold observeCompletion
  split <;> rfl

/-- A completed work of this controller was active and leaves the account in flight. -/
theorem recordCompletion_ok {w : FlowWork} {now : ℕ} {u : FlowUpdate}
    (h : (recordCompletion w now).call c = (.ok u, d)) :
    c.identity = w.controller ∧ w.admissionId ∈ c.activeAdmissions ∧
      w.measurement.bytes ≤ c.inFlightBytes ∧
      w.measurement.mediaDuration ≤ c.inFlightMedia ∧
      d.accounts = { c.accounts with
        activeAdmissions := c.activeAdmissions.erase w.admissionId
        inFlight := c.inFlight - 1
        inFlightBytes := c.inFlightBytes - w.measurement.bytes
        inFlightMedia := c.inFlightMedia - w.measurement.mediaDuration
        completedMediaTotal := c.completedMediaTotal + w.measurement.mediaDuration } := by
  unfold recordCompletion at h
  simp only [call_get_bind, call_modify_bind, call_ofOption_bind_ok, call_failIf_bind_ok,
    checkedAdd_eq_some, not_or, not_lt, not_not] at h
  obtain ⟨howner, hactive, ⟨-, hbytes, hmedia⟩, serviceTime, -, _, ⟨-, rfl⟩, h⟩ := h
  refine ⟨howner, hactive, hbytes, hmedia, ?_⟩
  have hsame := accounts_observeCompletion (c := { c with
    activeAdmissions := c.activeAdmissions.erase w.admissionId }) w serviceTime
  rw [accounts_evaluateM h]
  simp only [accounts, Accounts.mk.injEq] at hsame ⊢
  simp [hsame]

/-- A dropped frame leaves the queued account. -/
theorem recordDrop_ok {m : FrameMeasurement} {reason : FlowDropReason} {u : FlowUpdate}
    (h : (recordDrop m reason).call c = (.ok u, d)) :
    c.queuedFrames ≠ 0 ∧ m.bytes ≤ c.queuedBytes ∧ m.mediaDuration ≤ c.queuedMedia ∧
      d.accounts = { c.accounts with
        queuedFrames := c.queuedFrames - 1
        queuedBytes := c.queuedBytes - m.bytes
        queuedMedia := c.queuedMedia - m.mediaDuration
        droppedFrames := c.droppedFrames + 1
        droppedBytes := c.droppedBytes + m.bytes
        droppedMedia := c.droppedMedia + m.mediaDuration } := by
  unfold recordDrop at h
  simp only [call_get_bind, call_modify_bind, call_ofOption_bind_ok, call_failIf_bind_ok,
    checkedAdd_eq_some] at h
  obtain ⟨-, hqueued, _, ⟨-, rfl⟩, _, ⟨-, rfl⟩, _, ⟨-, rfl⟩, h⟩ := h
  simp only [lacksQueued, Bool.or_eq_true, decide_eq_true_eq, not_or, not_lt] at hqueued
  obtain ⟨⟨hframes, hbytes⟩, hmedia⟩ := hqueued
  refine ⟨hframes, hbytes, hmedia, ?_⟩
  rw [accounts_evaluateM h]
  rfl

theorem accounts_sample (now : ℕ) : (c.sample now).2.accounts = c.accounts := by
  unfold sample
  dsimp only
  rw [accounts_evaluate]
  split <;> rfl

end AdaptiveFlowController

section Sums
variable {α : Type} {key : α → ℕ} {xs : List α} {S : Finset ℕ}

/-- The entries of `xs` whose key is in `S`. -/
def keyed (key : α → ℕ) (xs : List α) (S : Finset ℕ) : List α := xs.filter (key · ∈ S)

theorem keyed_append (ys : List α) : keyed key (xs ++ ys) S = keyed key xs S ++ keyed key ys S :=
  List.filter_append xs ys

theorem keyed_insert_of_fresh {k : ℕ} (h : ∀ x ∈ xs, key x ≠ k) :
    keyed key xs (insert k S) = keyed key xs S := by
  apply List.filter_congr
  intro x hx
  simp [h x hx]

theorem keyed_erase_of_fresh {k : ℕ} (h : ∀ x ∈ xs, key x ≠ k) :
    keyed key xs (S.erase k) = keyed key xs S := by
  apply List.filter_congr
  intro x hx
  simp [h x hx]

/-- With distinct keys, taking one key out of `S` takes its entry out of the sum. -/
theorem sum_keyed_erase (f : α → ℕ) {w : α} (hkeys : (xs.map key).Nodup) (hw : w ∈ xs)
    (hS : key w ∈ S) :
    ((keyed key xs S).map f).sum = f w + ((keyed key xs (S.erase (key w))).map f).sum := by
  induction xs with
  | nil => cases hw
  | cons x xs ih =>
    simp only [List.map_cons, List.nodup_cons, List.mem_map, not_exists, not_and] at hkeys
    obtain ⟨hx, hkeys⟩ := hkeys
    rcases List.mem_cons.mp hw with rfl | hw
    · have hrest : keyed key xs (S.erase (key w)) = keyed key xs S :=
        keyed_erase_of_fresh fun y hy => hx y hy
      have hself : keyed key (w :: xs) (S.erase (key w)) = keyed key xs S := by
        rw [← hrest]
        simp [keyed]
      rw [hself]
      simp [keyed, hS]
    · have hne : key x ≠ key w := fun h => hx w hw h.symm
      have hrest := ih hkeys hw
      by_cases hxS : key x ∈ S
      · simp only [keyed, List.filter_cons, hxS, Finset.mem_erase, hne, ne_eq, not_false_eq_true,
          true_and, decide_true, if_true, List.map_cons, List.sum_cons] at hrest ⊢
        omega
      · simpa [keyed, List.filter_cons, hxS] using hrest

end Sums

open AdaptiveFlowController (Accounts)

def enqueuedMedia (enqueued : List FrameMeasurement) : ℕ :=
  (enqueued.map FrameMeasurement.mediaDuration).sum

/-- The admitted works whose completion has not been recorded. -/
def activeWorks (a : Accounts) (admitted : List FlowWork) : List FlowWork :=
  keyed FlowWork.admissionId admitted a.activeAdmissions

/-- Every enqueued frame is on one account, and the account in flight is that of the works still
active, each under its own id. -/
structure Conserved (a : Accounts) (enqueued : List FrameMeasurement)
    (admitted : List FlowWork) : Prop where
  input : a.inputMediaTotal = enqueuedMedia enqueued
  media : enqueuedMedia enqueued =
    a.queuedMedia + a.inFlightMedia + a.completedMediaTotal + a.droppedMedia
  frames : enqueued.length = a.queuedFrames + admitted.length + a.droppedFrames
  inFlight : a.inFlight = a.activeAdmissions.card
  inFlightBytes : a.inFlightBytes =
    ((activeWorks a admitted).map (·.measurement.bytes)).sum
  inFlightMedia : a.inFlightMedia =
    ((activeWorks a admitted).map (·.measurement.mediaDuration)).sum
  unique : (admitted.map FlowWork.admissionId).Nodup
  issued : ∀ i ∈ a.activeAdmissions, ∃ w ∈ admitted, w.admissionId = i

/-- With the ids handed out so far below the next one. -/
structure Ledger (a : Accounts) (enqueued : List FrameMeasurement)
    (admitted : List FlowWork) : Prop extends Conserved a enqueued admitted where
  below : ∀ w ∈ admitted, w.admissionId < a.nextAdmissionId

namespace Ledger
variable {a : Accounts} {enqueued : List FrameMeasurement} {admitted : List FlowWork}

theorem enqueue (h : Ledger a enqueued admitted) (m : FrameMeasurement) :
    Ledger { a with
      queuedFrames := a.queuedFrames + 1
      queuedBytes := a.queuedBytes + m.bytes
      queuedMedia := a.queuedMedia + m.mediaDuration
      inputMediaTotal := a.inputMediaTotal + m.mediaDuration } (enqueued ++ [m]) admitted := by
  have hsum : enqueuedMedia (enqueued ++ [m]) = enqueuedMedia enqueued + m.mediaDuration := by
    simp [enqueuedMedia]
  have hinput := h.input
  have hmedia := h.media
  have hframes := h.frames
  exact { h with
    input := by
      simp only [hsum]
      omega
    media := by
      simp only [hsum]
      omega
    frames := by
      simp only [List.length_append, List.length_singleton]
      omega }

/-- The new id is on no earlier work, so the earlier sums do not change. -/
theorem admission (h : Ledger a enqueued admitted) (m : FrameMeasurement) (now : ℕ)
    (hframe : a.queuedFrames ≠ 0) (hqueued : m.mediaDuration ≤ a.queuedMedia)
    (hfresh : a.nextAdmissionId ∉ a.activeAdmissions) :
    Ledger { a with
      nextAdmissionId := a.nextAdmissionId + 1
      activeAdmissions := insert a.nextAdmissionId a.activeAdmissions
      queuedFrames := a.queuedFrames - 1
      queuedBytes := a.queuedBytes - m.bytes
      queuedMedia := a.queuedMedia - m.mediaDuration
      inFlight := a.inFlight + 1
      inFlightBytes := a.inFlightBytes + m.bytes
      inFlightMedia := a.inFlightMedia + m.mediaDuration } enqueued
      (admitted ++ [⟨a.identity, a.nextAdmissionId, m, now⟩]) := by
  have hnew : ∀ w ∈ admitted, w.admissionId ≠ a.nextAdmissionId := by
    intro w hw
    have := h.below w hw
    omega
  have hsum (f : FlowWork → ℕ) :
      ((keyed FlowWork.admissionId (admitted ++ [⟨a.identity, a.nextAdmissionId, m, now⟩])
        (insert a.nextAdmissionId a.activeAdmissions)).map f).sum =
      ((activeWorks a admitted).map f).sum + f ⟨a.identity, a.nextAdmissionId, m, now⟩ := by
    have hold := keyed_insert_of_fresh (S := a.activeAdmissions) hnew
    have hlast : keyed FlowWork.admissionId [⟨a.identity, a.nextAdmissionId, m, now⟩]
        (insert a.nextAdmissionId a.activeAdmissions) =
        [⟨a.identity, a.nextAdmissionId, m, now⟩] := by
      simp [keyed]
    rw [keyed_append, hold, hlast, List.map_append, List.sum_append, List.map_singleton,
      List.sum_singleton, activeWorks]
  have hmedia := h.media
  have hframes := h.frames
  have hbytes := h.inFlightBytes
  have hflight := h.inFlightMedia
  exact
    { input := h.input
      media := by
        dsimp only
        omega
      frames := by
        simp only [List.length_append, List.length_singleton]
        omega
      inFlight := by
        simp only [Finset.card_insert_of_notMem hfresh, h.inFlight]
      inFlightBytes := by
        rw [activeWorks, hsum, ← hbytes]
      inFlightMedia := by
        rw [activeWorks, hsum, ← hflight]
      unique := by
        rw [List.map_append]
        apply List.Nodup.append h.unique (List.nodup_singleton _)
        intro i hi hnext
        obtain ⟨w, hw, rfl⟩ := List.mem_map.mp hi
        exact hnew w hw (List.mem_singleton.mp hnext)
      issued := by
        intro i hi
        rcases Finset.mem_insert.mp hi with rfl | hi
        · exact ⟨_, List.mem_append_right _ (List.mem_singleton_self _), rfl⟩
        · obtain ⟨w, hw, hwi⟩ := h.issued i hi
          exact ⟨w, List.mem_append_left _ hw, hwi⟩
      below := by
        intro w hw
        rcases List.mem_append.mp hw with hw | hw
        · have := h.below w hw
          dsimp only
          omega
        · rw [List.mem_singleton.mp hw]
          dsimp only
          omega }

theorem completion (h : Ledger a enqueued admitted) {w : FlowWork} (hw : w ∈ admitted)
    (hactive : w.admissionId ∈ a.activeAdmissions)
    (hmediaLe : w.measurement.mediaDuration ≤ a.inFlightMedia) :
    Ledger { a with
      activeAdmissions := a.activeAdmissions.erase w.admissionId
      inFlight := a.inFlight - 1
      inFlightBytes := a.inFlightBytes - w.measurement.bytes
      inFlightMedia := a.inFlightMedia - w.measurement.mediaDuration
      completedMediaTotal := a.completedMediaTotal + w.measurement.mediaDuration }
      enqueued admitted := by
  have hsum (f : FlowWork → ℕ) := sum_keyed_erase f h.unique hw hactive
  have hmedia := h.media
  have hbytes := h.inFlightBytes
  have hflight := h.inFlightMedia
  exact { h with
    media := by
      dsimp only
      omega
    inFlight := by
      simp only [Finset.card_erase_of_mem hactive, h.inFlight]
    inFlightBytes := by
      rw [activeWorks, hsum] at hbytes
      rw [activeWorks]
      dsimp only
      omega
    inFlightMedia := by
      rw [activeWorks, hsum] at hflight
      rw [activeWorks]
      dsimp only
      omega
    issued := fun i hi => h.issued i (Finset.mem_of_mem_erase hi) }

theorem drop (h : Ledger a enqueued admitted) (m : FrameMeasurement)
    (hframe : a.queuedFrames ≠ 0) (hqueued : m.mediaDuration ≤ a.queuedMedia) :
    Ledger { a with
      queuedFrames := a.queuedFrames - 1
      queuedBytes := a.queuedBytes - m.bytes
      queuedMedia := a.queuedMedia - m.mediaDuration
      droppedFrames := a.droppedFrames + 1
      droppedBytes := a.droppedBytes + m.bytes
      droppedMedia := a.droppedMedia + m.mediaDuration } enqueued admitted := by
  have hmedia := h.media
  have hframes := h.frames
  exact { h with
    media := by
      dsimp only
      omega
    frames := by
      dsimp only
      omega }

end Ledger

def Session.Kept (s : Session F) : Prop := Ledger s.controller.accounts s.enqueued s.admitted

variable [Float64 F]

theorem kept_init {s : Session F} (h : (successfulCalls F).init s) : s.Kept := by
  obtain ⟨⟨profile, identity, hnew⟩, henqueued, hadmitted⟩ := h
  unfold AdaptiveFlowController.new at hnew
  split at hnew
  · cases hnew
  · have hc := Except.ok.inj hnew
    unfold Session.Kept
    rw [← hc, henqueued, hadmitted]
    exact
      { input := rfl, media := rfl, frames := rfl, inFlight := rfl, inFlightBytes := rfl
        inFlightMedia := rfl, unique := List.nodup_nil
        issued := fun i hi => absurd hi (Finset.notMem_empty i)
        below := fun w hw => absurd hw List.not_mem_nil }

open AdaptiveFlowController in
theorem kept_step {s t : Session F} {call : Call} (h : s.Kept)
    (hs : (successfulCalls F).step s call = some t) : t.Kept := by
  cases call with
  | recordEnqueue m now =>
    simp only [successfulCalls, Session.step] at hs
    split at hs
    · rename_i u c hcall
      cases hs
      unfold Session.Kept
      rw [recordEnqueue_ok hcall]
      exact h.enqueue m
    · cases hs
  | recordAdmission m now =>
    simp only [successfulCalls, Session.step] at hs
    split at hs
    · rename_i w u c hcall
      cases hs
      obtain ⟨hframes, -, hmedia, hfresh, hw, hd⟩ := recordAdmission_ok hcall
      unfold Session.Kept
      rw [hd, hw]
      exact h.admission m now hframes hmedia hfresh
    · cases hs
  | recordCompletion w now =>
    simp only [successfulCalls, Session.step] at hs
    split at hs
    · cases hs
    · rename_i hknown
      split at hs
      · rename_i u c hcall
        cases hs
        obtain ⟨howner, hactive, -, hmedia, hd⟩ := recordCompletion_ok hcall
        have hw : w ∈ s.admitted := by
          by_contra hw
          exact hknown ⟨howner.symm, hw⟩
        unfold Session.Kept
        rw [hd]
        exact h.completion hw hactive hmedia
      · cases hs
  | recordDrop m reason =>
    simp only [successfulCalls, Session.step] at hs
    split at hs
    · rename_i u c hcall
      cases hs
      obtain ⟨hframes, -, hmedia, hd⟩ := recordDrop_ok hcall
      unfold Session.Kept
      rw [hd]
      exact h.drop m hframes hmedia
    · cases hs
  | sample now =>
    cases hs
    unfold Session.Kept
    rw [accounts_sample]
    exact h

/-- After calls that all returned `Ok`, nothing enqueued is lost or counted twice. -/
theorem flow_conserved {s : Session F} (h : (successfulCalls F).Reachable s) :
    Conserved s.controller.accounts s.enqueued s.admitted := by
  have hkept : s.Kept := h.invariant (fun _ h0 => kept_init h0)
    (fun _ _ _ _ hi hs => kept_step hi hs)
  exact hkept.toConserved

/-- Exact arithmetic in place of rounded: no comparison in the run below is close enough to tell
the two apart. -/
instance : Float64 ℚ where
  lit q := q
  ofCount n := n
  asSecs d := d / 10 ^ 9
  fromSecs x := (x * 10 ^ 9 + 1 / 2).floor.toNat
  add x y := x + y
  sub x y := x - y
  mul x y := x * y
  div x y := x / y
  min x y := if x ≤ y then x else y
  max x y := if x ≤ y then y else x
  lt x y := x < y
  le x y := x ≤ y
  eq x y := x = y
  isFinite _ := true
  epsilon := 1 / 2 ^ 52

/-- A best-effort input that sheds its oldest frames. -/
def sheddingProfile : RealtimeInputProfile where
  contract :=
    { RealtimeInputProfile.default.contract with
      latencyBudget := Muxiva.Flow.fromSecs 1
      deliveryGuarantee := .bestEffort
      ordering := .relaxed }
  tuning :=
    { RealtimeInputProfile.default.tuning with
      maxBufferedMediaDuration := Muxiva.Flow.fromSecs 1
      overflowPolicy := .dropOldest }

def sheddingStart : Session ℚ :=
  ⟨(AdaptiveFlowController.new sheddingProfile 5).toOption.get (by decide +kernel), [], []⟩

/-- Three frames: one is completed, one dropped and the last one is in flight. -/
def sheddingCalls : List Call :=
  [.recordEnqueue ⟨100, fromMillis 125⟩ 0,
   .recordEnqueue ⟨60, fromMillis 250⟩ (fromMillis 500),
   .recordAdmission ⟨100, fromMillis 125⟩ (fromMillis 500),
   .sample (fromMillis 750),
   .recordCompletion ⟨5, 0, ⟨100, fromMillis 125⟩, fromMillis 500⟩ (fromMillis 1000),
   .recordEnqueue ⟨28, fromMillis 125⟩ (fromMillis 1000),
   .recordDrop ⟨60, fromMillis 250⟩ .pressureShedding,
   .recordAdmission ⟨28, fromMillis 125⟩ (fromMillis 1250)]

theorem flow_conserved_shedding : ∃ s : Session ℚ,
    Conserved s.controller.accounts s.enqueued s.admitted ∧ s.enqueued.length = 3 ∧
      s.controller.inFlight = 1 ∧ s.controller.inFlightBytes = 28 ∧
      s.controller.completedMediaTotal = fromMillis 125 ∧
      s.controller.droppedMedia = fromMillis 250 := by
  have hinit : (successfulCalls ℚ).init sheddingStart := by
    refine ⟨⟨sheddingProfile, 5, ?_⟩, rfl, rfl⟩
    rfl
  obtain ⟨s, hr, hp⟩ := Transition.System.exists_reachable_of_run hinit sheddingCalls
    (fun s => decide (s.enqueued.length = 3 ∧ s.controller.inFlight = 1 ∧
      s.controller.inFlightBytes = 28 ∧ s.controller.completedMediaTotal = fromMillis 125 ∧
      s.controller.droppedMedia = fromMillis 250)) (by decide +kernel)
  exact ⟨s, flow_conserved hr, of_decide_eq_true hp⟩

end Muxiva.Flow
