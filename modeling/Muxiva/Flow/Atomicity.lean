import Muxiva.Flow.Signals

/-! What a failed call leaves behind: nothing when it fails before its first write, and the writes
made so far when it fails after it. -/
set_option linter.all false
namespace Muxiva.Flow

variable {F : Type}

/-- A failed call has left the controller as it was. -/
def KeptOnError {α : Type} (c : AdaptiveFlowController F)
    (r : Except FlowError α × AdaptiveFlowController F) : Prop :=
  ∀ e, r.1 = .error e → r.2 = c

namespace FlowM
variable {α β : Type} {c d : AdaptiveFlowController F}

theorem kept_error {e : FlowError} :
    KeptOnError c ((.error e : Except FlowError β), d) ↔ d = c := by
  simp [KeptOnError]

theorem kept_map {g : α → β} {r : Except FlowError α × AdaptiveFlowController F} :
    KeptOnError c (r.1.map g, r.2) ↔ KeptOnError c r := by
  obtain ⟨e | a, d⟩ := r
  · simp [KeptOnError, Except.map]
  · simp [KeptOnError, Except.map]

/-- A check is where a call can fail: the controller has to be untouched there, or the check
passes. -/
theorem kept_checkedAdd_bind {e : FlowError} {limit a b : ℕ} {f : ℕ → FlowM F β} :
    KeptOnError c ((ofOption e (checkedAdd limit a b) >>= f).call d) ↔
      if a + b ≤ limit then KeptOnError c ((f (a + b)).call d) else d = c := by
  rw [call_bind]
  unfold checkedAdd
  split_ifs
  · rfl
  · exact kept_error

theorem kept_checkedSub_bind {e : FlowError} {a b : ℕ} {f : ℕ → FlowM F β} :
    KeptOnError c ((ofOption e (checkedSub a b) >>= f).call d) ↔
      if b ≤ a then KeptOnError c ((f (a - b)).call d) else d = c := by
  rw [call_bind]
  unfold checkedSub
  split_ifs
  · rfl
  · exact kept_error

theorem kept_failIf_bind {p : Prop} [Decidable p] {e : FlowError} {f : Unit → FlowM F β} :
    KeptOnError c ((failIf p e >>= f).call d) ↔
      if p then d = c else KeptOnError c ((f ()).call d) := by
  rw [call_bind]
  unfold failIf
  split_ifs
  · exact kept_error
  · rfl

theorem kept_evaluateM [Float64 F] : KeptOnError c (AdaptiveFlowController.evaluateM.call d) := by
  intro e he
  cases he

end FlowM

open FlowM

namespace AdaptiveFlowController
variable (c : AdaptiveFlowController F)

/-- `record_enqueue` gets past the clock and then finds a counter full; the frame count is the
first it writes, and the time of the input is written before all of them. -/
def EnqueueFailsMidway (m : FrameMeasurement) (now : ℕ) : Prop :=
  (∀ previous ∈ c.lastInputAt, previous ≤ now) ∧
    if c.queuedFrames + 1 ≤ usizeMax then
      usizeMax < c.queuedBytes + m.bytes ∨ durationMax < c.queuedMedia + m.mediaDuration ∨
        durationMax < c.inputMediaTotal + m.mediaDuration
    else c.lastInputAt ≠ some now

/-- `record_admission` takes the next id and the queued frame, and then finds a counter full or
the id in use. -/
structure AdmissionFailsMidway (m : FrameMeasurement) : Prop where
  queued : c.lacksQueued m = false
  id : c.nextAdmissionId + 1 ≤ u64Max
  late : usizeMax < c.inFlight + 1 ∨ usizeMax < c.inFlightBytes + m.bytes ∨
    durationMax < c.inFlightMedia + m.mediaDuration ∨ c.nextAdmissionId ∈ c.activeAdmissions

/-- `record_completion` takes the id out, and then finds the accounts too low, the clock moved
backwards or the total full. -/
structure CompletionFailsMidway (work : FlowWork) (now : ℕ) : Prop where
  own : c.identity = work.controller
  active : work.admissionId ∈ c.activeAdmissions
  late : c.inFlight = 0 ∨ c.inFlightBytes < work.measurement.bytes ∨
    c.inFlightMedia < work.measurement.mediaDuration ∨ now < work.startedAt ∨
    durationMax < c.completedMediaTotal + work.measurement.mediaDuration

/-- `record_drop` takes the frame off the queued account, and then finds a total full. -/
structure DropFailsMidway (m : FrameMeasurement) : Prop where
  lossy : c.profile.contract.deliveryGuarantee ≠ .lossless
  queued : c.lacksQueued m = false
  late : u64Max < c.droppedFrames + 1 ∨ u64Max < c.droppedBytes + m.bytes ∨
    durationMax < c.droppedMedia + m.mediaDuration

variable [Float64 F]

/-- What `observe_input` does when it succeeds: only the rate can change. -/
def observed (m : FrameMeasurement) (now : ℕ) : AdaptiveFlowController F :=
  match c.lastInputAt with
  | none => c
  | some previous =>
    if now - previous ≠ 0 then { c with inputRate := c.inputRate.observe m (now - previous) } else c

theorem observed_accounts (m : FrameMeasurement) (now : ℕ) :
    (c.observed m now).accounts = c.accounts ∧
      (c.observed m now).lastInputAt = c.lastInputAt := by
  unfold observed
  split
  · exact ⟨rfl, rfl⟩
  · split_ifs <;> exact ⟨rfl, rfl⟩

theorem kept_observeInput_bind {α : Type} {m : FrameMeasurement} {now : ℕ}
    {f : Unit → FlowM F α} :
    KeptOnError c ((observeInput m now >>= f).call c) ↔
      ((∀ previous ∈ c.lastInputAt, previous ≤ now) →
        KeptOnError c ((f ()).call (c.observed m now))) := by
  rw [call_bind]
  unfold observeInput observed
  rw [call_get_bind]
  obtain hlast | ⟨previous, hlast⟩ := Option.eq_none_or_eq_some c.lastInputAt
  · simp [hlast, call_pure]
  · simp only [hlast]
    rw [call_bind]
    unfold checkedSub
    by_cases hclock : previous ≤ now
    · simp [hclock, hlast, ofOption, call_pure, call_modify]
    · simp [hclock, ofOption, call_throw, kept_error]

/-- The time of the input is written before the first counter, and the frame count before the
others. -/
theorem kept_recordEnqueue (m : FrameMeasurement) (now : ℕ) :
    KeptOnError c ((recordEnqueue m now).call c) ↔ ¬ c.EnqueueFailsMidway m now := by
  unfold recordEnqueue EnqueueFailsMidway
  obtain ⟨hsame, hlast⟩ := c.observed_accounts m now
  simp only [accounts, Accounts.mk.injEq] at hsame
  have htimed : { c.observed m now with lastInputAt := some now } = c ↔
      c.lastInputAt = some now := by
    constructor
    · intro heq
      exact (congrArg lastInputAt heq).symm
    · intro h
      have hobserved : c.observed m now = c := by simp [observed, h]
      rw [hobserved, ← h]
  have hcounted : ∀ d : AdaptiveFlowController F, d.queuedFrames = c.queuedFrames + 1 →
      (d = c ↔ False) := by
    intro d hd
    refine iff_false_intro fun heq => ?_
    rw [heq] at hd
    omega
  simp only [kept_observeInput_bind, call_get_bind, call_modify_bind, kept_checkedAdd_bind,
    kept_evaluateM, htimed]
  simp only [hsame]
  simp (disch := rfl) only [hcounted]
  rw [not_and]
  refine imp_congr_right fun _ => ?_
  split_ifs
  · simp only [true_iff, not_or, not_lt]
    omega
  · simp only [false_iff, not_not]
    omega
  · simp only [false_iff, not_not]
    omega
  · simp only [false_iff, not_not]
    omega
  · exact not_not.symm

/-- The id is written before the accounts, and the queued account before the one in flight. -/
theorem kept_recordAdmission (m : FrameMeasurement) (now : ℕ) :
    KeptOnError c ((recordAdmission m now).call c) ↔ ¬ c.AdmissionFailsMidway m := by
  have hnumbered : ∀ d : AdaptiveFlowController F, d.nextAdmissionId = c.nextAdmissionId + 1 →
      (d = c ↔ False) := by
    intro d hd
    refine iff_false_intro fun heq => ?_
    rw [heq] at hd
    omega
  have hend : ∀ (d : AdaptiveFlowController F) (work : FlowWork),
      KeptOnError c ((evaluateM >>= fun update => pure (work, update)).call d) := by
    intro d work e he
    cases he
  unfold recordAdmission
  simp only [call_get_bind, call_modify_bind, kept_failIf_bind, kept_checkedAdd_bind, hend,
    takeQueued]
  simp (disch := rfl) only [hnumbered]
  constructor
  · intro hkept hmid
    simp only [hmid.queued, hmid.id, Bool.false_eq_true, if_false, if_true] at hkept
    split_ifs at hkept with hcount hbytes hmedia hused
    obtain h | h | h | h := hmid.late
    · omega
    · omega
    · omega
    · exact hused h
  · intro hmid
    have hlate : c.lacksQueued m = false → c.nextAdmissionId + 1 ≤ u64Max → ¬ _ :=
      fun hqueued hid hlate => hmid ⟨hqueued, hid, hlate⟩
    split_ifs with hqueued hid hcount hbytes hmedia hused
    · exact hlate (by simpa using hqueued) hid (.inr (.inr (.inr hused)))
    · exact hlate (by simpa using hqueued) hid (.inr (.inr (.inl (by omega))))
    · exact hlate (by simpa using hqueued) hid (.inr (.inl (by omega)))
    · exact hlate (by simpa using hqueued) hid (.inl (by omega))

@[simp] theorem observeCompletion_activeAdmissions (work : FlowWork) (serviceTime : ℕ) :
    (observeCompletion work serviceTime c).activeAdmissions = c.activeAdmissions :=
  congrArg Accounts.activeAdmissions (accounts_observeCompletion work serviceTime)

@[simp] theorem observeCompletion_completedMediaTotal (work : FlowWork) (serviceTime : ℕ) :
    (observeCompletion work serviceTime c).completedMediaTotal = c.completedMediaTotal :=
  congrArg Accounts.completedMediaTotal (accounts_observeCompletion work serviceTime)

/-- The id of the work is taken out before anything else is looked at. -/
theorem kept_recordCompletion (work : FlowWork) (now : ℕ) :
    KeptOnError c ((recordCompletion work now).call c) ↔ ¬ c.CompletionFailsMidway work now := by
  unfold recordCompletion
  simp only [call_get_bind, call_modify_bind, kept_failIf_bind, kept_checkedAdd_bind,
    kept_checkedSub_bind, kept_evaluateM, observeCompletion_completedMediaTotal]
  by_cases hactive : work.admissionId ∈ c.activeAdmissions
  · have htaken : ∀ d : AdaptiveFlowController F,
        d.activeAdmissions = c.activeAdmissions.erase work.admissionId → (d = c ↔ False) := by
      intro d hd
      refine iff_false_intro fun heq => ?_
      rw [heq] at hd
      exact Finset.notMem_erase work.admissionId c.activeAdmissions (hd ▸ hactive)
    simp (disch := simp) only [htaken]
    constructor
    · intro hkept hmid
      have := hmid.late
      simp only [hmid.own, hactive, ne_eq, not_true_eq_false, if_false] at hkept
      split_ifs at hkept
      omega
    · intro hmid
      split_ifs with hown <;> try trivial
      all_goals exact hmid ⟨not_not.mp hown, hactive, by omega⟩
  · have hnot : ¬ c.CompletionFailsMidway work now := fun h => hactive h.active
    simp [hactive, hnot]

theorem kept_recordDrop (m : FrameMeasurement) (reason : FlowDropReason) :
    KeptOnError c ((recordDrop m reason).call c) ↔ ¬ c.DropFailsMidway m := by
  unfold recordDrop
  simp only [call_get_bind, call_modify_bind, kept_failIf_bind, kept_checkedAdd_bind,
    kept_evaluateM, takeQueued]
  cases hqueued : c.lacksQueued m with
  | true =>
    have hnot : ¬ c.DropFailsMidway m := fun h => by simp [h.queued] at hqueued
    simp [hnot]
  | false =>
    have htaken : ∀ d : AdaptiveFlowController F, d.queuedFrames = c.queuedFrames - 1 →
        (d = c ↔ False) := by
      intro d hd
      refine iff_false_intro fun heq => ?_
      simp only [lacksQueued, Bool.or_eq_false_iff, decide_eq_false_iff_not] at hqueued
      rw [heq] at hd
      omega
    simp (disch := rfl) only [htaken]
    constructor
    · intro hkept hmid
      have := hmid.late
      simp only [hmid.lossy, Bool.false_eq_true, if_false] at hkept
      split_ifs at hkept
      omega
    · intro hmid
      split_ifs with hlossless <;> try trivial
      all_goals exact hmid ⟨hlossless, hqueued, by omega⟩

end AdaptiveFlowController

/-- A call that fails after its first write. -/
def Call.FailsMidway (c : AdaptiveFlowController F) : Call → Prop
  | .recordEnqueue measurement now => c.EnqueueFailsMidway measurement now
  | .recordAdmission measurement _ => c.AdmissionFailsMidway measurement
  | .recordCompletion work now => c.CompletionFailsMidway work now
  | .recordDrop measurement _ => c.DropFailsMidway measurement
  | .sample _ => False

/-- A call that returns an error leaves every field of the controller as it was, exactly unless it
fails after its first write. -/
theorem failed_call_unchanged [Float64 F] (c : AdaptiveFlowController F) (call : Call) :
    KeptOnError c (call.run c) ↔ ¬ call.FailsMidway c := by
  cases call with
  | recordEnqueue measurement now => exact c.kept_recordEnqueue measurement now
  | recordAdmission measurement now =>
    exact kept_map.trans (c.kept_recordAdmission measurement now)
  | recordCompletion work now => exact c.kept_recordCompletion work now
  | recordDrop measurement reason => exact c.kept_recordDrop measurement reason
  | sample now =>
    simp only [Call.FailsMidway, not_false_iff, iff_true]
    intro e he
    cases he

/-- A frame that fills the byte account, after which the next one is counted and refused. -/
theorem failed_call_changes : ¬ ∀ s : Upstream ℚ, (anyCalls ℚ).Reachable s →
    ∀ call : Call, KeptOnError s.controller (call.run s.controller) := by
  intro hall
  have hinit : (anyCalls ℚ).init pausableStart := ⟨⟨.default, 0, rfl, rfl⟩, rfl⟩
  obtain ⟨s, hr, hp⟩ := Transition.System.exists_reachable_of_run hinit
    [.recordEnqueue ⟨usizeMax, 0⟩ 0]
    (fun s => decide (s.controller.queuedFrames = 1 ∧ s.controller.queuedBytes = usizeMax ∧
      s.controller.lastInputAt = some 0)) (by decide +kernel)
  obtain ⟨hframes, hbytes, hlast⟩ := of_decide_eq_true hp
  have hkept := hall s hr (.recordEnqueue ⟨1, 0⟩ 0)
  refine (s.controller.kept_recordEnqueue ⟨1, 0⟩ 0).mp hkept ⟨?_, ?_⟩
  · simp [hlast]
  · rw [if_pos (by rw [hframes]; decide)]
    left
    rw [hbytes]
    decide

end Muxiva.Flow
