import Mathlib.Data.List.DropRight
import Muxiva.Flow.Conservation

/-! The control signals of a controller. Only an evaluation changes the mode, and it tells the
upstream whenever the mode enters or leaves `normal`; every other step of a call leaves mode,
profile and history alone. -/
set_option linter.all false
namespace Muxiva.Flow

variable {F : Type}

/-- The control signal an action sends upstream. -/
def FlowAction.signal : FlowAction → Option FlowSignalObservation
  | .emitPressure => some .pressure
  | .emitResume => some .resume
  | _ => none

def FlowUpdate.signals (u : FlowUpdate) : List FlowSignalObservation :=
  u.actions.filterMap FlowAction.signal

namespace AdaptiveFlowController
variable {c d t : AdaptiveFlowController F}

/-- `d` has the mode, the profile and the history of `c`. -/
structure SameMode (c d : AdaptiveFlowController F) : Prop where
  profile : d.profile = c.profile
  state : d.state = c.state
  healthySamples : d.healthySamples = c.healthySamples
  signals : d.signals = c.signals

theorem SameMode.refl (c : AdaptiveFlowController F) : SameMode c c := ⟨rfl, rfl, rfl, rfl⟩

theorem SameMode.trans (h : SameMode c d) (h' : SameMode d t) : SameMode c t :=
  ⟨h'.profile.trans h.profile, h'.state.trans h.state,
    h'.healthySamples.trans h.healthySamples, h'.signals.trans h.signals⟩

theorem profile_transition (desired : FlowState) (healthy : Bool) :
    (c.transition desired healthy).profile = c.profile ∧
      (c.transition desired healthy).signals = c.signals := by
  unfold transition
  split <;> (try split) <;> (try dsimp only) <;> (try split) <;> exact ⟨rfl, rfl⟩

/-- A signal in the history of an upstream that can pause. -/
def remember (signals : List FlowSignalObservation) (signal : FlowSignalObservation) :
    List FlowSignalObservation :=
  (if signals.length = signalHistoryLimit then signals.tail else signals) ++ [signal]

theorem recordSignal_eq (h : c.profile.contract.upstreamCanPause = true)
    (signal : FlowSignalObservation) :
    c.recordSignal signal = { c with signals := remember c.signals signal } := by
  unfold recordSignal
  rw [if_neg (by simp [h])]
  rfl

theorem signals_actions (emitResume emitPressure : Bool) :
    (c.actions emitResume emitPressure).filterMap FlowAction.signal =
      if c.state = .normal then (if emitResume then [.resume] else [])
      else if emitPressure then [.pressure] else [] := by
  cases hs : c.state with
  | normal => cases emitResume <;> simp only [actions, hs] <;> rfl
  | pressure =>
    cases hm : c.profile.tuning.maxMergeDuration <;> cases emitPressure <;>
      simp only [actions, hs, hm] <;> rfl
  | critical =>
    cases hp : c.profile.tuning.overflowPolicy <;> cases emitPressure <;>
      simp only [actions, hs, hp] <;> rfl

variable [Float64 F]

/-- One evaluation: the mode stays on its side of `normal` and nothing is sent, or it enters
pressure, or it resumes. -/
theorem evaluate_signals (h : c.profile.contract.upstreamCanPause = true) :
    c.evaluate.2.profile = c.profile ∧
    ((c.evaluate.1.signals = [] ∧ c.evaluate.2.signals = c.signals ∧
        (c.evaluate.2.state = .normal ↔ c.state = .normal)) ∨
      (c.evaluate.1.signals = [.pressure] ∧ c.state = .normal ∧ c.evaluate.2.state ≠ .normal ∧
        c.evaluate.2.signals = remember c.signals .pressure) ∨
      (c.evaluate.1.signals = [.resume] ∧ c.state ≠ .normal ∧ c.evaluate.2.state = .normal ∧
        c.evaluate.2.signals = remember c.signals .resume)) := by
  obtain ⟨hprofile, hsignals⟩ :=
    profile_transition (c := c) (c.assess c.predict).1 (c.assess c.predict).2
  set moved := c.transition (c.assess c.predict).1 (c.assess c.predict).2 with hmoved
  have hpause : moved.profile.contract.upstreamCanPause = true := by rw [hprofile, h]
  have hresume := recordSignal_eq hpause .resume
  have hpressure := recordSignal_eq hpause .pressure
  have hquiet : (moved.state = .normal ↔ c.state = .normal) →
      c.evaluate = (⟨moved.snapshotWithPrediction c.predict, moved.actions false false⟩, moved) := by
    intro hside
    by_cases hc : c.state = .normal
    · simp [evaluate, ← hmoved, hc, hside.mpr hc]
    · have hm : moved.state ≠ .normal := fun hm => hc (hside.mp hm)
      simp [evaluate, ← hmoved, hc, hm]
  have hsent : ∀ emitResume emitPressure, ∀ told : AdaptiveFlowController F, ∀ snapshot,
      (FlowUpdate.mk snapshot (told.actions emitResume emitPressure)).signals =
        if told.state = .normal then (if emitResume then [.resume] else [])
        else if emitPressure then [.pressure] else [] :=
    fun emitResume emitPressure told _ => signals_actions emitResume emitPressure
  by_cases hc : c.state = .normal <;> by_cases hm : moved.state = .normal
  · rw [hquiet (by simp [hc, hm]), hsent]
    exact ⟨hprofile, .inl ⟨by simp, hsignals, by simp [hc, hm]⟩⟩
  · have htold : c.evaluate = (⟨(moved.recordSignal .pressure).snapshotWithPrediction c.predict,
        (moved.recordSignal .pressure).actions false true⟩, moved.recordSignal .pressure) := by
      simp [evaluate, ← hmoved, hc, hm]
    rw [htold, hsent, hpressure]
    exact ⟨hprofile, .inr (.inl ⟨by simp [hm], hc, hm, by rw [← hsignals]⟩)⟩
  · have htold : c.evaluate = (⟨(moved.recordSignal .resume).snapshotWithPrediction c.predict,
        (moved.recordSignal .resume).actions true false⟩, moved.recordSignal .resume) := by
      simp [evaluate, ← hmoved, hc, hm]
    rw [htold, hsent, hresume]
    exact ⟨hprofile, .inr (.inr ⟨by simp [hm], hc, hm, by rw [← hsignals]⟩)⟩
  · rw [hquiet (by simp [hc, hm]), hsent]
    exact ⟨hprofile, .inl ⟨by simp, hsignals, by simp [hc, hm]⟩⟩

end AdaptiveFlowController

namespace FlowM
open AdaptiveFlowController

variable {α β : Type}

/-- A part of a call that looks at no threshold. -/
def Quiet (m : FlowM F α) : Prop := ∀ c, SameMode c (m.call c).2

/-- A call that ends in an evaluation, or fails before it. -/
def Evaluates [Float64 F] (update : α → FlowUpdate) (m : FlowM F α) : Prop :=
  ∀ c, match m.call c with
    | (.ok a, d) => ∃ t, SameMode c t ∧ t.evaluate = (update a, d)
    | (.error _, d) => SameMode c d

theorem quiet_pure (a : α) : Quiet (pure a : FlowM F α) := fun c => .refl c

theorem quiet_get : Quiet (get : FlowM F _) := fun c => .refl c

theorem quiet_modify {g : AdaptiveFlowController F → AdaptiveFlowController F}
    (h : ∀ c, SameMode c (g c)) : Quiet (modify g : FlowM F PUnit) := h

theorem quiet_ofOption (e : FlowError) (x : Option α) : Quiet (ofOption e x : FlowM F α) := by
  intro c
  cases x <;> exact .refl c

theorem quiet_failIf (p : Prop) [Decidable p] (e : FlowError) :
    Quiet (failIf p e : FlowM F Unit) := by
  intro c
  unfold failIf
  split <;> exact .refl c

theorem Quiet.bind {m : FlowM F α} {f : α → FlowM F β} (hm : Quiet m) (hf : ∀ a, Quiet (f a)) :
    Quiet (m >>= f) := by
  intro c
  have hfirst := hm c
  rw [call_bind]
  rcases hcall : m.call c with ⟨e | a, t⟩ <;> rw [hcall] at hfirst
  · exact hfirst
  · exact hfirst.trans (hf a t)

variable [Float64 F]

theorem Quiet.bind_evaluates {update : β → FlowUpdate} {m : FlowM F α} {f : α → FlowM F β}
    (hm : Quiet m) (hf : ∀ a, Evaluates update (f a)) : Evaluates update (m >>= f) := by
  intro c
  have hfirst := hm c
  rw [call_bind]
  rcases hcall : m.call c with ⟨e | a, t⟩ <;> rw [hcall] at hfirst
  · exact hfirst
  · have hrest := hf a t
    dsimp only
    rcases hend : (f a).call t with ⟨e | b, d⟩ <;> rw [hend] at hrest
    · exact hfirst.trans hrest
    · obtain ⟨t', hsame, he⟩ := hrest
      exact ⟨t', hfirst.trans hsame, he⟩

/-- A write of fields the signals do not depend on. -/
theorem evaluates_modify {update : β → FlowUpdate}
    {g : AdaptiveFlowController F → AdaptiveFlowController F} {f : PUnit → FlowM F β}
    (hf : Evaluates update (f ⟨⟩))
    (hg : ∀ c, SameMode c (g c) := by exact fun _ => ⟨rfl, rfl, rfl, rfl⟩) :
    Evaluates update (modify g >>= f) :=
  (quiet_modify hg).bind_evaluates fun _ => hf

/-- A checked change of one counter. -/
theorem evaluates_count {update : β → FlowUpdate} {e : FlowError}
    {x : AdaptiveFlowController F → Option ℕ}
    {g : ℕ → AdaptiveFlowController F → AdaptiveFlowController F} {f : PUnit → FlowM F β}
    (hf : Evaluates update (f ⟨⟩))
    (hg : ∀ n c, SameMode c (g n c) := by exact fun _ _ => ⟨rfl, rfl, rfl, rfl⟩) :
    Evaluates update (get >>= fun c => ofOption e (x c) >>= fun n => modify (g n) >>= f) :=
  quiet_get.bind_evaluates fun _ => (quiet_ofOption e _).bind_evaluates fun n =>
    evaluates_modify hf (hg n)

/-- A guard on the controller. -/
theorem evaluates_guard {update : β → FlowUpdate} {e : FlowError}
    {p : AdaptiveFlowController F → Prop} [∀ c, Decidable (p c)] {f : Unit → FlowM F β}
    (hf : Evaluates update (f ())) :
    Evaluates update (get >>= fun c => failIf (p c) e >>= f) :=
  quiet_get.bind_evaluates fun _ => (quiet_failIf _ e).bind_evaluates fun _ => hf

theorem evaluates_evaluateM : Evaluates id (evaluateM : FlowM F FlowUpdate) := by
  intro c
  exact ⟨c, .refl c, rfl⟩

end FlowM

namespace AdaptiveFlowController
open FlowM
variable [Float64 F]

theorem quiet_observeInput (m : FrameMeasurement) (now : ℕ) :
    Quiet (observeInput m now : FlowM F Unit) := by
  refine quiet_get.bind fun c => ?_
  cases c.lastInputAt with
  | none => exact quiet_pure ()
  | some previous =>
    refine (quiet_ofOption _ _).bind fun elapsed => quiet_modify fun c => ?_
    split <;> exact ⟨rfl, rfl, rfl, rfl⟩

theorem evaluates_recordEnqueue (m : FrameMeasurement) (now : ℕ) :
    Evaluates id (recordEnqueue m now : FlowM F FlowUpdate) := by
  refine (quiet_observeInput (F := F) m now).bind_evaluates fun _ => ?_
  refine evaluates_modify ?_
  refine evaluates_count (evaluates_count (evaluates_count (evaluates_count ?_)))
  exact evaluates_evaluateM

theorem evaluates_recordAdmission (m : FrameMeasurement) (now : ℕ) :
    Evaluates Prod.snd (recordAdmission m now : FlowM F (FlowWork × FlowUpdate)) := by
  refine evaluates_guard (quiet_get.bind_evaluates fun c => ?_)
  refine (quiet_ofOption _ _).bind_evaluates fun nextAdmissionId => ?_
  refine evaluates_modify (evaluates_modify ?_)
  refine evaluates_count (evaluates_count (evaluates_count (evaluates_guard (evaluates_modify ?_))))
  refine quiet_get.bind_evaluates fun c => ?_
  intro t
  exact ⟨t, .refl t, rfl⟩

theorem evaluates_recordCompletion (work : FlowWork) (now : ℕ) :
    Evaluates id (recordCompletion work now : FlowM F FlowUpdate) := by
  refine evaluates_guard (evaluates_guard (evaluates_modify ?_))
  refine quiet_get.bind_evaluates fun c => (quiet_failIf _ _).bind_evaluates fun _ => ?_
  refine (quiet_ofOption _ _).bind_evaluates fun serviceTime => ?_
  refine evaluates_modify (evaluates_modify (evaluates_count evaluates_evaluateM)) fun c => ?_
  unfold observeCompletion
  split <;> exact ⟨rfl, rfl, rfl, rfl⟩

theorem evaluates_recordDrop (m : FrameMeasurement) (reason : FlowDropReason) :
    Evaluates id (recordDrop m reason : FlowM F FlowUpdate) := by
  refine evaluates_guard (evaluates_guard (evaluates_modify ?_))
  exact evaluates_count (evaluates_count (evaluates_count evaluates_evaluateM))

theorem evaluate_sample (now : ℕ) (c : AdaptiveFlowController F) :
    ∃ t, SameMode c t ∧ t.evaluate = c.sample now := by
  unfold sample
  refine ⟨_, ?_, rfl⟩
  split <;> exact ⟨rfl, rfl, rfl, rfl⟩

end AdaptiveFlowController

section Calls
variable [Float64 F]

/-- What a call returns and leaves behind. -/
def Call.run (c : AdaptiveFlowController F) :
    Call → Except FlowError FlowUpdate × AdaptiveFlowController F
  | .recordEnqueue measurement now => (AdaptiveFlowController.recordEnqueue measurement now).call c
  | .recordAdmission measurement now =>
    let (result, c) := (AdaptiveFlowController.recordAdmission measurement now).call c
    (result.map Prod.snd, c)
  | .recordCompletion work now => (AdaptiveFlowController.recordCompletion work now).call c
  | .recordDrop measurement reason =>
    (AdaptiveFlowController.recordDrop measurement reason).call c
  | .sample now => let (update, c) := c.sample now; (.ok update, c)

/-- A call evaluates the controller once, or fails and leaves mode and history alone. -/
theorem Call.run_cases (c : AdaptiveFlowController F) (call : Call) :
    (∃ t : AdaptiveFlowController F, c.SameMode t ∧
      call.run c = (.ok t.evaluate.1, t.evaluate.2)) ∨
      ∃ e d, call.run c = (.error e, d) ∧ c.SameMode d := by
  have hmethod : ∀ {α : Type} {update : α → FlowUpdate} {m : FlowM F α}, m.Evaluates update →
      (∃ t : AdaptiveFlowController F, c.SameMode t ∧
        ((m.call c).1.map update, (m.call c).2) = (.ok t.evaluate.1, t.evaluate.2)) ∨
        ∃ e d, ((m.call c).1.map update, (m.call c).2) = (.error e, d) ∧ c.SameMode d := by
    intro α update m hm
    have hcall := hm c
    rcases hr : m.call c with ⟨e | a, d⟩ <;> rw [hr] at hcall
    · exact .inr ⟨e, d, rfl, hcall⟩
    · obtain ⟨t, hsame, he⟩ := hcall
      exact .inl ⟨t, hsame, by rw [he]; rfl⟩
  have hid : ∀ r : Except FlowError FlowUpdate × AdaptiveFlowController F,
      (r.1.map id, r.2) = r := fun r => by cases r with | mk r c => cases r <;> rfl
  cases call with
  | recordEnqueue measurement now =>
    have hcall := hmethod (AdaptiveFlowController.evaluates_recordEnqueue measurement now)
    simpa only [hid, Call.run] using hcall
  | recordAdmission measurement now =>
    exact hmethod (AdaptiveFlowController.evaluates_recordAdmission measurement now)
  | recordCompletion work now =>
    have hcall := hmethod (AdaptiveFlowController.evaluates_recordCompletion work now)
    simpa only [hid, Call.run] using hcall
  | recordDrop measurement reason =>
    have hcall := hmethod (AdaptiveFlowController.evaluates_recordDrop measurement reason)
    simpa only [hid, Call.run] using hcall
  | sample now =>
    obtain ⟨t, hsame, he⟩ := AdaptiveFlowController.evaluate_sample now c
    exact .inl ⟨t, hsame, by rw [he]; rfl⟩

/-- A call that fails sends nothing. -/
def sentBy : Except FlowError FlowUpdate → List FlowSignalObservation
  | .ok update => update.signals
  | .error _ => []

/-- A controller with the control signals its updates have sent upstream. -/
structure Upstream (F : Type) where
  controller : AdaptiveFlowController F
  emitted : List FlowSignalObservation

/-- All sequences of calls on a fresh controller whose upstream can pause, failed calls included;
any `FlowWork` may be offered. -/
def anyCalls (F : Type) [Float64 F] : Transition.System (Upstream F) Call where
  init s := (∃ profile identity, profile.contract.upstreamCanPause = true ∧
    AdaptiveFlowController.new profile identity = .ok s.controller) ∧ s.emitted = []
  step s call :=
    let (result, controller) := call.run s.controller
    some ⟨controller, s.emitted ++ sentBy result⟩

/-- The signals the `n` first changes of side send. -/
def alternation (n : ℕ) : List FlowSignalObservation :=
  (List.range n).map fun i => if i % 2 = 0 then .pressure else .resume

theorem alternation_succ (n : ℕ) :
    alternation (n + 1) =
      alternation n ++ [if n % 2 = 0 then FlowSignalObservation.pressure else .resume] := by
  simp [alternation, List.range_succ]

theorem remember_rtake (emitted : List FlowSignalObservation) (signal : FlowSignalObservation) :
    AdaptiveFlowController.remember (emitted.rtake signalHistoryLimit) signal =
      (emitted ++ [signal]).rtake signalHistoryLimit := by
  rw [show signalHistoryLimit = 63 + 1 from rfl, List.rtake_concat_succ]
  unfold AdaptiveFlowController.remember
  congr 1
  simp only [List.rtake, List.length_drop, signalHistoryLimit]
  split_ifs with h
  · rw [List.tail_drop]
    congr 1
    omega
  · congr 1
    omega

structure Upstream.Told (s : Upstream F) : Prop where
  canPause : s.controller.profile.contract.upstreamCanPause = true
  emitted : s.emitted = alternation s.emitted.length
  side : s.emitted.length % 2 = 1 ↔ s.controller.state ≠ .normal
  history : s.controller.signals = s.emitted.rtake signalHistoryLimit

theorem told_init {s : Upstream F} (h : (anyCalls F).init s) : s.Told := by
  obtain ⟨⟨profile, identity, hpause, hnew⟩, hemitted⟩ := h
  simp only [AdaptiveFlowController.new] at hnew
  cases hv : profile.validate with
  | error e => simp [hv] at hnew
  | ok u =>
    simp only [hv, Except.ok.injEq] at hnew
    refine ⟨?_, ?_, ?_, ?_⟩
    · rw [← hnew]
      exact hpause
    · rw [hemitted]
      rfl
    · rw [hemitted, ← hnew]
      simp
    · rw [hemitted, ← hnew]
      rfl

theorem told_evaluate {s : Upstream F} {t : AdaptiveFlowController F} (h : s.Told)
    (hsame : s.controller.SameMode t) :
    Upstream.Told ⟨t.evaluate.2, s.emitted ++ t.evaluate.1.signals⟩ := by
  have hpause : t.profile.contract.upstreamCanPause = true := by rw [hsame.profile, h.canPause]
  have hside := h.side
  rw [← hsame.state] at hside
  have hhistory := h.history
  rw [← hsame.signals] at hhistory
  obtain ⟨hprofile, ⟨hsent, hsignals, hstate⟩ | ⟨hsent, hfrom, hto, hsignals⟩ |
    ⟨hsent, hfrom, hto, hsignals⟩⟩ := AdaptiveFlowController.evaluate_signals hpause
  · refine ⟨by rw [hprofile, hpause], ?_, ?_, ?_⟩
    · simpa only [hsent, List.append_nil] using h.emitted
    · simp only [hsent, List.append_nil, ne_eq, hstate]
      exact hside
    · simp only [hsent, List.append_nil, hsignals, hhistory]
  · have heven : s.emitted.length % 2 = 0 := by
      by_contra hodd
      exact hside.mp (by omega) hfrom
    refine ⟨by rw [hprofile, hpause], ?_, ?_, ?_⟩
    · simp only [hsent, List.length_append, List.length_singleton, alternation_succ, heven, if_true,
        ← h.emitted]
    · simp only [hsent, List.length_append, List.length_singleton]
      exact ⟨fun _ => hto, fun _ => by omega⟩
    · simp only [hsent, hsignals, hhistory, remember_rtake]
  · have hodd : s.emitted.length % 2 = 1 := hside.mpr hfrom
    refine ⟨by rw [hprofile, hpause], ?_, ?_, ?_⟩
    · simp only [hsent, List.length_append, List.length_singleton, alternation_succ, hodd,
        one_ne_zero, if_false, ← h.emitted]
    · simp only [hsent, List.length_append, List.length_singleton]
      exact ⟨fun h => by omega, fun h => absurd hto h⟩
    · simp only [hsent, hsignals, hhistory, remember_rtake]

theorem told_step {s t : Upstream F} {call : Call} (h : s.Told)
    (hs : (anyCalls F).step s call = some t) : t.Told := by
  rcases Call.run_cases s.controller call with ⟨c, hsame, hrun⟩ | ⟨e, d, hrun, hsame⟩
  · simp only [anyCalls, hrun] at hs
    cases hs
    exact told_evaluate h hsame
  · simp only [anyCalls, hrun] at hs
    cases hs
    refine ⟨by rw [hsame.profile, h.canPause], ?_, ?_, ?_⟩
    · simpa [sentBy] using h.emitted
    · simpa [sentBy, hsame.state] using h.side
    · simpa [sentBy, hsame.signals] using h.history

/-- Control signals alternate, pressure first; the last one is a pressure exactly while the
controller is under pressure; the history is what was sent last. -/
structure Upstream.Alternating (s : Upstream F) : Prop where
  alternate : ∀ i, (h : i < s.emitted.length) →
    s.emitted[i] = if i % 2 = 0 then .pressure else .resume
  outstanding : s.emitted.count .pressure =
    s.emitted.count .resume + if s.controller.state = .normal then 0 else 1
  bounded : s.controller.signals.length ≤ signalHistoryLimit
  latest : s.controller.signals = s.emitted.drop (s.emitted.length - signalHistoryLimit)

theorem count_alternation (n : ℕ) :
    (alternation n).count .pressure = (alternation n).count .resume + n % 2 := by
  induction n with
  | zero => rfl
  | succ n ih =>
    rw [alternation_succ, List.count_append, List.count_append, ih]
    rcases Nat.mod_two_eq_zero_or_one n with h | h <;> simp [h] <;> omega

theorem flow_signals {s : Upstream F} (h : (anyCalls F).Reachable s) : s.Alternating := by
  have htold : s.Told := h.invariant (fun _ h0 => told_init h0) fun _ _ _ _ hi hs => told_step hi hs
  refine ⟨fun i hi => ?_, ?_, ?_, htold.history⟩
  · have hget : s.emitted[i]? = (alternation s.emitted.length)[i]? := by rw [← htold.emitted]
    rw [List.getElem?_eq_getElem hi, alternation, List.getElem?_map, List.getElem?_range hi] at hget
    exact Option.some.inj hget
  · rw [htold.emitted, count_alternation]
    congr 1
    have hside := htold.side
    split_ifs with hn
    · have := mt hside.mp (not_not.mpr hn)
      omega
    · exact hside.mpr hn
  · rw [htold.history, List.rtake, List.length_drop]
    omega

end Calls

/-- One frame at the limit and its completion, then healthy samples: pressure, then resume. -/
def pressureCalls : List Call :=
  [.recordEnqueue ⟨100, fromMillis 250⟩ 0, .recordAdmission ⟨100, fromMillis 250⟩ 0,
   .recordCompletion ⟨0, 0, ⟨100, fromMillis 250⟩, 0⟩ (fromMillis 100),
   .sample (fromMillis 200), .sample (fromMillis 300), .sample (fromMillis 400)]

def pausableStart : Upstream ℚ :=
  ⟨(AdaptiveFlowController.new .default 0).toOption.get (by decide +kernel), []⟩

theorem flow_signals_resumed : ∃ s : Upstream ℚ, (anyCalls ℚ).Reachable s ∧
    s.emitted = [.pressure, .resume] ∧ s.controller.state = .normal ∧ s.Alternating := by
  have hinit : (anyCalls ℚ).init pausableStart := ⟨⟨.default, 0, rfl, rfl⟩, rfl⟩
  obtain ⟨s, hr, hp⟩ := Transition.System.exists_reachable_of_run hinit pressureCalls
    (fun s => decide (s.emitted = [.pressure, .resume] ∧ s.controller.state = .normal))
    (by decide +kernel)
  obtain ⟨hemitted, hstate⟩ := of_decide_eq_true hp
  exact ⟨s, hr, hemitted, hstate, flow_signals hr⟩

end Muxiva.Flow
