import Muxiva.Graph.Types

/-! The small state machine of `RuntimeControl` that stop calls, failing workers, failing
dispatchers and the coordinator race on. Each operation is one critical section. -/
set_option linter.all false
namespace Muxiva.Runtime

inductive ConcurrentRuntimeState where
  | starting
  | running
  | stopping
  | finishing
  | aborting
  | finished
  | aborted
  deriving DecidableEq, Repr

structure ConcurrentRunSummary where
  workerTotal : ℕ
  deriving DecidableEq, Repr

inductive RunResult where
  | ok (summary : ConcurrentRunSummary)
  | err (reason : AbortReason)
  deriving DecidableEq, Repr

/-- `ControlState`. `wins` and `published` record the `request_abort` calls that returned true
and the results that were published, oldest first. -/
structure ControlState where
  state : ConcurrentRuntimeState
  reason : Option AbortReason
  successSealed : Bool
  result : Option RunResult
  wins : List AbortReason
  published : List RunResult
  deriving DecidableEq, Repr

namespace ControlState

def new : ControlState where
  state := .starting
  reason := none
  successSealed := false
  result := none
  wins := []
  published := []

def markRunning (c : ControlState) : ControlState :=
  if c.state = .starting ∧ c.reason = none then { c with state := .running } else c

def requestAbort (c : ControlState) (reason : AbortReason) : Bool × ControlState :=
  if c.reason.isSome ∨ c.successSealed ∨ c.result.isSome then (false, c)
  else (true, { c with
    reason := some reason
    state := if c.state = .finishing then .aborting else .stopping
    wins := c.wins ++ [reason] })

def beginFinishing (c : ControlState) : Bool × ControlState :=
  if c.reason.isSome ∨ c.result.isSome then (false, c)
  else
    let c := if c.state = .starting ∨ c.state = .running then { c with state := .finishing } else c
    (c.state = .finishing, c)

def sealSuccess (c : ControlState) : Bool × ControlState :=
  if c.reason = none ∧ c.result = none then (true, { c with successSealed := true }) else (false, c)

def publishSuccess (c : ControlState) (summary : ConcurrentRunSummary) : ControlState :=
  { c with
    state := .finished
    result := some (.ok summary)
    published := c.published ++ [.ok summary] }

/-- `none` when the `expect` fires. -/
def beginAborting (c : ControlState) : Option AbortReason × ControlState :=
  (c.reason, { c with state := .aborting })

def publishAbort (c : ControlState) (reason : AbortReason) : ControlState :=
  { c with
    state := .aborted
    result := some (.err reason)
    published := c.published ++ [.err reason] }

end ControlState

/-- What `coordinate` is about to do with the control state. -/
inductive CoordPhase where
  | collect
  | checkReason
  | beginFinishing
  | finishing
  | failing (reason : AbortReason)
  | sealing
  | publishing
  | beginAborting
  | aborting (reason : AbortReason)
  | done
  /-- the `expect` of `begin_aborting` fired -/
  | panicked
  deriving DecidableEq, Repr

/-- One critical section of any party: an abort request or a worker that starts running, at any
time; otherwise the coordinator, in its own order. -/
inductive ControlStep (summary : ConcurrentRunSummary) :
    ControlState × CoordPhase → ControlState × CoordPhase → Prop where
  | requestAbort (c p) (r : AbortReason) : ControlStep summary (c, p) ((c.requestAbort r).2, p)
  | markRunning (c p) : ControlStep summary (c, p) (c.markRunning, p)
  | collected (c) : ControlStep summary (c, .collect) (c, .checkReason)
  | checkReason (c) : ControlStep summary (c, .checkReason)
      (c, if c.reason = none then .beginFinishing else .beginAborting)
  | beginFinishing (c) : ControlStep summary (c, .beginFinishing)
      (c.beginFinishing.2, if c.beginFinishing.1 then .finishing else .beginAborting)
  | finishFailed (c) (r : AbortReason) : ControlStep summary (c, .finishing) (c, .failing r)
  | finished (c) : ControlStep summary (c, .finishing) (c, .sealing)
  | failing (c) (r : AbortReason) :
      ControlStep summary (c, .failing r) ((c.requestAbort r).2, .sealing)
  | sealing (c) : ControlStep summary (c, .sealing)
      (c.sealSuccess.2, if c.sealSuccess.1 then .publishing else .beginAborting)
  | publishing (c) : ControlStep summary (c, .publishing) (c.publishSuccess summary, .done)
  | beginAborting (c) : ControlStep summary (c, .beginAborting)
      (c.beginAborting.2, match c.beginAborting.1 with
        | some r => .aborting r
        | none => .panicked)
  | aborting (c) (r : AbortReason) : ControlStep summary (c, .aborting r) (c.publishAbort r, .done)

/-- The published result the winners call for. -/
def outcomeOf (summary : ConcurrentRunSummary) (wins : List AbortReason) : RunResult :=
  match wins with
  | [] => .ok summary
  | r :: _ => .err r

/-- What holds between the flags of the control state, phase by phase of the coordinator. -/
structure ControlInv (summary : ConcurrentRunSummary) (c : ControlState) (p : CoordPhase) :
    Prop where
  wins : c.wins = c.reason.toList
  sealed : c.successSealed = true → c.reason = none ∧ (p = .publishing ∨ p = .done)
  publishing : p = .publishing → c.successSealed = true
  starting : c.reason = none → p = .collect ∨ p = .checkReason ∨ p = .beginFinishing →
    c.state = .starting ∨ c.state = .running
  reasoned : p = .beginAborting → c.reason.isSome = true
  aborting : ∀ r, p = .aborting r → c.reason = some r
  alive : p ≠ .panicked
  unpublished : p ≠ .done → c.result = none ∧ c.published = []
  done : p = .done → c.published = [outcomeOf summary c.wins] ∧
    c.result = some (outcomeOf summary c.wins) ∧ (c.state = .finished ∨ c.state = .aborted)

variable {summary : ConcurrentRunSummary} {c : ControlState} {p : CoordPhase}

theorem controlInv_new : ControlInv summary .new .collect := by
  constructor <;> simp [ControlState.new]

/-- A refused request changes nothing; a granted one finds no reason, no seal and no result. -/
theorem requestAbort_cases (c : ControlState) (r : AbortReason) :
    (c.requestAbort r).2 = c ∧ (c.requestAbort r).1 = false ∨
    c.reason = none ∧ c.successSealed = false ∧ c.result = none ∧ (c.requestAbort r).1 = true ∧
      ∃ st, (c.requestAbort r).2 =
        { c with reason := some r, state := st, wins := c.wins ++ [r] } := by
  unfold ControlState.requestAbort
  by_cases h : c.reason.isSome ∨ c.successSealed ∨ c.result.isSome
  · rw [if_pos h]
    exact .inl ⟨rfl, rfl⟩
  · rw [if_neg h]
    simp only [not_or, Option.isSome_iff_exists, not_exists, Bool.not_eq_true] at h
    refine .inr ⟨?_, h.2.1, ?_, rfl, _, rfl⟩
    · exact Option.eq_none_iff_forall_ne_some.mpr h.1
    · exact Option.eq_none_iff_forall_ne_some.mpr h.2.2

theorem controlInv_requestAbort (h : ControlInv summary c p) (r : AbortReason) :
    ControlInv summary (c.requestAbort r).2 p := by
  obtain ⟨heq, -⟩ | ⟨hr, hs, hres, -, st, heq⟩ := requestAbort_cases c r
  · rw [heq]
    exact h
  · rw [heq]
    have hdone : p ≠ .done := by
      rintro rfl
      simp [(h.done rfl).2.1] at hres
    refine ⟨by simp [h.wins, hr], by simp [hs], h.publishing, by simp, by simp, fun r' hp => ?_,
      h.alive, h.unpublished, fun hp => absurd hp hdone⟩
    simp [h.aborting r' hp] at hr

theorem controlInv_markRunning (h : ControlInv summary c p) :
    ControlInv summary c.markRunning p := by
  unfold ControlState.markRunning
  split_ifs with hs
  · refine ⟨h.wins, h.sealed, h.publishing, fun _ _ => .inr rfl, h.reasoned, h.aborting, h.alive,
      h.unpublished, fun hp => ?_⟩
    simpa [hs.1] using (h.done hp).2.2
  · exact h

theorem controlInv_beginFinishing (h : ControlInv summary c .beginFinishing) :
    ControlInv summary c.beginFinishing.2
      (if c.beginFinishing.1 then .finishing else .beginAborting) := by
  obtain ⟨hres, hpub⟩ := h.unpublished (by simp)
  cases hr : c.reason with
  | none =>
    have hst := h.starting hr (by simp)
    have hsealed : c.successSealed = false := by
      by_contra hne
      simpa using (h.sealed (by simpa using hne)).2
    simp only [ControlState.beginFinishing, hr, hres, Option.isSome_none, Bool.false_eq_true,
      or_self, if_false, if_pos hst, decide_true, if_true]
    constructor <;> simp [hr, hpub, hsealed, h.wins]
  | some r =>
    simp only [ControlState.beginFinishing, hr, Option.isSome_some, true_or, if_true,
      Bool.false_eq_true, if_false]
    exact ⟨h.wins, fun hs => by simp [(h.sealed hs).1] at hr, by simp, by simp [hr], by simp [hr],
      by simp, by simp, fun _ => ⟨hres, hpub⟩, by simp⟩

theorem controlInv_sealing (h : ControlInv summary c .sealing) :
    ControlInv summary c.sealSuccess.2
      (if c.sealSuccess.1 then .publishing else .beginAborting) := by
  obtain ⟨hres, hpub⟩ := h.unpublished (by simp)
  cases hr : c.reason with
  | none =>
    simp only [ControlState.sealSuccess, hr, hres, and_self, if_true]
    constructor <;> simp [hr, hpub, h.wins]
  | some r =>
    simp only [ControlState.sealSuccess, hr, reduceCtorEq, false_and, if_false, Bool.false_eq_true]
    exact ⟨h.wins, fun hs => by simp [(h.sealed hs).1] at hr, by simp, by simp, by simp [hr],
      by simp, by simp, fun _ => ⟨hres, hpub⟩, by simp⟩

/-- Phases between the collection of the exits and the seal carry no promise of their own. -/
theorem ControlInv.move {q : CoordPhase} (h : ControlInv summary c p) (hp : p ≠ .done)
    (hpub : p ≠ .publishing) (hq : q = .checkReason ∧ p = .collect ∨ q = .sealing ∨
      (∃ r, q = .failing r) ∨ (q = .beginFinishing ∧ p = .checkReason) ∨
      q = .beginAborting ∧ c.reason.isSome = true) : ControlInv summary c q := by
  have hunpub := h.unpublished hp
  have hsealed : ¬ c.successSealed = true := fun hs => by
    rcases (h.sealed hs).2 with rfl | rfl
    · exact hpub rfl
    · exact hp rfl
  rcases hq with ⟨rfl, rfl⟩ | rfl | ⟨r, rfl⟩ | ⟨rfl, rfl⟩ | ⟨rfl, hr⟩
  · exact ⟨h.wins, by simp [hsealed], by simp, fun hn _ => h.starting hn (by simp), by simp,
      by simp, by simp, fun _ => hunpub, by simp⟩
  · exact ⟨h.wins, by simp [hsealed], by simp, by simp, by simp, by simp, by simp, fun _ => hunpub,
      by simp⟩
  · exact ⟨h.wins, by simp [hsealed], by simp, by simp, by simp, by simp, by simp, fun _ => hunpub,
      by simp⟩
  · exact ⟨h.wins, by simp [hsealed], by simp, fun hn _ => h.starting hn (by simp), by simp,
      by simp, by simp, fun _ => hunpub, by simp⟩
  · exact ⟨h.wins, by simp [hsealed], by simp, by simp, fun _ => hr, by simp, by simp,
      fun _ => hunpub, by simp⟩

/-- Every critical section keeps the invariant. -/
theorem controlInv_step {x y : ControlState × CoordPhase} (hs : ControlStep summary x y)
    (h : ControlInv summary x.1 x.2) : ControlInv summary y.1 y.2 := by
  cases hs with
  | requestAbort c p r => exact controlInv_requestAbort h r
  | markRunning c p => exact controlInv_markRunning h
  | collected c => exact h.move (by simp) (by simp) (.inl ⟨rfl, rfl⟩)
  | checkReason c =>
    refine h.move (by simp) (by simp) ?_
    by_cases hr : c.reason = none
    · simp [hr]
    · simp [hr, Option.isSome_iff_ne_none]
  | beginFinishing c => exact controlInv_beginFinishing h
  | finishFailed c r => exact h.move (by simp) (by simp) (.inr (.inr (.inl ⟨r, rfl⟩)))
  | finished c => exact h.move (by simp) (by simp) (.inr (.inl rfl))
  | failing c r =>
    exact (controlInv_requestAbort h r).move (by simp) (by simp) (.inr (.inl rfl))
  | sealing c => exact controlInv_sealing h
  | publishing c =>
    change ControlInv summary c .publishing at h
    have hseal := h.publishing rfl
    obtain ⟨hr, -⟩ := h.sealed hseal
    obtain ⟨-, hpub⟩ := h.unpublished (by simp)
    have hwins : c.wins = [] := by simp [h.wins, hr]
    constructor <;> simp [ControlState.publishSuccess, outcomeOf, hr, hpub, hwins]
  | beginAborting c =>
    change ControlInv summary c .beginAborting at h
    obtain ⟨r, hr⟩ := Option.isSome_iff_exists.mp (h.reasoned rfl)
    have hsealed : ¬ c.successSealed = true := fun hs => by simpa [hr] using (h.sealed hs).1
    have hwins := h.wins
    have hunpub := h.unpublished (by simp)
    rw [hr] at hwins
    simp only [ControlState.beginAborting, hr]
    constructor <;> simp [hwins, hsealed, hunpub]
  | aborting c r =>
    change ControlInv summary c (.aborting r) at h
    have hr : c.reason = some r := h.aborting r rfl
    obtain ⟨-, hpub⟩ := h.unpublished (by simp)
    have hwins : c.wins = [r] := by simp [h.wins, hr]
    have hsealed : ¬ c.successSealed = true := fun hs => by simpa [hr] using (h.sealed hs).1
    constructor <;> simp [ControlState.publishAbort, outcomeOf, hr, hpub, hwins, hsealed]

/-- A reason, once installed, stays. -/
theorem reason_stays {x y : ControlState × CoordPhase} (hs : ControlStep summary x y)
    {r : AbortReason} (hr : x.1.reason = some r) : y.1.reason = some r := by
  have hreq : ∀ c : ControlState, ∀ r', c.reason = some r →
      (c.requestAbort r').2.reason = some r := by
    intro c r' hc
    obtain ⟨heq, -⟩ | ⟨hn, -⟩ := requestAbort_cases c r'
    · rw [heq]
      exact hc
    · simp [hc] at hn
  cases hs with
  | requestAbort c p r' => exact hreq c r' hr
  | failing c r' => exact hreq c r' hr
  | markRunning c p =>
    simp only [ControlState.markRunning]
    split_ifs <;> exact hr
  | beginFinishing c =>
    change c.reason = some r at hr
    simp [ControlState.beginFinishing, hr]
  | sealing c =>
    change c.reason = some r at hr
    simp [ControlState.sealSuccess, hr]
  | _ => exact hr

/-- After the seal no request wins, and after the publication state and result stay. -/
theorem control_frozen {x y : ControlState × CoordPhase} (hs : ControlStep summary x y)
    (h : ControlInv summary x.1 x.2) :
    (x.1.successSealed = true → y.1.wins = x.1.wins) ∧
      (x.1.result.isSome = true → y.1.state = x.1.state ∧ y.1.result = x.1.result) := by
  have hdone : x.1.result.isSome = true → x.2 = .done := fun hr => by
    by_contra hne
    simp [(h.unpublished hne).1] at hr
  have hreq : ∀ c : ControlState, ∀ r, (c.successSealed = true →
      (c.requestAbort r).2.wins = c.wins) ∧ (c.result.isSome = true → (c.requestAbort r).2 = c) := by
    intro c r
    obtain ⟨heq, -⟩ | ⟨hr, hsl, hres, -⟩ := requestAbort_cases c r
    · simp [heq]
    · simp [hsl, hres]
  have hmark : ∀ c : ControlState, c.markRunning.wins = c.wins ∧
      (c.state ≠ .starting → c.markRunning = c) := by
    intro c
    unfold ControlState.markRunning
    split_ifs with hst
    · exact ⟨rfl, fun hne => absurd hst.1 hne⟩
    · exact ⟨rfl, fun _ => rfl⟩
  cases hs with
  | requestAbort c p r => exact ⟨(hreq c r).1, fun hr => by simp [(hreq c r).2 hr]⟩
  | markRunning c p =>
    refine ⟨fun _ => (hmark c).1, fun hr => ?_⟩
    have hst : c.state ≠ .starting := by
      rcases (h.done (hdone hr)).2.2 with hst | hst
      · exact fun he => absurd (he.symm.trans hst) (by simp)
      · exact fun he => absurd (he.symm.trans hst) (by simp)
    simp [(hmark c).2 hst]
  | failing c r => exact ⟨(hreq c r).1, fun hr => absurd (hdone hr) (by simp)⟩
  | collected c | checkReason c | finishFailed c r | finished c => simp
  | beginFinishing c =>
    refine ⟨fun _ => ?_, fun hr => absurd (hdone hr) (by simp)⟩
    simp only [ControlState.beginFinishing]
    split_ifs <;> rfl
  | sealing c =>
    refine ⟨fun _ => ?_, fun hr => absurd (hdone hr) (by simp)⟩
    simp only [ControlState.sealSuccess]
    split_ifs <;> rfl
  | publishing c => exact ⟨fun _ => rfl, fun hr => absurd (hdone hr) (by simp)⟩
  | beginAborting c => exact ⟨fun _ => rfl, fun hr => absurd (hdone hr) (by simp)⟩
  | aborting c r => exact ⟨fun _ => rfl, fun hr => absurd (hdone hr) (by simp)⟩

end Muxiva.Runtime
