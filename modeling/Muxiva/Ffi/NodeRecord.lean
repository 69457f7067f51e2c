import Mathlib.Data.Set.Card
import Muxiva.Ffi.Abi
import Muxiva.Lib.System

/-! `NodeRecord`: the calls of `begin_run`, each with the guard it may return and the drop of that
guard, and the calls of `close_if_idle`. A step is one operation on an atomic. -/
set_option linter.all false
namespace Muxiva.Ffi

open Transition Transition.System

/-- Where a call of `begin_run` stands, and then its guard. -/
inductive Run where
  | idle
  | admitted
  | claimed
  | counted
  | refused
  | restoring
  | failed (error : FfiError)
  | guard
  | dropping
  | dropped
  deriving DecidableEq, Repr

/-- Where a call of `close_if_idle` stands. -/
inductive Closer where
  | idle
  | closing
  | returned (result : Except FfiError Unit)
  deriving DecidableEq

/-- Drops of the record and its callbacks are left out. -/
structure NodeRecord where
  active : ℕ
  running : Bool
  closed : Bool
  runs : ℕ → Run
  closers : ℕ → Closer

inductive NodeAct where
  | run (i : ℕ)
  | close (i : ℕ)
  deriving DecidableEq, Repr

namespace NodeRecord

def new : NodeRecord := ⟨0, false, false, fun _ => .idle, fun _ => .idle⟩

variable (s : NodeRecord) (i : ℕ)

def goto (run : Run) : NodeRecord := { s with runs := Function.update s.runs i run }

def gotoCloser (closer : Closer) : NodeRecord :=
  { s with closers := Function.update s.closers i closer }

/-- `fetch_sub` of a `usize`. -/
def fetchSub (active : ℕ) : ℕ := if active = 0 then 2 ^ 64 - 1 else active - 1

/-- `fetch_add` of a `usize`. -/
def fetchAdd (active : ℕ) : ℕ := (active + 1) % 2 ^ 64

def stepRun : Option NodeRecord :=
  match s.runs i with
  | .idle =>
    if s.closed then some (s.goto i (.failed (.handle .closed "node is closing")))
    else some (s.goto i .admitted)
  | .admitted =>
    if s.running then
      some (s.goto i (.failed (.handle .busy "node is already participating in a graph run")))
    else some { s.goto i .claimed with running := true }
  | .claimed => some { s.goto i .counted with active := fetchAdd s.active }
  | .counted => if s.closed then some (s.goto i .refused) else some (s.goto i .guard)
  | .refused => some { s.goto i .restoring with active := fetchSub s.active }
  | .restoring =>
    some { s.goto i (.failed (.handle .closed "node closed while graph run was admitted")) with
      running := false }
  | .guard => some { s.goto i .dropping with active := fetchSub s.active }
  | .dropping => some { s.goto i .dropped with running := false }
  | .failed _ => none
  | .dropped => none

def stepClose : Option NodeRecord :=
  match s.closers i with
  | .idle => some { s.gotoCloser i .closing with closed := true }
  | .closing =>
    if s.active = 0 then some (s.gotoCloser i (.returned (.ok ())))
    else some (s.gotoCloser i (.returned (.error (.handle .busy "node has an in-flight graph run"))))
  | .returned _ => none

def step : NodeAct → Option NodeRecord
  | .run i => s.stepRun i
  | .close i => s.stepClose i

end NodeRecord

def nodeSystem : System NodeRecord NodeAct where
  init s := s = .new
  step := NodeRecord.step

namespace Run

/-- The call has `running` to itself. -/
def Holds : Run → Prop
  | claimed | counted | refused | restoring | guard | dropping => True
  | _ => False

/-- A `begin_run` has counted itself, and has neither its guard yet nor taken itself off again. -/
def Between : Run → Prop
  | counted | refused => True
  | _ => False

instance : DecidablePred Holds := fun run => by cases run <;> unfold Holds <;> infer_instance

instance : DecidablePred Between := fun run => by cases run <;> unfold Between <;> infer_instance

/-- What the call adds to `active`. -/
def share (run : Run) : ℕ := if run = guard ∨ run.Between then 1 else 0

end Run

/-- `running` belongs to the one call that holds it, and `active` is that call's share. -/
structure NodeRecord.Sound (s : NodeRecord) : Prop where
  free : s.running = false → s.active = 0 ∧ ∀ i, ¬ (s.runs i).Holds
  held : s.running = true → ∃ i, (s.runs i).Holds ∧ s.active = (s.runs i).share ∧
    ∀ j, (s.runs j).Holds → j = i
  closing : ∀ i, s.closers i ≠ .idle → s.closed = true
  idle : ∀ i, s.closers i = .returned (.ok ()) → ∀ j, s.runs j ≠ .guard

namespace NodeRecord.Sound

variable {s : NodeRecord} {i : ℕ} {run : Run}

theorem init : NodeRecord.new.Sound := by
  constructor <;> simp [NodeRecord.new, Run.Holds]

/-- Who holds `running`, and what it added to `active`. -/
theorem owner (h : s.Sound) (hi : (s.runs i).Holds) :
    s.running = true ∧ s.active = (s.runs i).share ∧ ∀ j, (s.runs j).Holds → j = i := by
  cases hrunning : s.running with
  | false => exact absurd hi ((h.free hrunning).2 i)
  | true =>
    obtain ⟨k, -, hactive, honly⟩ := h.held hrunning
    have hik : i = k := honly i hi
    exact ⟨rfl, hik ▸ hactive, hik ▸ honly⟩

/-- A call that does not hold `running` goes on without it. -/
theorem outside (h : s.Sound) (hold : ¬ (s.runs i).Holds) (hnew : ¬ run.Holds) :
    (s.goto i run).Sound := by
  have hother {j : ℕ} (hj : (Function.update s.runs i run j).Holds) : j ≠ i ∧ (s.runs j).Holds := by
    by_cases hji : j = i
    · subst hji
      rw [Function.update_self] at hj
      exact absurd hj hnew
    · rw [Function.update_of_ne hji] at hj
      exact ⟨hji, hj⟩
  constructor
  · intro hrunning
    exact ⟨(h.free hrunning).1, fun j hj => (h.free hrunning).2 j (hother hj).2⟩
  · intro hrunning
    obtain ⟨k, hk, hactive, honly⟩ := h.held hrunning
    have hki : k ≠ i := by
      intro hki
      exact hold (hki ▸ hk)
    refine ⟨k, ?_, ?_, fun j hj => honly j (hother hj).2⟩
    · simp only [goto, Function.update_of_ne hki]
      exact hk
    · simp only [goto, Function.update_of_ne hki]
      exact hactive
  · exact h.closing
  · intro k hk j hj
    have hguard : (s.goto i run).runs j = .guard := hj
    have hj : (Function.update s.runs i run j).Holds := by
      simp only [goto] at hguard
      rw [hguard]
      trivial
    have hne := (hother hj).1
    simp only [goto, Function.update_of_ne hne] at hguard
    exact h.idle k hk j hguard

/-- The call that takes `running`. -/
theorem claim (h : s.Sound) (hrunning : s.running = false) :
    NodeRecord.Sound { s.goto i .claimed with running := true } := by
  obtain ⟨hactive, hnone⟩ := h.free hrunning
  constructor
  · intro hfalse
    cases hfalse
  · intro _
    refine ⟨i, by simp [goto, Run.Holds], by simp [goto, hactive, Run.share, Run.Between], ?_⟩
    intro j hj
    by_contra hji
    simp only [goto, Function.update_of_ne hji] at hj
    exact hnone j hj
  · exact h.closing
  · intro k hk j hj
    by_cases hji : j = i
    · subst hji
      simp [goto] at hj
    · simp only [goto, Function.update_of_ne hji] at hj
      exact h.idle k hk j hj

/-- The call that holds `running` goes on with it. A guard is only given out before the close. -/
theorem inside (h : s.Sound) (hold : (s.runs i).Holds) (hnew : run.Holds) {active : ℕ}
    (hshare : active = run.share) (hguard : run = .guard → s.closed = false) :
    NodeRecord.Sound { s.goto i run with active := active } := by
  obtain ⟨hrunning, -, honly⟩ := h.owner hold
  constructor
  · intro hfalse
    have hfalse : s.running = false := hfalse
    rw [hrunning] at hfalse
    cases hfalse
  · intro _
    refine ⟨i, by simpa [goto] using hnew, by simpa [goto] using hshare, ?_⟩
    intro j hj
    by_contra hji
    simp only [goto, Function.update_of_ne hji] at hj
    exact hji (honly j hj)
  · exact h.closing
  · intro k hk j hj
    by_cases hji : j = i
    · subst hji
      simp only [goto, Function.update_self] at hj
      have hopen := hguard hj
      have hk : s.closers k = .returned (.ok ()) := hk
      have hclosed := h.closing k (by rw [hk]; exact Closer.noConfusion)
      rw [hopen] at hclosed
      cases hclosed
    · simp only [goto, Function.update_of_ne hji] at hj
      exact h.idle k hk j hj

/-- The call that gives `running` back has nothing left in `active`. -/
theorem leave (h : s.Sound) (hold : (s.runs i).Holds) (hshare : (s.runs i).share = 0)
    (hnew : ¬ run.Holds) : NodeRecord.Sound { s.goto i run with running := false } := by
  obtain ⟨-, hactive, honly⟩ := h.owner hold
  have hnone (j : ℕ) : ¬ (Function.update s.runs i run j).Holds := by
    intro hj
    by_cases hji : j = i
    · subst hji
      rw [Function.update_self] at hj
      exact hnew hj
    · rw [Function.update_of_ne hji] at hj
      exact hji (honly j hj)
  constructor
  · intro _
    exact ⟨hactive.trans hshare, hnone⟩
  · intro htrue
    cases htrue
  · exact h.closing
  · intro k hk j hj
    have hj : Function.update s.runs i run j = .guard := hj
    apply hnone j
    rw [hj]
    trivial

theorem stepRun (h : s.Sound) {s' : NodeRecord} (hs : s.stepRun i = some s') : s'.Sound := by
  unfold NodeRecord.stepRun at hs
  cases hrun : s.runs i with
  | idle =>
    simp only [hrun] at hs
    have hold : ¬ (s.runs i).Holds := by simp [hrun, Run.Holds]
    split_ifs at hs
    · cases hs
      exact h.outside hold (by simp [Run.Holds])
    · cases hs
      exact h.outside hold (by simp [Run.Holds])
  | admitted =>
    simp only [hrun] at hs
    have hold : ¬ (s.runs i).Holds := by simp [hrun, Run.Holds]
    split_ifs at hs with hrunning
    · cases hs
      exact h.outside hold (by simp [Run.Holds])
    · cases hs
      exact h.claim (by simpa using hrunning)
  | claimed =>
    simp only [hrun] at hs
    cases hs
    have hold : (s.runs i).Holds := by simp [hrun, Run.Holds]
    have hactive : s.active = 0 := by simp [(h.owner hold).2.1, hrun, Run.share, Run.Between]
    exact h.inside hold (show Run.Holds .counted from trivial) (by rw [hactive]; rfl)
      (fun hguard => by cases hguard)
  | counted =>
    simp only [hrun] at hs
    have hold : (s.runs i).Holds := by simp [hrun, Run.Holds]
    have hactive : s.active = 1 := by simp [(h.owner hold).2.1, hrun, Run.share, Run.Between]
    split_ifs at hs with hclosed
    · cases hs
      exact h.inside hold (show Run.Holds .refused from trivial) hactive
        (fun hguard => by cases hguard)
    · cases hs
      exact h.inside hold (show Run.Holds .guard from trivial) hactive
        (fun _ => by simpa using hclosed)
  | refused =>
    simp only [hrun] at hs
    cases hs
    have hold : (s.runs i).Holds := by simp [hrun, Run.Holds]
    have hactive : s.active = 1 := by simp [(h.owner hold).2.1, hrun, Run.share, Run.Between]
    exact h.inside hold (show Run.Holds .restoring from trivial) (by rw [hactive]; rfl)
      (fun hguard => by cases hguard)
  | guard =>
    simp only [hrun] at hs
    cases hs
    have hold : (s.runs i).Holds := by simp [hrun, Run.Holds]
    have hactive : s.active = 1 := by simp [(h.owner hold).2.1, hrun, Run.share]
    exact h.inside hold (show Run.Holds .dropping from trivial) (by rw [hactive]; rfl)
      (fun hguard => by cases hguard)
  | restoring =>
    simp only [hrun] at hs
    cases hs
    exact h.leave (by simp [hrun, Run.Holds]) (by simp [hrun, Run.share, Run.Between])
      (by simp [Run.Holds])
  | dropping =>
    simp only [hrun] at hs
    cases hs
    exact h.leave (by simp [hrun, Run.Holds]) (by simp [hrun, Run.share, Run.Between])
      (by simp [Run.Holds])
  | failed error => simp [hrun] at hs
  | dropped => simp [hrun] at hs

/-- A closer that reads 0 after `closed` is set finds no guard. -/
theorem stepClose (h : s.Sound) {s' : NodeRecord} (hs : s.stepClose i = some s') : s'.Sound := by
  unfold NodeRecord.stepClose at hs
  cases hcloser : s.closers i with
  | idle =>
    simp only [hcloser] at hs
    cases hs
    refine { h with closing := fun _ _ => rfl, idle := ?_ }
    intro k hk
    by_cases hki : k = i
    · subst hki
      simp [gotoCloser] at hk
    · simp only [gotoCloser, Function.update_of_ne hki] at hk
      exact h.idle k hk
  | closing =>
    have hclosed : s.closed = true := h.closing i (by rw [hcloser]; exact Closer.noConfusion)
    simp only [hcloser] at hs
    split_ifs at hs with hactive
    · cases hs
      refine { h with closing := fun _ _ => hclosed, idle := ?_ }
      intro k hk j hj
      have hj : s.runs j = .guard := hj
      have howned := (h.owner (i := j) (by simp [hj, Run.Holds])).2.1
      simp [hj, Run.share, hactive] at howned
    · cases hs
      refine { h with closing := fun _ _ => hclosed, idle := ?_ }
      intro k hk
      by_cases hki : k = i
      · subst hki
        simp [gotoCloser] at hk
      · simp only [gotoCloser, Function.update_of_ne hki] at hk
        exact h.idle k hk
  | returned result => simp [hcloser] at hs

theorem step (h : s.Sound) {a : NodeAct} {s' : NodeRecord} (hs : nodeSystem.step s a = some s') :
    s'.Sound := by
  cases a with
  | run i => exact h.stepRun hs
  | close i => exact h.stepClose hs

theorem reachable (hr : nodeSystem.Reachable s) : s.Sound :=
  hr.invariant (by rintro _ rfl; exact init) fun _ _ _ _ h hs => h.step hs

/-- One call at most has a share in `active`. -/
theorem active_eq (h : s.Sound) :
    s.active = {i | s.runs i = .guard}.ncard + {i | (s.runs i).Between}.ncard := by
  have hguard {j : ℕ} (hj : s.runs j = .guard) : (s.runs j).Holds := by simp [hj, Run.Holds]
  have hbetween {j : ℕ} (hj : (s.runs j).Between) : (s.runs j).Holds := by
    cases hrun : s.runs j <;> simp_all [Run.Between, Run.Holds]
  cases hrunning : s.running with
  | false =>
    obtain ⟨hactive, hnone⟩ := h.free hrunning
    have hguards : {i | s.runs i = .guard} = ∅ :=
      Set.eq_empty_of_forall_notMem fun j hj => hnone j (hguard hj)
    have hbetweens : {i | (s.runs i).Between} = ∅ :=
      Set.eq_empty_of_forall_notMem fun j hj => hnone j (hbetween hj)
    simp [hactive, hguards, hbetweens]
  | true =>
    obtain ⟨i, -, hactive, honly⟩ := h.held hrunning
    have hsingle (p : ℕ → Prop) [DecidablePred p] (hp : ∀ j, p j → j = i) :
        {j | p j}.ncard = if p i then 1 else 0 := by
      split_ifs with hi
      · have hset : {j | p j} = {i} := Set.ext fun j => ⟨hp j, fun hj => hj ▸ hi⟩
        rw [hset, Set.ncard_singleton]
      · have hset : {j | p j} = ∅ :=
          Set.eq_empty_of_forall_notMem fun j hj => hi (hp j hj ▸ hj)
        rw [hset, Set.ncard_empty]
    rw [hactive, hsingle _ fun j hj => honly j (hguard hj), hsingle _ fun j hj => honly j (hbetween hj)]
    cases s.runs i <;> simp [Run.share, Run.Between]

end NodeRecord.Sound

/-- A closer that has returned stays so. -/
theorem closer_returned {s s' : NodeRecord} {a : NodeAct} {i : ℕ} {result : Except FfiError Unit}
    (h : s.closers i = .returned result) (hs : nodeSystem.step s a = some s') :
    s'.closers i = .returned result := by
  cases a with
  | run j =>
    have hclosers : s'.closers = s.closers := by
      have hs : s.stepRun j = some s' := hs
      unfold NodeRecord.stepRun at hs
      split at hs <;> (try split_ifs at hs) <;> cases hs <;> rfl
    rw [hclosers, h]
  | close j =>
    have hs : s.stepClose j = some s' := hs
    have hij : i ≠ j := by
      rintro rfl
      simp [NodeRecord.stepClose, h] at hs
    unfold NodeRecord.stepClose at hs
    split at hs
    · cases hs
      simpa [NodeRecord.gotoCloser, hij] using h
    · split_ifs at hs
      · cases hs
        simpa [NodeRecord.gotoCloser, hij] using h
      · cases hs
        simpa [NodeRecord.gotoCloser, hij] using h
    · cases hs

theorem closing_excludes {s : NodeRecord} (hr : nodeSystem.Reachable s) :
    (∀ i j, s.runs i = .guard → s.runs j = .guard → i = j) ∧
      (∀ i, s.runs i = .guard ∨ s.runs i = .refused → 0 < s.active) ∧
      s.active = {i | s.runs i = .guard}.ncard + {i | (s.runs i).Between}.ncard ∧
      ∀ i, s.closers i = .returned (.ok ()) → ∀ t, nodeSystem.Steps s t →
        ∀ j, t.runs j ≠ .guard := by
  have h := NodeRecord.Sound.reachable hr
  refine ⟨?_, ?_, h.active_eq, ?_⟩
  · intro i j hi hj
    have honly := (h.owner (i := j) (by simp [hj, Run.Holds])).2.2
    exact honly i (by simp [hi, Run.Holds])
  · rintro i (hi | hi)
    · have hactive := (h.owner (i := i) (by simp [hi, Run.Holds])).2.1
      simp [hactive, hi, Run.share]
    · have hactive := (h.owner (i := i) (by simp [hi, Run.Holds])).2.1
      simp [hactive, hi, Run.share, Run.Between]
  · intro i hi t hst
    obtain ⟨hrt, hit⟩ := hst.invariant (I := fun t => t.closers i = .returned (.ok ()))
      (fun _ _ _ _ h hs => closer_returned h hs) hr hi
    exact (NodeRecord.Sound.reachable hrt).idle i hit

/-- A guard is dropped and the node closed while another call is past its first look at `closed`. -/
theorem closing_excludes_run : ∃ s, nodeSystem.Reachable s ∧ s.runs 0 = .dropped ∧
    s.runs 1 = .refused ∧ 0 < s.active ∧ ∀ t, nodeSystem.Steps s t → ∀ j, t.runs j ≠ .guard := by
  obtain ⟨s, hr, hs⟩ := exists_reachable_of_run (M := nodeSystem) (s := .new) rfl
    [.run 0, .run 0, .run 0, .run 0, .run 0, .run 0, .run 1, .run 1, .close 0, .close 0, .run 1,
      .run 1]
    (fun s => s.runs 0 == .dropped && s.runs 1 == .refused && s.closers 0 == .returned (.ok ()))
    (by decide +kernel)
  simp only [Bool.and_eq_true, beq_iff_eq] at hs
  obtain ⟨⟨hdropped, hrefused⟩, hclosed⟩ := hs
  obtain ⟨-, hpositive, -, hlate⟩ := closing_excludes hr
  exact ⟨s, hr, hdropped, hrefused, hpositive 1 (.inr hrefused), hlate 0 hclosed⟩

end Muxiva.Ffi
