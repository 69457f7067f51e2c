import Muxiva.Agent.Adapter

/-! What the steps of the adapter leave alone, and how the tail orders its requests: they begin one
after the other, and the one that is executing is the active one until it is cancelled. -/
set_option linter.all false
namespace Muxiva.Agent

open Transition.System

/-- Only flags, texts and timers of a request may differ. -/
structure Request.Same (q q' : Request) : Prop where
  sequence : q'.sequence = q.sequence
  phase : q'.phase = q.phase
  driver : q'.driver = q.driver
  epoch : q'.epoch = q.epoch
  run : q'.run = q.run
  accepting : q'.accepting → q.accepting
  cancelled : q.cancelled → q'.cancelled
  aborted : q.aborted → q'.aborted

theorem Request.Same.refl (q : Request) : Request.Same q q := ⟨rfl, rfl, rfl, rfl, rfl, id, id, id⟩

theorem Request.Same.trans {q q' q'' : Request} (h : Request.Same q q') (h' : Request.Same q' q'') :
    Request.Same q q'' :=
  ⟨h'.sequence.trans h.sequence, h'.phase.trans h.phase, h'.driver.trans h.driver,
    h'.epoch.trans h.epoch, h'.run.trans h.run, fun ha => h.accepting (h'.accepting ha),
    fun hc => h'.cancelled (h.cancelled hc), fun ha => h'.aborted (h.aborted ha)⟩

namespace Adapter

variable {c : Config} {s s' s'' : Adapter} {r : ℕ}

theorem requests_update (f : Request → Request) (r' : ℕ) :
    (s.update r f).requests r' = if r' = r then f (s.requests r) else s.requests r' := by
  unfold update
  by_cases h : r' = r
  · subst h
    simp
  · simp [h]

@[simp] theorem requests_update_self (f : Request → Request) :
    (s.update r f).requests r = f (s.requests r) := by
  rw [requests_update, if_pos rfl]

theorem requests_update_of_ne {r' : ℕ} (h : r' ≠ r) (f : Request → Request) :
    (s.update r f).requests r' = s.requests r' := by
  rw [requests_update, if_neg h]

/-- Nothing but the queue, the driver and the requests' flags differs. -/
structure Leaves (s s' : Adapter) : Prop where
  nextRequestId : s'.nextRequestId = s.nextRequestId
  activeController : s'.activeController = s.activeController
  activeRequest : s'.activeRequest = s.activeRequest
  closed : s'.closed = s.closed
  interrupted : s'.interrupted = s.interrupted
  begun : s'.begun = s.begun
  cancels : s'.cancels = s.cancels
  emitted : s'.emitted = s.emitted
  requests : ∀ r, Request.Same (s.requests r) (s'.requests r)

/-- Nor does the driver. -/
structure Keeps (s s' : Adapter) : Prop extends Leaves s s' where
  driver : s'.driver = s.driver
  driverBusy : s'.driverBusy = s.driverBusy
  driverEpoch : s'.driverEpoch = s.driverEpoch
  createdDrivers : s'.createdDrivers = s.createdDrivers

theorem Leaves.trans (h : Leaves s s') (h' : Leaves s' s'') : Leaves s s'' :=
  ⟨h'.nextRequestId.trans h.nextRequestId, h'.activeController.trans h.activeController,
    h'.activeRequest.trans h.activeRequest, h'.closed.trans h.closed,
    h'.interrupted.trans h.interrupted, h'.begun.trans h.begun, h'.cancels.trans h.cancels,
    h'.emitted.trans h.emitted, fun r => (h.requests r).trans (h'.requests r)⟩

theorem Keeps.trans (h : Keeps s s') (h' : Keeps s' s'') : Keeps s s'' :=
  ⟨h.toLeaves.trans h'.toLeaves, h'.driver.trans h.driver, h'.driverBusy.trans h.driverBusy,
    h'.driverEpoch.trans h.driverEpoch, h'.createdDrivers.trans h.createdDrivers⟩

theorem Leaves.refl (s : Adapter) : Leaves s s :=
  ⟨rfl, rfl, rfl, rfl, rfl, rfl, rfl, rfl, fun r => .refl (s.requests r)⟩

theorem Keeps.refl (s : Adapter) : Keeps s s := ⟨.refl s, rfl, rfl, rfl, rfl⟩

theorem keeps_queue (queue : List Item) : Keeps s { s with queue } :=
  ⟨⟨rfl, rfl, rfl, rfl, rfl, rfl, rfl, rfl, fun r => .refl (s.requests r)⟩, rfl, rfl, rfl, rfl⟩

theorem keeps_update {f : Request → Request} (hf : Request.Same (s.requests r) (f (s.requests r))) :
    Keeps s (s.update r f) := by
  refine ⟨⟨rfl, rfl, rfl, rfl, rfl, rfl, rfl, rfl, ?_⟩, rfl, rfl, rfl, rfl⟩
  intro r'
  by_cases h : r' = r
  · subst h
    rw [requests_update_self]
    exact hf
  · rw [requests_update_of_ne h]
    exact .refl _

theorem keeps_abort (r : ℕ) : Keeps s (s.abort r) := by
  unfold abort
  split_ifs
  · exact .refl s
  · exact keeps_update ⟨rfl, rfl, rfl, rfl, rfl, id, id, fun _ => rfl⟩

theorem keeps_abortActive : Keeps s s.abortActive := by
  unfold abortActive
  split
  · exact .refl s
  · exact keeps_abort _

theorem keeps_cancelled (r : ℕ) : Keeps s (s.update r ({ · with cancelled := true })) :=
  keeps_update ⟨rfl, rfl, rfl, rfl, rfl, id, fun _ => rfl, id⟩

theorem keeps_enqueue (r : ℕ) (port : Port) (frame : Frame) :
    Keeps s (s.enqueue c r port frame) := by
  unfold enqueue
  split_ifs
  · exact .refl s
  · exact ((keeps_cancelled r).trans keeps_abortActive).trans (keeps_queue _)
  · exact keeps_queue _

theorem keeps_sinkText (r : ℕ) (delta : Text) : Keeps s (s.sinkText c r delta) := by
  unfold sinkText
  dsimp only
  split_ifs
  · exact .refl s
  · exact .refl s
  · exact (keeps_update ⟨rfl, rfl, rfl, rfl, rfl, id, id, id⟩).trans (keeps_enqueue _ _ _)

theorem keeps_sinkEvent (r : ℕ) (type : String) (payload : Text) :
    Keeps s (s.sinkEvent c r type payload) := by
  unfold sinkEvent
  dsimp only
  split_ifs
  · exact .refl s
  · exact (keeps_update ⟨rfl, rfl, rfl, rfl, rfl, id, id, id⟩).trans (keeps_enqueue _ _ _)

theorem keeps_cancelActive : Keeps s s.cancelActive := by
  unfold cancelActive
  split
  · exact keeps_abortActive
  · exact (keeps_cancelled _).trans keeps_abortActive

theorem leaves_rotateDriver (created : Bool) : Leaves s (s.rotateDriver created).1 := by
  unfold rotateDriver
  split_ifs
  · exact ⟨rfl, rfl, rfl, rfl, rfl, rfl, rfl, rfl, fun r => .refl (s.requests r)⟩
  · exact ⟨rfl, rfl, rfl, rfl, rfl, rfl, rfl, rfl, fun r => .refl (s.requests r)⟩

theorem abort_aborted (r : ℕ) : ((s.abort r).requests r).aborted = true := by
  unfold abort
  split_ifs with h
  · exact h
  · rw [requests_update_self]

theorem abort_cancelled (r r' : ℕ) :
    ((s.abort r).requests r').cancelled = (s.requests r').cancelled := by
  unfold abort
  split_ifs
  · rfl
  · by_cases h : r' = r
    · subst h
      rw [requests_update_self]
    · rw [requests_update_of_ne h]

theorem abort_of_ne {r' : ℕ} (h : r' ≠ r) : (s.abort r).requests r' = s.requests r' := by
  unfold abort
  split_ifs
  · rfl
  · rw [requests_update_of_ne h]

theorem abortActive_eq (h : s.activeController = some r) : s.abortActive = s.abort r := by
  unfold abortActive
  rw [h]

/-! ### The tail -/

def Phase.begun : Phase → Prop
  | .executing | .returned => True
  | _ => False

/-- The requests of the tail begin and return in order. -/
structure Chained (s : Adapter) : Prop where
  submitted : ∀ r, (s.requests r).phase = .unsubmitted ↔ r = 0 ∨ s.nextRequestId < r
  begun : ∀ r, Phase.begun (s.requests r).phase ↔ 0 < r ∧ r ≤ s.begun
  returned : ∀ r, 0 < r → r < s.begun → (s.requests r).phase = .returned
  accepting : ∀ r, (s.requests r).accepting → (s.requests r).phase = .executing
  active : ∀ r, s.activeController = some r →
    (s.requests r).phase = .executing ∧ s.activeRequest = some r
  flagged : ∀ r, s.activeController = some r → (s.requests r).cancelled → (s.requests r).aborted
  unflagged : ∀ r, (s.requests r).phase = .executing → ¬(s.requests r).cancelled →
    s.activeController = some r ∧ ((s.requests r).aborted → s.interrupted = some r)
  waiting : ∀ r, (s.requests r).phase = .waiting →
    (s.requests r).cancelled = false ∧ (s.requests r).aborted = false

theorem Chained.eq_begun (h : Chained s) (hr : (s.requests r).phase = .executing) :
    r = s.begun := by
  obtain ⟨hpos, hle⟩ := (h.begun r).mp (by rw [hr]; trivial)
  by_contra hne
  have hreturned := h.returned r hpos (by omega)
  rw [hr] at hreturned
  cases hreturned

/-- One request at a time is executing. -/
theorem Chained.unique (h : Chained s) {r' : ℕ} (hr : (s.requests r).phase = .executing)
    (hr' : (s.requests r').phase = .executing) : r = r' :=
  (h.eq_begun hr).trans (h.eq_begun hr').symm

theorem chained_new : Chained .new := by
  constructor
  · intro r
    simp only [Adapter.new, Request.unsubmitted, true_iff]
    omega
  · intro r
    simp only [Adapter.new, Request.unsubmitted, Phase.begun, false_iff]
    omega
  · intro r hpos hlt
    exact absurd hlt (Nat.not_lt_zero r)
  · intro r h
    cases h
  · intro r h
    cases h
  · intro r h
    cases h
  · intro r h
    cases h
  · intro r h
    cases h

/-- What the tail looks at stays as it is. -/
theorem Chained.congr (h : Chained s) (hnext : s'.nextRequestId = s.nextRequestId)
    (hcontroller : s'.activeController = s.activeController)
    (hrequest : s'.activeRequest = s.activeRequest) (hbegun : s'.begun = s.begun)
    (hinterrupted : s'.interrupted = s.interrupted)
    (hsame : ∀ r, (s'.requests r).phase = (s.requests r).phase ∧
      ((s'.requests r).accepting → (s.requests r).phase = .executing) ∧
      (s'.requests r).cancelled = (s.requests r).cancelled ∧
      (s'.requests r).aborted = (s.requests r).aborted) : Chained s' := by
  constructor
  · intro r
    rw [(hsame r).1, hnext]
    exact h.submitted r
  · intro r
    rw [(hsame r).1, hbegun]
    exact h.begun r
  · intro r
    rw [(hsame r).1, hbegun]
    exact h.returned r
  · intro r haccepting
    rw [(hsame r).1]
    exact (hsame r).2.1 haccepting
  · intro r
    rw [(hsame r).1, hcontroller, hrequest]
    exact h.active r
  · intro r
    rw [hcontroller, (hsame r).2.2.1, (hsame r).2.2.2]
    exact h.flagged r
  · intro r
    rw [(hsame r).1, hcontroller, (hsame r).2.2.1, (hsame r).2.2.2, hinterrupted]
    exact h.unflagged r
  · intro r
    rw [(hsame r).1, (hsame r).2.2.1, (hsame r).2.2.2]
    exact h.waiting r

theorem Chained.frame (h : Chained s) (hnext : s'.nextRequestId = s.nextRequestId)
    (hcontroller : s'.activeController = s.activeController)
    (hrequest : s'.activeRequest = s.activeRequest) (hbegun : s'.begun = s.begun)
    (hinterrupted : s'.interrupted = s.interrupted) (hrequests : s'.requests = s.requests) :
    Chained s' := by
  apply h.congr hnext hcontroller hrequest hbegun hinterrupted
  intro r
  rw [hrequests]
  exact ⟨rfl, h.accepting r, rfl, rfl⟩

theorem Chained.update (h : Chained s) {f : Request → Request}
    (hphase : (f (s.requests r)).phase = (s.requests r).phase)
    (haccepting : (f (s.requests r)).accepting → (s.requests r).phase = .executing)
    (hcancelled : (f (s.requests r)).cancelled = (s.requests r).cancelled)
    (haborted : (f (s.requests r)).aborted = (s.requests r).aborted) :
    Chained (s.update r f) := by
  refine h.congr rfl rfl rfl rfl rfl ?_
  intro r'
  by_cases hr : r' = r
  · subst hr
    rw [requests_update_self]
    exact ⟨hphase, haccepting, hcancelled, haborted⟩
  · rw [requests_update_of_ne hr]
    exact ⟨rfl, h.accepting r', rfl, rfl⟩

/-- The executing request is cancelled, aborted, or both, and the rest of the tail is not. -/
theorem Chained.flags (h : Chained s) (hk : Leaves s s') (hr : (s.requests r).phase = .executing)
    (hothers : ∀ r', r' ≠ r → s'.requests r' = s.requests r')
    (hflagged : s'.activeController = some r → (s'.requests r).cancelled → (s'.requests r).aborted)
    (hunflagged : ¬(s'.requests r).cancelled → s'.activeController = some r ∧
      ((s'.requests r).aborted → s'.interrupted = some r)) : Chained s' := by
  have hphase : ∀ r', (s'.requests r').phase = (s.requests r').phase := fun r' =>
    (hk.requests r').phase
  constructor
  · intro r'
    rw [hphase, hk.nextRequestId]
    exact h.submitted r'
  · intro r'
    rw [hphase, hk.begun]
    exact h.begun r'
  · intro r'
    rw [hphase, hk.begun]
    exact h.returned r'
  · intro r' haccepting
    rw [hphase]
    exact h.accepting r' ((hk.requests r').accepting haccepting)
  · intro r'
    rw [hphase, hk.activeController, hk.activeRequest]
    exact h.active r'
  · intro r' hactive
    rw [hk.activeController] at hactive
    obtain rfl := h.unique hr (h.active r' hactive).1
    exact hflagged (hk.activeController.trans hactive)
  · intro r' hexecuting
    rw [hphase] at hexecuting
    obtain rfl := h.unique hr hexecuting
    exact hunflagged
  · intro r' hwaiting
    rw [hphase] at hwaiting
    have hne : r' ≠ r := by
      rintro rfl
      rw [hr] at hwaiting
      cases hwaiting
    rw [hothers r' hne]
    exact h.waiting r' hwaiting

/-- A full queue cancels the request that is executing. -/
theorem Chained.enqueue (h : Chained s) (hr : (s.requests r).phase = .executing) (port : Port)
    (frame : Frame) : Chained (s.enqueue c r port frame) := by
  have hk : Leaves s (s.enqueue c r port frame) := (keeps_enqueue r port frame).toLeaves
  unfold Adapter.enqueue at hk ⊢
  split_ifs at hk ⊢ with hoff hfull
  · exact h
  · have hlive : (s.requests r).cancelled = false := by
      cases hcancelled : (s.requests r).cancelled with
      | false => rfl
      | true =>
        rw [hcancelled] at hoff
        exact absurd rfl hoff
    have hactive := (h.unflagged r hr (by rw [hlive]; exact Bool.false_ne_true)).1
    rw [abortActive_eq (s := s.update r _) hactive] at hk ⊢
    apply h.flags hk hr
    · intro r' hne
      exact (abort_of_ne hne).trans (requests_update_of_ne hne _)
    · intro _ _
      exact abort_aborted r
    · intro hcancelled
      exfalso
      apply hcancelled
      exact (abort_cancelled r r).trans (by rw [requests_update_self])
  · exact h.frame rfl rfl rfl rfl rfl rfl

theorem Chained.sinkText (h : Chained s) (r : ℕ) (delta : Text) : Chained (s.sinkText c r delta) := by
  unfold Adapter.sinkText
  dsimp only
  split_ifs with hoff hempty
  · exact h
  · exact h
  · have haccepting : (s.requests r).accepting = true := by
      simp only [Bool.or_eq_true, Bool.not_eq_true', not_or, Bool.not_eq_false] at hoff
      exact hoff.1
    apply Chained.enqueue
    · exact h.update rfl (h.accepting r) rfl rfl
    · rw [requests_update_self]
      exact h.accepting r haccepting

theorem Chained.sinkEvent (h : Chained s) (r : ℕ) (type : String) (payload : Text) :
    Chained (s.sinkEvent c r type payload) := by
  unfold Adapter.sinkEvent
  dsimp only
  split_ifs with hoff
  · exact h
  · have haccepting : (s.requests r).accepting = true := by
      simp only [Bool.or_eq_true, Bool.not_eq_true', not_or, Bool.not_eq_false] at hoff
      exact hoff.1
    apply Chained.enqueue
    · exact h.update rfl (h.accepting r) rfl rfl
    · rw [requests_update_self]
      exact h.accepting r haccepting

theorem Chained.start (h : Chained s) (text : Text) (sequence : ℕ) :
    Chained (s.start text sequence) := by
  unfold Adapter.start
  dsimp only
  split_ifs
  · exact h
  have hnew := (h.submitted (s.nextRequestId + 1)).mpr (.inr (Nat.lt_succ_self _))
  constructor
  · intro r
    rw [requests_update]
    split_ifs with hr
    · subst hr
      refine iff_of_false nofun ?_
      change ¬(_ = 0 ∨ s.nextRequestId + 1 < s.nextRequestId + 1)
      omega
    · change (s.requests r).phase = .unsubmitted ↔ r = 0 ∨ s.nextRequestId + 1 < r
      rw [h.submitted r]
      omega
  · intro r
    rw [requests_update]
    change _ ↔ 0 < r ∧ r ≤ s.begun
    split_ifs with hr
    · subst hr
      rw [← h.begun, hnew]
      exact Iff.rfl
    · exact h.begun r
  · intro r hpos hlt
    have hne : r ≠ s.nextRequestId + 1 := by
      rintro rfl
      have hreturned := h.returned _ hpos hlt
      rw [hnew] at hreturned
      cases hreturned
    rw [requests_update_of_ne hne]
    exact h.returned r hpos hlt
  · intro r
    rw [requests_update]
    split_ifs with hr
    · intro haccepting
      cases haccepting
    · exact h.accepting r
  · intro r hactive
    have hne : r ≠ s.nextRequestId + 1 := by
      rintro rfl
      have hexecuting := (h.active _ hactive).1
      rw [hnew] at hexecuting
      cases hexecuting
    rw [requests_update_of_ne hne]
    exact h.active r hactive
  · intro r
    rw [requests_update]
    split_ifs with hr
    · intro _ hcancelled
      cases hcancelled
    · exact h.flagged r
  · intro r
    rw [requests_update]
    split_ifs with hr
    · intro hexecuting
      cases hexecuting
    · exact h.unflagged r
  · intro r
    rw [requests_update]
    split_ifs with hr
    · intro _
      exact ⟨rfl, rfl⟩
    · exact h.waiting r

/-- `cancel` does not see the requests that wait. -/
theorem Chained.cancel_waiting (h : Chained s) (hr : (s.requests r).phase = .waiting)
    (reason : Text) (sequence : ℕ) :
    (s.cancel reason sequence).requests r = s.requests r := by
  change (if s.hadActiveRequest then s.cancelActive else s).requests r = s.requests r
  split_ifs with hhad
  · obtain ⟨a, ha, -⟩ := (Option.any_eq_true _ _).mp hhad
    obtain ⟨hexecuting, hrequest⟩ := h.active a ha
    have hne : r ≠ a := by
      rintro rfl
      rw [hexecuting] at hr
      cases hr
    unfold cancelActive
    rw [hrequest]
    change (s.update a _).abortActive.requests r = s.requests r
    rw [abortActive_eq (s := s.update a _) ha, abort_of_ne hne, requests_update_of_ne hne]
  · rfl

/-- `cancel` ends the request it finds active; what is not active is cancelled already. -/
theorem Chained.cancel (h : Chained s) (hhost : s.interrupted = none) (reason : Text)
    (sequence : ℕ) : Chained (s.cancel reason sequence) := by
  have hk : Leaves s (if s.hadActiveRequest then s.cancelActive else s) := by
    split_ifs
    · exact keeps_cancelActive.toLeaves
    · exact .refl s
  have hphase := fun r => (hk.requests r).phase
  have hexecuting : ∀ r, (s.requests r).phase = .executing →
      ((if s.hadActiveRequest then s.cancelActive else s).requests r).cancelled := by
    intro r hr
    by_cases hcancelled : (s.requests r).cancelled = true
    · exact (hk.requests r).cancelled hcancelled
    obtain ⟨hactive, haborted⟩ := h.unflagged r hr hcancelled
    have hlive : (s.requests r).aborted = false := by
      cases hab : (s.requests r).aborted with
      | false => rfl
      | true =>
        have hinterrupted := haborted hab
        rw [hhost] at hinterrupted
        cases hinterrupted
    have hhad : s.hadActiveRequest = true := by
      unfold hadActiveRequest
      rw [hactive, Option.any_some, hlive]
      rfl
    rw [if_pos hhad]
    unfold cancelActive
    rw [(h.active r hactive).2]
    change ((s.update r _).abortActive.requests r).cancelled = true
    rw [abortActive_eq (s := s.update r _) hactive, abort_cancelled, requests_update_self]
  unfold Adapter.cancel
  constructor
  · intro r
    rw [hphase]
    exact hk.nextRequestId ▸ h.submitted r
  · intro r
    rw [hphase]
    exact hk.begun ▸ h.begun r
  · intro r hpos hlt
    rw [hphase]
    exact h.returned r hpos (hk.begun ▸ hlt)
  · intro r haccepting
    rw [hphase]
    exact h.accepting r ((hk.requests r).accepting haccepting)
  · intro r hactive
    cases hactive
  · intro r hactive
    cases hactive
  · intro r hr hlive
    rw [hphase] at hr
    exact absurd (hexecuting r hr) hlive
  · intro r hr
    rw [hphase] at hr
    have hwaiting := h.cancel_waiting hr reason sequence
    unfold Adapter.cancel at hwaiting
    rw [hwaiting]
    exact h.waiting r hr

theorem Chained.eq_succ_begun (h : Chained s) (hnext : s.next r) : r = s.begun + 1 := by
  simp only [Adapter.next, Bool.and_eq_true, decide_eq_true_eq, Bool.or_eq_true] at hnext
  obtain ⟨hwaiting, hprevious⟩ := hnext
  have hpos : r ≠ 0 := by
    intro hr
    have hunsubmitted := (h.submitted r).mpr (.inl hr)
    rw [hwaiting] at hunsubmitted
    cases hunsubmitted
  have hnot : ¬(0 < r ∧ r ≤ s.begun) := by
    rw [← h.begun r, hwaiting]
    exact id
  rcases hprevious with hfirst | hreturned
  · omega
  · have hbegun := (h.begun (r - 1)).mp (by rw [hreturned]; trivial)
    omega

/-- When the tail comes to a request no other is executing. -/
theorem Chained.idle (h : Chained s) (hnext : s.next r) (r' : ℕ) :
    (s.requests r').phase ≠ .executing := by
  intro hexecuting
  have hr := h.eq_succ_begun hnext
  have hr' := h.eq_begun hexecuting
  have hpos := ((h.begun r').mp (by rw [hexecuting]; trivial)).1
  simp only [Adapter.next, Bool.and_eq_true, decide_eq_true_eq, Bool.or_eq_true] at hnext
  rcases hnext.2 with hfirst | hreturned
  · omega
  · have hsame : r - 1 = r' := by omega
    rw [hsame, hexecuting] at hreturned
    cases hreturned

theorem Chained.returned_of_idle (h : Chained s) (hidle : ∀ r, (s.requests r).phase ≠ .executing)
    (hpos : 0 < r) (hle : r ≤ s.begun) : (s.requests r).phase = .returned := by
  have hbegun := (h.begun r).mpr ⟨hpos, hle⟩
  cases hphase : (s.requests r).phase with
  | executing => exact absurd hphase (hidle r)
  | returned => rfl
  | unsubmitted | waiting =>
    rw [hphase] at hbegun
    exact hbegun.elim

/-- The request at the tail begins. -/
theorem Chained.begins (h : Chained s) (hnext : s.next r) (hbegun : s'.begun = r)
    (hids : s'.nextRequestId = s.nextRequestId) (hphase : Phase.begun (s'.requests r).phase)
    (hothers : ∀ r', r' ≠ r → s'.requests r' = s.requests r')
    (haccepting : (s'.requests r).accepting → (s'.requests r).phase = .executing)
    (hactive : s'.activeController = none ∨ s'.activeController = some r ∧
      s'.activeRequest = some r ∧ (s'.requests r).phase = .executing)
    (hflagged : s'.activeController = some r → (s'.requests r).cancelled → (s'.requests r).aborted)
    (hunflagged : (s'.requests r).phase = .executing → ¬(s'.requests r).cancelled →
      s'.activeController = some r ∧ ((s'.requests r).aborted → s'.interrupted = some r)) :
    Chained s' := by
  have hidle := h.idle hnext
  have hr := h.eq_succ_begun hnext
  have hwaiting : (s.requests r).phase = .waiting := by
    simp only [Adapter.next, Bool.and_eq_true, decide_eq_true_eq] at hnext
    exact hnext.1
  have honly : ∀ r', s'.activeController = some r' → r' = r := by
    intro r' hr'
    rcases hactive with hnone | ⟨hsome, -, -⟩
    · rw [hnone] at hr'
      cases hr'
    · rw [hsome] at hr'
      cases hr'
      rfl
  constructor
  · intro r'
    by_cases hne : r' = r
    · subst hne
      have hsubmitted := h.submitted r'
      rw [hwaiting] at hsubmitted
      rw [hids, ← hsubmitted]
      refine iff_of_false ?_ nofun
      intro hunsubmitted
      rw [hunsubmitted] at hphase
      exact hphase
    · rw [hothers r' hne, hids]
      exact h.submitted r'
  · intro r'
    by_cases hne : r' = r
    · subst hne
      exact iff_of_true hphase (by omega)
    · rw [hothers r' hne, h.begun r', hbegun]
      omega
  · intro r' hpos hlt
    rw [hothers r' (by omega)]
    exact h.returned_of_idle hidle hpos (by omega)
  · intro r'
    by_cases hne : r' = r
    · subst hne
      exact haccepting
    · rw [hothers r' hne]
      exact h.accepting r'
  · intro r' hr'
    obtain rfl := honly r' hr'
    rcases hactive with hnone | ⟨-, hrequest, hexecuting⟩
    · rw [hnone] at hr'
      cases hr'
    · exact ⟨hexecuting, hrequest⟩
  · intro r' hr'
    obtain rfl := honly r' hr'
    exact hflagged hr'
  · intro r'
    by_cases hne : r' = r
    · subst hne
      exact hunflagged
    · rw [hothers r' hne]
      intro hexecuting
      exact absurd hexecuting (hidle r')
  · intro r'
    by_cases hne : r' = r
    · subst hne
      intro hr'
      rw [hr'] at hphase
      exact hphase.elim
    · rw [hothers r' hne]
      exact h.waiting r'

theorem Chained.inactive (h : Chained s) (hidle : ∀ r, (s.requests r).phase ≠ .executing) :
    s.activeController = none := by
  cases hactive : s.activeController with
  | none => rfl
  | some r => exact absurd (h.active r hactive).1 (hidle r)

theorem Chained.enter (h : Chained s) (hnext : s.next r) :
    Chained ({ s with begun := r }.enter c r) := by
  have hwaiting : (s.requests r).phase = .waiting := by
    simp only [Adapter.next, Bool.and_eq_true, decide_eq_true_eq] at hnext
    exact hnext.1
  obtain ⟨hcancelled, haborted⟩ := h.waiting r hwaiting
  have haccepting : (s.requests r).accepting = false := by
    cases hac : (s.requests r).accepting with
    | false => rfl
    | true =>
      have hexecuting := h.accepting r hac
      rw [hwaiting] at hexecuting
      cases hexecuting
  unfold Adapter.enter
  have hbegins : Chained ({ s with
      begun := r
      activeController := some r
      activeRequest := some r
      activeDriver := some s.driver
      driverBusy := true }.update r fun q => { q with
        phase := .executing
        driver := s.driver
        epoch := s.driverEpoch }) := by
    refine h.begins hnext rfl rfl ?_ ?_ ?_ ?_ ?_ ?_
    · rw [requests_update_self]
      trivial
    · intro r' hne
      rw [requests_update_of_ne hne]
    · rw [requests_update_self]
      intro _
      rfl
    · right
      rw [requests_update_self]
      exact ⟨rfl, rfl, rfl⟩
    · rw [requests_update_self]
      intro _ hc
      rw [hcancelled] at hc
      cases hc
    · rw [requests_update_self]
      intro _ _
      refine ⟨rfl, ?_⟩
      intro ha
      rw [haborted] at ha
      cases ha
  have hexecuting := fun port frame => (keeps_enqueue (c := c) (s := { s with
      begun := r
      activeController := some r
      activeRequest := some r
      activeDriver := some s.driver
      driverBusy := true }.update r fun q => { q with
        phase := .executing
        driver := s.driver
        epoch := s.driverEpoch }) r port frame).requests r
  simp only [requests_update_self] at hexecuting
  apply Chained.update
  · apply hbegins.enqueue
    rw [requests_update_self]
  · rfl
  · intro _
    exact (hexecuting _ _).phase
  · rfl
  · rfl

theorem Chained.returns (h : Chained s) (hnext : s.next r) : Chained (s.returns r) := by
  have hnone := h.inactive (h.idle hnext)
  have haccepting : ¬(s.requests r).accepting := by
    intro haccepting
    exact h.idle hnext r (h.accepting r haccepting)
  unfold Adapter.returns
  refine h.begins hnext rfl rfl ?_ ?_ ?_ ?_ ?_ ?_
  · rw [requests_update_self]
    trivial
  · intro r' hne
    rw [requests_update_of_ne hne]
  · rw [requests_update_self]
    exact fun hac => absurd hac haccepting
  · exact .inl hnone
  · intro hactive
    change s.activeController = some r at hactive
    rw [hnone] at hactive
    cases hactive
  · rw [requests_update_self]
    intro hexecuting
    cases hexecuting

theorem rotateDriver_requests (created : Bool) :
    (s.rotateDriver created).1.requests = s.requests := by
  unfold rotateDriver
  split_ifs
  · rfl
  · rfl

theorem Chained.rotateDriver (h : Chained s) (created : Bool) :
    Chained (s.rotateDriver created).1 := by
  have hk := leaves_rotateDriver (s := s) created
  exact h.frame hk.nextRequestId hk.activeController hk.activeRequest hk.begun hk.interrupted
    (rotateDriver_requests created)

theorem Chained.routes (h : Chained s) (r : ℕ) (route : Route) : Chained (s.routes c r route) := by
  unfold Adapter.routes
  cases route with
  | none => exact h.update rfl (h.accepting r) rfl rfl
  | selected payload =>
    have hevent := h.sinkEvent (c := c) r "route.selected" payload
    exact hevent.update rfl (hevent.accepting r) rfl rfl
  | fails error => exact h.update rfl (h.accepting r) rfl rfl

theorem Chained.begin (h : Chained s) {created : Bool} {route : Route}
    (hs : s.begin c r created route = some s') : Chained s' := by
  unfold Adapter.begin at hs
  split_ifs at hs with hnext hoff hbusy
  · cases hs
    exact h.returns hnext
  · have hrotated := h.rotateDriver created
    have hnext' : (s.rotateDriver created).1.next r := by
      unfold Adapter.next
      rw [rotateDriver_requests]
      exact hnext
    dsimp only at hs
    split_ifs at hs
    · cases hs
      exact (hrotated.enter hnext').routes r route
    · cases hs
      exact hrotated.returns hnext'
  · dsimp only at hs
    rw [if_pos rfl] at hs
    cases hs
    exact (h.enter hnext).routes r route

theorem Chained.settle (h : Chained s) {error : Option AgentError}
    (hs : s.settle r error = some s') : Chained s' := by
  unfold Adapter.settle at hs
  split_ifs at hs
  cases hs
  exact h.update rfl (h.accepting r) rfl rfl

theorem Chained.cleanUp (h : Chained s) (hs : s.cleanUp r = some s') : Chained s' := by
  unfold Adapter.cleanUp at hs
  dsimp only at hs
  have hcleaned := h.update (r := r) (f := ({ · with run := .cleaned })) rfl (h.accepting r) rfl rfl
  split_ifs at hs
  · cases hs
    exact hcleaned.frame rfl rfl rfl rfl rfl rfl
  · cases hs
    exact hcleaned

/-- A timer aborts the request that is executing, and its microtasks come next. -/
theorem Chained.failForTimeout (h : Chained s) (r : ℕ) (stage : Stage) (timeoutMs : ℕ) :
    Chained (s.failForTimeout r stage timeoutMs) := by
  unfold Adapter.failForTimeout
  dsimp only
  split_ifs with hoff
  · exact h
  simp only [Bool.or_eq_true, Bool.not_eq_true', not_or, Bool.not_eq_false] at hoff
  have hr := h.accepting r hoff.1
  have hk : Keeps s ((s.update r fun q => { q with
      race := q.race.or (some (.rejected (timeoutError stage timeoutMs))) }).abort r) :=
    (keeps_update ⟨rfl, rfl, rfl, rfl, rfl, id, id, id⟩).trans (keeps_abort r)
  have hothers : ∀ r', r' ≠ r → ((s.update r fun q => { q with
      race := q.race.or (some (.rejected (timeoutError stage timeoutMs))) }).abort r).requests r' =
        s.requests r' :=
    fun r' hne => (abort_of_ne hne).trans (requests_update_of_ne hne _)
  have hactive : ¬(s.requests r).cancelled → s.activeController = some r := fun hlive =>
    (h.unflagged r hr hlive).1
  constructor
  · intro r'
    rw [(hk.requests r').phase]
    exact hk.nextRequestId ▸ h.submitted r'
  · intro r'
    rw [(hk.requests r').phase]
    exact hk.begun ▸ h.begun r'
  · intro r' hpos hlt
    rw [(hk.requests r').phase]
    exact h.returned r' hpos (hk.begun ▸ hlt)
  · intro r' haccepting
    rw [(hk.requests r').phase]
    exact h.accepting r' ((hk.requests r').accepting haccepting)
  · intro r' hr'
    rw [(hk.requests r').phase]
    exact hk.activeRequest ▸ h.active r' (hk.activeController ▸ hr')
  · intro r' hr' _
    obtain rfl := h.unique hr (h.active r' (hk.activeController ▸ hr')).1
    exact abort_aborted r
  · intro r' hexecuting hlive
    rw [(hk.requests r').phase] at hexecuting
    obtain rfl := h.unique hr hexecuting
    refine ⟨hk.activeController.trans (hactive ?_), fun _ => rfl⟩
    exact fun hcancelled => hlive ((hk.requests r).cancelled hcancelled)
  · intro r' hwaiting
    rw [(hk.requests r').phase] at hwaiting
    have hne : r' ≠ r := by
      rintro rfl
      rw [hr] at hwaiting
      cases hwaiting
    rw [hothers r' hne]
    exact h.waiting r' hwaiting

theorem Chained.timer (h : Chained s) {stage : Stage} {timeoutMs : ℕ}
    (hs : s.timer r stage timeoutMs = some s') : Chained s' := by
  unfold Adapter.timer at hs
  cases stage with
  | firstOutput | request =>
    dsimp only at hs
    split_ifs at hs
    cases hs
    apply Chained.failForTimeout
    exact h.update rfl (h.accepting r) rfl rfl

/-! ### The end of a request -/

theorem phase_enqueue (r r' : ℕ) (port : Port) (frame : Frame) :
    ((s.enqueue c r port frame).requests r').phase = (s.requests r').phase :=
  ((keeps_enqueue r port frame).requests r').phase

theorem Chained.fail (h : Chained s) (hr : (s.requests r).phase = .executing)
    (rotates created : Bool) (payload : Payload) (message : Text) :
    Chained (s.fail c r rotates created payload message) := by
  unfold Adapter.fail
  have hrotated : Chained (if rotates then s.rotateDriver created else (s, true)).1 ∧
      ((if rotates then s.rotateDriver created else (s, true)).1.requests r).phase = .executing := by
    split_ifs
    · rw [rotateDriver_requests]
      exact ⟨h.rotateDriver created, hr⟩
    · exact ⟨h, hr⟩
  obtain ⟨hchained, hphase⟩ := hrotated
  generalize (if rotates then s.rotateDriver created else (s, true)) = rotated at *
  dsimp only
  split_ifs
  · exact hchained.enqueue hphase _ _
  · apply (hchained.enqueue hphase _ _).enqueue
    rw [phase_enqueue]
    exact hphase
  · exact hchained

theorem Chained.conclude (h : Chained s) (hr : (s.requests r).phase = .executing)
    (outcome : Outcome) (created : Bool) : Chained (s.conclude c r outcome created) := by
  unfold Adapter.conclude
  have hstops : Chained (s.update r ({ · with accepting := false })) :=
    h.update rfl (fun hac => absurd hac Bool.false_ne_true) rfl rfl
  have hphase : ((s.update r ({ · with accepting := false })).requests r).phase = .executing := by
    rw [requests_update_self]
    exact hr
  cases outcome with
  | resolved =>
    dsimp only
    split_ifs
    · exact h.enqueue hr _ _
    · exact h
  | rejected error =>
    dsimp only
    split_ifs
    · exact hstops.fail hphase _ _ _ _
    · exact hstops.fail hphase _ _ _ _
    · exact h
  | aborted => exact h

theorem leaves_fail (rotates created : Bool) (payload : Payload) (message : Text) :
    Leaves s (s.fail c r rotates created payload message) := by
  unfold fail
  have hrotated : Leaves s (if rotates then s.rotateDriver created else (s, true)).1 := by
    split_ifs
    · exact leaves_rotateDriver created
    · exact .refl s
  generalize (if rotates then s.rotateDriver created else (s, true)) = rotated at *
  dsimp only
  split_ifs
  · exact hrotated.trans (keeps_enqueue _ _ _).toLeaves
  · exact (hrotated.trans (keeps_enqueue _ _ _).toLeaves).trans (keeps_enqueue _ _ _).toLeaves
  · exact hrotated

theorem leaves_conclude (outcome : Outcome) (created : Bool) :
    Leaves s (s.conclude c r outcome created) := by
  unfold conclude
  have hstops : Leaves s (s.update r ({ · with accepting := false })) :=
    (keeps_update ⟨rfl, rfl, rfl, rfl, rfl, fun h => absurd h Bool.false_ne_true, id, id⟩).toLeaves
  cases outcome with
  | resolved =>
    dsimp only
    split_ifs
    · exact (keeps_enqueue _ _ _).toLeaves
    · exact .refl s
  | rejected error =>
    dsimp only
    split_ifs
    · exact hstops.trans (leaves_fail _ _ _ _)
    · exact hstops.trans (leaves_fail _ _ _ _)
    · exact .refl s
  | aborted => exact .refl s

theorem Chained.finishRequest (h : Chained s) (hr : (s.requests r).phase = .executing)
    (interrupted : Option ℕ) : Chained { s.finishRequest r with interrupted } := by
  have hrequests : (s.finishRequest r).requests = (s.update r fun q => { q with
      phase := .returned
      accepting := false
      firstOutputTimer := false
      requestTimer := false }).requests := by
    unfold Adapter.finishRequest
    split_ifs
    · rfl
    · rfl
  have hfields : (s.finishRequest r).nextRequestId = s.nextRequestId ∧
      (s.finishRequest r).begun = s.begun ∧ (s.finishRequest r).activeController = none := by
    unfold Adapter.finishRequest
    split_ifs with hactive
    · exact ⟨rfl, rfl, rfl⟩
    · refine ⟨rfl, rfl, ?_⟩
      cases hcontroller : s.activeController with
      | none => exact hcontroller
      | some a =>
        obtain rfl := h.unique hr (h.active a hcontroller).1
        exact absurd hcontroller hactive
  obtain ⟨hids, hbegun, hnone⟩ := hfields
  have hpos := (h.begun r).mp (by rw [hr]; trivial)
  constructor
  · intro r'
    dsimp only
    rw [hrequests, hids, requests_update]
    split_ifs with hne
    · subst hne
      have hsubmitted := h.submitted r'
      rw [hr] at hsubmitted
      rw [← hsubmitted]
      exact iff_of_false nofun nofun
    · exact h.submitted r'
  · intro r'
    dsimp only
    rw [hrequests, hbegun, requests_update]
    split_ifs with hne
    · subst hne
      exact iff_of_true trivial hpos
    · exact h.begun r'
  · intro r' hpos' hlt
    dsimp only at hlt ⊢
    rw [hbegun] at hlt
    rw [hrequests, requests_update]
    split_ifs
    · rfl
    · exact h.returned r' hpos' hlt
  · intro r'
    dsimp only
    rw [hrequests, requests_update]
    split_ifs
    · intro hac
      cases hac
    · exact h.accepting r'
  · intro r' hactive
    dsimp only at hactive
    rw [hnone] at hactive
    cases hactive
  · intro r' hactive
    dsimp only at hactive
    rw [hnone] at hactive
    cases hactive
  · intro r'
    dsimp only
    rw [hrequests, requests_update]
    split_ifs with hne
    · intro hexecuting
      cases hexecuting
    · intro hexecuting
      exact absurd (h.unique hexecuting hr) hne
  · intro r'
    dsimp only
    rw [hrequests, requests_update]
    split_ifs
    · intro hwaiting
      cases hwaiting
    · exact h.waiting r'

theorem Chained.resume (h : Chained s) {created : Bool} (hs : s.resume c r created = some s') :
    Chained s' := by
  unfold Adapter.resume at hs
  rw [Option.ite_none_right_eq_some] at hs
  obtain ⟨hr, hs⟩ := hs
  split at hs
  · cases hs
  · rename_i outcome _
    cases hs
    apply (h.conclude hr outcome created).finishRequest
    rw [((leaves_conclude outcome created).requests r).phase]
    exact hr

theorem host_eq_some : s.host s' = some s'' ↔ s.interrupted = none ∧ s' = s'' := by
  unfold host
  rw [Option.ite_none_right_eq_some, Option.some.injEq]

theorem Chained.step (h : Chained s) {a : Action} (hs : s.step c a = some s') : Chained s' := by
  have hclosed : Chained { s with closed := true } := h.frame rfl rfl rfl rfl rfl rfl
  cases a with
  | start text sequence =>
    obtain ⟨-, rfl⟩ := host_eq_some.mp hs
    exact h.start text sequence
  | onSignal reason sequence =>
    obtain ⟨hhost, rfl⟩ := host_eq_some.mp hs
    exact h.cancel hhost reason sequence
  | tick =>
    obtain ⟨-, rfl⟩ := host_eq_some.mp hs
    exact h.frame rfl rfl rfl rfl rfl rfl
  | onFinish =>
    obtain ⟨hhost, rfl⟩ := host_eq_some.mp hs
    exact hclosed.cancel hhost _ _
  | onAbort reason =>
    obtain ⟨hhost, rfl⟩ := host_eq_some.mp hs
    exact hclosed.cancel hhost _ _
  | begin r created route => exact h.begin hs
  | runDriver r =>
    simp only [Adapter.step, Option.ite_none_right_eq_some, Option.some.injEq] at hs
    obtain ⟨-, rfl⟩ := hs
    exact h.update rfl (h.accepting r) rfl rfl
  | sinkText r delta =>
    cases hs
    exact h.sinkText r delta
  | sinkEvent r type payload =>
    cases hs
    exact h.sinkEvent r type payload
  | settle r error => exact h.settle hs
  | cleanUp r => exact h.cleanUp hs
  | timer r stage timeoutMs => exact h.timer hs
  | resume r created => exact h.resume hs

theorem Chained.of_reachable (hr : (adapterSystem c).Reachable s) : Chained s := by
  apply hr.invariant
  · rintro s rfl
    exact chained_new
  · intro s a s' _ h hs
    exact h.step hs

end Adapter
end Muxiva.Agent
