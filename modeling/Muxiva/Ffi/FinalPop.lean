import Muxiva.Ffi.Ingress

/-! The last pop. A submitter that looks at `closed` for the second time holds the lock, so a `pop` that
takes the lock after the close finds everything that will ever be accepted. -/
set_option linter.all false
namespace Muxiva.Ffi

open Transition Transition.System

/-- The call is between its `try_lock` and the end of its section. -/
def Submitter.Inside : Submitter → Prop
  | .locked _ | .checked _ => True
  | _ => False

namespace ExternalIngress

/-- The call took the lock after the close. -/
def Late (s : ExternalIngress) (i : ℕ) : Prop :=
  s.poppers i = .locked true ∨ ∃ frame, s.poppers i = .returned true frame

/-- Who holds the lock, and what follows for the calls that are late. -/
structure Guarded (s : ExternalIngress) : Prop where
  submitter : ∀ i, (s.submitters i).Inside → s.holder = some (.submitter i)
  popper : ∀ i late, s.poppers i = .locked late → s.holder = some (.popper i)
  late : ∀ i, s.Late i → s.closed = true ∧ ∀ j frame, s.submitters j ≠ .checked frame
  empty : ∀ i, s.poppers i = .returned true none → s.frames = []

variable {c : Capacities} {s s' : ExternalIngress} {i : ℕ} {a : IngressAct}

theorem Guarded.init : Guarded new := by
  constructor <;> simp [new, Late, Submitter.Inside]

/-- A submitter goes on without the lock. -/
theorem Guarded.outside (h : s.Guarded) (pc : Submitter) (hpc : ¬ pc.Inside) :
    (s.setSubmitter i pc).Guarded where
  submitter := by
    intro j hj
    by_cases hji : j = i
    · subst hji
      simp only [setSubmitter, Function.update_self] at hj
      exact absurd hj hpc
    · simp only [setSubmitter, Function.update_of_ne hji] at hj
      exact h.submitter j hj
  popper := h.popper
  late := by
    intro k hk
    obtain ⟨hclosed, hchecked⟩ := h.late k hk
    refine ⟨hclosed, fun j frame hj => ?_⟩
    by_cases hji : j = i
    · subst hji
      simp only [setSubmitter, Function.update_self] at hj
      exact hpc (hj ▸ trivial)
    · simp only [setSubmitter, Function.update_of_ne hji] at hj
      exact hchecked j frame hj
  empty := h.empty

/-- Nobody is inside when the lock is free. -/
theorem Guarded.free (h : s.Guarded) (hfree : s.holder = none) :
    (∀ j, ¬ (s.submitters j).Inside) ∧ ∀ j late, s.poppers j ≠ .locked late := by
  refine ⟨fun j hj => ?_, fun j late hj => ?_⟩
  · have hholder := h.submitter j hj
    rw [hfree] at hholder
    cases hholder
  · have hholder := h.popper j late hj
    rw [hfree] at hholder
    cases hholder

/-- A submitter gives the lock back. -/
theorem Guarded.unlock (h : s.Guarded) (hholder : s.holder = some (.submitter i)) (pc : Submitter)
    (hpc : ¬ pc.Inside) : Guarded { s.setSubmitter i pc with holder := none } := by
  have hmoved := h.outside (i := i) pc hpc
  refine { hmoved with submitter := ?_, popper := ?_ }
  · intro j hj
    have hj' := hmoved.submitter j hj
    have hji : j = i := by
      have hsame := hholder.symm.trans hj'
      simpa using hsame.symm
    subst hji
    simp only [setSubmitter, Function.update_self] at hj
    exact absurd hj hpc
  · intro j late hj
    have hsame := hholder.symm.trans (h.popper j late hj)
    cases hsame

theorem Guarded.submit (h : s.Guarded) {frame : OwnedFrame} (hs : s.submit i frame = some s') :
    s'.Guarded := by
  unfold ExternalIngress.submit at hs
  split at hs
  · split_ifs at hs
    · cases hs
      have hmoved := h.outside (i := i) (.returned (.error .closed)) id
      exact { hmoved with }
    · cases hs
      exact h.outside _ id
  · cases hs

theorem Guarded.stepSubmitter (h : s.Guarded) (hs : s.stepSubmitter c i = some s') : s'.Guarded := by
  unfold ExternalIngress.stepSubmitter at hs
  split at hs
  · split_ifs at hs with hfree
    · cases hs
      obtain ⟨hnobody, hnopopper⟩ := h.free hfree
      constructor
      · intro j hj
        by_cases hji : j = i
        · rw [hji]
        · simp only [setSubmitter, Function.update_of_ne hji] at hj
          exact absurd hj (hnobody j)
      · intro j late hj
        exact absurd hj (hnopopper j late)
      · intro k hk
        obtain ⟨hclosed, hchecked⟩ := h.late k hk
        refine ⟨hclosed, fun j other hj => ?_⟩
        by_cases hji : j = i
        · subst hji
          simp [setSubmitter] at hj
        · simp only [setSubmitter, Function.update_of_ne hji] at hj
          exact hchecked j other hj
      · exact h.empty
    · cases hs
      have hmoved := h.outside (i := i) (.returned (.error .full)) id
      exact { hmoved with }
  · rename_i frame hi
    have hholder := h.submitter i (hi ▸ trivial)
    split_ifs at hs with hclosed
    · cases hs
      have hmoved := h.unlock hholder (.returned (.error .closed)) id
      exact { hmoved with }
    · cases hs
      constructor
      · intro j hj
        by_cases hji : j = i
        · rw [hji]
          exact hholder
        · simp only [setSubmitter, Function.update_of_ne hji] at hj
          exact h.submitter j hj
      · exact h.popper
      · intro k hk
        exact absurd (h.late k hk).1 hclosed
      · exact h.empty
  · rename_i frame hi
    have hholder := h.submitter i (hi ▸ trivial)
    -- the frame is taken, so no call is late
    have hnone (k : ℕ) : ¬ s.Late k := fun hk => (h.late k hk).2 i frame hi
    split_ifs at hs with hfull
    · cases hs
      have hmoved := h.unlock hholder (.returned (.error .full)) id
      exact { hmoved with }
    · cases hs
      have hmoved := h.unlock hholder (.returned (.ok ())) id
      refine { hmoved with empty := ?_ }
      intro k hk
      exact absurd (.inr ⟨none, hk⟩) (hnone k)
  · cases hs

theorem Guarded.pop (h : s.Guarded) (hs : s.pop i = some s') : s'.Guarded := by
  unfold ExternalIngress.pop at hs
  split at hs
  · split_ifs at hs with hfree
    cases hs
    obtain ⟨hnobody, hnopopper⟩ := h.free hfree
    constructor
    · intro j hj
      exact absurd hj (hnobody j)
    · intro j late hj
      by_cases hji : j = i
      · rw [hji]
      · simp only [setPopper, Function.update_of_ne hji] at hj
        exact absurd hj (hnopopper j late)
    · intro k hk
      refine ⟨?_, fun j frame hj => hnobody j (hj ▸ trivial)⟩
      by_cases hki : k = i
      · subst hki
        simp [Late, setPopper] at hk
        exact hk
      · simp only [Late, setPopper, Function.update_of_ne hki] at hk
        exact (h.late k hk).1
    · intro k hk
      by_cases hki : k = i
      · subst hki
        simp [setPopper] at hk
      · simp only [setPopper, Function.update_of_ne hki] at hk
        exact h.empty k hk
  · cases hs

theorem Guarded.stepPopper (h : s.Guarded) (hs : s.stepPopper i = some s') : s'.Guarded := by
  unfold ExternalIngress.stepPopper at hs
  split at hs
  · rename_i late hi
    have hholder := h.popper i late hi
    have hmoved (frame : Option OwnedFrame) (frames : List OwnedFrame) (bytes : ℕ)
        (log : List OwnedFrame) (hempty : s.frames = [] → frames = [])
        (hreturned : frame = none → frames = []) :
        Guarded { s.setPopper i (.returned late frame) with
          frames := frames, bytes := bytes, poppedLog := log, holder := none } := by
      constructor
      · intro j hj
        have hsame := hholder.symm.trans (h.submitter j hj)
        cases hsame
      · intro j other hj
        by_cases hji : j = i
        · subst hji
          simp [setPopper] at hj
        · simp only [setPopper, Function.update_of_ne hji] at hj
          have hsame := hholder.symm.trans (h.popper j other hj)
          simp only [Option.some.injEq, Holder.popper.injEq] at hsame
          exact absurd hsame.symm hji
      · intro k hk
        by_cases hki : k = i
        · subst hki
          apply h.late k
          simp [Late, setPopper] at hk
          exact .inl (by rw [hi, hk])
        · simp only [Late, setPopper, Function.update_of_ne hki] at hk
          exact h.late k hk
      · intro k hk
        by_cases hki : k = i
        · subst hki
          simp [setPopper] at hk
          exact hreturned hk.2
        · simp only [setPopper, Function.update_of_ne hki] at hk
          exact hempty (h.empty k hk)
    split at hs
    · rename_i hframes
      cases hs
      have hnone := hmoved none s.frames s.bytes s.poppedLog id (fun _ => hframes)
      exact { hnone with }
    · rename_i frame frames hframes
      cases hs
      refine hmoved _ _ _ _ (fun hnil => ?_) fun hnone => absurd hnone (Option.some_ne_none frame)
      rw [hframes] at hnil
      cases hnil
  · cases hs

theorem Guarded.step (h : s.Guarded) (hs : (ingressSystem c).step s a = some s') : s'.Guarded := by
  cases a with
  | submit i frame => exact h.submit hs
  | submitter i => exact h.stepSubmitter hs
  | pop i => exact h.pop hs
  | popper i => exact h.stepPopper hs
  | close =>
    have hs : some { s with closed := true } = some s' := hs
    cases hs
    exact { h with late := fun k hk => ⟨rfl, (h.late k hk).2⟩ }

theorem reachable_counted (hr : (ingressSystem c).Reachable s) : s.Counted c :=
  hr.invariant (by rintro _ rfl; exact Counted.init) fun _ _ _ _ h hs => h.step hs

theorem reachable_guarded (hr : (ingressSystem c).Reachable s) : s.Guarded :=
  hr.invariant (by rintro _ rfl; exact Guarded.init) fun _ _ _ _ h hs => h.step hs

/-- After a late pop that found nothing, a step neither accepts nor pops. -/
theorem late_step (h : s.Guarded) (hi : s.poppers i = .returned true none)
    (hs : (ingressSystem c).step s a = some s') :
    s'.poppers i = .returned true none ∧ s'.acceptedLog = s.acceptedLog ∧
      s'.poppedLog = s.poppedLog := by
  have hframes : s.frames = [] := h.empty i hi
  have hchecked := (h.late i (.inr ⟨none, hi⟩)).2
  cases a with
  | submit j frame =>
    have hs : s.submit j frame = some s' := hs
    unfold ExternalIngress.submit at hs
    split at hs
    · split_ifs at hs
      · cases hs
        exact ⟨hi, rfl, rfl⟩
      · cases hs
        exact ⟨hi, rfl, rfl⟩
    · cases hs
  | submitter j =>
    have hs : s.stepSubmitter c j = some s' := hs
    unfold ExternalIngress.stepSubmitter at hs
    split at hs
    · split_ifs at hs
      · cases hs
        exact ⟨hi, rfl, rfl⟩
      · cases hs
        exact ⟨hi, rfl, rfl⟩
    · split_ifs at hs
      · cases hs
        exact ⟨hi, rfl, rfl⟩
      · cases hs
        exact ⟨hi, rfl, rfl⟩
    · rename_i frame hj
      exact absurd hj (hchecked j frame)
    · cases hs
  | pop j =>
    have hs : s.pop j = some s' := hs
    unfold ExternalIngress.pop at hs
    split at hs
    · rename_i hj
      split_ifs at hs
      cases hs
      have hij : i ≠ j := by
        rintro rfl
        rw [hi] at hj
        cases hj
      exact ⟨by simpa [setPopper, hij] using hi, rfl, rfl⟩
    · cases hs
  | popper j =>
    have hs : s.stepPopper j = some s' := hs
    unfold ExternalIngress.stepPopper at hs
    split at hs
    · rename_i late hj
      simp only [hframes] at hs
      cases hs
      have hij : i ≠ j := by
        rintro rfl
        rw [hi] at hj
        cases hj
      exact ⟨by simpa [setPopper, hij] using hi, rfl, rfl⟩
    · cases hs
  | close =>
    have hs : some { s with closed := true } = some s' := hs
    cases hs
    exact ⟨hi, rfl, rfl⟩

end ExternalIngress

theorem ingress_fifo {c : Capacities} {s : ExternalIngress} (hr : (ingressSystem c).Reachable s) :
    s.bytes = (s.frames.map (·.copiedPayloadLen)).sum ∧ s.bytes ≤ c.byteCapacity ∧
      s.frames.length ≤ c.capacity ∧ s.poppedLog <+: s.acceptedLog ∧
      s.accepted = s.poppedLog.length + s.frames.length ∧
      ∀ i, s.poppers i = .returned true none → ∀ t, (ingressSystem c).Steps s t →
        t.acceptedLog = s.acceptedLog ∧ t.poppedLog = s.poppedLog := by
  have h := ExternalIngress.reachable_counted hr
  have haccepted := h.accepted
  rw [h.order, List.length_append] at haccepted
  refine ⟨h.bytes, h.byteCapacity, h.capacity, ⟨s.frames, h.order.symm⟩, haccepted, ?_⟩
  intro i hi t hst
  obtain ⟨-, -, hlogs⟩ := hst.invariant (I := fun t => t.poppers i = .returned true none ∧
      t.acceptedLog = s.acceptedLog ∧ t.poppedLog = s.poppedLog)
    (fun u a u' hu hiu hs => by
      obtain ⟨hpopper, haccepted, hpopped⟩ :=
        ExternalIngress.late_step (ExternalIngress.reachable_guarded hu) hiu.1 hs
      exact ⟨hpopper, haccepted.trans hiu.2.1, hpopped.trans hiu.2.2⟩) hr ⟨hi, rfl, rfl⟩
  exact hlogs

def sampleFrame : OwnedFrame where
  header := ⟨4, 1, .zero, .zero, "f", "c", "s", "t"⟩
  payload := .byte [1, 2, 3] none

/-- A frame goes through while a submitter is inside when the ingress is closed. -/
theorem ingress_fifo_run : ∃ s, (ingressSystem ⟨1, 8⟩).Reachable s ∧ s.closed = true ∧
    s.poppedLog = [sampleFrame] ∧ ∀ t, (ingressSystem ⟨1, 8⟩).Steps s t →
      t.acceptedLog = [sampleFrame] ∧ t.poppedLog = [sampleFrame] := by
  obtain ⟨s, hr, hs⟩ := exists_reachable_of_run (M := ingressSystem ⟨1, 8⟩) (s := .new) rfl
    [.submit 0 sampleFrame, .submit 1 sampleFrame, .submitter 0, .submitter 0, .close, .submitter 0,
      .pop 0, .submitter 1, .popper 0, .pop 1, .popper 1]
    (fun s => s.closed && s.acceptedLog == [sampleFrame] && s.poppedLog == [sampleFrame] &&
      s.poppers 1 == .returned true none) (by decide +kernel)
  simp only [Bool.and_eq_true, beq_iff_eq] at hs
  obtain ⟨⟨⟨hclosed, haccepted⟩, hpopped⟩, hnone⟩ := hs
  obtain ⟨-, -, -, -, -, hfinal⟩ := ingress_fifo hr
  refine ⟨s, hr, hclosed, hpopped, fun t hst => ?_⟩
  have hlogs := hfinal 1 hnone t hst
  rwa [haccepted, hpopped] at hlogs

end Muxiva.Ffi
