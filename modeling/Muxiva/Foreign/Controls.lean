import Muxiva.Foreign.Mailbox

/-! How often the terminal controls are queued, and what the cancellation count is. -/
set_option linter.all false
namespace Muxiva.Foreign
open Muxiva.Runtime (saturatingAdd)

variable {d : ForeignNodeDriver}

def ForeignCommand.isAbort (command : ForeignCommand) : Bool :=
  match command.kind with
  | .abort _ => true
  | _ => false

def ForeignCommand.isStop (command : ForeignCommand) : Bool :=
  match command.kind with
  | .stop => true
  | _ => false

def ForeignCommand.cancels (command : ForeignCommand) : Option ℕ :=
  match command.kind with
  | .cancel => some command.sequence
  | _ => none

/-- The commands a run cancelled, in order. -/
def History.cancelled (h : History) : List ℕ := h.issued.filterMap ForeignCommand.cancels

variable (d)

/-- At most one `Abort`, one `Stop` and one `Cancel` for each command were ever queued, the
control queue is within its bound, and the count is that of the cancelled commands. -/
structure IssuedOnce (h : History) : Prop where
  abort : h.issued.countP (·.isAbort) ≤ 1
  stop : h.issued.countP (·.isStop) ≤ 1
  cancel : h.cancelled.Nodup
  bound : h.state.controls.length ≤ d.config.maxInFlight + 2
  total : h.state.cancellationTotal = h.cancelled.length

/-- A poll that finds a live call past its deadline. -/
def Overdue (s : State) : Op → Prop
  | .expireDeadlines now => s.expired now ≠ []
  | _ => False

/-- What a run without an overdue poll has issued: nothing while it runs, and one closing list
of controls afterwards. -/
structure Issue (h : History) : Prop where
  running : h.state.stopping = false → h.issued = [] ∧ h.state.cancellationTotal = 0
  shape : ∃ (xs : List ℕ) (terminal : List ForeignCommand),
    h.issued = xs.map cancelControl ++ terminal ∧ xs.Nodup ∧
      xs.length ≤ d.config.maxInFlight ∧ h.state.cancellationTotal = xs.length ∧
      (terminal = [] ∨ terminal = [stopControl] ∨ ∃ reason, terminal = [abortControl reason, stopControl])
  pending : h.state.controls <:+ h.issued

variable {d}

theorem filterMap_cancelControl (xs : List ℕ) :
    (xs.map cancelControl).filterMap ForeignCommand.cancels = xs := by
  induction xs with
  | nil => rfl
  | cons x xs ih => rw [List.map_cons, List.filterMap_cons, ih]; rfl

theorem countP_isAbort_cancelControl (xs : List ℕ) :
    (xs.map cancelControl).countP (·.isAbort) = 0 := by
  simp [List.countP_eq_zero, cancelControl, ForeignCommand.isAbort]

theorem countP_isStop_cancelControl (xs : List ℕ) :
    (xs.map cancelControl).countP (·.isStop) = 0 := by
  simp [List.countP_eq_zero, cancelControl, ForeignCommand.isStop]

theorem Issue.once {h : History} (hi : Issue d h) : IssuedOnce d h := by
  obtain ⟨xs, terminal, hissued, hnodup, hbound, htotal, hterminal⟩ := hi.shape
  have hlength : terminal.length ≤ 2 := by
    rcases hterminal with rfl | rfl | ⟨reason, rfl⟩ <;> simp
  have hcancelled : h.cancelled = xs := by
    unfold History.cancelled
    rw [hissued, List.filterMap_append, filterMap_cancelControl]
    rcases hterminal with rfl | rfl | ⟨reason, rfl⟩ <;>
      simp [stopControl, abortControl, ForeignCommand.cancels]
  constructor
  case abort =>
    rw [hissued, List.countP_append, countP_isAbort_cancelControl]
    rcases hterminal with rfl | rfl | ⟨reason, rfl⟩ <;>
      simp [stopControl, abortControl, ForeignCommand.isAbort]
  case stop =>
    rw [hissued, List.countP_append, countP_isStop_cancelControl]
    rcases hterminal with rfl | rfl | ⟨reason, rfl⟩ <;>
      simp [stopControl, abortControl, ForeignCommand.isStop]
  case cancel => rwa [hcancelled]
  case bound =>
    have hle := hi.pending.length_le
    rw [hissued, List.length_append, List.length_map] at hle
    omega
  case total => rw [hcancelled, htotal]

/-- How many live calls a failure cancels. -/
theorem length_cancelling_le (s : State) (hb : Bounds d s) (reason : AbortReason) :
    (s.purge reason).cancelling.length ≤ d.config.maxInFlight := by
  have hsize : (s.purge reason).cancelling.length ≤ (s.purge reason).live.size := by
    unfold State.cancelling
    rw [List.length_map]
    exact List.length_filter_le _ _
  refine hsize.trans (le_trans ?_ hb.inFlight)
  rw [purge_eq]
  exact SortedMap.size_foldl_erase_le _ _

theorem nodup_cancelling (s : State) : s.cancelling.Nodup := SortedMap.nodup_filter_keys _ _

theorem saturatingAdd_small {a b : ℕ} (ha : a ≤ 3 * d.config.maxInFlight)
    (hb : b ≤ d.config.maxInFlight) : saturatingAdd a b = a + b := by
  have hlimit := (d.config.validate_bounds d.valid).1
  have hsmall : maxInFlightLimit = 4096 := rfl
  unfold saturatingAdd
  omega

/-- Moves that leave the controls alone. -/
theorem Issue.of_same {h : History} (hi : Issue d h) {s' : State}
    (log : List (Op × Reply)) (hstop : s'.stopping = h.state.stopping)
    (htotal : s'.cancellationTotal = h.state.cancellationTotal)
    (hcontrols : s'.controls = h.state.controls) :
    Issue d ⟨s', log, h.issued ++ s'.controls.drop h.state.controls.length⟩ := by
  rw [hcontrols, List.drop_length, List.append_nil]
  constructor <;> simp only [hstop, htotal, hcontrols]
  exacts [hi.running, hi.shape, hi.pending]

/-- The failure of a running driver issues its one closing list. -/
theorem Issue.fail {h : History} (hi : Issue d h) (hrunning : h.state.stopping = false)
    {t : State} (hb : Bounds d t) (htotal : t.cancellationTotal = h.state.cancellationTotal)
    (hcontrols : t.controls = h.state.controls) (reason : AbortReason)
    (log : List (Op × Reply)) :
    Issue d ⟨t.failLocked reason, log,
      h.issued ++ (t.failLocked reason).controls.drop h.state.controls.length⟩ := by
  obtain ⟨hissued, hzero⟩ := hi.running hrunning
  have hnone : h.state.controls = [] := by
    have hpending := hi.pending
    rwa [hissued, List.suffix_nil] at hpending
  have hbound := length_cancelling_le t hb reason
  refine ⟨by simp, ⟨(t.purge reason).cancelling,
    [abortControl (t.abortReason.getD reason), stopControl], ?_, nodup_cancelling _, hbound, ?_,
    .inr (.inr ⟨_, rfl⟩)⟩, ?_⟩
  · rw [hissued, failLocked_controls, hcontrols, hnone]
    rfl
  · rw [failLocked_cancellationTotal, htotal, hzero, saturatingAdd_small (Nat.zero_le _) hbound,
      Nat.zero_add]
  · rw [hissued, hnone]
    exact List.suffix_rfl

theorem Move.issue {h : History} {s' : State} {op : Op} {reply : Reply}
    (m : Move d h.state (op, reply) s') (hb : Bounds d h.state) (hi : Issue d h)
    (hc : ¬ Overdue h.state op) (log : List (Op × Reply)) :
    Issue d ⟨s', log, h.issued ++ s'.controls.drop h.state.controls.length⟩ := by
  cases m with
  | quiet => exact hi.of_same log rfl rfl rfl
  | token => exact hi.of_same log rfl rfl rfl
  | submit => exact hi.of_same log rfl rfl rfl
  | overflow => exact hi.of_same log rfl rfl rfl
  | control control controls front =>
    have hdrop : controls.drop h.state.controls.length = [] := by
      rw [front, List.drop_eq_nil_iff, List.length_cons]
      omega
    dsimp only
    rw [hdrop, List.append_nil]
    refine ⟨hi.running, hi.shape, List.IsSuffix.trans ?_ hi.pending⟩
    exact front ▸ List.suffix_cons _ _
  | receive => exact hi.of_same log rfl rfl rfl
  | late => exact hi.of_same log rfl rfl rfl
  | fail completion l reason live active running =>
    exact hi.fail running (hb.release completion.sequence) rfl rfl reason log
  | accept =>
    exact hi.of_same log (accept_stopping _ _ _) (accept_cancellationTotal _ _ _)
      (accept_controls _ _ _)
  | take =>
    split_ifs
    · exact hi.of_same log (promoteStrict_stopping _) (promoteStrict_cancellationTotal _)
        (promoteStrict_controls _)
    · exact hi.of_same log rfl rfl rfl
  | expire now due => exact absurd due hc
  | stop reason running => exact hi.fail running hb rfl rfl reason log
  | graceful running idle =>
    obtain ⟨hissued, hzero⟩ := hi.running running
    have hnone : h.state.controls = [] := by
      have hpending := hi.pending
      rwa [hissued, List.suffix_nil] at hpending
    refine ⟨by simp, ⟨[], [stopControl], ?_, .nil, Nat.zero_le _, hzero, .inr (.inl rfl)⟩, ?_⟩
    · rw [hissued, hnone]
      rfl
    · rw [hissued, hnone]
      exact List.suffix_rfl
  | acknowledge => exact hi.of_same log rfl rfl rfl

theorem issue_reachable {h : History}
    (hr : (driver d).ReachableBy (fun h op => ¬ Overdue h.state op) h) : Issue d h := by
  refine driver_invariant ?_ ?_ hr
  · exact ⟨fun _ => ⟨rfl, rfl⟩, ⟨[], [], rfl, .nil, Nat.zero_le _, rfl, .inl rfl⟩, List.suffix_rfl⟩
  · intro h op hr hi hc
    exact (apply_move h.state op).issue (bounds_reachable hr).1 hi hc _

/-- An overdue poll counts the calls it found once more than it cancels them. -/
theorem not_issuedOnce_of_overdue {h : History} {op : Op} (hb : Bounds d h.state)
    (hi : Issue d h) (hc : Overdue h.state op) : ¬ IssuedOnce d (h.next d op) := by
  cases op with
  | expireDeadlines now =>
    intro honce
    have hdue : (h.state.expired now).isEmpty = false :=
      List.isEmpty_eq_false_iff.mpr hc
    have hpos : 0 < (h.state.expired now).length := List.length_pos_iff.mpr hc
    have hexpired : (h.state.expired now).length ≤ d.config.maxInFlight := by
      refine le_trans ?_ hb.inFlight
      unfold State.expired
      rw [List.length_map]
      exact List.length_filter_le _ _
    have hbound := length_cancelling_le h.state hb deadlineAbort
    obtain ⟨xs, terminal, hissued, -, hxs, htotal, hterminal⟩ := hi.shape
    have hold : h.cancelled.length = xs.length := hi.once.total ▸ htotal
    have hcancelled : (h.next d (.expireDeadlines now)).cancelled.length =
        xs.length + (h.state.purge deadlineAbort).cancelling.length := by
      have hcontrols : (h.state.apply d (.expireDeadlines now)).2.controls =
          (h.state.failLocked deadlineAbort).controls := by
        simp [State.apply, State.expireDeadlines, hdue]
      unfold History.cancelled History.next
      dsimp only
      rw [List.filterMap_append, List.length_append, hcontrols, failLocked_controls,
        List.drop_left, List.filterMap_append, filterMap_cancelControl, List.length_append]
      simp [History.cancelled, ← hold, abortControl, stopControl, ForeignCommand.cancels]
    have hcount : (h.next d (.expireDeadlines now)).state.cancellationTotal =
        xs.length + (h.state.purge deadlineAbort).cancelling.length +
          (h.state.expired now).length := by
      have hfirst : saturatingAdd xs.length (h.state.purge deadlineAbort).cancelling.length =
          xs.length + (h.state.purge deadlineAbort).cancelling.length :=
        saturatingAdd_small (by omega) hbound
      have hsecond := saturatingAdd_small (d := d)
        (a := xs.length + (h.state.purge deadlineAbort).cancelling.length) (by omega) hexpired
      simp only [History.next, State.apply, State.expireDeadlines, hdue, Bool.false_eq_true,
        if_false, Prod.map_snd, id, failLocked_cancellationTotal, htotal, hfirst, hsecond]
    have := honce.total
    omega
  | _ => cases hc

/-- The terminal controls are issued once along every run whose deadline polls find no live call
past its deadline, and a poll that finds one breaks the count. -/
theorem issuedOnce_iff {h : History}
    (hr : (driver d).ReachableBy (fun h op => ¬ Overdue h.state op) h) :
    IssuedOnce d h ∧ ∀ op, IssuedOnce d (h.next d op) ↔ ¬ Overdue h.state op := by
  have hi := issue_reachable hr
  refine ⟨hi.once, fun op => ⟨fun honce hc =>
    not_issuedOnce_of_overdue (bounds_reachable hr).1 hi hc honce, fun hc => ?_⟩⟩
  exact (issue_reachable (hr.step hc rfl)).once

/-- The run that polls twice while a cancelled call is still live. -/
def polledTwice : List Op :=
  [.trySubmit ⟨1, .prepare⟩ 0, .tryReceive, .expireDeadlines 20, .expireDeadlines 30]

theorem issuedOnce_fails : ¬ ∀ (d : ForeignNodeDriver) (h : History),
    (driver d).Reachable h → IssuedOnce d h := by
  intro hall
  obtain ⟨h, hr, hp⟩ := Transition.System.exists_reachable_of_run
    (M := driver (smallDriver .strict)) rfl polledTwice
    (fun h => decide (1 < h.issued.countP (·.isAbort))) (by decide +kernel)
  have habort := (hall _ h hr).abort
  have := of_decide_eq_true hp
  omega

theorem issuedOnce_after_stop :
    IssuedOnce (smallDriver .strict) (History.next (smallDriver .strict)
      (History.next (smallDriver .strict) ⟨.new, [], []⟩ (.trySubmit ⟨1, .prepare⟩ 0))
      (.beginStop deadlineAbort)) :=
  (issuedOnce_iff (.step (.step (.init rfl) id rfl) id rfl)).1

end Muxiva.Foreign
