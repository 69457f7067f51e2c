import Mathlib.Data.List.Nodup
import Muxiva.Foreign.Model

/-! What one operation of the driver can do to its state and report to its caller. -/
set_option linter.all false
namespace Muxiva.Foreign
open Muxiva.Runtime (saturatingAdd)

/-- The sequence an operation got accepted. -/
def accepted : Op × Reply → Option ℕ
  | (.trySubmit command _, .submitted (.returned (.ok .accepted))) => some command.sequence
  | _ => none

/-- The completion an operation got accepted. -/
def completed : Op × Reply → Option ForeignCompletion
  | (.tryComplete completion, .completed .accepted) => some completion
  | _ => none

/-- The completion an operation handed out. -/
def taken : Op × Reply → Option ForeignCompletion
  | (_, .taken completion) => completion
  | _ => none

/-- An entry of the log that accepts nothing and hands out nothing. -/
structure Silent (e : Op × Reply) : Prop where
  accepted : accepted e = none
  completed : completed e = none
  taken : taken e = none

/-- The accepted sequences of a run, in order. -/
def History.accepted (h : History) : List ℕ := h.log.filterMap Foreign.accepted

/-- The accepted completions of a run, in order. -/
def History.completed (h : History) : List ForeignCompletion := h.log.filterMap Foreign.completed

/-- The completions handed out in a run, in order. -/
def History.returned (h : History) : List ForeignCompletion := h.log.filterMap Foreign.taken

theorem filterMap_concat {α γ : Type} (f : α → Option γ) (xs : List α) (x : α) :
    (xs ++ [x]).filterMap f = xs.filterMap f ++ (f x).toList := by
  rw [List.filterMap_append]
  cases hx : f x <;> simp [hx]

variable (d : ForeignNodeDriver)

theorem History.next_accepted (h : History) (op : Op) : (h.next d op).accepted =
    h.accepted ++ (Foreign.accepted (op, (h.state.apply d op).1)).toList :=
  filterMap_concat _ _ _

theorem History.next_completed (h : History) (op : Op) : (h.next d op).completed =
    h.completed ++ (Foreign.completed (op, (h.state.apply d op).1)).toList :=
  filterMap_concat _ _ _

theorem History.next_returned (h : History) (op : Op) : (h.next d op).returned =
    h.returned ++ (Foreign.taken (op, (h.state.apply d op).1)).toList :=
  filterMap_concat _ _ _

/-- The state after an accepted submission, apart from the last strict sequence. -/
def State.admitted (s : State) (command : ForeignCommand) (now : ℕ) : State :=
  { s.enqueue command with
    live := s.live.insert command.sequence ⟨now + d.config.perCallDeadline, false, false, false⟩
    strictOrder := if d.config.ordering = .strict then s.strictOrder ++ [command.sequence]
      else s.strictOrder }

def State.withLate (s : State) (total : ℕ) : State := { s with lateCompletionTotal := total }

inductive Move (s : State) : Op × Reply → State → Prop where
  | quiet {e : Op × Reply} (silent : Silent e) (last : Option ℕ) (late : ℕ) (abortTaken : Bool) :
      Move s e { (s.withLast last).withLate late with abortTaken := abortTaken }
  | token : Move s (.cancelToken, .unit) { s with tokenCancelled := true }
  | submit (command : ForeignCommand) (now : ℕ) (last : Option ℕ) (running : s.stopping = false)
      (open_ : s.tokenCancelled = false) (fresh : s.live.get? command.sequence = none)
      (room : s.submitFull d command = false)
      (fit : now + d.config.perCallDeadline ≤ d.instantMax) :
      Move s (.trySubmit command now, .submitted (.returned (.ok .accepted)))
        ((s.withLast last).admitted d command now)
  | overflow (command : ForeignCommand) (now : ℕ) (last : Option ℕ)
      (running : s.stopping = false) (open_ : s.tokenCancelled = false)
      (accepting : s.accepting = true) (fresh : s.live.get? command.sequence = none)
      (inLine : d.config.ordering = .strict → s.strictGap command = false)
      (room : s.submitFull d command = false)
      (beyond : d.instantMax < now + d.config.perCallDeadline) :
      Move s (.trySubmit command now, .submitted .panicked)
        ((s.withLast last).enqueue command)
  | control (control : ForeignCommand) (controls : List ForeignCommand)
      (front : s.controls = control :: controls) :
      Move s (.tryReceive, .received (some control)) { s with controls := controls }
  | receive (queued : QueuedCommand) (commands : List QueuedCommand) (idle : s.controls = [])
      (front : s.commands = queued :: commands) :
      Move s (.tryReceive, .received (some queued.command)) { s with
        commands := commands
        commandBytes := s.commandBytes - queued.bytes
        live := match s.live.get? queued.command.sequence with
          | some l => s.live.insert queued.command.sequence { l with dispatched := true }
          | none => s.live }
  | late (completion : ForeignCompletion) (l : LiveCommand) (total : ℕ)
      (live : s.live.get? completion.sequence = some l)
      (closed : l.cancelled = true ∨ s.stopping = true ∨ s.tokenCancelled = true) :
      Move s (.tryComplete completion, .completed .lateDiscarded)
        ((s.withLate total).release completion.sequence)
  | fail (completion : ForeignCompletion) (l : LiveCommand) (reason : AbortReason)
      (live : s.live.get? completion.sequence = some l) (active : l.cancelled = false)
      (running : s.stopping = false) (open_ : s.tokenCancelled = false)
      (waiting : l.completionReceived = false) (kind : completion.kind = .failure reason) :
      Move s (.tryComplete completion, .completed .accepted)
        ((s.release completion.sequence).failLocked reason)
  | accept (completion : ForeignCompletion) (l : LiveCommand)
      (live : s.live.get? completion.sequence = some l) (active : l.cancelled = false)
      (running : s.stopping = false) (open_ : s.tokenCancelled = false)
      (waiting : l.completionReceived = false)
      (success : ∀ reason, completion.kind ≠ .failure reason)
      (room : s.completionFull d completion = false) :
      Move s (.tryComplete completion, .completed .accepted) (s.accept d completion l)
  | take (queued : QueuedCompletion) (ready : List QueuedCompletion)
      (front : s.ready = queued :: ready) :
      Move s (.tryTakeCompletion, .taken (some queued.completion))
        (if d.config.ordering = .strict then
          (State.release { s with ready := ready, readyBytes := s.readyBytes - queued.bytes }
            queued.completion.sequence).promoteStrict
        else State.release { s with ready := ready, readyBytes := s.readyBytes - queued.bytes }
            queued.completion.sequence)
  | expire (now : ℕ) (due : s.expired now ≠ []) :
      Move s (.expireDeadlines now, .expired (s.expired now).length)
        { s.failLocked deadlineAbort with
          cancellationTotal := saturatingAdd (s.failLocked deadlineAbort).cancellationTotal
            (s.expired now).length }
  | stop (reason : AbortReason) (running : s.stopping = false) :
      Move s (.beginStop reason, .stopped true) (s.failLocked reason)
  | graceful (running : s.stopping = false) (idle : s.live.entries = []) :
      Move s (.beginGracefulStop, .stopped true) { s with
        accepting := false
        stopping := true
        tokenCancelled := true
        controls := s.controls ++ [stopControl] }
  | acknowledge (sequence : ℕ) (l : LiveCommand) (live : s.live.get? sequence = some l)
      (cancelled : l.cancelled = true) :
      Move s (.acknowledgeCancel sequence, .acknowledged true) (s.release sequence)

variable {d}

/-- The invariant rule for the driver, whose operations always answer. -/
theorem driver_invariant {C : History → Op → Prop} {I : History → Prop}
    (h0 : I ⟨.new, [], []⟩)
    (hstep : ∀ h op, (driver d).ReachableBy C h → I h → C h op → I (h.next d op))
    {h : History} (hr : (driver d).ReachableBy C h) : I h := by
  refine hr.invariant ?_ ?_
  · rintro _ rfl
    exact h0
  · intro h op h' hr hi hc hs
    obtain rfl : h.next d op = h' := Option.some.inj hs
    exact hstep h op hr hi hc

theorem reachable_next {C : History → Op → Prop} {h : History}
    (hr : (driver d).ReachableBy C h) {op : Op} (hc : C h op) :
    (driver d).ReachableBy C (h.next d op) :=
  hr.step hc rfl

/-- The history after a list of operations. -/
def History.run (d : ForeignNodeDriver) (ops : List Op) : History :=
  ops.foldl (History.next d) ⟨.new, [], []⟩

theorem run_reachable {P : Op → Prop} {ops : List Op} (hops : ∀ op ∈ ops, P op) :
    (driver d).ReachableBy (fun _ op => P op) (History.run d ops) := by
  have hfrom : ∀ (ops : List Op) (h : History), (∀ op ∈ ops, P op) →
      (driver d).ReachableBy (fun _ op => P op) h →
      (driver d).ReachableBy (fun _ op => P op) (ops.foldl (History.next d) h) := by
    intro ops
    induction ops with
    | nil => exact fun _ _ hr => hr
    | cons op ops ih =>
      intro h hops hr
      exact ih _ (fun op' hop' => hops op' (List.mem_cons_of_mem _ hop'))
        (hr.step (hops op List.mem_cons_self) rfl)
  exact hfrom ops _ hops (.init rfl)

theorem Move.quiet_self {s : State} {e : Op × Reply} (silent : Silent e) : Move d s e s :=
  .quiet silent s.lastStrictSequence s.lateCompletionTotal s.abortTaken

theorem Move.quiet_last {s : State} {e : Op × Reply} (silent : Silent e) (last : Option ℕ) :
    Move d s e (s.withLast last) :=
  .quiet silent last s.lateCompletionTotal s.abortTaken

theorem Move.quiet_late {s : State} {e : Op × Reply} (silent : Silent e) (late : ℕ) :
    Move d s e (s.withLate late) :=
  .quiet silent s.lastStrictSequence late s.abortTaken

theorem enter_accepted {s : State} {command : ForeignCommand} {now : ℕ}
    (hroom : s.submitFull d command = false)
    (hfit : now + d.config.perCallDeadline ≤ d.instantMax) :
    s.enter d command now = (.returned (.ok .accepted), s.admitted d command now) := by
  unfold State.enter
  rw [if_neg (by simp [hroom])]
  dsimp only
  rw [if_neg (by omega)]
  rfl

theorem enter_move (s : State) (command : ForeignCommand) (now : ℕ) (last : Option ℕ)
    (hrunning : s.stopping = false) (hopen : s.tokenCancelled = false)
    (haccepting : s.accepting = true) (hfresh : s.live.get? command.sequence = none)
    (hline : d.config.ordering = .strict → s.strictGap command = false) :
    Move d s (.trySubmit command now, .submitted ((s.withLast last).enter d command now).1)
      ((s.withLast last).enter d command now).2 := by
  have hroom : (s.withLast last).submitFull d command = s.submitFull d command := rfl
  unfold State.enter
  rw [hroom]
  split
  · exact .quiet_last ⟨rfl, rfl, rfl⟩ last
  · next hfull =>
    dsimp only
    split
    · next hover =>
      exact .overflow command now last hrunning hopen haccepting hfresh hline
        (by simpa using hfull) hover
    · next hfit =>
      exact .submit command now last hrunning hopen hfresh (by simpa using hfull) (by omega)

theorem trySubmit_move (s : State) (command : ForeignCommand) (now : ℕ) :
    Move d s (.trySubmit command now, .submitted (s.trySubmit d command now).1)
      (s.trySubmit d command now).2 := by
  let Moves (out : SubmitResult × State) : Prop :=
    Move d s (.trySubmit command now, .submitted out.1) out.2
  refine iteInduction (motive := Moves) (fun _ => .quiet_self ⟨rfl, rfl, rfl⟩) fun hstop => ?_
  refine iteInduction (motive := Moves) (fun _ => .quiet_self ⟨rfl, rfl, rfl⟩) fun htoken => ?_
  refine iteInduction (motive := Moves) (fun _ => .quiet_self ⟨rfl, rfl, rfl⟩) fun hclosed => ?_
  refine iteInduction (motive := Moves) (fun _ => .quiet_self ⟨rfl, rfl, rfl⟩) fun hdup => ?_
  refine iteInduction (motive := Moves) (fun _ => ?_) fun hstrict => ?_
  · refine iteInduction (motive := Moves) (fun _ => .quiet_self ⟨rfl, rfl, rfl⟩) fun hgap => ?_
    exact enter_move s command now (some command.sequence) (by simpa using hstop)
      (by simpa using htoken) (by simpa using hclosed) (by simpa [SortedMap.contains] using hdup)
      (fun _ => by simpa using hgap)
  · exact enter_move s command now s.lastStrictSequence (by simpa using hstop)
      (by simpa using htoken) (by simpa using hclosed) (by simpa [SortedMap.contains] using hdup)
      (fun h => absurd h hstrict)

theorem tryReceive_move (s : State) :
    Move d s (.tryReceive, .received s.tryReceive.1) s.tryReceive.2 := by
  unfold State.tryReceive
  split
  · next control controls hfront => exact .control control controls hfront
  · next hidle =>
    split
    · exact .quiet_self ⟨rfl, rfl, rfl⟩
    · next queued commands hfront => exact .receive queued commands hidle hfront

theorem tryComplete_success {s : State} {completion : ForeignCompletion} {l : LiveCommand}
    (hl : s.live.get? completion.sequence = some l) (hactive : l.cancelled = false)
    (hrunning : s.stopping = false) (hopen : s.tokenCancelled = false)
    (hwait : l.completionReceived = false)
    (hsuccess : ∀ reason, completion.kind ≠ .failure reason) :
    s.tryComplete d completion = if s.completionFull d completion then (.full, s)
      else (.accepted, s.accept d completion l) := by
  cases hkind : completion.kind with
  | failure reason => exact absurd hkind (hsuccess reason)
  | success frames emissions signals events =>
    simp [State.tryComplete, hl, hactive, hrunning, hopen, hwait, hkind]

theorem tryComplete_move (s : State) (completion : ForeignCompletion) :
    Move d s (.tryComplete completion, .completed (s.tryComplete d completion).1)
      (s.tryComplete d completion).2 := by
  unfold State.tryComplete
  split
  · split_ifs
    · exact .quiet_self ⟨rfl, rfl, rfl⟩
    · exact .quiet_late ⟨rfl, rfl, rfl⟩ _
  · next l hlive =>
    by_cases hclosed : (l.cancelled || s.stopping || s.tokenCancelled) = true
    · rw [if_pos hclosed]
      exact .late completion l _ hlive (by simpa [or_assoc] using hclosed)
    rw [if_neg hclosed]
    by_cases hdone : l.completionReceived = true
    · rw [if_pos hdone]
      exact .quiet_late ⟨rfl, rfl, rfl⟩ _
    rw [if_neg hdone]
    simp only [Bool.or_eq_true, not_or, Bool.not_eq_true] at hclosed hdone
    obtain ⟨⟨hactive, hrunning⟩, hopen⟩ := hclosed
    cases hkind : completion.kind with
    | failure reason =>
      exact .fail completion l reason hlive hactive hrunning hopen hdone hkind
    | success frames emissions signals events =>
      dsimp only
      by_cases hfull : s.completionFull d completion = true
      · rw [if_pos hfull]
        exact .quiet_self ⟨rfl, rfl, rfl⟩
      · rw [if_neg hfull]
        refine .accept completion l hlive hactive hrunning hopen hdone ?_ (by simpa using hfull)
        intro reason
        rw [hkind]
        exact ForeignCompletionKind.noConfusion

theorem tryTakeCompletion_move (s : State) :
    Move d s (.tryTakeCompletion, .taken (s.tryTakeCompletion d).1) (s.tryTakeCompletion d).2 := by
  unfold State.tryTakeCompletion
  split
  · exact .quiet_self ⟨rfl, rfl, rfl⟩
  · next queued ready hfront => exact .take queued ready hfront

theorem expireDeadlines_move (s : State) (now : ℕ) :
    Move d s (.expireDeadlines now, .expired (s.expireDeadlines now).1)
      (s.expireDeadlines now).2 := by
  unfold State.expireDeadlines
  dsimp only
  split_ifs with hdue
  · exact .quiet_self ⟨rfl, rfl, rfl⟩
  · exact .expire now (by simpa using hdue)

theorem beginGracefulStop_move (s : State) :
    Move d s (.beginGracefulStop, .stopped s.beginGracefulStop.1) s.beginGracefulStop.2 := by
  unfold State.beginGracefulStop
  split_ifs with hbusy
  · exact .quiet_self ⟨rfl, rfl, rfl⟩
  · simp only [Bool.or_eq_true, not_or, Bool.not_eq_true, Bool.not_eq_true'] at hbusy
    exact .graceful hbusy.1 (by simpa using hbusy.2)

theorem takeAbortReason_move (s : State) :
    Move d s (.takeAbortReason, .reason s.takeAbortReason.1) s.takeAbortReason.2 := by
  unfold State.takeAbortReason
  split_ifs
  · exact .quiet_self ⟨rfl, rfl, rfl⟩
  · split
    · exact .quiet_self ⟨rfl, rfl, rfl⟩
    · exact .quiet ⟨rfl, rfl, rfl⟩ s.lastStrictSequence s.lateCompletionTotal true

theorem acknowledgeCancel_move (s : State) (sequence : ℕ) :
    Move d s (.acknowledgeCancel sequence, .acknowledged (s.acknowledgeCancel sequence).1)
      (s.acknowledgeCancel sequence).2 := by
  unfold State.acknowledgeCancel
  split
  · exact .quiet_self ⟨rfl, rfl, rfl⟩
  · next l hlive =>
    split_ifs with hactive
    · exact .quiet_self ⟨rfl, rfl, rfl⟩
    · exact .acknowledge sequence l hlive (by simpa using hactive)

/-- Every operation is one of the moves. -/
theorem apply_move (s : State) (op : Op) :
    Move d s (op, (s.apply d op).1) (s.apply d op).2 := by
  cases op with
  | trySubmit command now => exact trySubmit_move s command now
  | tryReceive => exact tryReceive_move s
  | tryComplete completion => exact tryComplete_move s completion
  | tryTakeCompletion => exact tryTakeCompletion_move s
  | expireDeadlines now => exact expireDeadlines_move s now
  | beginStop reason =>
    unfold State.apply State.beginStop
    split_ifs with hstop
    · exact .quiet_self ⟨rfl, rfl, rfl⟩
    · exact .stop reason (by simpa using hstop)
  | beginGracefulStop => exact beginGracefulStop_move s
  | takeAbortReason => exact takeAbortReason_move s
  | acknowledgeCancel sequence => exact acknowledgeCancel_move s sequence
  | cancelToken => exact .token

/-- `promote_strict` moves at most the head of the order. -/
theorem promoteStrict_cases (s : State) :
    s.promoteStrict = s ∧ (∀ x rest, s.strictOrder = x :: rest → s.ordered.get? x = none) ∨
      ∃ x rest queued, s.strictOrder = x :: rest ∧ s.ordered.get? x = some queued ∧
        s.promoteStrict = s.promoted x queued := by
  cases hord : s.strictOrder with
  | nil =>
    refine .inl ⟨?_, by simp⟩
    unfold State.promoteStrict
    cases s.ordered.size <;> simp [State.promoteLoop, hord]
  | cons x rest =>
    cases hget : s.ordered.get? x with
    | none =>
      refine .inl ⟨?_, by simp [hget]⟩
      unfold State.promoteStrict
      cases s.ordered.size <;> simp [State.promoteLoop, hord, hget]
    | some queued =>
      refine .inr ⟨x, rest, queued, rfl, hget, ?_⟩
      -- the second turn looks at the same head, which has just left `ordered`
      have hagain : ∀ fuel, (s.promoted x queued).promoteLoop fuel = s.promoted x queued := by
        intro fuel
        cases fuel <;> simp [State.promoteLoop, State.promoted, hord]
      unfold State.promoteStrict
      rw [SortedMap.size_erase hget]
      simp only [State.promoteLoop, hord, hget, hagain]

/-- Promotion touches the two completion mailboxes only. -/
theorem promoteStrict_same {α : Type} (s : State) (f : State → α)
    (h : ∀ x queued, f (s.promoted x queued) = f s) : f s.promoteStrict = f s := by
  obtain ⟨heq, -⟩ | ⟨x, rest, queued, -, -, heq⟩ := promoteStrict_cases s
  · rw [heq]
  · rw [heq, h]

section Promote
variable (s : State)

@[simp] theorem promoteStrict_live : s.promoteStrict.live = s.live :=
  promoteStrict_same s State.live fun _ _ => rfl

@[simp] theorem promoteStrict_strictOrder : s.promoteStrict.strictOrder = s.strictOrder :=
  promoteStrict_same s State.strictOrder fun _ _ => rfl

@[simp] theorem promoteStrict_stopping : s.promoteStrict.stopping = s.stopping :=
  promoteStrict_same s State.stopping fun _ _ => rfl

@[simp] theorem promoteStrict_tokenCancelled :
    s.promoteStrict.tokenCancelled = s.tokenCancelled :=
  promoteStrict_same s State.tokenCancelled fun _ _ => rfl

@[simp] theorem promoteStrict_commands : s.promoteStrict.commands = s.commands :=
  promoteStrict_same s State.commands fun _ _ => rfl

@[simp] theorem promoteStrict_controls : s.promoteStrict.controls = s.controls :=
  promoteStrict_same s State.controls fun _ _ => rfl

@[simp] theorem promoteStrict_cancellationTotal :
    s.promoteStrict.cancellationTotal = s.cancellationTotal :=
  promoteStrict_same s State.cancellationTotal fun _ _ => rfl

end Promote

section Accept
variable (s : State) (completion : ForeignCompletion) (l : LiveCommand)

@[simp] theorem accept_live : (s.accept d completion l).live =
    s.live.insert completion.sequence { l with completionReceived := true } := by
  unfold State.accept
  dsimp only
  split <;> simp

@[simp] theorem accept_strictOrder : (s.accept d completion l).strictOrder = s.strictOrder := by
  unfold State.accept
  dsimp only
  split <;> simp

@[simp] theorem accept_stopping : (s.accept d completion l).stopping = s.stopping := by
  unfold State.accept
  dsimp only
  split <;> simp

@[simp] theorem accept_tokenCancelled :
    (s.accept d completion l).tokenCancelled = s.tokenCancelled := by
  unfold State.accept
  dsimp only
  split <;> simp

@[simp] theorem accept_commands : (s.accept d completion l).commands = s.commands := by
  unfold State.accept
  dsimp only
  split <;> simp

@[simp] theorem accept_controls : (s.accept d completion l).controls = s.controls := by
  unfold State.accept
  dsimp only
  split <;> simp

@[simp] theorem accept_cancellationTotal :
    (s.accept d completion l).cancellationTotal = s.cancellationTotal := by
  unfold State.accept
  dsimp only
  split <;> simp

end Accept

theorem foldl_release (xs : List ℕ) (s : State) :
    xs.foldl State.release s = { s with
      live := xs.foldl SortedMap.erase s.live
      strictOrder := s.strictOrder.diff xs } := by
  induction xs generalizing s with
  | nil => rfl
  | cons x xs ih =>
    rw [List.foldl_cons, ih]
    simp [State.release, removeSequence, List.diff_cons]

theorem mem_undispatched_iff (s : State) (x : ℕ) :
    x ∈ s.undispatched ↔ ∃ l, s.live.get? x = some l ∧ l.dispatched = false := by
  simp [State.undispatched, SortedMap.mem_filter_keys_iff s.live (fun l => !l.dispatched)]

theorem mem_cancelling_iff (s : State) (x : ℕ) :
    x ∈ s.cancelling ↔ ∃ l, s.live.get? x = some l ∧ l.cancelled = false := by
  simp [State.cancelling, SortedMap.mem_filter_keys_iff s.live (fun l => !l.cancelled)]

section Fail
variable (s : State) (reason : AbortReason)

theorem purge_eq : s.purge reason = { s with
    accepting := false
    stopping := true
    tokenCancelled := true
    abortReason := some (s.abortReason.getD reason)
    commands := s.commands.filter fun queued => queued.command.sequence ∉ s.undispatched
    commandBytes := ((s.commands.filter fun queued =>
      queued.command.sequence ∉ s.undispatched).map (·.bytes)).sum
    live := s.undispatched.foldl SortedMap.erase s.live
    strictOrder := s.strictOrder.diff s.undispatched } := by
  unfold State.purge
  rw [foldl_release]

/-- Undispatched work is gone after a failure, everything else is cancelled. -/
theorem failLocked_live (x : ℕ) : (s.failLocked reason).live.get? x =
    (s.live.get? x).bind fun l => if l.dispatched then some { l with cancelled := true } else none := by
  simp only [State.failLocked, SortedMap.get?_mapValues, purge_eq, SortedMap.get?_foldl_erase,
    mem_undispatched_iff]
  cases hget : s.live.get? x with
  | none => simp
  | some l => cases hdisp : l.dispatched <;> simp [hdisp]

theorem failLocked_live_size : (s.failLocked reason).live.size ≤ s.live.size := by
  simp only [State.failLocked, SortedMap.size_mapValues, purge_eq]
  exact SortedMap.size_foldl_erase_le _ _

@[simp] theorem failLocked_commands : (s.failLocked reason).commands =
    s.commands.filter fun queued => queued.command.sequence ∉ s.undispatched := by
  simp [State.failLocked, purge_eq]

@[simp] theorem failLocked_commandBytes : (s.failLocked reason).commandBytes =
    ((s.failLocked reason).commands.map (·.bytes)).sum := by
  simp [State.failLocked, purge_eq]

@[simp] theorem failLocked_strictOrder :
    (s.failLocked reason).strictOrder = s.strictOrder.diff s.undispatched := by
  simp [State.failLocked, purge_eq]

@[simp] theorem failLocked_stopping : (s.failLocked reason).stopping = true := by
  simp [State.failLocked, purge_eq]

@[simp] theorem failLocked_tokenCancelled : (s.failLocked reason).tokenCancelled = true := by
  simp [State.failLocked, purge_eq]

@[simp] theorem failLocked_ready : (s.failLocked reason).ready = [] := rfl

@[simp] theorem failLocked_readyBytes : (s.failLocked reason).readyBytes = 0 := rfl

@[simp] theorem failLocked_ordered : (s.failLocked reason).ordered = .empty := rfl

@[simp] theorem failLocked_orderedBytes : (s.failLocked reason).orderedBytes = 0 := rfl

@[simp] theorem failLocked_controls : (s.failLocked reason).controls =
    s.controls ++ ((s.purge reason).cancelling.map cancelControl ++
      [abortControl (s.abortReason.getD reason), stopControl]) := by
  simp [State.failLocked, purge_eq]

@[simp] theorem failLocked_cancellationTotal : (s.failLocked reason).cancellationTotal =
    saturatingAdd s.cancellationTotal (s.purge reason).cancelling.length := by
  simp [State.failLocked, purge_eq]

end Fail

/-- The token is never reset. -/
theorem Move.token_stays {s s' : State} {e : Op × Reply} (m : Move d s e s')
    (h : s.tokenCancelled = true) : s'.tokenCancelled = true := by
  cases m with
  | token => rfl
  | fail => exact failLocked_tokenCancelled _ _
  | expire => exact failLocked_tokenCancelled s deadlineAbort
  | stop => exact failLocked_tokenCancelled _ _
  | graceful => rfl
  | accept => rwa [accept_tokenCancelled]
  | take =>
    split_ifs
    · rwa [promoteStrict_tokenCancelled]
    · exact h
  | _ => exact h

/-- A driver that is stopping stays so. -/
theorem Move.stopping_stays {s s' : State} {e : Op × Reply} (m : Move d s e s')
    (h : s.stopping = true) : s'.stopping = true := by
  cases m with
  | fail => exact failLocked_stopping _ _
  | expire => exact failLocked_stopping s deadlineAbort
  | stop => exact failLocked_stopping _ _
  | graceful => rfl
  | accept => rwa [accept_stopping]
  | take =>
    split_ifs
    · rwa [promoteStrict_stopping]
    · exact h
  | _ => exact h

end Muxiva.Foreign
