import Muxiva.Foreign.Order

/-! A refused submission: what it may leave behind, and whether the same command gets in once
there is room for it. -/
set_option linter.all false
namespace Muxiva.Foreign

variable (d : ForeignNodeDriver)

/-- `try_submit` answers, and the answer is not `Accepted`. -/
def SubmitResult.Refused : SubmitResult → Prop
  | .returned outcome => outcome ≠ .ok .accepted
  | .panicked => False

/-- A running driver has room for the command and can represent its deadline. -/
structure State.RoomFor (s : State) (command : ForeignCommand) (now : ℕ) : Prop where
  running : s.stopping = false
  open_ : s.tokenCancelled = false
  accepting : s.accepting = true
  room : s.submitFull d command = false
  fit : now + d.config.perCallDeadline ≤ d.instantMax

/-- What can happen to a driver between a refusal and the next try: any operation but a
submission, or a submission that leaves it as it was. -/
inductive Meanwhile : State → State → Prop where
  | refl (s : State) : Meanwhile s s
  | step {s t : State} (op : Op) (before : Meanwhile s t)
      (still : ∀ command now, op = .trySubmit command now → (t.apply d op).2 = t) :
      Meanwhile s (t.apply d op).2

/-- A refused submission changes nothing, and one refused for lack of room gets in later. -/
structure State.Refusal (s : State) (command : ForeignCommand) (now : ℕ) : Prop where
  unchanged : (s.trySubmit d command now).1.Refused → (s.trySubmit d command now).2 = s
  retried : (s.trySubmit d command now).1 = .returned (.ok .full) →
    ∀ t later, Meanwhile d (s.trySubmit d command now).2 t → t.RoomFor d command later →
      (t.trySubmit d command later).1 = .returned (.ok .accepted)

/-- The sequence is the next in strict order, it counts as taken, and then the mailbox is full. -/
structure State.SpendsTurn (s : State) (command : ForeignCommand) : Prop where
  strict : d.config.ordering = .strict
  running : s.stopping = false
  open_ : s.tokenCancelled = false
  accepting : s.accepting = true
  fresh : s.live.contains command.sequence = false
  inLine : s.strictGap command = false
  full : s.submitFull d command = true
  moved : s.lastStrictSequence ≠ some command.sequence

variable {d}

/-- Past the first checks, a submission is judged by its turn and by the room that is left. -/
theorem trySubmit_admissible {s : State} {command : ForeignCommand} {now : ℕ}
    (hrunning : s.stopping = false) (hopen : s.tokenCancelled = false)
    (haccepting : s.accepting = true) (hfresh : s.live.contains command.sequence = false) :
    s.trySubmit d command now =
      if d.config.ordering = .strict then
        if s.strictGap command then (.returned (.error .strictSequenceGap), s)
        else (s.withLast (some command.sequence)).enter d command now
      else s.enter d command now := by
  simp [State.trySubmit, hrunning, hopen, haccepting, hfresh]

theorem enter_full {s : State} {command : ForeignCommand} {now : ℕ}
    (h : s.submitFull d command = true) :
    s.enter d command now = (.returned (.ok .full), s) := by
  simp [State.enter, h]

theorem enter_refused {s : State} {command : ForeignCommand} {now : ℕ}
    (h : (s.enter d command now).1.Refused) :
    s.submitFull d command = true ∧ s.enter d command now = (.returned (.ok .full), s) := by
  cases hfull : s.submitFull d command with
  | true => exact ⟨rfl, enter_full hfull⟩
  | false =>
    unfold State.enter at h
    simp only [hfull, Bool.false_eq_true, if_false] at h
    split_ifs at h
    · cases h
    all_goals exact absurd rfl h

/-- A submission that fails one of the first checks stops there; any other is judged by `enter`. -/
theorem trySubmit_cases (s : State) (command : ForeignCommand) (now : ℕ) :
    ((s.trySubmit d command now).1 ≠ .returned (.ok .full) ∧ (s.trySubmit d command now).2 = s) ∨
    ((s.stopping = false ∧ s.tokenCancelled = false ∧ s.accepting = true ∧
        s.live.contains command.sequence = false) ∧
      ((d.config.ordering = .strict ∧ s.strictGap command = false ∧
          s.trySubmit d command now = (s.withLast (some command.sequence)).enter d command now) ∨
        (d.config.ordering ≠ .strict ∧ s.trySubmit d command now = s.enter d command now))) := by
  cases hstop : s.stopping with
  | true => exact .inl (by simp [State.trySubmit, hstop])
  | false =>
  cases htoken : s.tokenCancelled with
  | true => exact .inl (by simp [State.trySubmit, hstop, htoken])
  | false =>
  cases haccept : s.accepting with
  | false => exact .inl (by simp [State.trySubmit, hstop, htoken, haccept])
  | true =>
  cases hlive : s.live.contains command.sequence with
  | true => exact .inl (by simp [State.trySubmit, hstop, htoken, haccept, hlive])
  | false =>
    rw [trySubmit_admissible hstop htoken haccept hlive]
    by_cases hstrict : d.config.ordering = .strict
    · rw [if_pos hstrict]
      cases hgap : s.strictGap command with
      | true => exact .inl (by simp)
      | false => exact .inr ⟨⟨rfl, rfl, rfl, rfl⟩, .inl ⟨hstrict, rfl, rfl⟩⟩
    · rw [if_neg hstrict]
      exact .inr ⟨⟨rfl, rfl, rfl, rfl⟩, .inr ⟨hstrict, rfl⟩⟩

/-- A submission that is refused for lack of room has passed every check before. -/
theorem trySubmit_full {s : State} {command : ForeignCommand} {now : ℕ}
    (h : (s.trySubmit d command now).1 = .returned (.ok .full)) :
    s.stopping = false ∧ s.tokenCancelled = false ∧ s.accepting = true ∧
      s.live.contains command.sequence = false ∧ s.submitFull d command = true ∧
      (d.config.ordering = .strict → s.strictGap command = false) := by
  have hroom : ∀ t : State, (t.enter d command now).1 = .returned (.ok .full) →
      t.submitFull d command = true := by
    intro t ht
    have hrefused : (t.enter d command now).1.Refused := by
      rw [ht]
      simp [SubmitResult.Refused]
    exact (enter_refused hrefused).1
  obtain ⟨hother, -⟩ | ⟨⟨hstop, htoken, haccept, hlive⟩, ⟨-, hgap, heq⟩ | ⟨hstrict, heq⟩⟩ :=
    trySubmit_cases s command now
  · exact absurd h hother
  · rw [heq] at h
    have hfull := hroom _ h
    exact ⟨hstop, htoken, haccept, hlive, hfull, fun _ => hgap⟩
  · rw [heq] at h
    exact ⟨hstop, htoken, haccept, hlive, hroom _ h, fun hs => absurd hs hstrict⟩

/-- A refusal changes nothing but the last strict sequence, and that only where the turn is
spent. -/
theorem trySubmit_refused {s : State} {command : ForeignCommand} {now : ℕ}
    (h : (s.trySubmit d command now).1.Refused) (hturn : ¬ s.SpendsTurn d command) :
    (s.trySubmit d command now).2 = s := by
  obtain ⟨-, hsame⟩ | ⟨⟨hstop, htoken, haccept, hlive⟩, ⟨hstrict, hgap, heq⟩ | ⟨-, heq⟩⟩ :=
    trySubmit_cases s command now
  · exact hsame
  · rw [heq] at h
    obtain ⟨hfull, henter⟩ := enter_refused h
    rw [heq, henter]
    have hsame : s.lastStrictSequence = some command.sequence := by
      by_contra hmoved
      exact hturn ⟨hstrict, hstop, htoken, haccept, hlive, hgap, hfull, hmoved⟩
    change s.withLast (some command.sequence) = s
    rw [← hsame]
    rfl
  · rw [heq] at h
    rw [heq, (enter_refused h).2]

theorem State.SpendsTurn.submit {s : State} {command : ForeignCommand} {now : ℕ}
    (h : s.SpendsTurn d command) : s.trySubmit d command now =
      (.returned (.ok .full), s.withLast (some command.sequence)) := by
  rw [trySubmit_admissible h.running h.open_ h.accepting h.fresh, if_pos h.strict,
    if_neg (by simp [h.inLine])]
  exact enter_full h.full

theorem State.SpendsTurn.not_refusal {s : State} {command : ForeignCommand} {now : ℕ}
    (h : s.SpendsTurn d command) : ¬ s.Refusal d command now := by
  intro hrefusal
  have hsame := hrefusal.unchanged (by simp [h.submit, SubmitResult.Refused])
  rw [h.submit] at hsame
  exact h.moved (congrArg State.lastStrictSequence hsame).symm

section Last

@[simp] theorem failLocked_lastStrictSequence (s : State) (reason : AbortReason) :
    (s.failLocked reason).lastStrictSequence = s.lastStrictSequence := by
  simp [State.failLocked, purge_eq]

@[simp] theorem promoteStrict_lastStrictSequence (s : State) :
    s.promoteStrict.lastStrictSequence = s.lastStrictSequence :=
  promoteStrict_same s State.lastStrictSequence fun _ _ => rfl

@[simp] theorem accept_lastStrictSequence (s : State) (completion : ForeignCompletion)
    (l : LiveCommand) :
    (s.accept d completion l).lastStrictSequence = s.lastStrictSequence := by
  unfold State.accept
  dsimp only
  split <;> simp

theorem tryComplete_lastStrictSequence (s : State) (completion : ForeignCompletion) :
    (s.tryComplete d completion).2.lastStrictSequence = s.lastStrictSequence := by
  unfold State.tryComplete
  split
  · split_ifs <;> rfl
  · split_ifs
    · rfl
    · rfl
    · split
      · simp [State.release]
      · rfl
    · split
      · simp [State.release]
      · simp

theorem tryReceive_lastStrictSequence (s : State) :
    s.tryReceive.2.lastStrictSequence = s.lastStrictSequence := by
  unfold State.tryReceive
  split
  · rfl
  · split <;> rfl

theorem tryTakeCompletion_lastStrictSequence (s : State) :
    (s.tryTakeCompletion d).2.lastStrictSequence = s.lastStrictSequence := by
  unfold State.tryTakeCompletion
  split
  · rfl
  · dsimp only
    split_ifs <;> simp [State.release]

/-- Only submissions move the strict cursor. -/
theorem apply_lastStrictSequence (s : State) {op : Op}
    (h : ∀ command now, op ≠ .trySubmit command now) :
    (s.apply d op).2.lastStrictSequence = s.lastStrictSequence := by
  cases op with
  | trySubmit command now => exact absurd rfl (h command now)
  | tryReceive => exact tryReceive_lastStrictSequence s
  | tryComplete completion => exact tryComplete_lastStrictSequence s completion
  | tryTakeCompletion => exact tryTakeCompletion_lastStrictSequence s
  | expireDeadlines now =>
    unfold State.apply State.expireDeadlines
    dsimp only
    split_ifs
    · rfl
    · exact failLocked_lastStrictSequence s deadlineAbort
  | beginStop reason =>
    unfold State.apply State.beginStop
    split_ifs
    · rfl
    · exact failLocked_lastStrictSequence s reason
  | beginGracefulStop =>
    unfold State.apply State.beginGracefulStop
    split_ifs <;> rfl
  | takeAbortReason =>
    change s.takeAbortReason.2.lastStrictSequence = _
    unfold State.takeAbortReason
    split_ifs
    · rfl
    · split <;> rfl
  | acknowledgeCancel sequence =>
    change (s.acknowledgeCancel sequence).2.lastStrictSequence = _
    unfold State.acknowledgeCancel
    split
    · rfl
    · split_ifs <;> rfl
  | cancelToken => rfl

end Last

/-- Nothing becomes live without a submission. -/
theorem apply_absent (s : State) {op : Op} (h : ∀ command now, op ≠ .trySubmit command now)
    {x : ℕ} (hx : s.live.contains x = false) : (s.apply d op).2.live.contains x = false := by
  by_contra hlive
  have hget := (SortedMap.contains_iff _ x).mp (by simpa using hlive)
  obtain hbefore | haccepted := (apply_move s op).live_origin hget
  · have := (SortedMap.contains_iff s.live x).mpr hbefore
    rw [hx] at this
    cases this
  · unfold accepted at haccepted
    split at haccepted
    · next command now heq =>
      obtain ⟨hop, -⟩ := Prod.mk.injEq .. ▸ heq
      exact h command now hop
    · cases haccepted

/-- Between two tries the cursor stays where it is and the sequence stays free. -/
theorem Meanwhile.keeps {s t : State} (h : Meanwhile d s t) {x : ℕ}
    (hx : s.live.contains x = false) :
    t.lastStrictSequence = s.lastStrictSequence ∧ t.live.contains x = false := by
  induction h with
  | refl => exact ⟨rfl, hx⟩
  | step op before still ih =>
    obtain ⟨hlast, hfree⟩ := ih
    by_cases hop : ∃ command now, op = .trySubmit command now
    · obtain ⟨command, now, rfl⟩ := hop
      rw [still command now rfl]
      exact ⟨hlast, hfree⟩
    · have hother : ∀ command now, op ≠ .trySubmit command now :=
        fun command now heq => hop ⟨command, now, heq⟩
      exact ⟨(apply_lastStrictSequence _ hother).trans hlast, apply_absent _ hother hfree⟩

/-- With its turn not spent, a command gets in where there is room. -/
theorem State.RoomFor.accepted {t : State} {command : ForeignCommand} {later : ℕ}
    (h : t.RoomFor d command later) (hfree : t.live.contains command.sequence = false)
    (hturn : d.config.ordering = .strict → t.strictGap command = false) :
    (t.trySubmit d command later).1 = .returned (.ok .accepted) := by
  rw [trySubmit_admissible h.running h.open_ h.accepting hfree]
  split_ifs with hstrict hgap
  · rw [hturn hstrict] at hgap
    cases hgap
  · rw [enter_accepted (s := t.withLast (some command.sequence)) h.room h.fit]
  · rw [enter_accepted h.room h.fit]

/-- A refused submission leaves the driver as it was, so that a command refused for lack of room
gets in later, exactly where the refusal does not spend the command's turn in strict order. -/
theorem refused_submission (d : ForeignNodeDriver) (s : State) (command : ForeignCommand)
    (now : ℕ) : s.Refusal d command now ↔ ¬ s.SpendsTurn d command := by
  constructor
  · exact fun h hturn => hturn.not_refusal h
  · intro hturn
    refine ⟨fun hrefused => trySubmit_refused hrefused hturn, ?_⟩
    intro hfull t later hmeanwhile hroom
    have hrefused : (s.trySubmit d command now).1.Refused := by
      rw [hfull]
      simp [SubmitResult.Refused]
    have hsame := trySubmit_refused hrefused hturn
    obtain ⟨-, -, -, hfree, -, hgap⟩ := trySubmit_full hfull
    rw [hsame] at hmeanwhile
    obtain ⟨hlast, hfree'⟩ := hmeanwhile.keeps hfree
    refine hroom.accepted hfree' fun hstrict => ?_
    unfold State.strictGap
    rw [hlast]
    exact hgap hstrict

/-- Two calls fill the driver. -/
def filling : List Op := [.trySubmit ⟨0, .prepare⟩ 0, .trySubmit ⟨1, .prepare⟩ 0]

/-- Both calls are answered, after which there is room again. -/
def answering : List Op :=
  [.tryReceive, .tryReceive, .tryComplete (emptySuccess 0), .tryComplete (emptySuccess 1),
    .tryTakeCompletion, .tryTakeCompletion]

theorem refused_submission_fails : ¬ ∀ (d : ForeignNodeDriver) (h : History),
    (driver d).Reachable h → ∀ command now, h.state.Refusal d command now := by
  intro hall
  let d := smallDriver .strict
  have hreach : (driver d).Reachable (History.run d filling) :=
    run_reachable (P := fun _ => True) fun _ _ => trivial
  have hturn : (History.run d filling).state.SpendsTurn d ⟨2, .prepare⟩ := by
    constructor <;> decide +kernel
  exact hturn.not_refusal (hall d _ hreach ⟨2, .prepare⟩ 0)

/-- The command that found the driver full is refused as out of line once there is room. -/
example : ((answering.foldl (fun s op => (s.apply (smallDriver .strict) op).2)
      ((History.run (smallDriver .strict) filling).state.trySubmit (smallDriver .strict)
        ⟨2, .prepare⟩ 0).2).trySubmit (smallDriver .strict) ⟨2, .prepare⟩ 0).1 =
    .returned (.error .strictSequenceGap) := by decide +kernel

end Muxiva.Foreign
