import Muxiva.Stream.Calls

/-! Who holds an accepted request. Sequences leave the input queue in order; a popped request
is launched or dropped; a launched one is active until its completion is drained, and a
completion exists only once the terminal flag is set. -/
set_option linter.all false
namespace Muxiva.Stream

variable {φ : Type} {o : ManagedStreamOptions φ} {s s' : State φ}

/-- The envelope popped from the input queue and neither launched nor dropped yet. -/
def ExecPc.popped : ExecPc φ → Option (Envelope φ)
  | .admitFlag e _ | .admitClock e _ | .tombstone e _ | .admitExpire e _ | .admitRelease e _
  | .admitUnregister e _ _ => some e
  | _ => none

/-- Envelopes made active in this pass whose worker is not yet running. -/
def ExecPc.launches : ExecPc φ → List (Envelope φ)
  | .launch ls | .settle ls | .spawn ls => ls
  | .admitFlag _ ls | .admitClock _ ls | .tombstone _ ls | .admitExpire _ ls | .admitRelease _ ls
  | .admitUnregister _ _ ls => ls
  | .spawnFinish e ls | .spawnRelease e ls | .spawnPush e _ ls => e :: ls
  | _ => []

/-- Drained completions the executor has not resolved yet. -/
def ExecPc.completions : ExecPc φ → List (WorkerCompletion φ)
  | .resolve cs => cs
  | .unregister c cs => c :: cs
  | _ => []

/-- The request whose terminal flag the executor set and whose lease it has not taken. -/
def ExecPc.releasing : ExecPc φ → Option ℕ
  | .expired _ q _ _ => some q
  | .admitRelease e _ | .spawnRelease e _ => some e.sequence
  | _ => none

/-- The request whose terminal flag the executor has seen set, or has set itself. -/
def ExecPc.decided : ExecPc φ → Option ℕ
  | .expired _ q _ _ => some q
  | .admitRelease e _ | .admitUnregister e _ _ | .spawnRelease e _ | .spawnPush e _ _ =>
    some e.sequence
  | _ => none

theorem ExecPc.decided_of_releasing {pc : ExecPc φ} {q : ℕ} (h : pc.releasing = some q) :
    pc.decided = some q := by
  cases pc <;> first | exact h | cases h

/-- Active requests the executor is still to scan, with the one it is expiring. -/
def ExecPc.scanned : ExecPc φ → List (ℕ × ActiveRequest)
  | .scan _ rest => rest
  | .expire _ q r rest | .expired _ q r rest => (q, r) :: rest
  | _ => []

/-- Past the swap of the terminal flag. -/
def WorkerPc.decided : WorkerPc φ → Bool
  | .release _ | .push _ | .leave | .exited => true
  | _ => false

theorem WorkerPc.not_decided_of_attempting {pc : WorkerPc φ} (h : pc.attempting = true) :
    pc.decided = false := by
  cases pc <;> first | rfl | cases h

theorem ExecPc.mem_envelopes (pc : ExecPc φ) (e : Envelope φ) :
    e ∈ pc.envelopes ↔ pc.popped = some e ∨ e ∈ pc.launches := by
  cases pc <;> simp [ExecPc.envelopes, ExecPc.popped, ExecPc.launches, eq_comm]

/-- Requests waiting to be launched, oldest first. -/
def State.waiting (s : State φ) : List (Envelope φ) := s.pc.popped.toList ++ s.input

/-- What one executor action does to the requests it owns. -/
inductive ExecMove (s s' : State φ) : Prop where
  /-- nobody changes hands -/
  | stay (input : s'.input = s.input) (active : s'.active = s.active)
      (popped : s'.pc.popped = s.pc.popped) (launches : s'.pc.launches = s.pc.launches)
      (registrations : s'.registrations = s.registrations) (workers : s'.workers = s.workers)
  /-- `active.remove` of a drained completion -/
  | complete (c : WorkerCompletion φ) (cs : List (WorkerCompletion φ))
      (pc : s.pc = .resolve (c :: cs)) (next : s' = { s with
        active := s.active.erase c.sequence, pc := .unregister c cs })
  /-- its registration is removed by id -/
  | unregister (c : WorkerCompletion φ) (cs : List (WorkerCompletion φ))
      (pc : s.pc = .unregister c cs) (input : s'.input = s.input) (active : s'.active = s.active)
      (popped : s'.pc.popped = s.pc.popped) (launches : s'.pc.launches = s.pc.launches)
      (registrations : s'.registrations = s.registrations.erase c.requestId)
      (workers : s'.workers = s.workers)
  /-- the head of the input queue is popped -/
  | pop (e : Envelope φ) (es : List (Envelope φ)) (popped : s.pc.popped = none)
      (head : s.input = e :: es) (input : s'.input = es) (active : s'.active = s.active)
      (popped' : s'.pc.popped = some e) (launches : s'.pc.launches = s.pc.launches)
      (registrations : s'.registrations = s.registrations) (workers : s'.workers = s.workers)
  /-- the popped request becomes active -/
  | launch (e : Envelope φ) (popped : s.pc.popped = some e) (input : s'.input = s.input)
      (active : s'.active = s.active.insert e.sequence ⟨e.requestId, e.deadline⟩)
      (popped' : s'.pc.popped = none) (launches : s'.pc.launches = s.pc.launches ++ [e])
      (registrations : s'.registrations = s.registrations) (workers : s'.workers = s.workers)
  /-- the popped request is dropped, cancelled or timed out -/
  | drop (e : Envelope φ) (popped : s.pc.popped = some e)
      (reason : (∃ ls, s.pc = .tombstone e ls) ∨ ∃ r ls, s.pc = .admitUnregister e r ls)
      (input : s'.input = s.input)
      (active : s'.active = s.active) (popped' : s'.pc.popped = none)
      (launches : s'.pc.launches = s.pc.launches)
      (registrations : s'.registrations = s.registrations.erase e.requestId)
      (workers : s'.workers = s.workers)
  /-- the worker of a launched request starts -/
  | spawn (e : Envelope φ) (ls : List (Envelope φ)) (pc : s.pc = .spawn (e :: ls))
      (next : s' = { s with
        workers := Function.update s.workers e.sequence (some ⟨e, .checkFlag 1 .begin⟩)
        pc := .spawn ls })
  /-- the spawn of a launched request failed and its completion is handed over -/
  | spawnFailed (e : Envelope φ) (r : Option (StreamResult φ)) (ls : List (Envelope φ))
      (pc : s.pc = .spawnPush e r ls)
      (next : s' = { s.pushWorkerCompletion ⟨e.sequence, e.requestId, r⟩ with pc := .spawn ls })
  /-- the loop is left for good -/
  | finalize (pc : s.pc = .finalize) (next : s' = { s with
      lifecycle := 2, active := .empty, ordered := .empty, relaxed := [], pc := .stopped })

theorem execStep_move {spawned : Bool} (h : s.execStep o spawned = some s') : ExecMove s s' := by
  cases execStep_branch h with
  | resolve c cs hpc => exact .complete c cs hpc rfl
  | unregister c cs hpc =>
    exact .unregister c cs hpc rfl rfl (by rw [hpc]; rfl) (by rw [hpc]; rfl) rfl rfl
  | launch ls e es hin _ hpc =>
    exact .pop e es (by rw [hpc]; rfl) hin rfl rfl rfl (by rw [hpc]; rfl) rfl rfl
  | admitClock e ls _ hpc =>
    exact .launch e (by rw [hpc]; rfl) rfl rfl rfl (by rw [hpc]; rfl) rfl rfl
  | tombstone e ls hpc =>
    exact .drop e (by rw [hpc]; rfl) (.inl ⟨ls, hpc⟩) rfl rfl rfl (by rw [hpc]; rfl) rfl rfl
  | admitUnregister e r ls hpc =>
    exact .drop e (by rw [hpc]; rfl) (.inr ⟨r, ls, hpc⟩) rfl rfl rfl (by rw [hpc]; rfl) rfl rfl
  | settleIdle ls _ hidle hpc | settleAgain ls _ hidle hpc =>
    have hls : ls = [] := List.isEmpty_iff.mp hidle.1
    exact .stay rfl rfl (by rw [hpc]; rfl) (by rw [hpc, hls]; rfl) rfl rfl
  | spawn e ls _ hpc => exact .spawn e ls hpc rfl
  | spawnPush e r ls hpc => exact .spawnFailed e r ls hpc rfl
  | finalize hpc => exact .finalize hpc rfl
  | _ =>
    rename_i hpc
    exact .stay rfl rfl (by rw [hpc]; rfl) (by rw [hpc]; rfl) rfl rfl

/-- What one executor action does to the terminal states: nothing, win a free flag, or take
the lease of the request it just won. -/
theorem execStep_terminals {spawned : Bool} (h : s.execStep o spawned = some s') :
    (s.pc.releasing = none ∧ s'.pc.releasing = none ∧ s'.terminals = s.terminals) ∨
    (∃ q w, w ≠ .cancel ∧ s.pc.releasing = none ∧ s'.pc.releasing = some q ∧
      ¬ (s.terminals q).terminal = true ∧ s'.terminals = (s.win q w).terminals) ∨
    (∃ q, s.pc.releasing = some q ∧ s'.pc.releasing = none ∧
      s'.terminals = (s.takeLease q).terminals) := by
  cases execStep_branch h with
  | expire _ q _ _ hif hpc =>
    exact .inr (.inl ⟨q, .deadline, by simp, by rw [hpc]; rfl, rfl, hif, rfl⟩)
  | admitExpire e _ hif hpc =>
    exact .inr (.inl ⟨e.sequence, .deadline, by simp, by rw [hpc]; rfl, rfl, hif, rfl⟩)
  | spawnFinish e _ hif hpc =>
    exact .inr (.inl ⟨e.sequence, .worker, by simp, by rw [hpc]; rfl, rfl, hif, rfl⟩)
  | expired _ _ _ _ hpc | admitRelease _ _ hpc | spawnRelease _ _ hpc =>
    exact .inr (.inr ⟨_, by rw [hpc]; rfl, rfl, rfl⟩)
  | _ =>
    rename_i hpc
    exact .inl ⟨by rw [hpc]; rfl, rfl, rfl⟩

/-- `q` has left the input queue and is not about to be spawned. -/
def State.Past (s : State φ) (q : ℕ) : Prop :=
  (∀ e ∈ s.waiting, q < e.sequence) ∧ ∀ e ∈ s.pc.launches, e.sequence ≠ q

/-- Every place that holds an accepted request, and when its terminal flag must be set. -/
structure Owned (s : State φ) : Prop where
  order : (s.waiting.map Envelope.sequence).Pairwise (· < ·)
  bound : ∀ e ∈ s.waiting, e.sequence < s.nextSequence
  active : ∀ q, s.active.contains q = true →
    q < s.nextSequence ∧ ∀ e ∈ s.waiting, q < e.sequence
  launched : ∀ e ∈ s.pc.launches, s.active.contains e.sequence = true
  launchOrder : (s.pc.launches.map Envelope.sequence).Pairwise (· < ·)
  spawned : ∀ q w, s.workers q = some w → s.Past q
  scanned : ∀ p ∈ s.pc.scanned, s.active.get? p.1 = some p.2
  workers : ∀ q w, s.workers q = some w →
    q < s.nextSequence ∧ (w.pc.decided = true → (s.terminals q).terminal = true)
  completed : ∀ c ∈ s.workerCompletions ++ s.pc.completions,
    c.sequence < s.nextSequence ∧ (s.terminals c.sequence).terminal = true
  decided : ∀ q, s.pc.decided = some q →
    q < s.nextSequence ∧ (s.terminals q).terminal = true

theorem owned_initial : Owned (State.initial : State φ) := by
  constructor <;> simp [State.initial, State.waiting, ExecPc.popped, ExecPc.launches,
    ExecPc.scanned, ExecPc.completions, ExecPc.decided, SortedMap.contains]

/-- `s'` has the requests of `s` in the same hands, and no terminal flag was taken back. -/
structure SameOwners (s s' : State φ) : Prop where
  nextSequence : s'.nextSequence = s.nextSequence
  input : s'.input = s.input
  active : s'.active = s.active
  workers : s'.workers = s.workers
  workerCompletions : s'.workerCompletions = s.workerCompletions
  terminals : ∀ q, (s.terminals q).terminal = true → (s'.terminals q).terminal = true
  pc : s'.pc = s.pc ∨ s'.pc = s.pc.woken

/-- A wake-up changes nothing the executor holds. -/
theorem ExecPc.holds_of_woken {pc pc' : ExecPc φ} (h : pc' = pc ∨ pc' = pc.woken) :
    pc'.popped = pc.popped ∧ pc'.launches = pc.launches ∧ pc'.scanned = pc.scanned ∧
      pc'.completions = pc.completions ∧ pc'.decided = pc.decided ∧
      pc'.releasing = pc.releasing := by
  rcases h with rfl | rfl
  · exact ⟨rfl, rfl, rfl, rfl, rfl, rfl⟩
  · cases pc <;> exact ⟨rfl, rfl, rfl, rfl, rfl, rfl⟩

theorem ExecPc.holds_woken (pc : ExecPc φ) :
    pc.woken.popped = pc.popped ∧ pc.woken.launches = pc.launches ∧
      pc.woken.scanned = pc.scanned ∧ pc.woken.completions = pc.completions ∧
      pc.woken.decided = pc.decided ∧ pc.woken.releasing = pc.releasing :=
  ExecPc.holds_of_woken (.inr rfl)

theorem Owned.of_sameOwners (hi : Owned s) (h : SameOwners s s') : Owned s' := by
  obtain ⟨hpop, hlaunch, hscan, hcomp, hdec, -⟩ := ExecPc.holds_of_woken h.pc
  have hwait : s'.waiting = s.waiting := by simp only [State.waiting, hpop, h.input]
  constructor
  · rw [hwait]
    exact hi.order
  · rw [hwait, h.nextSequence]
    exact hi.bound
  · rw [hwait, h.nextSequence, h.active]
    exact hi.active
  · rw [hlaunch, h.active]
    exact hi.launched
  · rw [hlaunch]
    exact hi.launchOrder
  · simp only [State.Past, hwait, hlaunch, h.workers]
    exact hi.spawned
  · rw [hscan, h.active]
    exact hi.scanned
  · rw [h.workers, h.nextSequence]
    exact fun q w hw => ⟨(hi.workers q w hw).1, fun hd => h.terminals q ((hi.workers q w hw).2 hd)⟩
  · rw [hcomp, h.workerCompletions, h.nextSequence]
    exact fun c hc => ⟨(hi.completed c hc).1, h.terminals _ (hi.completed c hc).2⟩
  · rw [hdec, h.nextSequence]
    exact fun q hq => ⟨(hi.decided q hq).1, h.terminals q (hi.decided q hq).2⟩

theorem SameCalls.terminal (h : SameCalls s s') {q : ℕ} (hq : (s.terminals q).terminal = true) :
    (s'.terminals q).terminal = true := by
  obtain ⟨w, hw⟩ := Option.isSome_iff_exists.mp hq
  simp [TerminalState.terminal, h.winners q w hw]

theorem execStep_scanned {spawned : Bool} (h : s.execStep o spawned = some s')
    {p : ℕ × ActiveRequest} (hp : p ∈ s'.pc.scanned) :
    s'.active = s.active ∧ (p ∈ s.pc.scanned ∨ p ∈ s.active.entries) := by
  cases execStep_branch h <;> rename_i hpc <;>
    rw [hpc]
  all_goals first
    | exact absurd hp List.not_mem_nil
    | exact ⟨rfl, .inr hp⟩
    | exact ⟨rfl, .inl hp⟩
    | exact ⟨rfl, .inl (List.mem_cons_of_mem _ hp)⟩

theorem execStep_completions {spawned : Bool} (h : s.execStep o spawned = some s')
    {c : WorkerCompletion φ} (hc : c ∈ s'.workerCompletions ++ s'.pc.completions) :
    c ∈ s.workerCompletions ++ s.pc.completions ∨ s.pc.decided = some c.sequence := by
  cases execStep_branch h <;> rename_i hpc <;>
    rw [hpc]
  all_goals first
    | exact .inl hc
    | (simp only [ExecPc.completions, State.bufferCompletion, State.buffer,
        State.removeRegistration, State.pushWorkerCompletion] at hc ⊢; grind [ExecPc.decided])

/-- The executor decides a request by reading or setting its flag while it owns it. -/
theorem execStep_decided {spawned : Bool} (h : s.execStep o spawned = some s') {q : ℕ}
    (hq : s'.pc.decided = some q) :
    s.pc.decided = some q ∨ ((s'.terminals q).terminal = true ∧
      (q ∈ s.pc.scanned.map Prod.fst ∨ q ∈ s.pc.popped.map Envelope.sequence ∨
        q ∈ s.pc.launches.map Envelope.sequence)) := by
  cases execStep_branch h with
  | expire _ _ _ _ _ hpc | admitExpire _ _ _ hpc | spawnFinish _ _ _ hpc =>
    cases hq
    rw [hpc]
    exact .inr ⟨by simp [TerminalState.terminal],
      by simp [ExecPc.scanned, ExecPc.popped, ExecPc.launches]⟩
  | admitExpireLost _ _ ht hpc | spawnLost _ _ ht hpc =>
    cases hq
    rw [hpc]
    exact .inr ⟨ht, by simp [ExecPc.popped, ExecPc.launches]⟩
  | admitRelease _ _ hpc | spawnRelease _ _ hpc => exact .inl (by rw [hpc]; exact hq)
  | _ => cases hq

/-- The queue part of `Owned` after a move. -/
theorem Owned.queue_move (hi : Owned s) (hn : s'.nextSequence = s.nextSequence)
    (h : ExecMove s s') :
    (s'.waiting.map Envelope.sequence).Pairwise (· < ·) ∧
    (∀ e ∈ s'.waiting, e.sequence < s'.nextSequence) ∧
    (∀ q, s'.active.contains q = true →
      q < s'.nextSequence ∧ ∀ e ∈ s'.waiting, q < e.sequence) ∧
    (∀ e ∈ s'.pc.launches, s'.active.contains e.sequence = true) ∧
    (s'.pc.launches.map Envelope.sequence).Pairwise (· < ·) ∧
    (∀ q, s.Past q → s'.Past q) := by
  have horder := hi.order
  have hbound := hi.bound
  have hactive := hi.active
  have hlaunched := hi.launched
  have hlorder := hi.launchOrder
  simp only [State.Past]
  simp only [State.waiting] at horder hbound hactive ⊢
  rw [hn]
  cases h with
  | stay hin hact hpop hlaunch hreg hw =>
    rw [hin, hact, hpop, hlaunch]
    exact ⟨horder, hbound, hactive, hlaunched, hlorder, fun _ => id⟩
  | complete c cs hpc hnext =>
    subst hnext
    rw [hpc] at horder hbound hactive ⊢
    refine ⟨horder, hbound, fun q hq => hactive q ?_, by simp [ExecPc.launches],
      by simp [ExecPc.launches], fun _ => id⟩
    simp only [SortedMap.contains_erase, Bool.and_eq_true] at hq
    exact hq.2
  | unregister c cs hpc hin hact hpop hlaunch hreg hw =>
    rw [hin, hact, hpop, hlaunch]
    exact ⟨horder, hbound, hactive, hlaunched, hlorder, fun _ => id⟩
  | pop e es hpop hhead hin hact hpop' hlaunch hreg hw =>
    rw [hpop, hhead] at horder hbound hactive ⊢
    rw [hin, hact, hpop', hlaunch]
    exact ⟨horder, hbound, hactive, hlaunched, hlorder, fun _ => id⟩
  | launch e hpop hin hact hpop' hlaunch hreg hw =>
    rw [hpop] at horder hbound hactive ⊢
    rw [hin, hact, hpop', hlaunch]
    obtain ⟨hlt, htail⟩ := List.pairwise_cons.mp horder
    refine ⟨htail, fun e' he' => hbound e' (List.mem_cons_of_mem _ he'), fun q hq => ?_,
      fun e' he' => ?_, ?_, fun q hq => ⟨fun e' he' => hq.1 e' (List.mem_cons_of_mem _ he'),
      fun e' he' => ?_⟩⟩
    · rw [SortedMap.contains_insert, Bool.or_eq_true, decide_eq_true_eq] at hq
      rcases hq with rfl | hq
      · exact ⟨hbound e List.mem_cons_self, fun e' he' => hlt _ (List.mem_map_of_mem he')⟩
      · exact ⟨(hactive q hq).1, fun e' he' => (hactive q hq).2 e' (List.mem_cons_of_mem _ he')⟩
    · rw [SortedMap.contains_insert]
      rcases List.mem_append.mp he' with he' | he'
      · simp [hlaunched e' he']
      · simp [List.mem_singleton.mp he']
    · rw [List.map_append]
      refine List.pairwise_append.mpr ⟨hlorder, List.pairwise_singleton _ _, fun a ha b hb => ?_⟩
      obtain ⟨e', he', rfl⟩ := List.mem_map.mp ha
      rw [List.mem_singleton.mp hb]
      exact (hactive _ (hlaunched e' he')).2 e List.mem_cons_self
    · rcases List.mem_append.mp he' with he' | he'
      · exact hq.2 e' he'
      · rw [List.mem_singleton.mp he']
        exact (hq.1 e List.mem_cons_self).ne'
  | drop e hpop hreason hin hact hpop' hlaunch hreg hw =>
    rw [hpop] at horder hbound hactive ⊢
    rw [hin, hact, hpop', hlaunch]
    exact ⟨(List.pairwise_cons.mp horder).2, fun e' he' => hbound e' (List.mem_cons_of_mem _ he'),
      fun q hq => ⟨(hactive q hq).1, fun e' he' => (hactive q hq).2 e' (List.mem_cons_of_mem _ he')⟩,
      hlaunched, hlorder,
      fun q hq => ⟨fun e' he' => hq.1 e' (List.mem_cons_of_mem _ he'), hq.2⟩⟩
  | spawn e ls hpc hnext =>
    rw [hpc] at horder hbound hactive hlaunched hlorder ⊢
    subst hnext
    exact ⟨horder, hbound, hactive, fun e' he' => hlaunched e' (List.mem_cons_of_mem _ he'),
      (List.pairwise_cons.mp hlorder).2,
      fun q hq => ⟨hq.1, fun e' he' => hq.2 e' (List.mem_cons_of_mem _ he')⟩⟩
  | spawnFailed e r ls hpc hnext =>
    rw [hpc] at horder hbound hactive hlaunched hlorder ⊢
    subst hnext
    exact ⟨horder, hbound, hactive, fun e' he' => hlaunched e' (List.mem_cons_of_mem _ he'),
      (List.pairwise_cons.mp hlorder).2,
      fun q hq => ⟨hq.1, fun e' he' => hq.2 e' (List.mem_cons_of_mem _ he')⟩⟩
  | finalize hpc hnext =>
    rw [hpc] at horder hbound hactive ⊢
    subst hnext
    exact ⟨horder, hbound, by simp [SortedMap.contains], by simp [ExecPc.launches],
      by simp [ExecPc.launches], fun _ => id⟩

/-- Requests the executor holds were accepted. -/
theorem Owned.held_lt (hi : Owned s) {q : ℕ} (h : q ∈ s.pc.scanned.map Prod.fst ∨
    q ∈ s.pc.popped.map Envelope.sequence ∨ q ∈ s.pc.launches.map Envelope.sequence) :
    q < s.nextSequence := by
  rcases h with h | h | h
  · obtain ⟨p, hp, rfl⟩ := List.mem_map.mp h
    exact (hi.active p.1 (by simp [SortedMap.contains, hi.scanned p hp])).1
  · obtain ⟨e, he, rfl⟩ := Option.map_eq_some_iff.mp h
    exact hi.bound e (List.mem_append_left _ (by simp [he]))
  · obtain ⟨e, he, rfl⟩ := List.mem_map.mp h
    exact (hi.active _ (hi.launched e he)).1

theorem execStep_workers {spawned : Bool} (h : s.execStep o spawned = some s') :
    s'.workers = s.workers ∨ ∃ e ls, s.pc = .spawn (e :: ls) ∧ s' = { s with
      workers := Function.update s.workers e.sequence (some ⟨e, .checkFlag 1 .begin⟩)
      pc := .spawn ls } := by
  cases execStep_move h with
  | stay _ _ _ _ _ hw | unregister _ _ _ _ _ _ _ _ hw | pop _ _ _ _ _ _ _ _ _ hw
  | launch _ _ _ _ _ _ _ hw | drop _ _ _ _ _ _ _ _ hw => exact .inl hw
  | complete c cs hpc hnext => exact .inl (by rw [hnext])
  | spawn e ls hpc hnext => exact .inr ⟨e, ls, hpc, hnext⟩
  | spawnFailed e r ls hpc hnext => exact .inl (by rw [hnext]; rfl)
  | finalize hpc hnext => exact .inl (by rw [hnext])

theorem owned_execStep {spawned : Bool} (hi : Owned s) (h : s.execStep o spawned = some s') :
    Owned s' := by
  have hsame := execStep_sameCalls h
  obtain ⟨h1, h2, h3, h4, h5, h6⟩ := hi.queue_move hsame.nextSequence (execStep_move h)
  refine ⟨h1, h2, h3, h4, h5, fun q w hw => ?_, fun p hp => ?_, fun q w hw => ?_,
    fun c hc => ?_, fun q hq => ?_⟩
  · rcases execStep_workers h with hws | ⟨e, ls, hpc, rfl⟩
    · exact h6 q (hi.spawned q w (hws ▸ hw))
    · by_cases hq : q = e.sequence
      · subst hq
        have hlaunch : s.pc.launches = e :: ls := by rw [hpc]; rfl
        have hlorder := hi.launchOrder
        rw [hlaunch] at hlorder
        refine ⟨(h3 _ (hi.launched e (by simp [hlaunch]))).2, fun e' he' => ?_⟩
        exact ((List.pairwise_cons.mp hlorder).1 _ (List.mem_map_of_mem he')).ne'
      · simp only [Function.update_of_ne hq] at hw
        exact h6 q (hi.spawned q w hw)
  · obtain ⟨hact, hp | hp⟩ := execStep_scanned h hp
    · rw [hact]
      exact hi.scanned p hp
    · rw [hact]
      exact (s.active.mem_entries_iff _ _).mp hp
  · rw [hsame.nextSequence]
    rcases execStep_workers h with hws | ⟨e, ls, hpc, rfl⟩
    · rw [hws] at hw
      exact ⟨(hi.workers q w hw).1, fun hd => hsame.terminal ((hi.workers q w hw).2 hd)⟩
    · by_cases hq : q = e.sequence
      · subst hq
        simp only [Function.update_self, Option.some.injEq] at hw
        refine ⟨hi.held_lt (.inr (.inr ?_)), by simp [← hw, WorkerPc.decided]⟩
        simp [hpc, ExecPc.launches]
      · simp only [Function.update_of_ne hq] at hw
        exact hi.workers q w hw
  · rw [hsame.nextSequence]
    rcases execStep_completions h hc with hc | hd
    · exact ⟨(hi.completed c hc).1, hsame.terminal (hi.completed c hc).2⟩
    · exact ⟨(hi.decided _ hd).1, hsame.terminal (hi.decided _ hd).2⟩
  · rw [hsame.nextSequence]
    rcases execStep_decided h hq with hd | ⟨ht, hheld⟩
    · exact ⟨(hi.decided q hd).1, hsame.terminal (hi.decided q hd).2⟩
    · exact ⟨hi.held_lt hheld, ht⟩

theorem terminal_update {q q' : ℕ} {u : TerminalState}
    (hu : (s.terminals q).terminal = true → u.terminal = true)
    (h : (s.terminals q').terminal = true) :
    (Function.update s.terminals q u q').terminal = true :=
  update_terminal (P := fun q t => (s.terminals q).terminal = true → t.terminal = true)
    (fun _ => id) hu q' h

theorem cancelStep_sameOwners {i : ℕ} (h : s.cancelStep i = some s') : SameOwners s s' := by
  obtain ⟨_, -, rfl⟩ | ⟨_, q, -, -, -, rfl⟩ | ⟨q, -, rfl⟩ | ⟨q, -, -, rfl⟩ | ⟨q, -, -, rfl⟩ |
    ⟨q, m, -, rfl⟩ | ⟨q, won, -, rfl⟩ := cancelStep_cases h
  · exact ⟨rfl, rfl, rfl, rfl, rfl, fun _ => id, .inl rfl⟩
  · exact ⟨rfl, rfl, rfl, rfl, rfl, fun _ => id, .inl rfl⟩
  · exact ⟨rfl, rfl, rfl, rfl, rfl, fun _ => terminal_update id, .inl rfl⟩
  · exact ⟨rfl, rfl, rfl, rfl, rfl, fun _ => id, .inl rfl⟩
  · exact ⟨rfl, rfl, rfl, rfl, rfl, fun _ => terminal_update fun _ => rfl, .inl rfl⟩
  · exact ⟨rfl, rfl, rfl, rfl, rfl, fun _ => terminal_update id, .inl rfl⟩
  · exact ⟨rfl, rfl, rfl, rfl, rfl, fun _ => id, .inr rfl⟩

theorem stopStep_sameOwners {order : List ℕ} (hc : s.stop ≠ .close)
    (h : s.stopStep order = some s') : SameOwners s s' := by
  unfold State.stopStep at h
  split at h <;> (try split_ifs at h) <;> cases h
  all_goals first
    | exact absurd ‹_› hc
    | exact ⟨rfl, rfl, rfl, rfl, rfl, fun _ => id, .inl rfl⟩
    | exact ⟨rfl, rfl, rfl, rfl, rfl, fun _ => terminal_update id, .inl rfl⟩
    | exact ⟨rfl, rfl, rfl, rfl, rfl, fun _ => terminal_update fun _ => rfl, .inl rfl⟩
    | exact ⟨rfl, rfl, rfl, rfl, rfl, fun _ => id, .inr rfl⟩

theorem owned_close (hi : Owned s) {order : List ℕ} (hp : s.stop = .close)
    (h : s.stopStep order = some s') : Owned s' := by
  have hsub : (s.pc.popped.toList ++ []).Sublist s.waiting :=
    List.Sublist.append_left (List.nil_sublist _) _
  simp only [State.stopStep, hp] at h
  split_ifs at h
  cases h
  refine ⟨hi.order.sublist (hsub.map _), fun e he => hi.bound e (hsub.mem he),
    fun q hq => ⟨(hi.active q hq).1, fun e he => (hi.active q hq).2 e (hsub.mem he)⟩,
    hi.launched, hi.launchOrder,
    fun q w hw => ⟨fun e he => (hi.spawned q w hw).1 e (hsub.mem he), (hi.spawned q w hw).2⟩,
    hi.scanned, hi.workers, fun c hc => ?_, hi.decided⟩
  exact hi.completed c (List.mem_append_right _ (by simpa using hc))

theorem owned_trySubmit (hi : Owned s) (r : AsyncRequest φ) (lifecycle : ℕ) :
    Owned (s.trySubmit o r lifecycle) := by
  rcases trySubmit_cases (o := o) (s := s) r lifecycle with ⟨m, h⟩ | ⟨-, -, m, h⟩ <;> rw [h]
  · exact hi.of_sameOwners ⟨rfl, rfl, rfl, rfl, rfl, fun _ => id, .inl rfl⟩
  · have hw : Owned s.notifyAll := hi.of_sameOwners
      ⟨rfl, rfl, rfl, rfl, rfl, fun _ => id, .inr rfl⟩
    -- the fresh sequence is above all the old ones, whose terminal states stay
    have hkeep : ∀ {q}, q < s.nextSequence → (s.terminals q).terminal = true →
        (Function.update s.terminals s.nextSequence ⟨false, none, true⟩ q).terminal = true :=
      fun hlt ht => by rwa [Function.update_of_ne hlt.ne]
    have hlt : ∀ {n}, n < s.nextSequence → n < s.nextSequence + 1 :=
      fun h => h.trans (Nat.lt_succ_self _)
    have hmem : ∀ {e : Envelope φ}, e ∈ s.pc.woken.popped.toList ++ (s.input ++
        [⟨s.nextSequence, r.requestId, r.input, r.deadline, r.attemptLimit⟩]) →
        e ∈ s.notifyAll.waiting ∨ e.sequence = s.nextSequence := fun he => by
      rw [← List.append_assoc] at he
      exact (List.mem_append.mp he).imp_right fun h => by simp [List.mem_singleton.mp h]
    refine ⟨?_, fun e he => ?_, fun q hq => ⟨hlt (hw.active q hq).1, fun e he => ?_⟩,
      hw.launched, hw.launchOrder, fun q w hq => ⟨fun e he => ?_, (hw.spawned q w hq).2⟩,
      hw.scanned, fun q w hq => ?_, fun c hc => ?_, fun q hq => ?_⟩
    · rw [State.waiting, ← List.append_assoc, List.map_append]
      refine List.pairwise_append.mpr ⟨hw.order, List.pairwise_singleton _ _, fun a ha b hb => ?_⟩
      obtain ⟨e, he, rfl⟩ := List.mem_map.mp ha
      rw [List.mem_singleton.mp hb]
      exact hw.bound e he
    · rcases hmem he with he | he
      · exact hlt (hw.bound e he)
      · rw [he]
        exact Nat.lt_succ_self _
    · rcases hmem he with he | he
      · exact (hw.active q hq).2 e he
      · rw [he]
        exact (hw.active q hq).1
    · rcases hmem he with he | he
      · exact (hw.spawned q w hq).1 e he
      · rw [he]
        exact (hw.workers q w hq).1
    · obtain ⟨hq', hd⟩ := hw.workers q w hq
      exact ⟨hlt hq', fun h => hkeep hq' (hd h)⟩
    · obtain ⟨hq', hd⟩ := hw.completed c hc
      exact ⟨hlt hq', hkeep hq' hd⟩
    · obtain ⟨hq', hd⟩ := hw.decided q hq
      exact ⟨hlt hq', hkeep hq' hd⟩

/-- A worker that moves keeps what its new position promises; the rest is untouched. -/
theorem Owned.worker_move (hi : Owned s) {q : ℕ} {w : Worker φ} {pc : WorkerPc φ}
    (hw : s.workers q = some w) (hn : s'.nextSequence = s.nextSequence)
    (hin : s'.input = s.input) (hact : s'.active = s.active)
    (hws : s'.workers = Function.update s.workers q (some { w with pc := pc }))
    (hpc : s'.pc = s.pc ∨ s'.pc = s.pc.woken)
    (ht : ∀ q, (s.terminals q).terminal = true → (s'.terminals q).terminal = true)
    (hd : pc.decided = true → (s'.terminals q).terminal = true)
    (hc : ∀ c ∈ s'.workerCompletions, c ∈ s.workerCompletions ∨
      (c.sequence = q ∧ (s'.terminals q).terminal = true)) : Owned s' := by
  let t : State φ := { s with terminals := s'.terminals, pc := s'.pc }
  have hsame : SameOwners s t := ⟨rfl, rfl, rfl, rfl, rfl, ht, hpc⟩
  have hi' : Owned t := hi.of_sameOwners hsame
  have hwait : s'.waiting = t.waiting := by simp only [State.waiting, hin, t]
  refine ⟨?_, ?_, ?_, ?_, hi'.launchOrder, fun q' w' hw' => ?_, ?_, fun q' w' hw' => ?_,
    fun c hc' => ?_, ?_⟩
  · rw [hwait]
    exact hi'.order
  · rw [hwait, hn]
    exact hi'.bound
  · rw [hwait, hn, hact]
    exact hi'.active
  · rw [hact]
    exact hi'.launched
  · rw [State.Past, hwait]
    rw [hws] at hw'
    by_cases hq : q' = q
    · subst hq
      exact hi'.spawned q' w hw
    · rw [Function.update_of_ne hq] at hw'
      exact hi'.spawned q' w' hw'
  · rw [hact]
    exact hi'.scanned
  · rw [hn]
    rw [hws] at hw'
    by_cases hq : q' = q
    · subst hq
      simp only [Function.update_self, Option.some.injEq] at hw'
      exact ⟨(hi.workers q' w hw).1, by rw [← hw']; exact hd⟩
    · rw [Function.update_of_ne hq] at hw'
      exact hi'.workers q' w' hw'
  · rw [hn]
    rcases List.mem_append.mp hc' with hc' | hc'
    · rcases hc c hc' with hc' | ⟨rfl, hterm⟩
      · exact hi'.completed c (List.mem_append_left _ hc')
      · exact ⟨(hi.workers _ w hw).1, hterm⟩
    · exact hi'.completed c (List.mem_append_right _ hc')
  · rw [hn]
    exact hi'.decided

theorem owned_workerStep {q : ℕ} {out : AdapterOutcome φ} (hi : Owned s)
    (h : s.workerStep o q out = some s') : Owned s' := by
  have hsame := workerStep_sameCalls h
  have hexec := workerStep_sameExecutor h
  have hterm : ∀ q, (s.terminals q).terminal = true → (s'.terminals q).terminal = true :=
    fun q hq => hsame.terminal hq
  have hmove := fun {w : Worker φ} {pc : WorkerPc φ} (hw : s.workers q = some w)
      (hws : s'.workers = Function.update s.workers q (some { w with pc := pc })) =>
    hi.worker_move hw hexec.nextSequence hexec.input hexec.active hws hexec.pc hterm
  obtain ⟨w, hw, ⟨-, pc, m, hpc, rfl⟩ | ⟨r, m, -, ht, rfl⟩ | ⟨r, -, -, rfl⟩ | ⟨r, m, hp, rfl⟩ |
    ⟨r, hp, -, rfl⟩ | ⟨hp, rfl⟩⟩ := workerStep_cases h
  · refine hmove hw rfl (fun hd => ?_) fun c hc => .inl hc
    rcases hpc with hpc | ⟨r, rfl, -⟩
    · rw [WorkerPc.not_decided_of_attempting hpc] at hd
      cases hd
    · simp [WorkerPc.decided] at hd
  · exact hmove hw rfl (fun _ => ht) fun c hc => .inl hc
  · exact hmove hw rfl (fun _ => by simp [TerminalState.terminal]) fun c hc => .inl hc
  · exact hmove hw rfl (fun _ => hterm q ((hi.workers q w hw).2 (by simp [hp, WorkerPc.decided])))
      fun c hc => .inl hc
  · have ht := (hi.workers q w hw).2 (by simp [hp, WorkerPc.decided])
    refine hmove hw rfl (fun _ => ht) fun c hc => ?_
    simp only [State.setWorker, State.pushWorkerCompletion] at hc
    split_ifs at hc
    · exact .inl hc
    · rcases List.mem_append.mp hc with hc | hc
      · exact .inl hc
      · exact .inr ⟨by rw [List.mem_singleton.mp hc], ht⟩
  · exact hmove hw rfl (fun _ => (hi.workers q w hw).2 (by simp [hp, WorkerPc.decided]))
      fun c hc => .inl hc

theorem owned_step {a : Label φ} (hi : Owned s) (h : s.step o a = some s') : Owned s' := by
  cases a with
  | trySubmit r lifecycle =>
    simp only [State.step] at h
    split_ifs at h
    cases h
    exact owned_trySubmit hi r lifecycle
  | tryRecv =>
    simp only [State.step] at h
    split_ifs at h
    cases h
    rcases tryRecv_cases (s := s) with h | ⟨c, cs, m, -, h⟩ <;> rw [h]
    · exact hi
    · exact hi.of_sameOwners ⟨rfl, rfl, rfl, rfl, rfl, fun _ => id, .inr rfl⟩
  | exec spawned => exact owned_execStep hi h
  | worker q out => exact owned_workerStep hi h
  | cancelBegin requestId =>
    cases h
    exact hi.of_sameOwners ⟨rfl, rfl, rfl, rfl, rfl, fun _ => id, .inl rfl⟩
  | cancel i => exact hi.of_sameOwners (cancelStep_sameOwners h)
  | requestStop =>
    simp only [State.step] at h
    split_ifs at h <;> cases h <;>
      exact hi.of_sameOwners ⟨rfl, rfl, rfl, rfl, rfl, fun _ => id, .inl rfl⟩
  | stop order =>
    by_cases hp : s.stop = .close
    · exact owned_close hi hp h
    · exact hi.of_sameOwners (stopStep_sameOwners hp h)
  | tick d => cases h; exact hi.of_sameOwners ⟨rfl, rfl, rfl, rfl, rfl, fun _ => id, .inl rfl⟩
  | wake =>
    simp only [State.step] at h
    split at h <;> cases h
    rename_i next hp
    exact hi.of_sameOwners ⟨rfl, rfl, rfl, rfl, rfl, fun _ => id, .inr (by rw [hp]; rfl)⟩

theorem owned {C : State φ → Label φ → Prop} (hr : (system o).ReachableBy C s) : Owned s :=
  invariant owned_initial (fun _ _ _ hi h => owned_step hi h) hr.reachable

/-- The executor drops a popped request only after reading its flag set. -/
def State.Tombstoned (s : State φ) : Prop :=
  ∀ e ls, s.pc = .tombstone e ls → (s.terminals e.sequence).cancelled = true

theorem execStep_tombstone {spawned : Bool} (h : s.execStep o spawned = some s')
    {e : Envelope φ} {ls : List (Envelope φ)} (hpc : s'.pc = .tombstone e ls) :
    (s'.terminals e.sequence).cancelled = true := by
  cases execStep_branch h <;> cases hpc
  case admitCancelled hif _ => exact hif

theorem tombstoned_step {a : Label φ} (hi : s.Tombstoned) (ho : Owned s)
    (h : s.step o a = some s') : s'.Tombstoned := by
  have hwoken : ∀ {e ls}, s.pc.woken = .tombstone e ls → s.pc = .tombstone e ls := by
    intro e ls hp
    rcases ExecPc.woken_cases s.pc with hw | ⟨next, -, hw⟩
    · exact hw ▸ hp
    · simp [hw] at hp
  have hsame : (s'.pc = s.pc ∨ s'.pc = s.pc.woken) → (∀ q, (s.terminals q).cancelled = true →
      (s'.terminals q).cancelled = true) → s'.Tombstoned := fun hpc hf e ls hp =>
    hf _ (hi e ls (hpc.elim (fun h => h ▸ hp) fun h => hwoken (h ▸ hp)))
  cases a with
  | trySubmit r lifecycle =>
    simp only [State.step] at h
    split_ifs at h
    cases h
    rcases trySubmit_cases (o := o) (s := s) r lifecycle with ⟨m, h⟩ | ⟨-, -, m, h⟩ <;> rw [h]
    · exact hi
    · intro e ls hp
      have hp' := hwoken hp
      have hlt := ho.bound e (by simp [State.waiting, hp', ExecPc.popped])
      simpa [Function.update_of_ne hlt.ne] using hi e ls hp'
  | tryRecv =>
    simp only [State.step] at h
    split_ifs at h
    cases h
    rcases tryRecv_cases (s := s) with h | ⟨c, cs, m, -, h⟩
    · exact hsame (.inl (by rw [h])) (by simp [h])
    · exact hsame (.inr (by rw [h])) (by simp [h])
  | exec spawned => exact fun e ls => execStep_tombstone h
  | worker q out =>
    exact hsame (workerStep_sameExecutor h).pc fun q hq =>
      ((workerStep_sameCalls h).flags q).trans hq
  | cancelBegin requestId => cases h; exact hi
  | cancel i => exact hsame (cancelStep_sameExecutor h).pc (cancelStep_flags h)
  | requestStop =>
    simp only [State.step] at h
    split_ifs at h <;> cases h <;> exact hi
  | stop order => exact hsame (stopStep_flags h).1 (stopStep_flags h).2
  | tick d => cases h; exact hi
  | wake =>
    simp only [State.step] at h
    split at h <;> cases h
    exact fun e ls hp => by simp at hp

theorem tombstoned {C : State φ → Label φ → Prop} (hr : (system o).ReachableBy C s) :
    s.Tombstoned := by
  refine invariantBy (I := State.Tombstoned) (fun e ls h => by simp [State.initial] at h)
    (fun s a s' hr hi _ h => ?_) hr
  exact tombstoned_step hi (owned hr) h

/-- Worker completions that are not resolved yet. -/
def State.completions (s : State φ) : List (WorkerCompletion φ) :=
  s.workerCompletions ++ s.pc.completions

/-- The completion is handed over. -/
def WorkerPc.left : WorkerPc φ → Bool
  | .leave | .exited => true
  | _ => false

theorem WorkerPc.not_left_of_attempting {pc : WorkerPc φ} (h : pc.attempting = true) :
    pc.left = false := by
  cases pc <;> first | rfl | cases h

/-- Every launched request completes exactly once: while it is active it is about to be
spawned, or its worker is running, or its completion is on the way. -/
structure Completing (s : State φ) : Prop where
  distinct : (s.completions.map WorkerCompletion.sequence).Nodup
  past : ∀ c ∈ s.completions, s.Past c.sequence
  left : ∀ c ∈ s.completions, ∀ w, s.workers c.sequence = some w → w.pc.left = true
  removed : ∀ c cs, s.pc = .unregister c cs → s.active.contains c.sequence = false
  owner : s.closed = false → ∀ q, s.active.contains q = true →
    (∃ e ∈ s.pc.launches, e.sequence = q) ∨ (∃ w, s.workers q = some w ∧ w.pc.left = false) ∨
      ∃ c ∈ s.completions, c.sequence = q

theorem completing_initial : Completing (State.initial : State φ) := by
  constructor <;> simp [State.initial, State.completions, ExecPc.completions, SortedMap.contains]

/-- A step of another party that leaves workers and completions alone. -/
theorem Completing.of_sameOwners (hi : Completing s) (h : SameOwners s s')
    (hcl : s'.closed = s.closed) : Completing s' := by
  obtain ⟨hpop, hlaunch, -, hcomp, -⟩ := ExecPc.holds_of_woken h.pc
  have hcs : s'.completions = s.completions := by
    simp only [State.completions, h.workerCompletions, hcomp]
  have hpast : ∀ q, s'.Past q ↔ s.Past q := fun q => by
    simp only [State.Past, State.waiting, hpop, hlaunch, h.input]
  constructor
  · rw [hcs]
    exact hi.distinct
  · rw [hcs]
    exact fun c hc => (hpast _).mpr (hi.past c hc)
  · rw [hcs, h.workers]
    exact hi.left
  · intro c cs hpc
    rw [h.active]
    refine hi.removed c cs ?_
    rcases h.pc with hp | hp
    · exact hp ▸ hpc
    · rcases ExecPc.woken_cases s.pc with hw | ⟨next, -, hw⟩
      · exact (hp.trans hw) ▸ hpc
      · simp [hp, hw] at hpc
  · rw [hcs, hlaunch, h.workers, h.active, hcl]
    exact hi.owner

theorem execStep_completionList {spawned : Bool} (h : s.execStep o spawned = some s') :
    s'.completions = s.completions ∨
    (∃ c cs, s.pc = .unregister c cs ∧ s'.completions = s.workerCompletions ++ cs) ∨
    ∃ e r ls, s.pc = .spawnPush e r ls ∧ (s'.completions = s.completions ∨
      s'.completions = s.completions ++ [⟨e.sequence, e.requestId, r⟩]) ∧
      (s.closed = false → s'.completions = s.completions ++ [⟨e.sequence, e.requestId, r⟩]) := by
  cases execStep_branch h with
  | top _ hpc =>
    simp only [State.completions, hpc]
    exact .inl (List.append_nil s.workerCompletions).symm
  | unregister c cs hpc => exact .inr (.inl ⟨c, cs, hpc, rfl⟩)
  | spawnPush e r ls hpc =>
    refine .inr (.inr ⟨e, r, ls, hpc, ?_⟩)
    cases hcl : s.closed <;> simp [State.completions, ExecPc.completions, hpc, hcl]
  | _ =>
    rename_i hpc
    exact .inl (by rw [State.completions, State.completions, hpc]; rfl)

theorem completions_sublist {spawned : Bool} (h : s.execStep o spawned = some s') :
    s'.completions.Sublist s.completions ∨ ∃ e r ls, s.pc = .spawnPush e r ls ∧
      s'.completions = s.completions ++ [⟨e.sequence, e.requestId, r⟩] := by
  rcases execStep_completionList h with hs | ⟨c, cs, hpc, hs⟩ | ⟨e, r, ls, hpc, hs | hs, -⟩
  · exact .inl (hs ▸ List.Sublist.refl _)
  · rw [hs, State.completions, hpc]
    exact .inl (List.Sublist.append_left (List.sublist_cons_self _ _) _)
  · exact .inl (hs ▸ List.Sublist.refl _)
  · exact .inr ⟨e, r, ls, hpc, hs⟩

/-- A request that is about to be spawned has no worker and no completion. -/
theorem Owned.not_spawned (ho : Owned s) {e : Envelope φ} (he : e ∈ s.pc.launches) :
    s.workers e.sequence = none := by
  cases hw : s.workers e.sequence with
  | none => rfl
  | some w => exact absurd rfl ((ho.spawned _ w hw).2 e he)

theorem completions_keep {spawned : Bool} (h : s.execStep o spawned = some s')
    {c : WorkerCompletion φ} (hc : c ∈ s.completions) :
    c ∈ s'.completions ∨ ∃ cs, s.pc = .unregister c cs := by
  rcases execStep_completionList h with hs | ⟨c', cs, hpc, hs⟩ | ⟨e, r, ls, hpc, hs | hs, -⟩
  · exact .inl (hs ▸ hc)
  · rw [State.completions, hpc] at hc
    rw [hs]
    rcases List.mem_append.mp hc with hc | hc
    · exact .inl (List.mem_append_left _ hc)
    · rcases List.mem_cons.mp hc with rfl | hc
      · exact .inr ⟨cs, hpc⟩
      · exact .inl (List.mem_append_right _ hc)
  · exact .inl (hs ▸ hc)
  · exact .inl (hs ▸ List.mem_append_left _ hc)

theorem completing_owner {spawned : Bool} (hi : Completing s)
    (h : s.execStep o spawned = some s') (hcl : s.closed = false) {q : ℕ}
    (hq : s'.active.contains q = true) :
    (∃ e ∈ s'.pc.launches, e.sequence = q) ∨ (∃ w, s'.workers q = some w ∧ w.pc.left = false) ∨
      ∃ c ∈ s'.completions, c.sequence = q := by
  -- an owner of `s` is an owner of `s'`, unless the move hands the request over
  have hkeep : s.active.contains q = true → ((∃ e ∈ s.pc.launches, e.sequence = q) →
      (∃ e ∈ s'.pc.launches, e.sequence = q) ∨ (∃ w, s'.workers q = some w ∧ w.pc.left = false) ∨
        ∃ c ∈ s'.completions, c.sequence = q) → s'.workers = s.workers →
      (∃ e ∈ s'.pc.launches, e.sequence = q) ∨ (∃ w, s'.workers q = some w ∧ w.pc.left = false) ∨
        ∃ c ∈ s'.completions, c.sequence = q := by
    intro ha hlaunch hw
    rcases hi.owner hcl q ha with hl | hl | ⟨c, hc, rfl⟩
    · exact hlaunch hl
    · exact .inr (.inl (hw ▸ hl))
    · rcases completions_keep h hc with hc | ⟨cs, hpc⟩
      · exact .inr (.inr ⟨c, hc, rfl⟩)
      · simp [hi.removed c cs hpc] at ha
  cases execStep_move h with
  | stay _ hact _ hlaunch _ hw | pop _ _ _ _ _ hact _ hlaunch _ hw
  | drop _ _ _ _ hact _ hlaunch _ hw | unregister _ _ _ _ hact _ hlaunch _ hw =>
    exact hkeep (hact ▸ hq) (fun hl => .inl (hlaunch ▸ hl)) hw
  | complete c cs hpc hnext =>
    have ha : s.active.contains q = true := by
      rw [hnext] at hq
      simp only [SortedMap.contains_erase, Bool.and_eq_true] at hq
      exact hq.2
    refine hkeep ha (fun ⟨e, he, _⟩ => ?_) (by rw [hnext])
    simp [hpc, ExecPc.launches] at he
  | launch e hpop hin hact hpop' hlaunch hreg hw =>
    rw [hact, SortedMap.contains_insert, Bool.or_eq_true, decide_eq_true_eq] at hq
    rcases hq with rfl | hq
    · exact .inl ⟨e, by simp [hlaunch], rfl⟩
    · exact hkeep hq (fun ⟨e', he', hs⟩ => .inl ⟨e', by simp [hlaunch, he'], hs⟩) hw
  | spawn e ls hpc hnext =>
    subst hnext
    by_cases he : q = e.sequence
    · exact .inr (.inl ⟨⟨e, .checkFlag 1 .begin⟩, by simp [he], rfl⟩)
    · rcases hi.owner hcl q hq with ⟨e', he', hs⟩ | ⟨w, hw, hl⟩ | ⟨c, hc, hs⟩
      · simp only [hpc, ExecPc.launches, List.mem_cons] at he'
        rcases he' with rfl | he'
        · exact absurd hs.symm he
        · exact .inl ⟨e', he', hs⟩
      · exact .inr (.inl ⟨w, by simpa [he] using hw, hl⟩)
      · refine .inr (.inr ⟨c, ?_, hs⟩)
        simpa [State.completions, hpc, ExecPc.completions] using hc
  | spawnFailed e r ls hpc hnext =>
    have hnew : s'.completions = s.completions ++ [⟨e.sequence, e.requestId, r⟩] := by
      subst hnext
      simp [State.completions, hpc, ExecPc.completions, hcl]
    refine hkeep (by rw [hnext] at hq; exact hq) (fun ⟨e', he', hs⟩ => ?_) (by rw [hnext]; rfl)
    simp only [hpc, ExecPc.launches, List.mem_cons] at he'
    rcases he' with rfl | he'
    · exact .inr (.inr ⟨_, by rw [hnew]; exact List.mem_append_right _ (List.mem_singleton_self _),
        hs⟩)
    · exact .inl ⟨e', by rw [hnext]; exact he', hs⟩
  | finalize hpc hnext => simp [hnext, SortedMap.contains] at hq

theorem completing_execStep {spawned : Bool} (hi : Completing s) (ho : Owned s)
    (h : s.execStep o spawned = some s') : Completing s' := by
  have hsame := execStep_sameCalls h
  obtain ⟨-, -, -, -, -, hpast⟩ := ho.queue_move hsame.nextSequence (execStep_move h)
  -- completions of `s'` are old, or the one of a request whose spawn failed
  have hmem : ∀ c ∈ s'.completions, c ∈ s.completions ∨ ∃ e r ls, s.pc = .spawnPush e r ls ∧
      c = ⟨e.sequence, e.requestId, r⟩ := fun c hc => by
    rcases completions_sublist h with hs | ⟨e, r, ls, hpc, hs⟩
    · exact .inl (hs.mem hc)
    · rw [hs] at hc
      exact (List.mem_append.mp hc).imp_right fun hc => ⟨e, r, ls, hpc, List.mem_singleton.mp hc⟩
  refine ⟨?_, fun c hc => ?_, fun c hc w hw => ?_, fun c cs hpc => ?_,
    fun hcl q hq => completing_owner hi h (hsame.closed ▸ hcl) hq⟩
  · rcases completions_sublist h with hs | ⟨e, r, ls, hpc, hs⟩
    · exact hi.distinct.sublist (hs.map _)
    · rw [hs, List.map_append]
      refine hi.distinct.append (List.nodup_singleton _) fun k hk hk' => ?_
      obtain ⟨c, hc, rfl⟩ := List.mem_map.mp hk
      refine (hi.past c hc).2 e (by simp [hpc, ExecPc.launches]) ?_
      simpa using (List.mem_singleton.mp hk').symm
  · rcases hmem c hc with hc | ⟨e, r, ls, hpc, rfl⟩
    · exact hpast _ (hi.past c hc)
    · have hlaunch : s.pc.launches = e :: ls := by rw [hpc]; rfl
      have hlorder := ho.launchOrder
      rw [hlaunch] at hlorder
      have hold := (ho.active _ (ho.launched e (by simp [hlaunch]))).2
      simp only [State.execStep, hpc] at h
      cases h
      refine ⟨fun e' he' => hold e' ?_, fun e' he' => ?_⟩
      · simpa [State.waiting, hpc, ExecPc.popped] using he'
      · exact ((List.pairwise_cons.mp hlorder).1 _ (List.mem_map_of_mem he')).ne'
  · rcases execStep_workers h with hws | ⟨e, ls, hpc, rfl⟩
    · rw [hws] at hw
      rcases hmem c hc with hc | ⟨e, r, ls, hpc, rfl⟩
      · exact hi.left c hc w hw
      · simp [ho.not_spawned (e := e) (by simp [hpc, ExecPc.launches])] at hw
    · have hold : c ∈ s.completions := by
        simpa [State.completions, hpc, ExecPc.completions] using hc
      have hne : c.sequence ≠ e.sequence := fun he =>
        (hi.past c hold).2 e (by simp [hpc, ExecPc.launches]) he.symm
      simp only [Function.update_of_ne hne] at hw
      exact hi.left c hold w hw
  · cases execStep_branch h <;> cases hpc
    simp

theorem completing_workerStep {k : ℕ} {out : AdapterOutcome φ} (hi : Completing s) (ho : Owned s)
    (h : s.workerStep o k out = some s') : Completing s' := by
  have hexec := workerStep_sameExecutor h
  obtain ⟨hpop, hlaunch, -, hcomp, -⟩ := ExecPc.holds_of_woken hexec.pc
  have hpast : ∀ q, s'.Past q ↔ s.Past q := fun q => by
    simp only [State.Past, State.waiting, hpop, hlaunch, hexec.input]
  have hremoved : ∀ c cs, s'.pc = .unregister c cs → s'.active.contains c.sequence = false := by
    intro c cs hpc
    rw [hexec.active]
    refine hi.removed c cs ?_
    rcases hexec.pc with hp | hp
    · exact hp ▸ hpc
    · rcases ExecPc.woken_cases s.pc with hw | ⟨next, -, hw⟩
      · exact (hp.trans hw) ▸ hpc
      · simp [hp, hw] at hpc
  -- a worker that does not hand over its completion keeps its side of the invariant
  have hmove : ∀ {w : Worker φ} {pc : WorkerPc φ}, s.workers k = some w →
      s'.workers = Function.update s.workers k (some { w with pc := pc }) →
      s'.workerCompletions = s.workerCompletions → pc.left = w.pc.left → Completing s' := by
    intro w pc hw hws hwc hleft
    have hcs : s'.completions = s.completions := by simp only [State.completions, hwc, hcomp]
    refine ⟨hcs ▸ hi.distinct, fun c hc => (hpast _).mpr (hi.past c (hcs ▸ hc)),
      fun c hc w' hw' => ?_, hremoved, fun hcl q hq => ?_⟩
    · rw [hws] at hw'
      by_cases hk : c.sequence = k
      · rw [hk, Function.update_self] at hw'
        cases hw'
        exact hleft.trans (hi.left c (hcs ▸ hc) w (hk ▸ hw))
      · rw [Function.update_of_ne hk] at hw'
        exact hi.left c (hcs ▸ hc) w' hw'
    · rw [hcs, hlaunch]
      rcases hi.owner (hexec.closed ▸ hcl) q (hexec.active ▸ hq) with hl | ⟨w', hw', hl⟩ | hl
      · exact .inl hl
      · by_cases hk : q = k
        · rw [hk, hw] at hw'
          cases hw'
          exact .inr (.inl ⟨_, by rw [hws, hk, Function.update_self], hleft.trans hl⟩)
        · exact .inr (.inl ⟨w', by rw [hws, Function.update_of_ne hk, hw'], hl⟩)
      · exact .inr (.inr hl)
  obtain ⟨w, hw, ⟨hp, pc, m, hpc, rfl⟩ | ⟨r, m, hp, -, rfl⟩ | ⟨r, hp, -, rfl⟩ | ⟨r, m, hp, rfl⟩ |
    ⟨r, hp, -, hpush⟩ | ⟨hp, rfl⟩⟩ := workerStep_cases h
  · refine hmove hw rfl rfl ?_
    rw [WorkerPc.not_left_of_attempting hp]
    rcases hpc with hpc | ⟨r, rfl, -⟩
    · exact WorkerPc.not_left_of_attempting hpc
    · rfl
  · exact hmove hw rfl rfl (by rw [hp]; rfl)
  · exact hmove hw rfl rfl (by rw [hp]; rfl)
  · exact hmove hw rfl rfl (by rw [hp]; rfl)
  · -- the completion is handed over: no other one exists for this request
    have hnot : ∀ c ∈ s.completions, c.sequence ≠ k := fun c hc hk => by
      have := hi.left c hc w (hk ▸ hw)
      simp [hp, WorkerPc.left] at this
    have hws : s'.workers = Function.update s.workers k (some { w with pc := .leave }) := by
      rw [hpush]
      rfl
    have hwc : s'.workerCompletions = if s.closed then s.workerCompletions
        else s.workerCompletions ++ [⟨k, w.envelope.requestId, r⟩] := by rw [hpush]; rfl
    have hmem : ∀ c, c ∈ s'.completions ↔ c ∈ s.completions ∨
        (s.closed = false ∧ c = ⟨k, w.envelope.requestId, r⟩) := fun c => by
      simp only [State.completions, hwc, hcomp, List.mem_append]
      cases s.closed <;> simp [or_right_comm]
    refine ⟨?_, fun c hc => (hpast _).mpr ?_, fun c hc w' hw' => ?_, hremoved, fun hcl q hq => ?_⟩
    · have hnodup := hi.distinct
      simp only [State.completions, hwc, hcomp] at hnodup ⊢
      cases hcl : s.closed with
      | true => simpa using hnodup
      | false =>
        have hperm : (s.workerCompletions ++ [WorkerCompletion.mk k w.envelope.requestId r] ++
            s.pc.completions).Perm (⟨k, w.envelope.requestId, r⟩ :: s.completions) := by
          rw [List.append_assoc]
          exact List.perm_middle
        simp only [Bool.false_eq_true, if_false]
        refine (hperm.map WorkerCompletion.sequence).nodup_iff.mpr ?_
        refine List.nodup_cons.mpr ⟨fun hk => ?_, hnodup⟩
        obtain ⟨c, hc, heq⟩ := List.mem_map.mp hk
        exact hnot c hc heq
    · rcases (hmem c).mp hc with hc | ⟨-, rfl⟩
      · exact hi.past c hc
      · exact ho.spawned k w hw
    · rw [hws] at hw'
      by_cases hk : c.sequence = k
      · rw [hk, Function.update_self] at hw'
        cases hw'
        rfl
      · rw [Function.update_of_ne hk] at hw'
        rcases (hmem c).mp hc with hc | ⟨-, rfl⟩
        · exact hi.left c hc w' hw'
        · exact absurd rfl hk
    · rw [hlaunch]
      have hop : s.closed = false := hexec.closed ▸ hcl
      by_cases hk : q = k
      · exact .inr (.inr ⟨⟨k, w.envelope.requestId, r⟩, (hmem _).mpr (.inr ⟨hop, rfl⟩), hk.symm⟩)
      · rcases hi.owner hop q (hexec.active ▸ hq) with hl | ⟨w', hw', hl⟩ | ⟨c, hc, hl⟩
        · exact .inl hl
        · exact .inr (.inl ⟨w', by rw [hws, Function.update_of_ne hk, hw'], hl⟩)
        · exact .inr (.inr ⟨c, (hmem c).mpr (.inl hc), hl⟩)
  · exact hmove hw rfl rfl (by rw [hp]; rfl)

theorem completing_trySubmit (hi : Completing s) (ho : Owned s) (r : AsyncRequest φ)
    (lifecycle : ℕ) : Completing (s.trySubmit o r lifecycle) := by
  rcases trySubmit_cases (o := o) (s := s) r lifecycle with ⟨m, h⟩ | ⟨-, -, m, h⟩ <;> rw [h]
  · exact hi.of_sameOwners ⟨rfl, rfl, rfl, rfl, rfl, fun _ => id, .inl rfl⟩ rfl
  · have hw : Completing s.notifyAll :=
      hi.of_sameOwners ⟨rfl, rfl, rfl, rfl, rfl, fun _ => id, .inr rfl⟩ rfl
    refine ⟨hw.distinct, fun c hc => ⟨fun e he => ?_, (hw.past c hc).2⟩, hw.left, hw.removed,
      hw.owner⟩
    simp only [State.waiting, ← List.append_assoc] at he
    rcases List.mem_append.mp he with he | he
    · exact (hw.past c hc).1 e he
    · rw [List.mem_singleton.mp he]
      have hc' : c ∈ s.completions := by
        simpa only [State.completions, s.pc.holds_woken.2.2.2.1] using hc
      exact (ho.completed c hc').1

theorem completing_close (hi : Completing s) {order : List ℕ} (hp : s.stop = .close)
    (h : s.stopStep order = some s') : Completing s' := by
  simp only [State.stopStep, hp] at h
  split_ifs at h
  cases h
  have hsub : s.pc.completions.Sublist s.completions := List.sublist_append_right _ _
  refine ⟨hi.distinct.sublist (hsub.map _), fun c hc => ?_, fun c hc => ?_, hi.removed, by simp⟩
  · refine ⟨fun e he => ?_, (hi.past c (hsub.mem hc)).2⟩
    exact (hi.past c (hsub.mem hc)).1 e (List.mem_append_left _ (by simpa [State.waiting] using he))
  · exact hi.left c (hsub.mem hc)

theorem completing_step {a : Label φ} (hi : Completing s) (ho : Owned s)
    (h : s.step o a = some s') : Completing s' := by
  cases a with
  | trySubmit r lifecycle =>
    simp only [State.step] at h
    split_ifs at h
    cases h
    exact completing_trySubmit hi ho r lifecycle
  | tryRecv =>
    simp only [State.step] at h
    split_ifs at h
    cases h
    rcases tryRecv_cases (s := s) with h | ⟨c, cs, m, -, h⟩ <;> rw [h]
    · exact hi
    · exact hi.of_sameOwners ⟨rfl, rfl, rfl, rfl, rfl, fun _ => id, .inr rfl⟩ rfl
  | exec spawned => exact completing_execStep hi ho h
  | worker q out => exact completing_workerStep hi ho h
  | cancelBegin requestId =>
    cases h
    exact hi.of_sameOwners ⟨rfl, rfl, rfl, rfl, rfl, fun _ => id, .inl rfl⟩ rfl
  | cancel i => exact hi.of_sameOwners (cancelStep_sameOwners h) (cancelStep_sameExecutor h).closed
  | requestStop =>
    simp only [State.step] at h
    split_ifs at h <;> cases h <;>
      exact hi.of_sameOwners ⟨rfl, rfl, rfl, rfl, rfl, fun _ => id, .inl rfl⟩ rfl
  | stop order =>
    by_cases hp : s.stop = .close
    · exact completing_close hi hp h
    · exact hi.of_sameOwners (stopStep_sameOwners hp h) (stopStep_sameExecutor hp h).closed
  | tick d => cases h; exact hi.of_sameOwners ⟨rfl, rfl, rfl, rfl, rfl, fun _ => id, .inl rfl⟩ rfl
  | wake =>
    simp only [State.step] at h
    split at h <;> cases h
    rename_i next hp
    exact hi.of_sameOwners ⟨rfl, rfl, rfl, rfl, rfl, fun _ => id, .inr (by rw [hp]; rfl)⟩ rfl

theorem completing {C : State φ → Label φ → Prop} (hr : (system o).ReachableBy C s) :
    Completing s := by
  refine invariantBy completing_initial (fun s a s' hr hi _ h => ?_) hr
  exact completing_step hi (owned hr) h

end Muxiva.Stream
