import Muxiva.Stream.Outcome
import Mathlib.Data.Finset.Card
import Mathlib.Data.Finset.Option

/-! The bounds of the window. The executor pops an envelope only while the requests in flight leave
room for it, and nothing else takes a slot: a resolution is buffered for a request that was active,
or for the one just popped, or it frees the slot of a request that is terminal. -/
set_option linter.all false
namespace Muxiva.Stream

variable {φ : Type} {o : ManagedStreamOptions φ} {s s' : State φ}

/-- A party other than the executor moved: the executor's buffers are those of `s`, and no winner
of an accepted request was taken back. -/
structure SameWindow (s s' : State φ) : Prop where
  pc : s'.pc = s.pc ∨ s'.pc = s.pc.woken
  active : s'.active = s.active
  ordered : s'.ordered = s.ordered
  relaxed : s'.relaxed = s.relaxed
  winners : ∀ q < s.nextSequence, ∀ w, (s.terminals q).winner = some w →
    (s'.terminals q).winner = some w

theorem SameWindow.of_sameExecutor (h : SameExecutor s s')
    (hw : ∀ q w, (s.terminals q).winner = some w → (s'.terminals q).winner = some w) :
    SameWindow s s' :=
  ⟨h.pc, h.active, h.ordered, h.relaxed, fun q _ => hw q⟩

theorem winner_raise (q q' : ℕ) :
    ((s.raise q).terminals q').winner = (s.terminals q').winner := by
  by_cases h : q' = q
  · subst h
    simp
  · simp [h]

theorem cancelStep_winners {i : ℕ} (h : s.cancelStep i = some s') (q : ℕ) (w : Winner)
    (hq : (s.terminals q).winner = some w) : (s'.terminals q).winner = some w := by
  obtain ⟨_, -, rfl⟩ | ⟨_, k, -, -, -, rfl⟩ | ⟨k, -, rfl⟩ | ⟨k, -, -, rfl⟩ | ⟨k, -, ht, rfl⟩ |
    ⟨k, m, -, rfl⟩ | ⟨k, won, -, rfl⟩ := cancelStep_cases h
  · exact hq
  · exact hq
  · exact (winner_raise k q).trans hq
  · exact hq
  · exact (sameCalls_win k .cancel ht).winners q w hq
  · exact (sameCalls_takeLease k).winners q w hq
  · exact hq

theorem stopStep_winners {order : List ℕ} (h : s.stopStep order = some s') (q : ℕ) (w : Winner)
    (hq : (s.terminals q).winner = some w) : (s'.terminals q).winner = some w := by
  unfold State.stopStep at h
  split at h <;> (try split_ifs at h with hif) <;> cases h
  all_goals first
    | exact hq
    | exact (winner_raise _ q).trans hq
    | exact (sameCalls_win _ .cancel hif).winners q w hq
    | exact (sameCalls_takeLease _).winners q w hq

theorem step_sameWindow {a : Label φ} (ha : ∀ spawned, a ≠ .exec spawned)
    (h : s.step o a = some s') : SameWindow s s' := by
  have hkeep : ∀ q < s.nextSequence, ∀ w, (s.terminals q).winner = some w →
      (s.terminals q).winner = some w := fun _ _ _ hw => hw
  cases a with
  | trySubmit r lifecycle =>
    simp only [State.step] at h
    split_ifs at h
    cases h
    rcases trySubmit_cases (o := o) (s := s) r lifecycle with ⟨m, h⟩ | ⟨-, -, m, h⟩ <;> rw [h]
    · exact ⟨.inl rfl, rfl, rfl, rfl, hkeep⟩
    · refine ⟨.inr rfl, rfl, rfl, rfl, fun q hq w hw => ?_⟩
      simpa [hq.ne] using hw
  | tryRecv =>
    simp only [State.step] at h
    split_ifs at h
    cases h
    rcases tryRecv_cases (s := s) with h | ⟨c, cs, m, -, h⟩ <;> rw [h]
    · exact ⟨.inl rfl, rfl, rfl, rfl, hkeep⟩
    · exact ⟨.inr rfl, rfl, rfl, rfl, hkeep⟩
  | exec spawned => exact absurd rfl (ha spawned)
  | worker q out =>
    exact .of_sameExecutor (workerStep_sameExecutor h) (workerStep_sameCalls h).winners
  | cancelBegin requestId => cases h; exact ⟨.inl rfl, rfl, rfl, rfl, hkeep⟩
  | cancel i => exact .of_sameExecutor (cancelStep_sameExecutor h) (cancelStep_winners h)
  | requestStop =>
    simp only [State.step] at h
    split_ifs at h <;> cases h <;> exact ⟨.inl rfl, rfl, rfl, rfl, hkeep⟩
  | stop order =>
    by_cases hp : s.stop = .close
    · simp only [State.step, State.stopStep, hp] at h
      split_ifs at h
      cases h
      exact ⟨.inl rfl, rfl, rfl, rfl, hkeep⟩
    · exact .of_sameExecutor (stopStep_sameExecutor hp h) (stopStep_winners h)
  | tick d => cases h; exact ⟨.inl rfl, rfl, rfl, rfl, hkeep⟩
  | wake =>
    simp only [State.step] at h
    split at h <;> cases h
    rename_i next hp
    exact ⟨.inr (by rw [hp]; rfl), rfl, rfl, rfl, hkeep⟩

/-- Drained completions whose request is still active. -/
def ExecPc.drained : ExecPc φ → List (WorkerCompletion φ)
  | .resolve cs | .unregister _ cs => cs
  | _ => []

/-- Completions are handed over by active requests, and running workers work for them. -/
structure Backed (s : State φ) : Prop where
  leaving : s.pc = .finalize ∨ s.pc = .stopped → s.closed = true
  discarded : s.closed = true → s.workerCompletions = []
  completions : ∀ c ∈ s.workerCompletions ++ s.pc.drained, s.active.contains c.sequence = true
  workers : s.pc ≠ .stopped → ∀ q w, s.workers q = some w → w.pc.left = false →
    s.active.contains q = true

theorem backed_initial : Backed (State.initial : State φ) := by
  constructor <;> simp [State.initial, ExecPc.drained]

theorem ExecPc.drained_sublist (pc : ExecPc φ) : pc.drained.Sublist pc.completions := by
  cases pc <;> first | exact .refl _ | exact List.sublist_cons_self _ _

theorem ExecPc.drained_of_woken {pc pc' : ExecPc φ} (h : pc' = pc ∨ pc' = pc.woken) :
    pc'.drained = pc.drained ∧ (pc' = .finalize ↔ pc = .finalize) ∧
      (pc' = .stopped ↔ pc = .stopped) := by
  rcases h with rfl | rfl
  · exact ⟨rfl, Iff.rfl, Iff.rfl⟩
  · cases pc <;> simp [ExecPc.woken, ExecPc.drained]

/-- A step of another party that hands over no completion of its own. -/
theorem Backed.congr (hi : Backed s) (h : SameWindow s s')
    (hcs : s'.workerCompletions = s.workerCompletions) (hcl : s'.closed = s.closed)
    (hw : s'.workers = s.workers) : Backed s' := by
  obtain ⟨hdrained, hfin, hstop⟩ := ExecPc.drained_of_woken h.pc
  refine ⟨?_, ?_, ?_, ?_⟩
  · rw [hfin, hstop, hcl]
    exact hi.leaving
  · rw [hcs, hcl]
    exact hi.discarded
  · rw [hcs, hdrained, h.active]
    exact hi.completions
  · rw [h.active, hw, ne_eq, hstop]
    exact hi.workers

theorem execStep_drained {spawned : Bool} (h : s.execStep o spawned = some s')
    {c : WorkerCompletion φ} (hc : c ∈ s'.workerCompletions ++ s'.pc.drained) :
    c ∈ s.workerCompletions ++ s.pc.drained ∨
      ∃ e r ls, s.pc = .spawnPush e r ls ∧ c.sequence = e.sequence := by
  cases execStep_branch h with
  | top _ hpc =>
    rw [hpc]
    simpa [ExecPc.drained] using hc
  | resolve c cs hpc =>
    rw [hpc]
    simp only [ExecPc.drained, List.mem_append, List.mem_cons] at hc ⊢
    exact .inl (hc.imp_right .inr)
  | spawnPush e r ls hpc =>
    rw [hpc]
    by_cases hcl : s.closed = true
    · simp only [State.pushWorkerCompletion, hcl, if_true] at hc
      exact .inl hc
    · simp only [State.pushWorkerCompletion, hcl, Bool.false_eq_true, if_false, ExecPc.drained,
        List.append_nil, List.mem_append, List.mem_singleton] at hc
      rcases hc with hc | rfl
      · exact .inl (List.mem_append_left _ hc)
      · exact .inr ⟨e, r, ls, rfl, rfl⟩
  | _ =>
    rename_i hpc
    rw [hpc]
    exact .inl hc

theorem execStep_discarded {spawned : Bool} (h : s.execStep o spawned = some s')
    (hcl : s.closed = true) (hcs : s.workerCompletions = []) : s'.workerCompletions = [] := by
  cases execStep_branch h with
  | top => rfl
  | spawnPush => simpa [hcl] using hcs
  | _ => exact hcs

/-- What the executor takes out of the active set: the request of a drained completion. -/
theorem execStep_erased {spawned : Bool} (h : s.execStep o spawned = some s') {q : ℕ}
    (hq : s.active.contains q = true) : s'.active.contains q = true ∨ s'.pc = .stopped ∨
      ∃ c cs, s.pc = .resolve (c :: cs) ∧ s'.pc = .unregister c cs ∧ c.sequence = q := by
  cases execStep_move h with
  | stay _ hact | unregister _ _ _ _ hact | pop _ _ _ _ _ hact | drop _ _ _ _ hact =>
    exact .inl (hact ▸ hq)
  | launch e hpop hin hact => exact .inl (by simp [hact, hq])
  | complete c cs hpc hnext =>
    by_cases hc : c.sequence = q
    · exact .inr (.inr ⟨c, cs, hpc, by rw [hnext], hc⟩)
    · exact .inl (by simp [hnext, hq, Ne.symm hc])
  | spawn e ls hpc hnext => exact .inl (by rw [hnext]; exact hq)
  | spawnFailed e r ls hpc hnext => exact .inl (by rw [hnext]; exact hq)
  | finalize hpc hnext => exact .inr (.inl (by rw [hnext]))

theorem backed_execStep {spawned : Bool} (hi : Backed s) (ho : Owned s) (hcomp : Completing s)
    (h : s.execStep o spawned = some s') : Backed s' := by
  have hsame := execStep_sameCalls h
  have hleaving : s'.pc = .finalize ∨ s'.pc = .stopped → s'.closed = true := by
    intro hp
    by_contra hcl
    rw [hsame.closed, Bool.not_eq_true] at hcl
    have hrun : s.pc ≠ .finalize := fun hf => by simp [hi.leaving (.inl hf)] at hcl
    have hnext := execStep_running hcl hrun h
    exact hp.elim hnext.1 hnext.2
  have hdiscarded : s'.closed = true → s'.workerCompletions = [] := fun hcl =>
    execStep_discarded h (hsame.closed ▸ hcl) (hi.discarded (hsame.closed ▸ hcl))
  refine ⟨hleaving, hdiscarded, fun c hc => ?_, fun hns q w hw hleft => ?_⟩
  · have hactive : s.active.contains c.sequence = true := by
      rcases execStep_drained h hc with hc' | ⟨e, r, ls, hpc, hq⟩
      · exact hi.completions c hc'
      · rw [hq]
        exact ho.launched e (by simp [hpc, ExecPc.launches])
    rcases execStep_erased h hactive with ha | hp | ⟨d, cs, hp, hp', hq⟩
    · exact ha
    · rw [hdiscarded (hleaving (.inr hp)), hp] at hc
      cases hc
    · -- no two completions are for one request
      exfalso
      have hdist := hcomp.distinct
      rw [State.completions, hp, ExecPc.completions, List.map_append, List.map_cons,
        List.nodup_middle, List.nodup_cons, ← List.map_append] at hdist
      refine hdist.1 (hq ▸ List.mem_map_of_mem ?_)
      have hcs : s'.workerCompletions = s.workerCompletions := by
        simp only [State.execStep, hp] at h
        cases h
        rfl
      simpa [hcs, hp', ExecPc.drained] using hc
  · have hactive : s.active.contains q = true := by
      rcases execStep_workers h with hws | ⟨e, ls, hpc, hnext⟩
      · refine hi.workers (fun hp => ?_) q w (hws ▸ hw) hleft
        simp [State.execStep, hp] at h
      · by_cases hq : q = e.sequence
        · rw [hq]
          exact ho.launched e (by simp [hpc, ExecPc.launches])
        · refine hi.workers (by simp [hpc]) q w ?_ hleft
          simpa [hnext, hq] using hw
    rcases execStep_erased h hactive with ha | hp | ⟨d, cs, hp, hp', rfl⟩
    · exact ha
    · exact absurd hp hns
    · exfalso
      have hws : s.workers d.sequence = some w := by
        simp only [State.execStep, hp] at h
        cases h
        exact hw
      have := hcomp.left d (by simp [State.completions, hp, ExecPc.completions]) w hws
      simp [hleft] at this

theorem backed_workerStep {k : ℕ} {out : AdapterOutcome φ} (hi : Backed s)
    (h : s.workerStep o k out = some s') : Backed s' := by
  have hexec := workerStep_sameExecutor h
  obtain ⟨hdrained, hfin, hstop⟩ := ExecPc.drained_of_woken hexec.pc
  obtain ⟨w, hw, hcases⟩ := workerStep_cases h
  have hmove : ∀ pc, s'.workers = Function.update s.workers k (some { w with pc := pc }) →
      (pc.left = false → w.pc.left = false) → (s'.closed = true → s'.workerCompletions = []) →
      (∀ c ∈ s'.workerCompletions, c ∈ s.workerCompletions ∨
        s.active.contains c.sequence = true) → Backed s' := by
    intro pc hws hleft hdisc hcs
    refine ⟨?_, hdisc, fun c hc => ?_, fun hns q v hv hl => ?_⟩
    · rw [hfin, hstop, hexec.closed]
      exact hi.leaving
    · rw [hexec.active]
      rw [hdrained] at hc
      rcases List.mem_append.mp hc with hc | hc
      · exact (hcs c hc).elim (fun hc => hi.completions c (List.mem_append_left _ hc)) id
      · exact hi.completions c (List.mem_append_right _ hc)
    · rw [hexec.active]
      have hns' : s.pc ≠ .stopped := fun hp => hns (hstop.mpr hp)
      by_cases hq : q = k
      · subst hq
        simp only [hws, Function.update_self, Option.some.injEq] at hv
        subst hv
        exact hi.workers hns' q w hw (hleft hl)
      · refine hi.workers hns' q v ?_ hl
        simpa [hws, hq] using hv
  obtain ⟨hatt, pc, m, -, rfl⟩ | ⟨r, m, hp, -, rfl⟩ | ⟨r, hp, -, rfl⟩ | ⟨r, m, hp, rfl⟩ |
    ⟨r, hp, -, rfl⟩ | ⟨hp, rfl⟩ := hcases
  · exact hmove pc rfl (fun _ => WorkerPc.not_left_of_attempting hatt) hi.discarded fun c => .inl
  · exact hmove _ rfl (fun _ => by rw [hp]; rfl) hi.discarded fun c => .inl
  · exact hmove _ rfl (fun _ => by rw [hp]; rfl) hi.discarded fun c => .inl
  · exact hmove _ rfl (fun _ => by rw [hp]; rfl) hi.discarded fun c => .inl
  · refine hmove .leave rfl (by simp [WorkerPc.left]) (fun hcl => ?_) fun c hc => ?_
    · have hcl' : s.closed = true := hcl
      simpa [hcl'] using hi.discarded hcl'
    · by_cases hcl : s.closed = true
      · simp only [State.setWorker, State.pushWorkerCompletion, hcl, if_true] at hc
        exact .inl hc
      · simp only [State.setWorker, State.pushWorkerCompletion, hcl, Bool.false_eq_true, if_false,
          List.mem_append, List.mem_singleton] at hc
        refine hc.imp id fun hc => ?_
        rw [hc]
        exact hi.workers (fun hs => hcl (hi.leaving (.inr hs))) k w hw (by rw [hp]; rfl)
  · exact hmove .exited rfl (by simp [WorkerPc.left]) hi.discarded fun c => .inl

theorem backed_step {a : Label φ} (hi : Backed s) (ho : Owned s) (hcomp : Completing s)
    (h : s.step o a = some s') : Backed s' := by
  have hframe : (∀ spawned, a ≠ .exec spawned) → s'.workerCompletions = s.workerCompletions →
      s'.closed = s.closed → s'.workers = s.workers → Backed s' := fun ha =>
    hi.congr (step_sameWindow ha h)
  cases a with
  | trySubmit r lifecycle =>
    simp only [State.step] at h
    split_ifs at h
    cases h
    rcases trySubmit_cases (o := o) (s := s) r lifecycle with ⟨m, h⟩ | ⟨-, -, m, h⟩ <;>
      exact hframe (by simp) (by rw [h]) (by rw [h]) (by rw [h])
  | tryRecv =>
    simp only [State.step] at h
    split_ifs at h
    cases h
    rcases tryRecv_cases (s := s) with h | ⟨c, cs, m, -, h⟩ <;>
      exact hframe (by simp) (by rw [h]) (by rw [h]) (by rw [h])
  | exec spawned => exact backed_execStep hi ho hcomp h
  | worker q out => exact backed_workerStep hi h
  | cancelBegin requestId => cases h; exact hframe (by simp) rfl rfl rfl
  | cancel i =>
    have hsame := cancelStep_sameOwners h
    exact hframe (by simp) hsame.workerCompletions (cancelStep_sameExecutor h).closed hsame.workers
  | requestStop =>
    simp only [State.step] at h
    split_ifs at h <;> cases h <;> exact hframe (by simp) rfl rfl rfl
  | stop order =>
    by_cases hp : s.stop = .close
    · simp only [State.step, State.stopStep, hp] at h
      split_ifs at h
      cases h
      exact ⟨fun _ => rfl, fun _ => rfl,
        fun c hc => hi.completions c (List.mem_append_right _ hc), hi.workers⟩
    · have hsame := stopStep_sameOwners hp h
      exact hframe (by simp) hsame.workerCompletions (stopStep_sameExecutor hp h).closed
        hsame.workers
  | tick d => cases h; exact hframe (by simp) rfl rfl rfl
  | wake =>
    simp only [State.step] at h
    split at h <;> cases h
    exact hframe (by simp) rfl rfl rfl

theorem backed (hr : (system o).Reachable s) : Backed s :=
  invariantBy (I := Backed) backed_initial
    (fun _ _ _ hr hi _ h => backed_step hi (owned hr) (completing hr) h) hr

/-- Results in flight were produced by the winner of the terminal flag. -/
structure Credited (s : State φ) : Prop where
  produced : ∀ q, 0 < s.produced q → (s.terminals q).winner = some .worker
  expired : ∀ now q r rest, s.pc = .expired now q r rest →
    (s.terminals q).winner = some .deadline

theorem credited_initial : Credited (State.initial : State φ) := by
  constructor <;> simp [State.initial, State.produced, State.completions, ExecPc.completions,
    ExecPc.spawnTokens, workerTokens]

theorem Owned.produced_lt (ho : Owned s) {q : ℕ} (h : 0 < s.produced q) : q < s.nextSequence := by
  by_contra hge
  have hw : s.workers q = none := by
    by_contra hne
    obtain ⟨w, hw⟩ := Option.ne_none_iff_exists'.mp hne
    exact hge (ho.workers q w hw).1
  have hc : completionTokens s.completions q = 0 := by
    by_contra hne
    obtain ⟨c, hc, rfl, -⟩ := completionTokens_pos.mp (Nat.pos_of_ne_zero hne)
    exact hge (ho.completed c hc).1
  have hs : s.pc.spawnTokens q = 0 := by
    by_contra hne
    exact hge (ho.decided q (ExecPc.decided_of_spawnTokens hne)).1
  simp [State.produced, hw, hc, hs, workerTokens] at h

/-- A step of another party that produces nothing new. -/
theorem Credited.congr (hi : Credited s) (ho : Owned s) (h : SameWindow s s')
    (hp : ∀ q, 0 < s'.produced q → 0 < s.produced q ∨ (s'.terminals q).winner = some .worker) :
    Credited s' := by
  refine ⟨fun q hq => ?_, fun now q r rest hpc => ?_⟩
  · rcases hp q hq with hq | hq
    · exact h.winners q (ho.produced_lt hq) _ (hi.produced q hq)
    · exact hq
  · have hpc' : s.pc = .expired now q r rest := by
      rcases h.pc with hp | hp
      · exact hp ▸ hpc
      · rcases ExecPc.woken_cases s.pc with hw | ⟨next, -, hw⟩
        · exact (hp.trans hw) ▸ hpc
        · simp [hp, hw] at hpc
    have hlt := (ho.decided q (by rw [hpc']; rfl)).1
    exact h.winners q hlt _ (hi.expired now q r rest hpc')

theorem workerTokens_of_attempting {e : Envelope φ} {pc : WorkerPc φ} (h : pc.attempting = true) :
    workerTokens (some ⟨e, pc⟩) = 0 := by
  cases pc <;> first | rfl | cases h

/-- A worker produces a result by winning the terminal flag. -/
theorem workerStep_produced {k : ℕ} {out : AdapterOutcome φ} (h : s.workerStep o k out = some s')
    {q : ℕ} (hq : 0 < s'.produced q) :
    0 < s.produced q ∨ (s'.terminals q).winner = some .worker := by
  have hexec := workerStep_sameExecutor h
  obtain ⟨-, -, -, hcomp, -⟩ := ExecPc.holds_of_woken hexec.pc
  have hspawn := (ExecPc.tokens_of_woken hexec.pc q).2
  obtain ⟨⟨e, pc⟩, hw, hcases⟩ := workerStep_cases h
  simp only [State.produced, State.completions, completionTokens_append, hcomp, hspawn] at hq ⊢
  have hkeep : ∀ pc', s'.workers = Function.update s.workers k (some ⟨e, pc'⟩) →
      s'.workerCompletions = s.workerCompletions →
      workerTokens (some ⟨e, pc'⟩) ≤ workerTokens (some ⟨e, pc⟩) →
      0 < workerTokens (s.workers q) + (completionTokens s.workerCompletions q +
        completionTokens s.pc.completions q) + s.pc.spawnTokens q := by
    intro pc' hws hcs hle
    rw [hws, hcs] at hq
    by_cases hk : q = k
    · subst hk
      rw [Function.update_self] at hq
      rw [hw]
      omega
    · rw [Function.update_of_ne hk] at hq
      exact hq
  obtain ⟨-, pc', m, hpc', rfl⟩ | ⟨r, m, hp, -, rfl⟩ | ⟨r, hp, -, rfl⟩ | ⟨r, m, hp, rfl⟩ |
    ⟨r, hp, -, rfl⟩ | ⟨hp, rfl⟩ := hcases
  · refine .inl (hkeep pc' rfl rfl ?_)
    rcases hpc' with hpc' | ⟨r, rfl, -⟩
    · rw [workerTokens_of_attempting hpc']
      exact Nat.zero_le _
    · exact Nat.zero_le _
  · exact .inl (hkeep _ rfl rfl (Nat.zero_le _))
  · by_cases hk : q = k
    · subst hk
      exact .inr (by simp)
    · refine .inl ?_
      simpa [hk] using hq
  · refine .inl (hkeep _ rfl rfl ?_)
    cases hp
    cases r <;> rfl
  · left
    cases hp
    by_cases hk : q = k
    · subst hk
      rw [hw]
      cases r with
      | none => by_cases hcl : s.closed = true <;> simpa [hcl, workerTokens] using hq
      | some r =>
        have hone : workerTokens (some (⟨e, .push (some r)⟩ : Worker φ)) = 1 := rfl
        omega
    · by_cases hcl : s.closed = true
      · simpa [hk, hcl] using hq
      · simpa [hk, hcl, completionTokens_append, Ne.symm hk] using hq
  · exact .inl (hkeep _ rfl rfl (Nat.zero_le _))

theorem credited_step {a : Label φ} (hi : Credited s) (ho : Owned s)
    (h : s.step o a = some s') : Credited s' := by
  have hframe : (∀ spawned, a ≠ .exec spawned) → s'.workers = s.workers →
      s'.workerCompletions = s.workerCompletions → Credited s' := by
    intro ha hw hcs
    have hsame := step_sameWindow ha h
    obtain ⟨-, -, -, hcomp, -⟩ := ExecPc.holds_of_woken hsame.pc
    refine hi.congr ho hsame fun q hq => .inl ?_
    simpa only [State.produced, State.completions, hw, hcs, hcomp,
      (ExecPc.tokens_of_woken hsame.pc q).2] using hq
  cases a with
  | trySubmit r lifecycle =>
    simp only [State.step] at h
    split_ifs at h
    cases h
    rcases trySubmit_cases (o := o) (s := s) r lifecycle with ⟨m, h⟩ | ⟨-, -, m, h⟩ <;>
      exact hframe (by simp) (by rw [h]) (by rw [h])
  | tryRecv =>
    simp only [State.step] at h
    split_ifs at h
    cases h
    rcases tryRecv_cases (s := s) with h | ⟨c, cs, m, -, h⟩ <;>
      exact hframe (by simp) (by rw [h]) (by rw [h])
  | exec spawned =>
    have hsame := execStep_sameCalls h
    refine ⟨fun q hq => ?_, fun now q r rest hpc => (execStep_expired h hpc).2.2.1⟩
    rcases execStep_produced h q with hle | ⟨e, ls, -, -, hwin, -⟩
    · exact hsame.winners q _ (hi.produced q (by omega))
    · exact hwin
  | worker q out =>
    exact hi.congr ho (step_sameWindow (by simp) h) fun _ => workerStep_produced h
  | cancelBegin requestId => cases h; exact hframe (by simp) rfl rfl
  | cancel i =>
    have hsame := cancelStep_sameOwners h
    exact hframe (by simp) hsame.workers hsame.workerCompletions
  | requestStop =>
    simp only [State.step] at h
    split_ifs at h <;> cases h <;> exact hframe (by simp) rfl rfl
  | stop order =>
    by_cases hp : s.stop = .close
    · refine hi.congr ho (step_sameWindow (by simp) h) fun q hq => .inl ?_
      simp only [State.step, State.stopStep, hp] at h
      split_ifs at h
      cases h
      simp only [State.produced, State.completions, completionTokens_append,
        completionTokens_nil] at hq ⊢
      omega
    · have hsame := stopStep_sameOwners hp h
      exact hframe (by simp) hsame.workers hsame.workerCompletions
  | tick d => cases h; exact hframe (by simp) rfl rfl
  | wake =>
    simp only [State.step] at h
    split at h <;> cases h
    exact hframe (by simp) rfl rfl

theorem credited (hr : (system o).Reachable s) : Credited s :=
  invariantBy (I := Credited) credited_initial
    (fun _ _ _ hr hi _ h => credited_step hi (owned hr) h) hr

/-- The drained completion whose request is no longer active and not yet resolved. -/
def ExecPc.resolving : ExecPc φ → Option (WorkerCompletion φ)
  | .unregister c _ => some c
  | _ => none

/-- The active request the executor has just timed out. -/
def ExecPc.expiring : ExecPc φ → Option ℕ
  | .expired _ q _ _ => some q
  | _ => none

/-- The requests that take a slot of a strict window. -/
def State.window (s : State φ) : Finset ℕ :=
  s.active.keys.toFinset ∪ s.ordered.keys.toFinset ∪
    (s.pc.resolving.map WorkerCompletion.sequence).toFinset

/-- A result of request `q` may still be buffered. -/
def State.pending (s : State φ) (q : ℕ) : Bool :=
  decide ((s.terminals q).winner = none ∨ (s.terminals q).winner = some .worker ∨
    s.pc.expiring = some q)

def State.pendingActive (s : State φ) : Finset ℕ :=
  s.active.keys.toFinset.filter fun q => s.pending q = true

/-- The result the executor is about to buffer. -/
def State.inTransit (s : State φ) : ℕ := (s.pc.resolving.any fun c => c.result.isSome).toNat

/-- The slots of a relaxed window: buffered results, and those that may still be buffered. -/
def State.relaxedUse (s : State φ) : ℕ := s.relaxed.length + s.pendingActive.card + s.inTransit

theorem mem_keys_toFinset {β : Type} (m : SortedMap ℕ β) (q : ℕ) :
    q ∈ m.keys.toFinset ↔ m.contains q = true := by
  rw [List.mem_toFinset, SortedMap.mem_keys_iff, SortedMap.contains, Option.isSome_iff_exists]

theorem card_keys {β : Type} (m : SortedMap ℕ β) : m.keys.toFinset.card = m.size := by
  rw [List.toFinset_card_of_nodup m.nodup_keys, SortedMap.length_keys]

theorem mem_window {q : ℕ} : q ∈ s.window ↔ s.active.contains q = true ∨
    s.ordered.contains q = true ∨ ∃ c, s.pc.resolving = some c ∧ c.sequence = q := by
  simp only [State.window, Finset.mem_union, mem_keys_toFinset, or_assoc, Option.mem_toFinset,
    Option.mem_def, Option.map_eq_some_iff]

theorem mem_pendingActive {q : ℕ} :
    q ∈ s.pendingActive ↔ s.active.contains q = true ∧ s.pending q = true := by
  rw [State.pendingActive, Finset.mem_filter, mem_keys_toFinset]

theorem window_launch {ls : List (Envelope φ)} (hpc : s.pc = .launch ls) :
    s.window.card ≤ s.inFlight := by
  have hsub : s.window ⊆ s.active.keys.toFinset ∪
      (s.ordered.keys.filter fun q => ¬ s.active.contains q).toFinset := by
    intro q hq
    rw [mem_window] at hq
    rw [Finset.mem_union, mem_keys_toFinset, List.mem_toFinset, List.mem_filter,
      ← List.mem_toFinset, mem_keys_toFinset]
    rcases hq with hq | hq | ⟨c, hc, -⟩
    · exact .inl hq
    · by_cases ha : s.active.contains q = true
      · exact .inl ha
      · exact .inr ⟨hq, by simpa using ha⟩
    · simp [hpc, ExecPc.resolving] at hc
  have hle := (Finset.card_le_card hsub).trans (Finset.card_union_le _ _)
  have hkeys := List.toFinset_card_le (s.ordered.keys.filter fun q => ¬ s.active.contains q)
  rw [card_keys] at hle
  simp only [State.inFlight]
  omega

theorem relaxedUse_launch {ls : List (Envelope φ)} (hpc : s.pc = .launch ls) :
    s.relaxedUse ≤ s.inFlight := by
  have hle := Finset.card_filter_le s.active.keys.toFinset fun q => s.pending q = true
  rw [card_keys] at hle
  simp only [State.relaxedUse, State.pendingActive, State.inTransit, State.inFlight, hpc,
    ExecPc.resolving, Option.any_none, Bool.toNat_false]
  omega

theorem execStep_popped {spawned : Bool} (h : s.execStep o spawned = some s')
    (hp : s'.pc.popped.isSome = true) : s.pc.popped.isSome = true ∨
      ∃ ls, s.pc = .launch ls ∧ s.inFlight < o.maxInFlight := by
  cases execStep_branch h with
  | launch ls e es _ hif hpc => exact .inr ⟨ls, hpc, Nat.lt_of_not_le hif⟩
  | admitCancelled _ _ _ hpc | admitFlag _ _ _ hpc | admitDue _ _ _ hpc
  | admitExpireLost _ _ _ hpc | admitExpire _ _ _ hpc | admitRelease _ _ hpc =>
    exact .inl (by rw [hpc]; rfl)
  | _ => cases hp

/-- The bound rule: a measure that is at most the window use when the executor looks at it, that
grows only when a popped envelope finds its place, and that no other party raises. -/
theorem le_maxInFlight (use : State φ → ℕ) (h0 : use State.initial = 0)
    (hlaunch : ∀ s : State φ, ∀ ls, s.pc = .launch ls → use s ≤ s.inFlight)
    (hexec : ∀ s s' : State φ, ∀ spawned, (system o).Reachable s →
      s.execStep o spawned = some s' → use s' ≤ use s ∨
        (s.pc.popped.isSome = true ∧ s'.pc.popped = none ∧ use s' ≤ use s + 1))
    (hother : ∀ s s' : State φ, (system o).Reachable s → SameWindow s s' → use s' ≤ use s)
    {s : State φ} (hr : (system o).Reachable s) : use s ≤ o.maxInFlight := by
  have hinv := invariantBy (o := o) (C := fun _ _ => True) (I := fun s => use s ≤ o.maxInFlight ∧
    (s.pc.popped.isSome = true → use s < o.maxInFlight))
    ⟨by omega, by simp [State.initial, ExecPc.popped]⟩ ?_ hr
  · exact hinv.1
  · intro s a s' hr hi _ h
    by_cases ha : ∃ spawned, a = .exec spawned
    · obtain ⟨spawned, rfl⟩ := ha
      have hstep := hexec s s' spawned hr h
      refine ⟨?_, fun hp => ?_⟩
      · rcases hstep with hle | ⟨hp, -, hle⟩
        · exact hle.trans hi.1
        · have := hi.2 hp
          omega
      · have hle : use s' ≤ use s := by
          rcases hstep with hle | ⟨-, hnone, -⟩
          · exact hle
          · simp [hnone] at hp
        rcases execStep_popped h hp with hp | ⟨ls, hpc, hlt⟩
        · exact hle.trans_lt (hi.2 hp)
        · exact (hle.trans (hlaunch s ls hpc)).trans_lt hlt
    · have hsame := step_sameWindow (fun spawned he => ha ⟨spawned, he⟩) h
      have hle := hother s s' hr hsame
      refine ⟨hle.trans hi.1, fun hp => hle.trans_lt (hi.2 ?_)⟩
      rw [← (ExecPc.holds_of_woken hsame.pc).1]
      exact hp

theorem execStep_activeMem {spawned : Bool} (h : s.execStep o spawned = some s') {q : ℕ}
    (hq : s'.active.contains q = true) : s.active.contains q = true ∨
      ∃ e, s.pc.popped = some e ∧ s'.pc.popped = none ∧ e.sequence = q := by
  cases execStep_move h with
  | stay _ hact | unregister _ _ _ _ hact | pop _ _ _ _ _ hact | drop _ _ _ _ hact =>
    exact .inl (hact ▸ hq)
  | launch e hpop hin hact hpop' =>
    rw [hact, SortedMap.contains_insert, Bool.or_eq_true, decide_eq_true_eq] at hq
    exact hq.symm.imp id fun hq => ⟨e, hpop, hpop', hq.symm⟩
  | complete c cs hpc hnext =>
    rw [hnext, SortedMap.contains_erase, Bool.and_eq_true] at hq
    exact .inl hq.2
  | spawn e ls hpc hnext | spawnFailed e r ls hpc hnext =>
    rw [hnext] at hq
    exact .inl hq
  | finalize hpc hnext => simp [hnext, SortedMap.contains] at hq

theorem ordered_of_buffer {keep : Prop} [Decidable keep] {k requestId q : ℕ}
    {r : Option (StreamResult φ)} (h : (s.buffer o keep k requestId r).ordered.contains q = true) :
    s.ordered.contains q = true ∨ k = q := by
  simp only [State.buffer] at h
  split_ifs at h
  · rw [SortedMap.contains_insert, Bool.or_eq_true, decide_eq_true_eq] at h
    exact h.symm.imp id Eq.symm
  · exact .inl h

theorem flushStrict_contains (fuel : ℕ) (d : Delivery φ) {q : ℕ}
    (h : (flushStrict o fuel d).ordered.contains q = true) : d.ordered.contains q = true := by
  induction fuel generalizing d with
  | zero => exact h
  | succ fuel ih =>
    have hadvance : ∀ out, (flushStrict o fuel (d.advance out)).ordered.contains q = true →
        d.ordered.contains q = true := by
      intro out hq
      have := ih _ hq
      simp only [Delivery.advance, SortedMap.contains_erase, Bool.and_eq_true] at this
      exact this.2
    simp only [flushStrict] at h
    split at h
    · exact h
    · exact hadvance _ h
    · split_ifs at h
      · exact h
      · exact hadvance _ h

theorem ordered_of_flush {q : ℕ} (h : (s.flush o).ordered.contains q = true) :
    s.ordered.contains q = true := by
  obtain ⟨d, ho, -, -, m, hf⟩ := flush_eq (s := s) (o := o)
  rw [hf] at h
  rw [← ho]
  by_cases hs : o.ordering = .strict
  · simp only [if_pos hs] at h
    exact flushStrict_contains _ _ h
  · simp only [if_neg hs] at h
    exact h

/-- A resolution is buffered for a drained completion, for an active request, or for the popped
one. -/
theorem execStep_orderedMem {spawned : Bool} (h : s.execStep o spawned = some s') {q : ℕ}
    (hq : s'.ordered.contains q = true) : s.ordered.contains q = true ∨
      (∃ c, s.pc.resolving = some c ∧ c.sequence = q) ∨ (∃ r, (q, r) ∈ s.pc.scanned) ∨
      ∃ e, s.pc.popped = some e ∧ s'.pc.popped = none ∧ e.sequence = q := by
  have hempty : ¬ (SortedMap.empty : SortedMap ℕ (OrderedResolution φ)).contains q = true := by
    simp [SortedMap.contains]
  cases execStep_branch h with
  | unregister c cs hpc =>
    obtain hq | hq := ordered_of_buffer hq
    · exact .inl hq
    · exact .inr (.inl ⟨c, by rw [hpc]; rfl, hq⟩)
  | scanCancelled now k r rest _ hpc | expired now k r rest hpc =>
    obtain hq | rfl := ordered_of_buffer hq
    · exact .inl hq
    · exact .inr (.inr (.inl ⟨r, by rw [hpc]; exact List.mem_cons_self⟩))
  | tombstone e ls hpc | admitUnregister e _ ls hpc =>
    obtain hq | hq := ordered_of_buffer hq
    · exact .inl hq
    · exact .inr (.inr (.inr ⟨e, by rw [hpc]; rfl, rfl, hq⟩))
  | deliver => exact .inl (ordered_of_flush hq)
  | finalize => exact absurd hq hempty
  | _ => exact .inl hq

theorem execStep_resolving {spawned : Bool} (h : s.execStep o spawned = some s')
    {c : WorkerCompletion φ} (hc : s'.pc.resolving = some c) : ∃ cs, s.pc = .resolve (c :: cs) ∧
      s' = { s with active := s.active.erase c.sequence, pc := .unregister c cs } := by
  cases execStep_branch h <;> cases hc
  case resolve hpc => exact ⟨_, hpc, rfl⟩

theorem window_execStep {spawned : Bool} (ho : Owned s) (hb : Backed s)
    (h : s.execStep o spawned = some s') {q : ℕ} (hq : q ∈ s'.window) : q ∈ s.window ∨
      ∃ e, s.pc.popped = some e ∧ s'.pc.popped = none ∧ e.sequence = q := by
  rw [mem_window] at hq ⊢
  rcases hq with hq | hq | ⟨c, hc, rfl⟩
  · exact (execStep_activeMem h hq).imp .inl id
  · rcases execStep_orderedMem h hq with hq | hq | ⟨r, hq⟩ | hq
    · exact .inl (.inr (.inl hq))
    · exact .inl (.inr (.inr hq))
    · exact .inl (.inl (by simp [SortedMap.contains, ho.scanned (q, r) hq]))
    · exact .inr hq
  · obtain ⟨cs, hpc, -⟩ := execStep_resolving h hc
    exact .inl (.inl (hb.completions c (by simp [hpc, ExecPc.drained])))

/-- A set that only the popped request may enter. -/
theorem card_le_of_popped {w w' : Finset ℕ} (h : ∀ q ∈ w', q ∈ w ∨
      ∃ e, s.pc.popped = some e ∧ s'.pc.popped = none ∧ e.sequence = q) :
    w'.card ≤ w.card ∨
      (s.pc.popped.isSome = true ∧ s'.pc.popped = none ∧ w'.card ≤ w.card + 1) := by
  by_cases hp : ∃ e, s.pc.popped = some e ∧ s'.pc.popped = none
  · obtain ⟨e, he, hnone⟩ := hp
    refine .inr ⟨by simp [he], hnone, ?_⟩
    have hsub : w' ⊆ insert e.sequence w := by
      intro q hq
      rw [Finset.mem_insert]
      rcases h q hq with hq | ⟨e', he', -, rfl⟩
      · exact .inr hq
      · rw [he] at he'
        cases he'
        exact .inl rfl
    exact (Finset.card_le_card hsub).trans (Finset.card_insert_le _ _)
  · refine .inl (Finset.card_le_card fun q hq => ?_)
    rcases h q hq with hq | ⟨e, he, hnone, -⟩
    · exact hq
    · exact absurd ⟨e, he, hnone⟩ hp

theorem ExecPc.resolving_of_woken {pc pc' : ExecPc φ} (h : pc' = pc ∨ pc' = pc.woken) :
    pc'.resolving = pc.resolving ∧ pc'.expiring = pc.expiring := by
  rcases h with rfl | rfl
  · exact ⟨rfl, rfl⟩
  · cases pc <;> exact ⟨rfl, rfl⟩

theorem window_le (hr : (system o).Reachable s) : s.window.card ≤ o.maxInFlight := by
  refine le_maxInFlight (fun s => s.window.card) rfl (fun s ls => window_launch)
    (fun s s' spawned hr h => ?_) (fun s s' hr h => ?_) hr
  · exact card_le_of_popped fun q => window_execStep (owned hr) (backed hr) h
  · simp only [State.window, h.active, h.ordered, (ExecPc.resolving_of_woken h.pc).1, le_refl]

theorem active_le (hr : (system o).Reachable s) : s.active.size ≤ o.maxInFlight := by
  have hsub : s.active.keys.toFinset ⊆ s.window := fun q hq =>
    mem_window.mpr (.inl ((mem_keys_toFinset _ q).mp hq))
  rw [← card_keys]
  exact (Finset.card_le_card hsub).trans (window_le hr)

theorem pending_of_winners {q : ℕ}
    (hw : ∀ w, (s.terminals q).winner = some w → (s'.terminals q).winner = some w)
    (he : s'.pc.expiring = some q → s.pending q = true) (h : s'.pending q = true) :
    s.pending q = true := by
  simp only [State.pending, decide_eq_true_eq] at he h ⊢
  cases hq : (s.terminals q).winner with
  | none => exact .inl rfl
  | some w =>
    rw [hw w hq] at h
    rcases h with h | h | h
    · cases h
    · exact .inr (.inl h)
    · simpa [hq] using he h

theorem execStep_pending {spawned : Bool} (h : s.execStep o spawned = some s') {q : ℕ}
    (hq : s'.pending q = true) : s.pending q = true := by
  refine pending_of_winners ((execStep_sameCalls h).winners q) (fun he => ?_) hq
  cases hpc : s'.pc <;> rw [hpc] at he <;> cases he
  obtain ⟨-, hfree, -⟩ := execStep_expired h hpc
  exact decide_eq_true (.inl (TerminalState.winner_of_not_terminal hfree))

theorem pendingActive_execStep {spawned : Bool} (h : s.execStep o spawned = some s') {q : ℕ}
    (hq : q ∈ s'.pendingActive) : q ∈ s.pendingActive ∨
      ∃ e, s.pc.popped = some e ∧ s'.pc.popped = none ∧ e.sequence = q := by
  rw [mem_pendingActive] at hq ⊢
  have hp := execStep_pending h hq.2
  exact (execStep_activeMem h hq.1).imp (fun ha => ⟨ha, hp⟩) id

theorem length_bufferRelaxed (l : List (StreamCompletion φ))
    (f : StreamResult φ → StreamCompletion φ) (r : Option (StreamResult φ)) :
    (if o.ordering = .relaxed then l ++ (r.map f).toList else l).length ≤
      l.length + r.isSome.toNat := by
  split_ifs
  · cases r <;> simp
  · omega

theorem length_flushRelaxed (cap : ℕ) (l results : List (StreamCompletion φ)) :
    (flushRelaxed cap l results).1.length ≤ l.length := by
  induction l generalizing results with
  | nil => simp [flushRelaxed]
  | cons c cs ih =>
    simp only [flushRelaxed]
    split_ifs
    · have := ih (results ++ [c])
      simp only [List.length_cons]
      omega
    · rfl

theorem length_relaxed_flush : (s.flush o).relaxed.length ≤ s.relaxed.length :=
  length_flushRelaxed _ _ _

/-- The relaxed buffer takes the result in hand. With it, it grows by one result at most: that of a
drained completion or of a request that expires. -/
theorem execStep_relaxed {spawned : Bool} (h : s.execStep o spawned = some s') :
    s'.relaxed.length + s'.inTransit ≤ s.relaxed.length + s.inTransit + 1 ∧
      (s'.relaxed.length + s'.inTransit ≤ s.relaxed.length + s.inTransit ∨
        (∃ c cs, s.pc = .resolve (c :: cs) ∧ c.result.isSome = true ∧
          s'.active = s.active.erase c.sequence) ∨
        (∃ now q r rest, s.pc = .expired now q r rest ∧ s'.pc.expiring = none) ∨
        ∃ e r ls, s.pc = .admitUnregister e r ls ∧ s'.pc.popped = none ∧ s'.active = s.active) := by
  have hle : ∀ {n m : ℕ} {p : Prop}, n ≤ m → n ≤ m + 1 ∧ (n ≤ m ∨ p) := fun h =>
    ⟨Nat.le_succ_of_le h, .inl h⟩
  have hbuffer : ∀ {n : ℕ} (r : Option (StreamResult φ)), n ≤ s.relaxed.length + r.isSome.toNat →
      n ≤ s.relaxed.length + 1 := fun r h => h.trans (Nat.add_le_add_left (Bool.toNat_le _) _)
  simp only [State.inTransit]
  cases execStep_branch h with
  | resolve c cs hpc =>
    rw [hpc]
    refine ⟨Nat.add_le_add_left (Bool.toNat_le _) _, ?_⟩
    cases hr : c.result with
    | none => exact .inl (by simp [ExecPc.resolving, hr])
    | some r => exact .inr (.inl ⟨c, cs, rfl, by rw [hr]; rfl, rfl⟩)
  | unregister c cs hpc =>
    rw [hpc]
    exact hle (length_bufferRelaxed _ _ c.result)
  | scanCancelled _ _ _ _ _ hpc | tombstone _ _ hpc =>
    rw [hpc]
    exact hle (length_bufferRelaxed _ _ none)
  | expired now q r rest hpc =>
    rw [hpc]
    exact ⟨hbuffer _ (length_bufferRelaxed _ _ _), .inr (.inr (.inl ⟨_, _, _, _, rfl, rfl⟩))⟩
  | deliver _ hpc =>
    rw [hpc]
    exact hle length_relaxed_flush
  | admitUnregister e r ls hpc =>
    rw [hpc]
    exact ⟨hbuffer r (length_bufferRelaxed _ _ r), .inr (.inr (.inr ⟨_, _, _, rfl, rfl, rfl⟩))⟩
  | finalize hpc =>
    rw [hpc]
    exact hle (Nat.zero_le _)
  | _ =>
    rename_i hpc
    rw [hpc]
    exact hle le_rfl

theorem relaxedUse_execStep {spawned : Bool} (ho : Owned s) (hb : Backed s) (hc : Credited s)
    (h : s.execStep o spawned = some s') : s'.relaxedUse ≤ s.relaxedUse ∨
      (s.pc.popped.isSome = true ∧ s'.pc.popped = none ∧ s'.relaxedUse ≤ s.relaxedUse + 1) := by
  have hcard := card_le_of_popped fun q => pendingActive_execStep (q := q) h
  simp only [State.relaxedUse]
  -- the slot of a request whose result moves into the buffer
  have hfreed : ∀ q, q ∈ s.pendingActive → q ∉ s'.pendingActive → s.pc.popped = none →
      s'.pendingActive.card + 1 ≤ s.pendingActive.card := by
    intro q hq hq' hpop
    have hsub : s'.pendingActive ⊆ s.pendingActive.erase q := by
      intro q' hmem
      rw [Finset.mem_erase]
      refine ⟨fun he => hq' (he ▸ hmem), ?_⟩
      exact (pendingActive_execStep h hmem).resolve_right fun ⟨e, he, _⟩ => by simp [hpop] at he
    have hle := Finset.card_le_card hsub
    have hpos := Finset.card_pos.mpr ⟨q, hq⟩
    rw [Finset.card_erase_of_mem hq] at hle
    omega
  obtain ⟨hone, hle | ⟨c, cs, hpc, hr, hact⟩ | ⟨now, q, r, rest, hpc, hnext⟩ |
    ⟨e, r, ls, hpc, hnone, hact⟩⟩ := execStep_relaxed h
  · rcases hcard with hcard | ⟨hp, hnone, hcard⟩
    · exact .inl (by omega)
    · exact .inr ⟨hp, hnone, by omega⟩
  · have hactive : s.active.contains c.sequence = true :=
      hb.completions c (by simp [hpc, ExecPc.drained])
    have hwin : (s.terminals c.sequence).winner = some .worker := by
      refine hc.produced c.sequence (Nat.add_pos_left (Nat.add_pos_right _ ?_) _)
      exact completionTokens_pos.mpr ⟨c, by simp [State.completions, hpc, ExecPc.completions],
        rfl, hr⟩
    have hless := hfreed c.sequence
      (mem_pendingActive.mpr ⟨hactive, decide_eq_true (.inr (.inl hwin))⟩)
      (by simp [mem_pendingActive, hact]) (by rw [hpc]; rfl)
    exact .inl (by omega)
  · have hactive : s.active.contains q = true := by
      simp [SortedMap.contains, ho.scanned (q, r) (by rw [hpc]; exact List.mem_cons_self)]
    have hwin := (execStep_sameCalls h).winners q _ (hc.expired now q r rest hpc)
    have hless := hfreed q
      (mem_pendingActive.mpr ⟨hactive, decide_eq_true (.inr (.inr (by rw [hpc]; rfl)))⟩)
      (by simp [mem_pendingActive, State.pending, hwin, hnext]) (by rw [hpc]; rfl)
    exact .inl (by omega)
  · have hkeep : s'.pendingActive ⊆ s.pendingActive := by
      intro q hq
      rw [mem_pendingActive, hact] at hq
      exact mem_pendingActive.mpr ⟨hq.1, execStep_pending h hq.2⟩
    have hle := Finset.card_le_card hkeep
    exact .inr ⟨by rw [hpc]; rfl, hnone, by omega⟩

theorem relaxedUse_le (hr : (system o).Reachable s) : s.relaxedUse ≤ o.maxInFlight := by
  refine le_maxInFlight State.relaxedUse rfl (fun s ls => relaxedUse_launch)
    (fun s s' spawned hr h => ?_) (fun s s' hr h => ?_) hr
  · exact relaxedUse_execStep (owned hr) (backed hr) (credited hr) h
  · obtain ⟨hres, hexp⟩ := ExecPc.resolving_of_woken h.pc
    have hsub : s'.pendingActive ⊆ s.pendingActive := by
      intro q hq
      rw [mem_pendingActive, h.active] at hq
      refine mem_pendingActive.mpr ⟨hq.1, pending_of_winners (h.winners q ?_) (fun he => ?_) hq.2⟩
      · exact ((owned hr).active q hq.1).1
      · exact decide_eq_true (.inr (.inr (hexp ▸ he)))
    have hle := Finset.card_le_card hsub
    simp only [State.relaxedUse, State.inTransit, h.relaxed, hres]
    omega

theorem length_results_flushRelaxed {cap : ℕ} (l results : List (StreamCompletion φ))
    (h : results.length ≤ cap) : (flushRelaxed cap l results).2.length ≤ cap := by
  induction l generalizing results with
  | nil => exact h
  | cons c cs ih =>
    simp only [flushRelaxed]
    split_ifs with hlt
    · apply ih
      rw [List.length_append, List.length_singleton]
      omega
    · exact h

theorem length_results_flushStrict (fuel : ℕ) (d : Delivery φ)
    (h : d.results.length ≤ o.resultCapacity) :
    (flushStrict o fuel d).results.length ≤ o.resultCapacity := by
  induction fuel generalizing d with
  | zero => exact h
  | succ fuel ih =>
    simp only [flushStrict]
    split
    · exact h
    · apply ih
      simpa [Delivery.advance] using h
    · split_ifs with hfull
      · exact h
      · apply ih
        simp only [Delivery.advance, List.length_append, List.length_singleton]
        omega

theorem length_results_flush (h : s.results.length ≤ o.resultCapacity) :
    (s.flush o).results.length ≤ o.resultCapacity := by
  obtain ⟨d, -, -, hr, m, hf⟩ := flush_eq (s := s) (o := o)
  have hd : d.results.length ≤ o.resultCapacity := by
    rw [hr]
    exact length_results_flushRelaxed _ _ h
  rw [hf]
  by_cases hs : o.ordering = .strict
  · simp only [if_pos hs]
    exact length_results_flushStrict _ _ hd
  · simp only [if_neg hs]
    exact hd

/-- The two queues of the mailbox. -/
structure MailboxBounded (o : ManagedStreamOptions φ) (s : State φ) : Prop where
  input : s.input.length ≤ o.inputCapacity
  results : s.results.length ≤ o.resultCapacity

theorem MailboxBounded.congr (hi : MailboxBounded o s) (hin : s'.input = s.input)
    (hr : s'.results = s.results) : MailboxBounded o s' :=
  ⟨hin ▸ hi.input, hr ▸ hi.results⟩

theorem mailboxBounded_execStep {spawned : Bool} (hi : MailboxBounded o s)
    (h : s.execStep o spawned = some s') : MailboxBounded o s' := by
  have hin := hi.input
  have hr := hi.results
  cases execStep_branch h with
  | launch ls e es hinput =>
    rw [hinput, List.length_cons] at hin
    exact ⟨Nat.le_of_succ_le hin, hr⟩
  | deliver => exact ⟨hin, length_results_flush hr⟩
  | _ => exact ⟨hin, hr⟩

theorem mailboxBounded_trySubmit (hi : MailboxBounded o s) (r : AsyncRequest φ) (lifecycle : ℕ) :
    MailboxBounded o (s.trySubmit o r lifecycle) := by
  have hin := hi.input
  unfold State.trySubmit
  simp only
  refine iteInduction (motive := MailboxBounded o) (fun _ => ⟨hi.input, hi.results⟩) fun _ => ?_
  refine iteInduction (motive := MailboxBounded o) (fun _ => ⟨hi.input, hi.results⟩) fun _ => ?_
  refine iteInduction (motive := MailboxBounded o) (fun _ => ⟨hi.input, hi.results⟩) fun _ => ?_
  refine iteInduction (motive := MailboxBounded o) (fun _ => ⟨hi.input, hi.results⟩) fun hroom => ?_
  refine iteInduction (motive := MailboxBounded o) (fun _ => ⟨hi.input, hi.results⟩) fun _ => ?_
  refine ⟨?_, hi.results⟩
  rw [List.length_append, List.length_singleton]
  omega

theorem mailboxBounded_step {a : Label φ} (hi : MailboxBounded o s) (h : s.step o a = some s') :
    MailboxBounded o s' := by
  cases a with
  | trySubmit r lifecycle =>
    simp only [State.step] at h
    split_ifs at h
    cases h
    exact mailboxBounded_trySubmit hi r lifecycle
  | tryRecv =>
    simp only [State.step] at h
    split_ifs at h
    cases h
    rcases tryRecv_cases (s := s) with h | ⟨c, cs, m, hcs, h⟩ <;> rw [h]
    · exact hi
    · have hr := hi.results
      rw [hcs, List.length_cons] at hr
      exact ⟨hi.input, Nat.le_of_succ_le hr⟩
  | exec spawned => exact mailboxBounded_execStep hi h
  | worker q out =>
    have hsame := workerStep_sameExecutor h
    exact hi.congr hsame.input hsame.results
  | cancelBegin requestId => cases h; exact hi.congr rfl rfl
  | cancel i =>
    have hsame := cancelStep_sameExecutor h
    exact hi.congr hsame.input hsame.results
  | requestStop =>
    simp only [State.step] at h
    split_ifs at h <;> cases h <;> exact hi.congr rfl rfl
  | stop order =>
    by_cases hp : s.stop = .close
    · simp only [State.step, State.stopStep, hp] at h
      split_ifs at h
      cases h
      exact ⟨Nat.zero_le _, Nat.zero_le _⟩
    · have hsame := stopStep_sameExecutor hp h
      exact hi.congr hsame.input hsame.results
  | tick d => cases h; exact hi.congr rfl rfl
  | wake =>
    simp only [State.step] at h
    split at h <;> cases h
    exact hi.congr rfl rfl

/-- The bounds of a session. Sequences are counted once, whichever buffer holds them. -/
structure Bounded (o : ManagedStreamOptions φ) (s : State φ) : Prop where
  input : s.input.length ≤ o.inputCapacity
  results : s.results.length ≤ o.resultCapacity
  strict : o.ordering = .strict →
    (s.active.keys.toFinset ∪ s.ordered.keys.toFinset).card ≤ o.maxInFlight
  active : o.ordering = .relaxed → s.active.size ≤ o.maxInFlight
  relaxed : o.ordering = .relaxed → s.relaxed.length +
    (s.active.keys.filter fun q => (s.terminals q).terminal = false).length ≤ o.maxInFlight

theorem bounded (o : ManagedStreamOptions φ) (s : State φ) (hr : (system o).Reachable s) :
    Bounded o s := by
  have hmail : MailboxBounded o s :=
    invariant ⟨Nat.zero_le _, Nat.zero_le _⟩ (fun _ _ _ hi h => mailboxBounded_step hi h) hr
  refine ⟨hmail.input, hmail.results, fun _ => ?_, fun _ => active_le hr, fun _ => ?_⟩
  · exact (Finset.card_le_card Finset.subset_union_left).trans (window_le hr)
  · have huse := relaxedUse_le hr
    have hfree : (s.active.keys.filter fun q => (s.terminals q).terminal = false).length ≤
        s.pendingActive.card := by
      rw [← List.toFinset_card_of_nodup (s.active.nodup_keys.filter _)]
      refine Finset.card_le_card fun q hq => ?_
      rw [List.mem_toFinset, List.mem_filter, ← List.mem_toFinset, mem_keys_toFinset] at hq
      refine mem_pendingActive.mpr ⟨hq.1, decide_eq_true (.inl ?_)⟩
      exact TerminalState.winner_of_not_terminal (by simpa using hq.2)
    simp only [State.relaxedUse] at huse
    omega

/-- A request that timed out is still active while its result waits in the buffer. -/
theorem bounded_expired : ∃ s, (system (sampleOptions .relaxed)).Reachable s ∧
    s.active.size = 1 ∧ s.relaxed.length = 1 ∧ Bounded (sampleOptions .relaxed) s := by
  obtain ⟨s, hr, ht⟩ := (system (sampleOptions .relaxed)).exists_reachable_of_run rfl
    ([Label.submit 7] ++ Label.execs 12 ++ [Label.tick 100] ++ Label.execs 5)
    (fun s => s.active.size = 1 ∧ s.relaxed.length = 1) (by decide +kernel)
  simp only [decide_eq_true_eq] at ht
  exact ⟨s, hr, ht.1, ht.2, bounded _ s hr⟩

end Muxiva.Stream
