import Muxiva.Stream.Ownership

/-! Registrations and admission leases. The executor removes a registration by request id in a
critical section of its own, so an id that was submitted again in between loses the new
request's registration; a removal that only hits its own request keeps every live request
reachable for `cancel` and `request_stop`. -/
set_option linter.all false
namespace Muxiva.Stream

variable {φ : Type} {o : ManagedStreamOptions φ} {s s' : State φ}

/-- Request `q`, submitted under `requestId`, is queued or active. -/
def State.Live (s : State φ) (q requestId : ℕ) : Prop :=
  (∃ e ∈ s.input, e.sequence = q ∧ e.requestId = requestId) ∨
    ∃ r, s.active.get? q = some r ∧ r.requestId = requestId

/-- The request `cancel` finds under `requestId`. -/
def State.lookup (s : State φ) (requestId : ℕ) : Option ℕ :=
  (s.registrations.get? requestId).filter s.upgrade

/-- The lease is stored in a terminal state that somebody still points to. -/
def State.leaseHeld (s : State φ) (q : ℕ) : Bool := (s.terminals q).admission && s.upgrade q

def WorkerPc.releasing : WorkerPc φ → Bool
  | .release _ => true
  | _ => false

def StopPc.releasing : StopPc → Option ℕ
  | .release q _ => some q
  | _ => none

theorem WorkerPc.not_releasing_of_attempting {pc : WorkerPc φ} (h : pc.attempting = true) :
    pc.releasing = false := by
  cases pc <;> first | rfl | cases h

theorem StopPc.mem_targets_of_releasing {pc : StopPc} {q : ℕ} (h : pc.releasing = some q) :
    q ∈ pc.targets := by
  cases pc with
  | release k ks =>
    cases h
    exact List.mem_cons_self
  | _ => cases h

/-- Some party has set the terminal flag of `q` and is about to take its lease. -/
def State.releasing (s : State φ) (q : ℕ) : Bool :=
  decide (.release q ∈ s.cancels) || decide (s.stop.releasing = some q) ||
    (s.workers q).any (·.pc.releasing) || decide (s.pc.releasing = some q)

/-- `remove_registration` for request `q` hits no other request that is alive and not
terminal. -/
def State.removesOwn (s : State φ) (requestId q : ℕ) : Bool :=
  match s.registrations.get? requestId with
  | some q' => decide (q' = q) || (s.terminals q').terminal || !s.upgrade q'
  | none => true

/-- Every removal hits its own request only; a `request_stop` call that lost the exchange
returns only after the winner; and when the winner returns no other party is between its
cancellation flag, its terminal swap and its lease. -/
def keepsReachable (s : State φ) : Label φ → Bool
  | .exec _ =>
    match s.pc with
    | .unregister c _ => s.removesOwn c.requestId c.sequence
    | .tombstone e _ | .admitUnregister e _ _ => s.removesOwn e.requestId e.sequence
    | _ => true
  | .requestStop => decide (s.lifecycle = 0 ∨ s.stop = .returned)
  | .stop _ => decide (s.stop = .notify → ∀ q < s.nextSequence, s.releasing q = false ∧
      (.swap q ∈ s.cancels → (s.terminals q).terminal = true))
  | _ => true

theorem upgrade_iff {q : ℕ} : s.upgrade q = true ↔
    (∃ e ∈ s.waiting, e.sequence = q) ∨ s.active.contains q = true ∨
    (∃ e ∈ s.pc.launches, e.sequence = q) ∨ (∃ w, s.workers q = some w ∧ w.pc.live = true) ∨
    (∃ c ∈ s.cancels, c.target = some q) ∨ q ∈ s.stop.targets := by
  simp only [State.upgrade, Bool.or_eq_true, List.any_eq_true, decide_eq_true_eq,
    ExecPc.mem_envelopes, Option.any_eq_true, List.contains_iff_mem, State.waiting,
    List.mem_append, Option.mem_toList]
  grind

theorem upgrade_of_live {q requestId : ℕ} (h : s.Live q requestId) : s.upgrade q = true := by
  rcases h with ⟨e, he, rfl, -⟩ | ⟨r, hr, -⟩
  · exact upgrade_iff.mpr (.inl ⟨e, List.mem_append_right _ he, rfl⟩)
  · exact upgrade_iff.mpr (.inr (.inl (by simp [SortedMap.contains, hr])))

theorem execStep_upgrade {spawned : Bool} (h : s.execStep o spawned = some s') {q : ℕ}
    (hu : s'.upgrade q = true) : s.upgrade q = true := by
  have hsame := execStep_sameCalls h
  have hmove := execStep_move h
  rw [upgrade_iff] at hu ⊢
  rw [hsame.cancels, hsame.stop] at hu
  cases hmove with
  | stay hin hact hpop hlaunch hreg hw =>
    simp only [State.waiting, hin, hact, hpop, hlaunch, hw] at hu ⊢
    exact hu
  | complete c cs hpc hnext =>
    subst hnext
    simp only [State.waiting, hpc, ExecPc.popped, ExecPc.launches, SortedMap.contains_erase, Bool.and_eq_true] at hu ⊢
    grind
  | unregister c cs hpc hin hact hpop hlaunch hreg hw =>
    simp only [State.waiting, hin, hact, hpop, hlaunch, hw] at hu ⊢
    exact hu
  | pop e es hpop hhead hin hact hpop' hlaunch hreg hw =>
    simp only [State.waiting, hin, hact, hpop, hpop', hhead, hlaunch, hw] at hu ⊢
    exact hu
  | launch e hpop hin hact hpop' hlaunch hreg hw =>
    simp only [State.waiting, hin, hact, hpop, hpop', hlaunch, hw, SortedMap.contains_insert] at hu ⊢
    grind
  | drop e hpop hreason hin hact hpop' hlaunch hreg hw =>
    simp only [State.waiting, hin, hact, hpop, hpop', hlaunch, hw] at hu ⊢
    grind
  | spawn e ls hpc hnext =>
    subst hnext
    simp only [State.waiting, hpc, ExecPc.popped, ExecPc.launches, Function.update_apply] at hu ⊢
    grind
  | spawnFailed e r ls hpc hnext =>
    subst hnext
    simp only [State.waiting, hpc, ExecPc.popped, ExecPc.launches, State.pushWorkerCompletion] at hu ⊢
    grind
  | finalize hpc hnext =>
    subst hnext
    simp only [State.waiting, hpc, ExecPc.popped, ExecPc.launches, SortedMap.contains, SortedMap.get?_empty] at hu ⊢
    grind

/-- A step that hands no request over gives nobody a new pointer. -/
theorem upgrade_mono {q : ℕ} (hu : s'.upgrade q = true)
    (hwait : ∀ e ∈ s'.waiting, e ∈ s.waiting)
    (hlaunch : s'.pc.launches = s.pc.launches) (hact : s'.active = s.active)
    (hw : ∀ w', s'.workers q = some w' → w'.pc.live = true →
      ∃ w, s.workers q = some w ∧ w.pc.live = true)
    (hc : ∀ c ∈ s'.cancels, c.target = some q → s.upgrade q = true)
    (hs : q ∈ s'.stop.targets → s.upgrade q = true) : s.upgrade q = true := by
  rcases upgrade_iff.mp hu with ⟨e, he, hq⟩ | h | ⟨e, he, hq⟩ | ⟨w, hq, hl⟩ | ⟨c, hm, hq⟩ | h
  · exact upgrade_iff.mpr (.inl ⟨e, hwait e he, hq⟩)
  · exact upgrade_iff.mpr (.inr (.inl (hact ▸ h)))
  · exact upgrade_iff.mpr (.inr (.inr (.inl ⟨e, hlaunch ▸ he, hq⟩)))
  · exact upgrade_iff.mpr (.inr (.inr (.inr (.inl (hw w hq hl)))))
  · exact hc c hm hq
  · exact hs h

theorem upgrade_of_target {q : ℕ} {c : CancelPc} (hc : c ∈ s.cancels) (ht : c.target = some q) :
    s.upgrade q = true :=
  upgrade_iff.mpr (.inr (.inr (.inr (.inr (.inl ⟨c, hc, ht⟩)))))

theorem upgrade_of_stop {q : ℕ} (h : q ∈ s.stop.targets) : s.upgrade q = true :=
  upgrade_iff.mpr (.inr (.inr (.inr (.inr (.inr h)))))

theorem upgrade_quiet {q : ℕ} (hu : s'.upgrade q = true)
    (hpc : s'.pc = s.pc ∨ s'.pc = s.pc.woken) (hin : s'.input = s.input)
    (hact : s'.active = s.active) (hw : s'.workers = s.workers)
    (hc : ∀ c ∈ s'.cancels, c ∈ s.cancels ∨ c.target = none) (hs : s'.stop = s.stop) :
    s.upgrade q = true := by
  obtain ⟨hpop, hlaunch, -⟩ := ExecPc.holds_of_woken hpc
  refine upgrade_mono hu (by simp [State.waiting, hpop, hin]) hlaunch hact
    (fun w hq hl => ⟨w, hw ▸ hq, hl⟩) (fun c hm hq => ?_) fun h => upgrade_of_stop (hs ▸ h)
  rcases hc c hm with hm | hnone
  · exact upgrade_of_target hm hq
  · simp [hnone] at hq

theorem upgrade_lt (hi : Owned s) (hcall : CallInv s) {q : ℕ} (hu : s.upgrade q = true) :
    q < s.nextSequence := by
  rcases upgrade_iff.mp hu with ⟨e, he, rfl⟩ | h | ⟨e, he, rfl⟩ | ⟨w, hq, -⟩ | ⟨c, hm, hq⟩ | h
  · exact hi.bound e he
  · exact (hi.active q h).1
  · exact (hi.active _ (hi.launched e he)).1
  · exact (hi.workers q w hq).1
  · refine hcall.called c hm q ?_
    cases c <;> simp_all [CancelPc.target, CancelPc.request]
  · exact hcall.stopping q h

theorem workerStep_upgrade {q' : ℕ} {out : AdapterOutcome φ} (h : s.workerStep o q' out = some s')
    {q : ℕ} (hu : s'.upgrade q = true) : s.upgrade q = true := by
  have hexec := workerStep_sameExecutor h
  have hsame := workerStep_sameCalls h
  obtain ⟨hpop, hlaunch, -⟩ := ExecPc.holds_of_woken hexec.pc
  have hwait : s'.waiting = s.waiting := by simp only [State.waiting, hexec.input, hpop]
  have hlive : ∃ w pc, s.workers q' = some w ∧ w.pc.live = true ∧
      s'.workers = Function.update s.workers q' (some { w with pc := pc }) := by
    obtain ⟨w, hw, ⟨hp, pc, m, -, rfl⟩ | ⟨r, m, hp, -, rfl⟩ | ⟨r, hp, -, rfl⟩ | ⟨r, m, hp, rfl⟩ |
      ⟨r, hp, -, rfl⟩ | ⟨hp, rfl⟩⟩ := workerStep_cases h
    · exact ⟨w, _, hw, WorkerPc.live_of_attempting hp, rfl⟩
    all_goals exact ⟨w, _, hw, by rw [hp]; rfl, rfl⟩
  obtain ⟨w, pc, hw, hl, hws⟩ := hlive
  refine upgrade_mono hu (by rw [hwait]; exact fun _ => id) hlaunch hexec.active
    (fun w' hw' hl' => ?_) (fun c hc ht => upgrade_of_target (hsame.cancels ▸ hc) ht)
    (fun h => upgrade_of_stop (hsame.stop ▸ h))
  by_cases hq : q = q'
  · exact ⟨w, hq ▸ hw, hl⟩
  · rw [hws, Function.update_of_ne hq] at hw'
    exact ⟨w', hw', hl'⟩

theorem cancelStep_upgrade {i q : ℕ} (h : s.cancelStep i = some s') (hu : s'.upgrade q = true) :
    s.upgrade q = true := by
  have hsame := cancelStep_sameOwners h
  obtain ⟨hpop, hlaunch, -⟩ := ExecPc.holds_of_woken hsame.pc
  have hwait : s'.waiting = s.waiting := by simp only [State.waiting, hsame.input, hpop]
  have hmove : ∀ {c c' : CancelPc}, s.cancels[i]? = some c → s'.cancels = s.cancels.set i c' →
      s'.stop = s.stop → (c'.target = some q → s.upgrade q = true) → s.upgrade q = true := by
    intro c c' hc hcs hst ht
    refine upgrade_mono hu (by rw [hwait]; exact fun _ => id) hlaunch hsame.active
      (fun w hw hl => ⟨w, hsame.workers ▸ hw, hl⟩) (fun d hd hq => ?_)
      (fun h => upgrade_of_stop (hst ▸ h))
    rw [hcs] at hd
    rcases List.mem_or_eq_of_mem_set hd with hd | rfl
    · exact upgrade_of_target hd hq
    · exact ht hq
  have htarget : ∀ {c : CancelPc}, s.cancels[i]? = some c → c.target = some q →
      s.upgrade q = true := fun hc ht => upgrade_of_target (List.mem_of_getElem? hc) ht
  obtain ⟨_, hc, rfl⟩ | ⟨_, q', hc, -, hup, rfl⟩ | ⟨q', hc, rfl⟩ | ⟨q', hc, -, rfl⟩ |
    ⟨q', hc, -, rfl⟩ | ⟨q', m, hc, rfl⟩ | ⟨q', won, hc, rfl⟩ := cancelStep_cases h
  · exact hmove hc rfl rfl (by simp [CancelPc.target])
  · exact hmove hc rfl rfl fun ht => by cases ht; exact hup
  · exact hmove hc rfl rfl fun ht => htarget hc ht
  · exact hmove hc rfl rfl fun ht => htarget hc ht
  · exact hmove hc rfl rfl fun ht => htarget hc ht
  · exact hmove hc rfl rfl fun ht => htarget hc ht
  · exact hmove hc rfl rfl (by simp [CancelPc.target])

theorem stopStep_upgrade {order : List ℕ} {q : ℕ} (h : s.stopStep order = some s')
    (hu : s'.upgrade q = true) : s.upgrade q = true := by
  have hmove : s'.pc.popped = s.pc.popped → s'.pc.launches = s.pc.launches →
      (∀ e ∈ s'.input, e ∈ s.input) → s'.active = s.active → s'.workers = s.workers →
      s'.cancels = s.cancels → (q ∈ s'.stop.targets → s.upgrade q = true) →
      s.upgrade q = true := by
    intro hpop hlaunch hin hact hw hc hs
    refine upgrade_mono hu ?_ hlaunch hact (fun w hq hl => ⟨w, hw ▸ hq, hl⟩)
      (fun c hm ht => upgrade_of_target (hc ▸ hm) ht) hs
    simp only [State.waiting, hpop, List.mem_append]
    exact fun e he => he.imp_right (hin e)
  by_cases hp : s.stop = .close
  · simp only [State.stopStep, hp] at h
    split_ifs at h
    cases h
    exact hmove rfl rfl (by simp) rfl rfl rfl (by simp [StopPc.targets])
  · have hsame := stopStep_sameOwners hp h
    obtain ⟨hpop, hlaunch, -⟩ := ExecPc.holds_of_woken hsame.pc
    refine hmove hpop hlaunch (by rw [hsame.input]; exact fun _ => id) hsame.active hsame.workers
      (stopStep_cancels h) fun ht => ?_
    unfold State.stopStep at h
    split at h <;> rename_i hst <;> (try split_ifs at h with hif) <;> cases h
    all_goals first
      | exact absurd hst hp
      | exact (mem_registered.mp (hif.mem_iff.mp ht)).2
      | exact upgrade_of_stop (by rw [hst]; exact ht)
      | exact upgrade_of_stop (by rw [hst]; exact List.mem_cons_of_mem _ ht)

theorem releasing_iff {q : ℕ} : s.releasing q = true ↔ .release q ∈ s.cancels ∨
    s.stop.releasing = some q ∨ (∃ w, s.workers q = some w ∧ w.pc.releasing = true) ∨
    s.pc.releasing = some q := by
  simp only [State.releasing, Bool.or_eq_true, decide_eq_true_eq, Option.any_eq_true, or_assoc]

/-- A set terminal flag with the lease still stored means that somebody is about to take it. -/
def State.LeaseInv (s : State φ) : Prop :=
  ∀ q, (s.terminals q).terminal = true → (s.terminals q).admission = true → s.releasing q = true

/-- One party acts on the terminal state of `k` only: every other release stays pending. -/
theorem State.LeaseInv.act {k : ℕ} (hi : s.LeaseInv)
    (hne : ∀ q, q ≠ k → s'.terminals q = s.terminals q)
    (hpend : ∀ q, q ≠ k → s.releasing q = true → s'.releasing q = true)
    (hk : (s'.terminals k).terminal = true → (s'.terminals k).admission = true →
      s'.releasing k = true) : s'.LeaseInv := by
  intro q ht ha
  by_cases hq : q = k
  · subst hq
    exact hk ht ha
  · rw [hne q hq] at ht ha
    exact hpend q hq (hi q ht ha)

/-- A step that leaves the terminal states and the pending releases alone. -/
theorem State.LeaseInv.same (hi : s.LeaseInv) (ht : s'.terminals = s.terminals)
    (hpend : ∀ q, s.releasing q = true → s'.releasing q = true) : s'.LeaseInv := by
  intro q h1 h2
  rw [ht] at h1 h2
  exact hpend q (hi q h1 h2)

theorem leaseInv_execStep {spawned : Bool} (hi : s.LeaseInv) (ho : Owned s)
    (h : s.execStep o spawned = some s') : s'.LeaseInv := by
  have hsame := execStep_sameCalls h
  have hworkers : ∀ q, (∃ w, s.workers q = some w ∧ w.pc.releasing = true) →
      ∃ w, s'.workers q = some w ∧ w.pc.releasing = true := by
    rintro q ⟨w, hw, hr⟩
    rcases execStep_workers h with hws | ⟨e, ls, hpc, rfl⟩
    · exact ⟨w, hws ▸ hw, hr⟩
    · have hne : q ≠ e.sequence := fun he =>
        (ho.spawned q w hw).2 e (by simp [hpc, ExecPc.launches]) he.symm
      exact ⟨w, by simpa [hne] using hw, hr⟩
  -- all pending releases but the executor's own survive
  have hpend : ∀ q, s.pc.releasing ≠ some q → s.releasing q = true → s'.releasing q = true := by
    intro q hne hq
    rcases releasing_iff.mp hq with hq | hq | hq | hq
    · exact releasing_iff.mpr (.inl (hsame.cancels ▸ hq))
    · exact releasing_iff.mpr (.inr (.inl (hsame.stop ▸ hq)))
    · exact releasing_iff.mpr (.inr (.inr (.inl (hworkers q hq))))
    · exact absurd hq hne
  rcases execStep_terminals h with ⟨hp, -, ht⟩ | ⟨k, w, -, hp, hp', -, ht⟩ | ⟨k, hp, -, ht⟩
  · exact hi.same ht fun q => hpend q (by simp [hp])
  · refine hi.act (k := k) (fun q hq => by simp [ht, hq]) (fun q _ => hpend q (by simp [hp]))
      fun _ _ => ?_
    exact releasing_iff.mpr (.inr (.inr (.inr hp')))
  · refine hi.act (k := k) (fun q hq => by simp [ht, hq])
      (fun q hq => hpend q (by simp [hp, Ne.symm hq])) fun _ ha => ?_
    simp [ht] at ha

theorem leaseInv_workerStep {k : ℕ} {out : AdapterOutcome φ} (hi : s.LeaseInv)
    (h : s.workerStep o k out = some s') : s'.LeaseInv := by
  have hsame := workerStep_sameCalls h
  have hpc := (ExecPc.holds_of_woken (workerStep_sameExecutor h).pc).2.2.2.2.2
  -- the only release a worker's step can end is its own
  have hpend : ∀ {w : Worker φ} {pc : WorkerPc φ}, s.workers k = some w →
      s'.workers = Function.update s.workers k (some { w with pc := pc }) →
      ∀ q, (q = k → w.pc.releasing = false) → s.releasing q = true → s'.releasing q = true := by
    intro w pc hw hws q hne hq
    rcases releasing_iff.mp hq with hq | hq | ⟨w', hw', hr⟩ | hq
    · exact releasing_iff.mpr (.inl (hsame.cancels ▸ hq))
    · exact releasing_iff.mpr (.inr (.inl (hsame.stop ▸ hq)))
    · by_cases hk : q = k
      · rw [hk, hw] at hw'
        cases hw'
        simp [hne hk] at hr
      · exact releasing_iff.mpr (.inr (.inr (.inl ⟨w', by rw [hws, Function.update_of_ne hk, hw'],
          hr⟩)))
    · exact releasing_iff.mpr (.inr (.inr (.inr (hpc ▸ hq))))
  obtain ⟨w, hw, ⟨hp, pc, m, -, rfl⟩ | ⟨r, m, hp, -, rfl⟩ | ⟨r, hp, -, rfl⟩ | ⟨r, m, hp, rfl⟩ |
    ⟨r, hp, -, rfl⟩ | ⟨hp, rfl⟩⟩ := workerStep_cases h
  · exact hi.same rfl fun q => hpend hw rfl q fun _ => WorkerPc.not_releasing_of_attempting hp
  · exact hi.same rfl fun q => hpend hw rfl q fun _ => by rw [hp]; rfl
  · refine hi.act (k := k) (fun q hq => by simp [hq])
      (fun q hq => hpend hw rfl q fun hk => absurd hk hq) fun _ _ => ?_
    exact releasing_iff.mpr (.inr (.inr (.inl ⟨_, Function.update_self .., rfl⟩)))
  · refine hi.act (k := k) (fun q hq => by simp [hq])
      (fun q hq => hpend hw rfl q fun hk => absurd hk hq) fun _ ha => ?_
    simp at ha
  · exact hi.same rfl fun q => hpend hw rfl q fun _ => by rw [hp]; rfl
  · exact hi.same rfl fun q => hpend hw rfl q fun _ => by rw [hp]; rfl

theorem leaseInv_cancelStep {i : ℕ} (hi : s.LeaseInv) (h : s.cancelStep i = some s') :
    s'.LeaseInv := by
  have hsame := cancelStep_sameOwners h
  have hpc := (ExecPc.holds_of_woken hsame.pc).2.2.2.2.2
  have hpend : ∀ {c c' : CancelPc}, s.cancels[i]? = some c → s'.cancels = s.cancels.set i c' →
      s'.stop = s.stop → ∀ q, c ≠ .release q → s.releasing q = true → s'.releasing q = true := by
    intro c c' hc hcs hst q hne hq
    rcases releasing_iff.mp hq with hq | hq | hq | hq
    · exact releasing_iff.mpr (.inl (hcs ▸ mem_set_of_ne hc hq (Ne.symm hne)))
    · exact releasing_iff.mpr (.inr (.inl (hst ▸ hq)))
    · exact releasing_iff.mpr (.inr (.inr (.inl (hsame.workers ▸ hq))))
    · exact releasing_iff.mpr (.inr (.inr (.inr (hpc ▸ hq))))
  obtain ⟨_, hc, rfl⟩ | ⟨_, q', hc, -, -, rfl⟩ | ⟨k, hc, rfl⟩ | ⟨k, hc, -, rfl⟩ |
    ⟨k, hc, ht, rfl⟩ | ⟨k, m, hc, rfl⟩ | ⟨k, won, hc, rfl⟩ := cancelStep_cases h
  · exact hi.same rfl fun q => hpend hc rfl rfl q (by simp)
  · exact hi.same rfl fun q => hpend hc rfl rfl q (by simp)
  · refine hi.act (k := k) (fun q hq => by simp [hq])
      (fun q _ => hpend hc rfl rfl q (by simp)) fun ht ha => ?_
    simp only [State.raise, State.setTerminal, Function.update_self] at ht ha
    exact hpend hc rfl rfl k (by simp) (hi k ht ha)
  · exact hi.same rfl fun q => hpend hc rfl rfl q (by simp)
  · refine hi.act (k := k) (fun q hq => by simp [hq])
      (fun q _ => hpend hc rfl rfl q (by simp)) fun _ _ => ?_
    exact releasing_iff.mpr (.inl (mem_set_self hc))
  · refine hi.act (k := k) (fun q hq => by simp [hq])
      (fun q hq => hpend hc rfl rfl q (by simp [Ne.symm hq])) fun _ ha => ?_
    simp at ha
  · exact hi.same rfl fun q => hpend hc rfl rfl q (by simp)

theorem leaseInv_stopStep {order : List ℕ} (hi : s.LeaseInv)
    (h : s.stopStep order = some s') : s'.LeaseInv := by
  have hpend : s'.pc.releasing = s.pc.releasing → s'.workers = s.workers →
      s'.cancels = s.cancels → ∀ q, s.stop.releasing ≠ some q →
      s.releasing q = true → s'.releasing q = true := by
    intro hpc hw hc q hne hq
    rcases releasing_iff.mp hq with hq | hq | hq | hq
    · exact releasing_iff.mpr (.inl (hc ▸ hq))
    · exact absurd hq hne
    · exact releasing_iff.mpr (.inr (.inr (.inl (hw ▸ hq))))
    · exact releasing_iff.mpr (.inr (.inr (.inr (hpc ▸ hq))))
  cases hp : s.stop with
  | idle => simp [State.stopStep, hp] at h
  | close =>
    simp only [State.stopStep, hp] at h
    split_ifs at h
    cases h
    exact hi.same rfl fun q => hpend rfl rfl rfl q (by simp [hp, StopPc.releasing])
  | collect =>
    simp only [State.stopStep, hp] at h
    split_ifs at h
    cases h
    exact hi.same rfl fun q => hpend rfl rfl rfl q (by simp [hp, StopPc.releasing])
  | flag qs =>
    cases qs with
    | nil =>
      simp only [State.stopStep, hp] at h
      cases h
      exact hi.same rfl fun q => hpend rfl rfl rfl q (by simp [hp, StopPc.releasing])
    | cons k qs =>
      simp only [State.stopStep, hp] at h
      cases h
      have hkeep := fun q => hpend rfl rfl rfl q (by simp [hp, StopPc.releasing])
      refine hi.act (k := k) (fun q hq => by simp [hq]) (fun q _ => hkeep q) fun ht ha => ?_
      simp only [State.raise, State.setTerminal, Function.update_self] at ht ha
      exact hkeep k (hi k ht ha)
  | swap k qs =>
    simp only [State.stopStep, hp] at h
    split_ifs at h with ht <;> cases h
    · exact hi.same rfl fun q => hpend rfl rfl rfl q (by simp [hp, StopPc.releasing])
    · refine hi.act (k := k) (fun q hq => by simp [hq])
        (fun q _ => hpend rfl rfl rfl q (by simp [hp, StopPc.releasing])) fun _ _ => ?_
      exact releasing_iff.mpr (.inr (.inl rfl))
  | release k qs =>
    simp only [State.stopStep, hp] at h
    cases h
    refine hi.act (k := k) (fun q hq => by simp [hq])
      (fun q hq => hpend rfl rfl rfl q (by simp [hp, StopPc.releasing, Ne.symm hq])) fun _ ha => ?_
    simp at ha
  | notify =>
    simp only [State.stopStep, hp] at h
    cases h
    have hpc : s.pc.woken.releasing = s.pc.releasing :=
      s.pc.holds_woken.2.2.2.2.2
    exact hi.same rfl fun q => hpend hpc rfl rfl q (by simp [hp, StopPc.releasing])
  | returned => simp [State.stopStep, hp] at h

/-- The winning `request_stop` has taken the registrations. -/
def StopPc.collected : StopPc → Bool
  | .idle | .close | .collect => false
  | _ => true

/-- Requests that are not terminal can be found by `cancel` and by `request_stop`. -/
structure RegInv (s : State φ) : Prop where
  queued : s.closed = false → ∀ e ∈ s.waiting, ¬ (s.terminals e.sequence).terminal = true →
    s.registrations.get? e.requestId = some e.sequence
  active : s.closed = false → ∀ q r, s.active.get? q = some r →
    ¬ (s.terminals q).terminal = true → s.registrations.get? r.requestId = some q
  alive : ∀ q, ¬ (s.terminals q).terminal = true → s.upgrade q = true →
    (∃ i, s.registrations.get? i = some q) ∨ q ∈ s.stop.targets ∨ .swap q ∈ s.cancels
  emptied : s.stop.collected = true → ∀ i, s.registrations.get? i = none
  stopDecided : ∀ q, s.stop.releasing = some q → (s.terminals q).terminal = true

theorem regInv_initial : RegInv (State.initial : State φ) := by
  constructor <;> simp [State.initial, State.waiting, ExecPc.popped, State.upgrade,
    ExecPc.envelopes, StopPc.targets, StopPc.releasing, SortedMap.contains]

/-- What an admitted executor action may do to a registration that matters: nothing, or drop
the one of the cancelled request it is just popping. -/
theorem execStep_registrations {spawned : Bool} (ho : Owned s)
    (hc : keepsReachable s (.exec spawned) = true) (h : s.execStep o spawned = some s') {j q : ℕ}
    (hq : s.registrations.get? j = some q) (ht : ¬ (s.terminals q).terminal = true)
    (hu : s.upgrade q = true) : s'.registrations.get? j = some q ∨
      ∃ e ls, s.pc = .tombstone e ls ∧ e.sequence = q ∧ s.waiting = e :: s'.waiting ∧
        s'.active = s.active := by
  have hown : ∀ {i k}, s.removesOwn i k = true → j = i → q = k := by
    rintro i k hr rfl
    simp only [State.removesOwn, hq, hu, Bool.or_eq_true, decide_eq_true_eq, Bool.not_true,
      Bool.false_eq_true, or_false] at hr
    exact hr.resolve_right ht
  have herase : ∀ {i}, j ≠ i → (s.registrations.erase i).get? j = some q := fun hne => by
    rw [SortedMap.get?_erase, if_neg hne, hq]
  cases execStep_move h with
  | stay _ _ _ _ hreg _ | pop _ _ _ _ _ _ _ _ hreg _ | launch _ _ _ _ _ _ hreg _ =>
    exact .inl (hreg ▸ hq)
  | complete c cs hpc hnext => exact .inl (by rw [hnext]; exact hq)
  | spawn e ls hpc hnext => exact .inl (by rw [hnext]; exact hq)
  | spawnFailed e r ls hpc hnext => exact .inl (by rw [hnext]; exact hq)
  | finalize hpc hnext => exact .inl (by rw [hnext]; exact hq)
  | unregister c cs hpc hin hact hpop hlaunch hreg hw =>
    left
    rw [hreg]
    refine herase fun hj => ?_
    -- the completed request is terminal, so it is not the one removed here
    have hcq : q = c.sequence := hown (by simpa [keepsReachable, hpc] using hc) hj
    exact ht (hcq ▸ (ho.completed c (by simp [hpc, ExecPc.completions])).2)
  | drop e hpop hreason hin hact hpop' hlaunch hreg hw =>
    by_cases hj : j = e.requestId
    · rcases hreason with ⟨ls, hpc⟩ | ⟨r, ls, hpc⟩
      · have heq : q = e.sequence := hown (by simpa [keepsReachable, hpc] using hc) hj
        refine .inr ⟨e, ls, hpc, heq.symm, ?_, hact⟩
        simp [State.waiting, hpop, hpop', hin]
      · have heq : q = e.sequence := hown (by simpa [keepsReachable, hpc] using hc) hj
        exact absurd (ho.decided e.sequence (by simp [hpc, ExecPc.decided])).2 (heq ▸ ht)
    · exact .inl (hreg ▸ herase hj)

/-- Requests only move forward: what waits or is active was waiting or active before. -/
theorem execStep_live {spawned : Bool} (h : s.execStep o spawned = some s') :
    (∀ e ∈ s'.waiting, e ∈ s.waiting) ∧ ∀ q r, s'.active.get? q = some r →
      s.active.get? q = some r ∨ ∃ e ∈ s.waiting, e.sequence = q ∧ e.requestId = r.requestId := by
  simp only [State.waiting]
  cases execStep_move h with
  | stay hin hact hpop hlaunch hreg hw | unregister c cs hpc hin hact hpop hlaunch hreg hw =>
    rw [hin, hact, hpop]
    exact ⟨fun _ => id, fun _ _ => .inl⟩
  | complete c cs hpc hnext =>
    subst hnext
    rw [hpc]
    refine ⟨fun _ => id, fun q r hq => .inl ?_⟩
    rw [SortedMap.get?_erase] at hq
    split_ifs at hq
    exact hq
  | pop e es hpop hhead hin hact hpop' hlaunch hreg hw =>
    rw [hin, hact, hpop, hpop', hhead]
    exact ⟨fun _ => id, fun _ _ => .inl⟩
  | launch e hpop hin hact hpop' hlaunch hreg hw =>
    rw [hin, hact, hpop, hpop']
    refine ⟨fun e' he' => List.mem_cons_of_mem _ he', fun q r hq => ?_⟩
    rw [SortedMap.get?_insert] at hq
    split_ifs at hq with heq
    · cases hq
      exact .inr ⟨e, List.mem_cons_self, heq.symm, rfl⟩
    · exact .inl hq
  | drop e hpop hreason hin hact hpop' hlaunch hreg hw =>
    rw [hin, hact, hpop, hpop']
    exact ⟨fun e' he' => List.mem_cons_of_mem _ he', fun _ _ => .inl⟩
  | spawn e ls hpc hnext =>
    subst hnext
    rw [hpc]
    exact ⟨fun _ => id, fun _ _ => .inl⟩
  | spawnFailed e r ls hpc hnext =>
    subst hnext
    rw [hpc]
    exact ⟨fun _ => id, fun _ _ => .inl⟩
  | finalize hpc hnext =>
    subst hnext
    rw [hpc]
    exact ⟨fun _ => id, fun q r hq => by simp at hq⟩

theorem regInv_execStep {spawned : Bool} (hi : RegInv s) (ho : Owned s) (hcall : CallInv s)
    (htomb : s.Tombstoned)
    (hc : keepsReachable s (.exec spawned) = true) (h : s.execStep o spawned = some s') :
    RegInv s' := by
  have hsame := execStep_sameCalls h
  have hterm : ∀ {q}, ¬ (s'.terminals q).terminal = true → ¬ (s.terminals q).terminal = true :=
    fun hq ht => hq (hsame.terminal ht)
  have hregs := fun {j q} => execStep_registrations (j := j) (q := q) ho hc h
  obtain ⟨hwait, hact⟩ := execStep_live h
  have hqueued : s'.closed = false → ∀ e ∈ s.waiting, ¬ (s'.terminals e.sequence).terminal = true →
      (∀ e', s.waiting = e' :: s'.waiting → s'.active = s.active → e'.sequence ≠ e.sequence) →
      s'.registrations.get? e.requestId = some e.sequence := by
    intro hcl e he ht hne
    have hu : s.upgrade e.sequence = true := upgrade_iff.mpr (.inl ⟨e, he, rfl⟩)
    refine (hregs (hi.queued (hsame.closed ▸ hcl) e he (hterm ht)) (hterm ht) hu).resolve_right ?_
    rintro ⟨e', ls, -, heq, hw, ha⟩
    exact hne e' hw ha heq
  refine ⟨fun hcl e he ht => ?_, fun hcl q r hq ht => ?_, fun q ht hu => ?_, fun hst i => ?_,
    fun q hq => ?_⟩
  · refine hqueued hcl e (hwait e he) ht fun e' hw _ heq => ?_
    -- the dropped request is older than every waiting one
    have horder := ho.order
    rw [hw] at horder
    exact ((List.pairwise_cons.mp horder).1 _ (List.mem_map_of_mem he)).ne heq
  · rcases hact q r hq with hq' | ⟨e, he, rfl, hid⟩
    · have hcon : s.active.contains q = true := by simp [SortedMap.contains, hq']
      have hu : s.upgrade q = true := upgrade_iff.mpr (.inr (.inl hcon))
      refine (hregs (hi.active (hsame.closed ▸ hcl) q r hq' (hterm ht)) (hterm ht)
        hu).resolve_right ?_
      rintro ⟨e', ls, hpc, heq, hw, -⟩
      exact ((ho.active q hcon).2 e' (by simp [hw])).ne heq.symm
    · rw [← hid]
      refine hqueued hcl e he ht fun e' _ ha _ => ?_
      -- a step that drops a request launches none
      have hcon : s.active.contains e.sequence = true := by
        rw [← ha]
        simp [SortedMap.contains, hq]
      exact ((ho.active _ hcon).2 e he).ne rfl
  · rw [hsame.stop, hsame.cancels]
    rcases hi.alive q (hterm ht) (execStep_upgrade h hu) with ⟨i, hreg⟩ | hrest
    · rcases hregs hreg (hterm ht) (execStep_upgrade h hu) with hreg' | ⟨e, ls, hpc, rfl, -⟩
      · exact .inl ⟨i, hreg'⟩
      · have hnone := TerminalState.winner_of_not_terminal (hterm ht)
        rcases hcall.swapping _ (htomb e ls hpc) hnone with hsw | ⟨qs, hsw⟩
        · exact .inr (.inr hsw)
        · exact .inr (.inl (by simp [hsw, StopPc.targets]))
    · exact .inr hrest
  · cases hreg : s'.registrations.get? i with
    | none => rfl
    | some q =>
      have := hsame.registrations i q hreg
      simp [hi.emptied (hsame.stop ▸ hst) i] at this
  · exact hsame.terminal (hi.stopDecided q (hsame.stop ▸ hq))

/-- A step that leaves the executor and the registrations alone and takes no terminal flag back. -/
theorem RegInv.of_sameExecutor (hi : RegInv s) (h : SameExecutor s s')
    (ht : ∀ q, (s.terminals q).terminal = true → (s'.terminals q).terminal = true)
    (hreg : s'.registrations = s.registrations)
    (hu : ∀ q, s'.upgrade q = true → s.upgrade q = true)
    (hmove : ∀ q, ¬ (s'.terminals q).terminal = true → q ∈ s.stop.targets ∨ .swap q ∈ s.cancels →
      q ∈ s'.stop.targets ∨ .swap q ∈ s'.cancels)
    (hst : s'.stop.collected = s.stop.collected)
    (hdec : ∀ q, s'.stop.releasing = some q → (s'.terminals q).terminal = true) : RegInv s' := by
  obtain ⟨hpop, -⟩ := ExecPc.holds_of_woken h.pc
  have hwait : s'.waiting = s.waiting := by simp only [State.waiting, h.input, hpop]
  have hterm : ∀ {q}, ¬ (s'.terminals q).terminal = true → ¬ (s.terminals q).terminal = true :=
    fun hq hs => hq (ht _ hs)
  refine ⟨fun hc e he ht => ?_, fun hc q r hq ht => ?_, fun q ht hq => ?_, fun hs i => ?_, hdec⟩
  · rw [hreg]
    exact hi.queued (h.closed ▸ hc) e (hwait ▸ he) (hterm ht)
  · rw [hreg]
    exact hi.active (h.closed ▸ hc) q r (h.active ▸ hq) (hterm ht)
  · rw [hreg]
    exact (hi.alive q (hterm ht) (hu q hq)).imp_right (hmove q ht)
  · rw [hreg]
    exact hi.emptied (hst ▸ hs) i

theorem regInv_workerStep {k : ℕ} {out : AdapterOutcome φ} (hi : RegInv s)
    (h : s.workerStep o k out = some s') : RegInv s' := by
  have hsame := workerStep_sameCalls h
  refine hi.of_sameExecutor (workerStep_sameExecutor h) (fun q => hsame.terminal) ?_
    (fun q => workerStep_upgrade h)
    (fun q _ hq => by rwa [hsame.stop, hsame.cancels]) (by rw [hsame.stop]) fun q hq => ?_
  · obtain ⟨w, -, ⟨-, pc, m, -, rfl⟩ | ⟨r, m, -, -, rfl⟩ | ⟨r, -, -, rfl⟩ | ⟨r, m, -, rfl⟩ |
      ⟨r, -, -, rfl⟩ | ⟨-, rfl⟩⟩ := workerStep_cases h <;> rfl
  · exact hsame.terminal (hi.stopDecided q (hsame.stop ▸ hq))

theorem regInv_cancelStep {i : ℕ} (hi : RegInv s) (h : s.cancelStep i = some s') :
    RegInv s' := by
  have howners := cancelStep_sameOwners h
  have hmove := fun (hreg : s'.registrations = s.registrations) (hst : s'.stop = s.stop)
      (hsw : ∀ q, ¬ (s'.terminals q).terminal = true → .swap q ∈ s.cancels →
        .swap q ∈ s'.cancels) =>
    hi.of_sameExecutor (cancelStep_sameExecutor h) howners.terminals hreg
      (fun q => cancelStep_upgrade h)
      (fun q ht hq => by rw [hst]; exact hq.imp_right (hsw q ht)) (by rw [hst])
      fun q hq => howners.terminals q (hi.stopDecided q (hst ▸ hq))
  obtain ⟨_, hc, rfl⟩ | ⟨_, k, hc, -, -, rfl⟩ | ⟨k, hc, rfl⟩ | ⟨k, hc, ht, rfl⟩ |
    ⟨k, hc, ht, rfl⟩ | ⟨k, m, hc, rfl⟩ | ⟨k, won, hc, rfl⟩ := cancelStep_cases h
  · exact hmove rfl rfl fun q _ hq => mem_set_of_ne hc hq (by simp)
  · exact hmove rfl rfl fun q _ hq => mem_set_of_ne hc hq (by simp)
  · exact hmove rfl rfl fun q _ hq => mem_set_of_ne hc hq (by simp)
  · refine hmove rfl rfl fun q hq hm => mem_set_of_ne hc hm ?_
    rintro heq
    cases heq
    exact hq ht
  · refine hmove rfl rfl fun q hq hm => mem_set_of_ne hc hm ?_
    rintro heq
    cases heq
    simp [TerminalState.terminal] at hq
  · exact hmove rfl rfl fun q _ hq => mem_set_of_ne hc hq (by simp)
  · exact hmove rfl rfl fun q _ hq => mem_set_of_ne hc hq (by simp)

theorem regInv_stopStep {order : List ℕ} (hi : RegInv s) (hcall : CallInv s)
    (h : s.stopStep order = some s') : RegInv s' := by
  have hup := fun q => stopStep_upgrade (q := q) h
  -- after the registrations are taken, only the targets and the terminal states change
  have hmove := fun (hp : s.stop ≠ .close) (hreg : s'.registrations = s.registrations)
      (htg : ∀ q, ¬ (s'.terminals q).terminal = true → q ∈ s.stop.targets → q ∈ s'.stop.targets) =>
    hi.of_sameExecutor (stopStep_sameExecutor hp h) (stopStep_sameOwners hp h).terminals hreg
      hup (fun q ht hq => by rw [stopStep_cancels h]; exact hq.imp_left (htg q ht))
  cases hp : s.stop with
  | idle => simp [State.stopStep, hp] at h
  | close =>
    simp only [State.stopStep, hp] at h
    split_ifs at h
    cases h
    refine ⟨by simp, by simp, fun q ht hu => ?_, by simp [StopPc.collected],
      by simp [StopPc.releasing]⟩
    have := hi.alive q ht (hup q hu)
    rwa [hp] at this
  | collect =>
    have hcl : s.closed = true := hcall.closing.mpr (by simp [hp])
    simp only [State.stopStep, hp] at h
    split_ifs at h with hperm
    cases h
    refine ⟨by simp [hcl], by simp [hcl], fun q ht hu => .inr ?_, by simp,
      by simp [StopPc.releasing]⟩
    rcases hi.alive q ht (hup q hu) with hreg | htg | hsw
    · exact .inl (hperm.mem_iff.mpr (mem_registered.mpr ⟨hreg, hup q hu⟩))
    · simp [hp, StopPc.targets] at htg
    · exact .inr hsw
  | flag qs =>
    have hmove' := hmove (by simp [hp])
    rw [hp] at hmove'
    cases qs with
    | nil =>
      simp only [State.stopStep, hp] at h
      cases h
      exact hmove' rfl (by simp [StopPc.targets]) rfl (by simp [StopPc.releasing])
    | cons k qs =>
      simp only [State.stopStep, hp] at h
      cases h
      exact hmove' rfl (fun _ _ => id) rfl (by simp [StopPc.releasing])
  | swap k qs =>
    have hmove' := hmove (by simp [hp])
    rw [hp] at hmove'
    simp only [State.stopStep, hp] at h
    split_ifs at h with ht <;> cases h
    · refine hmove' rfl (fun q hq hm => ?_) rfl (by simp [StopPc.releasing])
      exact (List.mem_cons.mp hm).resolve_left fun heq => hq (heq ▸ ht)
    · refine hmove' rfl (fun _ _ => id) rfl fun q hq => ?_
      cases hq
      simp [TerminalState.terminal]
  | release k qs =>
    have hmove' := hmove (by simp [hp])
    rw [hp] at hmove'
    simp only [State.stopStep, hp] at h
    cases h
    refine hmove' rfl (fun q hq hm => ?_) rfl (by simp [StopPc.releasing])
    refine (List.mem_cons.mp hm).resolve_left fun heq => hq ?_
    subst heq
    exact (sameCalls_takeLease (s := s) q).terminal
      (hi.stopDecided q (by simp [hp, StopPc.releasing]))
  | notify =>
    have hmove' := hmove (by simp [hp])
    rw [hp] at hmove'
    simp only [State.stopStep, hp] at h
    cases h
    exact hmove' rfl (by simp [StopPc.targets]) rfl (by simp [StopPc.releasing])
  | returned => simp [State.stopStep, hp] at h

theorem trySubmit_upgrade {r : AsyncRequest φ} {lifecycle : ℕ} {q : ℕ}
    (hu : (s.trySubmit o r lifecycle).upgrade q = true) :
    s.upgrade q = true ∨ q = s.nextSequence := by
  rcases trySubmit_cases (o := o) (s := s) r lifecycle with ⟨m, h⟩ | ⟨-, -, m, h⟩ <;> rw [h] at hu
  · exact .inl hu
  · obtain ⟨hpop, hlaunch, -⟩ := s.pc.holds_woken
    rw [upgrade_iff] at hu ⊢
    simp only [State.waiting, hpop, hlaunch, ← List.append_assoc] at hu
    rcases hu with ⟨e, he, hq⟩ | hu
    · rcases List.mem_append.mp he with he | he
      · exact .inl (.inl ⟨e, he, hq⟩)
      · rw [List.mem_singleton.mp he] at hq
        exact .inr hq.symm
    · exact .inl (.inr hu)

theorem regInv_trySubmit (hi : RegInv s) (ho : Owned s) (hcall : CallInv s) (r : AsyncRequest φ)
    (lifecycle : ℕ) : RegInv (s.trySubmit o r lifecycle) := by
  have hup := fun q (hu : (s.trySubmit o r lifecycle).upgrade q = true) => trySubmit_upgrade hu
  rcases trySubmit_cases (o := o) (s := s) r lifecycle with ⟨m, h⟩ | ⟨hcl, hreg, m, h⟩ <;>
    rw [h] at hup ⊢
  · exact ⟨hi.queued, hi.active, hi.alive, hi.emptied, hi.stopDecided⟩
  · obtain ⟨hpop, -⟩ := s.pc.holds_woken
    have hkeep : ∀ {q}, q < s.nextSequence →
        Function.update s.terminals s.nextSequence ⟨false, none, true⟩ q = s.terminals q :=
      fun hlt => Function.update_of_ne hlt.ne ..
    -- an id in use by a live request is refused, so no live registration is overwritten
    have hregs : ∀ {i q}, s.registrations.get? i = some q → s.upgrade q = true →
        (s.registrations.insert r.requestId s.nextSequence).get? i = some q := by
      intro i q hq hu
      have hne : i ≠ r.requestId := by
        rintro rfl
        simp [hq, hu] at hreg
      rw [SortedMap.get?_insert, if_neg hne, hq]
    have hst : s.stop.collected = false := by
      have := hcall.closing
      simp only [hcl, Bool.false_eq_true, false_iff, not_and_or, not_not] at this
      rcases this with hs | hs <;> rw [hs] <;> rfl
    refine ⟨fun _ e he ht => ?_, fun _ q k hq ht => ?_, fun q ht hu => ?_, by simp [hst],
      fun q hq => ?_⟩
    · simp only [State.waiting, hpop, ← List.append_assoc] at he
      rcases List.mem_append.mp he with he | he
      · have hlt := ho.bound e he
        simp only [hkeep hlt] at ht
        exact hregs (hi.queued hcl e he ht) (upgrade_iff.mpr (.inl ⟨e, he, rfl⟩))
      · rw [List.mem_singleton.mp he]
        simp
    · have hcon : s.active.contains q = true := (s.active.contains_iff q).mpr ⟨k, hq⟩
      have hlt := (ho.active q hcon).1
      simp only [hkeep hlt] at ht
      exact hregs (hi.active hcl q k hq ht) (upgrade_iff.mpr (.inr (.inl hcon)))
    · rcases hup q hu with hu' | rfl
      · have hlt := upgrade_lt ho hcall hu'
        simp only [hkeep hlt] at ht
        rcases hi.alive q ht hu' with ⟨i, hq⟩ | hrest
        · exact .inl ⟨i, hregs hq hu'⟩
        · exact .inr hrest
      · exact .inl ⟨r.requestId, by simp⟩
    · have hq' : q ∈ s.stop.targets := by
        cases hs : s.stop <;> simp_all [StopPc.releasing, StopPc.targets]
      simp only [hkeep (hcall.stopping q hq')]
      exact hi.stopDecided q hq

theorem regInv_step {a : Label φ} (hi : RegInv s) (ho : Owned s) (hcall : CallInv s)
    (htomb : s.Tombstoned) (hc : keepsReachable s a = true) (h : s.step o a = some s') : RegInv s' := by
  have hsame : ∀ {t : State φ}, SameExecutor s t → t.terminals = s.terminals →
      t.registrations = s.registrations → t.workers = s.workers →
      (∀ c ∈ t.cancels, c ∈ s.cancels ∨ c.target = none) → (∀ c ∈ s.cancels, c ∈ t.cancels) →
      t.stop = s.stop → RegInv t := by
    intro t hx ht hr hw hc hc' hs
    exact hi.of_sameExecutor hx (by simp [ht]) hr
      (fun q hu => upgrade_quiet hu hx.pc hx.input hx.active hw hc hs)
      (fun q _ hq => by rw [hs]; exact hq.imp_right (hc' _)) (by rw [hs])
      (by rw [hs, ht]; exact hi.stopDecided)
  cases a with
  | trySubmit r lifecycle =>
    simp only [State.step] at h
    split_ifs at h
    cases h
    exact regInv_trySubmit hi ho hcall r lifecycle
  | tryRecv =>
    simp only [State.step] at h
    split_ifs at h
    cases h
    have hw := hsame (t := s.notifyAll) ⟨by constructor <;> rfl, .inr rfl⟩ rfl rfl rfl
      (fun _ => .inl) (fun _ => id) rfl
    rcases tryRecv_cases (s := s) with h | ⟨c, cs, m, -, h⟩ <;> rw [h]
    · exact hi
    · exact ⟨hw.queued, hw.active, hw.alive, hw.emptied, hw.stopDecided⟩
  | exec spawned => exact regInv_execStep hi ho hcall htomb hc h
  | worker q out => exact regInv_workerStep hi h
  | cancelBegin requestId =>
    cases h
    refine hsame ⟨by constructor <;> rfl, .inl rfl⟩ rfl rfl rfl (fun c hm => ?_)
      (fun c hm => List.mem_append_left _ hm) rfl
    exact (List.mem_append.mp hm).imp_right fun h => by rw [List.mem_singleton.mp h]; rfl
  | cancel i => exact regInv_cancelStep hi h
  | requestStop =>
    simp only [State.step] at h
    split_ifs at h with hl <;> cases h
    · have hidle := hcall.running hl
      refine ⟨hi.queued, hi.active, fun q ht hu => ?_, by simp [StopPc.collected],
        by simp [StopPc.releasing]⟩
      have := hi.alive q ht (by simpa [State.upgrade, hidle, StopPc.targets] using hu)
      rwa [hidle] at this
    · exact hsame ⟨by constructor <;> rfl, .inl rfl⟩ rfl rfl rfl (fun _ => .inl) (fun _ => id) rfl
  | stop order => exact regInv_stopStep hi hcall h
  | tick d =>
    cases h
    exact hsame ⟨by constructor <;> rfl, .inl rfl⟩ rfl rfl rfl (fun _ => .inl) (fun _ => id) rfl
  | wake =>
    simp only [State.step] at h
    split at h <;> cases h
    rename_i next hp
    exact hsame ⟨by constructor <;> rfl, .inr (by rw [hp]; rfl)⟩ rfl rfl rfl (fun _ => .inl)
      (fun _ => id) rfl

theorem leaseInv_step {a : Label φ} (hi : s.LeaseInv) (ho : Owned s) (hcall : CallInv s)
    (h : s.step o a = some s') : s'.LeaseInv := by
  have hwoken : s.pc.woken.releasing = s.pc.releasing :=
    s.pc.holds_woken.2.2.2.2.2
  cases a with
  | trySubmit r lifecycle =>
    simp only [State.step] at h
    split_ifs at h
    cases h
    rcases trySubmit_cases (o := o) (s := s) r lifecycle with ⟨m, h⟩ | ⟨-, -, m, h⟩ <;> rw [h]
    · exact hi
    · refine hi.act (k := s.nextSequence) (fun q hq => by simp [hq]) (fun q _ hq => ?_)
        (by simp [TerminalState.terminal])
      rw [releasing_iff] at hq ⊢
      simpa only [hwoken] using hq
  | tryRecv =>
    simp only [State.step] at h
    split_ifs at h
    cases h
    rcases tryRecv_cases (s := s) with h | ⟨c, cs, m, -, h⟩ <;> rw [h]
    · exact hi
    · refine hi.same rfl fun q hq => ?_
      rw [releasing_iff] at hq ⊢
      simpa only [hwoken] using hq
  | exec spawned => exact leaseInv_execStep hi ho h
  | worker q out => exact leaseInv_workerStep hi h
  | cancelBegin requestId =>
    cases h
    refine hi.same rfl fun q hq => ?_
    rw [releasing_iff] at hq ⊢
    exact hq.imp_left fun h => List.mem_append_left _ h
  | cancel i => exact leaseInv_cancelStep hi h
  | requestStop =>
    simp only [State.step] at h
    split_ifs at h with hl <;> cases h
    · refine hi.same rfl fun q hq => ?_
      rw [releasing_iff] at hq ⊢
      simpa [hcall.running hl, StopPc.releasing] using hq
    · exact hi.same rfl fun _ => id
  | stop order => exact leaseInv_stopStep hi h
  | tick d => cases h; exact hi
  | wake =>
    simp only [State.step] at h
    split at h <;> cases h
    rename_i next hp
    refine hi.same rfl fun q hq => ?_
    rw [releasing_iff] at hq ⊢
    simpa [hp, ExecPc.releasing] using hq

theorem admission_update {q q' : ℕ} {u : TerminalState}
    (h : (Function.update s.terminals q u q').admission = true)
    (hu : u.admission = true → (s.terminals q).admission = true) :
    (s.terminals q').admission = true := by
  by_cases hq : q' = q
  · subst hq
    exact hu (by simpa using h)
  · simpa [hq] using h

/-- Only the acceptance of a request adds a lease, its own; a closed mailbox accepts none. -/
theorem leaseHeld_of_step {a : Label φ} {q : ℕ} (hold : s.closed = true ∨ q < s.nextSequence)
    (h : s.step o a = some s') (hl : s'.leaseHeld q = true) : s.leaseHeld q = true := by
  simp only [State.leaseHeld, Bool.and_eq_true] at hl ⊢
  obtain ⟨ha, hu⟩ := hl
  cases a with
  | trySubmit r lifecycle =>
    simp only [State.step] at h
    split_ifs at h
    cases h
    rcases trySubmit_cases (o := o) (s := s) r lifecycle with ⟨m, h⟩ | ⟨hop, -, m, h⟩
    · rw [h] at ha hu
      exact ⟨ha, hu⟩
    · have hlt : q ≠ s.nextSequence := by
        rcases hold with hcl | hlt
        · simp [hcl] at hop
        · exact hlt.ne
      refine ⟨by simpa [h, hlt] using ha, ?_⟩
      exact (trySubmit_upgrade hu).resolve_right hlt
  | tryRecv =>
    simp only [State.step] at h
    split_ifs at h
    cases h
    rcases tryRecv_cases (s := s) with h | ⟨c, cs, m, -, h⟩ <;> rw [h] at ha hu
    · exact ⟨ha, hu⟩
    · exact ⟨ha, upgrade_quiet hu (.inr rfl) rfl rfl rfl (fun _ => .inl) rfl⟩
  | exec spawned =>
    refine ⟨?_, execStep_upgrade h hu⟩
    rcases execStep_terminals h with ⟨-, -, ht⟩ | ⟨k, w, -, -, -, -, ht⟩ | ⟨k, -, -, ht⟩
    · exact ht ▸ ha
    · rw [ht] at ha
      exact admission_update ha (by simp)
    · rw [ht] at ha
      exact admission_update ha (by simp)
  | worker k out =>
    refine ⟨?_, workerStep_upgrade h hu⟩
    obtain ⟨w, -, ⟨-, pc, m, -, rfl⟩ | ⟨r, m, -, -, rfl⟩ | ⟨r, -, -, rfl⟩ | ⟨r, m, -, rfl⟩ |
      ⟨r, -, -, rfl⟩ | ⟨-, rfl⟩⟩ := workerStep_cases h
    · exact ha
    · exact ha
    · exact admission_update ha id
    · exact admission_update ha (by simp)
    · exact ha
    · exact ha
  | cancelBegin requestId =>
    cases h
    refine ⟨ha, upgrade_quiet hu (.inl rfl) rfl rfl rfl (fun c hm => ?_) rfl⟩
    exact (List.mem_append.mp hm).imp_right fun h => by rw [List.mem_singleton.mp h]; rfl
  | cancel i =>
    refine ⟨?_, cancelStep_upgrade h hu⟩
    obtain ⟨_, -, rfl⟩ | ⟨_, k, -, -, -, rfl⟩ | ⟨k, -, rfl⟩ | ⟨k, -, -, rfl⟩ | ⟨k, -, -, rfl⟩ |
      ⟨k, m, -, rfl⟩ | ⟨k, won, -, rfl⟩ := cancelStep_cases h
    · exact ha
    · exact ha
    · exact admission_update ha id
    · exact ha
    · exact admission_update ha id
    · exact admission_update ha (by simp)
    · exact ha
  | requestStop =>
    simp only [State.step] at h
    split_ifs at h <;> cases h
    · exact ⟨ha, upgrade_mono hu (fun _ => id) rfl rfl (fun w hq hl => ⟨w, hq, hl⟩)
        (fun _ hm ht => upgrade_of_target hm ht) (by simp [StopPc.targets])⟩
    · exact ⟨ha, hu⟩
  | stop order =>
    refine ⟨?_, stopStep_upgrade h hu⟩
    simp only [State.step, State.stopStep] at h
    split at h <;> (try split_ifs at h) <;> cases h <;>
      first
      | exact ha
      | exact admission_update ha id
      | exact admission_update ha (by simp)
  | tick d => cases h; exact ⟨ha, hu⟩
  | wake =>
    simp only [State.step] at h
    split at h <;> cases h
    rename_i next hp
    exact ⟨ha, upgrade_quiet hu (.inr (by rw [hp]; rfl)) rfl rfl rfl (fun _ => .inl) rfl⟩

/-- After a `request_stop` call has returned no lease is held. -/
structure ReturnInv (s : State φ) : Prop where
  winner : s.stopReturned = true → s.stop = .returned
  released : s.stop = .returned → ∀ q, s.leaseHeld q = false

theorem returnInv_stopStep (o : ManagedStreamOptions φ) {order : List ℕ} (hi : ReturnInv s)
    (hl : s.LeaseInv) (hreg : RegInv s) (ho : Owned s) (hcall : CallInv s) (hc : keepsReachable s (.stop order) = true)
    (h : s.stopStep order = some s') : ReturnInv s' := by
  by_cases hp : s.stop = .notify
  · have hcond : ∀ q < s.nextSequence, s.releasing q = false ∧
        (.swap q ∈ s.cancels → (s.terminals q).terminal = true) := by
      simp only [keepsReachable, decide_eq_true_eq] at hc
      exact hc hp
    have hcl : s.closed = true := hcall.closing.mpr (by simp [hp])
    have hnone : ∀ q, s.leaseHeld q = false := fun q => by
      by_contra hne
      simp only [State.leaseHeld, Bool.not_eq_false, Bool.and_eq_true] at hne
      obtain ⟨ha, hu⟩ := hne
      obtain ⟨hrel, hsw⟩ := hcond q (upgrade_lt ho hcall hu)
      by_cases ht : (s.terminals q).terminal = true
      · simp [hl q ht ha] at hrel
      · rcases hreg.alive q ht hu with ⟨i, hi⟩ | htg | hmem
        · simp [hreg.emptied (by rw [hp]; rfl) i] at hi
        · simp [hp, StopPc.targets] at htg
        · exact ht (hsw hmem)
    have hstep : s.step o (.stop order) = some s' := h
    refine ⟨fun _ => ?_, fun _ q => ?_⟩
    · simp only [State.stopStep, hp] at h
      cases h
      rfl
    · by_contra hne
      have := leaseHeld_of_step (.inl hcl) hstep (Bool.not_eq_false _ ▸ hne)
      simp [hnone q] at this
  · have hst : s.stop ≠ .returned := fun heq => by simp [State.stopStep, heq] at h
    have hret : s'.stopReturned = s.stopReturned ∧ s'.stop ≠ .returned := by
      unfold State.stopStep at h
      split at h <;> (try split_ifs at h) <;> cases h <;>
        first
        | exact ⟨rfl, by simp⟩
        | exact absurd ‹_› hp
    exact ⟨fun h => absurd (hi.winner (hret.1 ▸ h)) hst, fun h => absurd h hret.2⟩

theorem returnInv_step {a : Label φ} (hi : ReturnInv s) (hl : s.LeaseInv) (hreg : RegInv s)
    (ho : Owned s) (hcall : CallInv s) (hc : keepsReachable s a = true)
    (h : s.step o a = some s') : ReturnInv s' := by
  have hsame : s'.stop = s.stop → (s'.stopReturned = true → s.stop = .returned) →
      ReturnInv s' := fun hs hret => by
    refine ⟨fun h => hs.trans (hret h), fun hr q => ?_⟩
    rw [hs] at hr
    have hcl : s.closed = true := hcall.closing.mpr (by simp [hr])
    by_contra hne
    have := leaseHeld_of_step (.inl hcl) h (Bool.not_eq_false _ ▸ hne)
    simp [hi.released hr q] at this
  have hsame' : s'.stop = s.stop → s'.stopReturned = s.stopReturned → ReturnInv s' :=
    fun hs hret => hsame hs fun h => hi.winner (hret ▸ h)
  cases a with
  | trySubmit r lifecycle =>
    simp only [State.step] at h
    split_ifs at h
    cases h
    rcases trySubmit_cases (o := o) (s := s) r lifecycle with ⟨m, h⟩ | ⟨-, -, m, h⟩ <;>
      exact hsame' (by rw [h]) (by rw [h])
  | tryRecv =>
    simp only [State.step] at h
    split_ifs at h
    cases h
    rcases tryRecv_cases (s := s) with h | ⟨c, cs, m, -, h⟩ <;>
      exact hsame' (by rw [h]) (by rw [h])
  | exec spawned => exact hsame' (execStep_sameCalls h).stop (execStep_stopReturned h)
  | worker q out => exact hsame' (workerStep_sameCalls h).stop (workerStep_stopReturned h)
  | cancelBegin requestId => cases h; exact hsame' rfl rfl
  | cancel i =>
    obtain ⟨_, -, rfl⟩ | ⟨_, k, -, -, -, rfl⟩ | ⟨k, -, rfl⟩ | ⟨k, -, -, rfl⟩ | ⟨k, -, -, rfl⟩ |
      ⟨k, m, -, rfl⟩ | ⟨k, won, -, rfl⟩ := cancelStep_cases h <;> exact hsame' rfl rfl
  | requestStop =>
    simp only [State.step] at h
    split_ifs at h with hlc <;> cases h
    · have hidle := hcall.running hlc
      refine ⟨fun hr => ?_, by simp⟩
      have := hi.winner hr
      simp [hidle] at this
    · refine hsame rfl fun _ => ?_
      simpa [keepsReachable, hlc] using hc
  | stop order => exact returnInv_stopStep o hi hl hreg ho hcall hc h
  | tick d => cases h; exact hsame' rfl rfl
  | wake =>
    simp only [State.step] at h
    split at h <;> cases h
    exact hsame' rfl rfl

/-- In every run in which `remove_registration` only hits its own request and `request_stop`
returns only when no other party is about to take a lease: every queued or active request that
is not terminal is the one `cancel` finds under its id, and after `request_stop` has returned
no accepted request holds its lease. -/
theorem live_requests_reachable (o : ManagedStreamOptions φ) (s : State φ)
    (hr : (system o).ReachableBy (fun s a => keepsReachable s a = true) s) :
    (s.closed = false → ∀ q requestId, s.Live q requestId →
      (s.terminals q).terminal = false →
      s.registrations.get? requestId = some q ∧ s.lookup requestId = some q) ∧
    (s.stopReturned = true → ∀ q < s.nextSequence, s.leaseHeld q = false) := by
  have hinv : RegInv s ∧ s.LeaseInv ∧ ReturnInv s := by
    refine invariantBy (I := fun s => RegInv s ∧ s.LeaseInv ∧ ReturnInv s)
      ⟨regInv_initial, ?_, ?_⟩ (fun s a s' hr hi hc h => ?_) hr
    · intro q ht
      simp [State.initial, TerminalState.terminal] at ht
    · exact ⟨by simp [State.initial], by simp [State.initial]⟩
    · obtain ⟨hreg, hl, hret⟩ := hi
      exact ⟨regInv_step hreg (owned hr) (callInv hr) (tombstoned hr) hc h,
        leaseInv_step hl (owned hr) (callInv hr) h,
        returnInv_step hret hl hreg (owned hr) (callInv hr) hc h⟩
  obtain ⟨hreg, -, hret⟩ := hinv
  refine ⟨fun hcl q i hlive ht => ?_, fun h q _ => hret.released (hret.winner h) q⟩
  have ht' : ¬ (s.terminals q).terminal = true := by simp [ht]
  have hq : s.registrations.get? i = some q := by
    rcases hlive with ⟨e, he, rfl, rfl⟩ | ⟨r, hr, rfl⟩
    · exact hreg.queued hcl e (List.mem_append_right _ he) ht'
    · exact hreg.active hcl q r hr ht'
  refine ⟨hq, ?_⟩
  simp [State.lookup, hq, upgrade_of_live hlive]

/-- A queued request and an active one are found; after a stop both leases are gone. -/
theorem live_requests_reachable_stopped :
    (∃ s, (system (sampleOptions .strict)).ReachableBy (fun s a => keepsReachable s a = true) s ∧
      s.Live 0 7 ∧ s.Live 1 8 ∧ s.lookup 7 = some 0 ∧ s.lookup 8 = some 1) ∧
    ∃ s, (system (sampleOptions .strict)).ReachableBy (fun s a => keepsReachable s a = true) s ∧
      s.stopReturned = true ∧ s.nextSequence = 2 ∧ s.leaseHeld 0 = false ∧
      s.leaseHeld 1 = false := by
  have hrun := (system (sampleOptions .strict)).exists_reachableBy_of_runBy
    (C := fun s a => keepsReachable s a = true) (s := State.initial) rfl
  constructor
  · obtain ⟨s, hr, ht⟩ := hrun ([Label.submit 7] ++ Label.execs 12 ++ [Label.submit 8])
      (fun s => s.closed = false ∧ (s.active.get? 0 = some ⟨7, 100⟩) ∧
        s.input.map (fun e => (e.sequence, e.requestId)) = [(1, 8)] ∧
        (s.terminals 0).terminal = false ∧ (s.terminals 1).terminal = false) (by decide +kernel)
    simp only [decide_eq_true_eq] at ht
    obtain ⟨hcl, hact, hin, ht0, ht1⟩ := ht
    have hlive0 : s.Live 0 7 := .inr ⟨_, hact, rfl⟩
    have hlive1 : s.Live 1 8 := by
      obtain ⟨e, he, heq⟩ := List.mem_map.mp (hin ▸ List.mem_singleton_self (1, 8))
      obtain ⟨hq, hid⟩ := Prod.mk.inj heq
      exact .inl ⟨e, he, hq, hid⟩
    have hreach := (live_requests_reachable (sampleOptions .strict) s hr).1 hcl
    exact ⟨s, hr, hlive0, hlive1, (hreach 0 7 hlive0 ht0).2, (hreach 1 8 hlive1 ht1).2⟩
  · obtain ⟨s, hr, ht⟩ := hrun ([Label.submit 7] ++ Label.execs 12 ++
      [Label.submit 8, .requestStop] ++ [Label.stop [], .stop [0]] ++
      List.replicate 5 (Label.stop []))
      (fun s => s.stopReturned = true ∧ s.nextSequence = 2) (by decide +kernel)
    simp only [decide_eq_true_eq] at ht
    have hreach := (live_requests_reachable (sampleOptions .strict) s hr).2 ht.1
    exact ⟨s, hr, ht.1, ht.2, hreach 0 (by omega), hreach 1 (by omega)⟩

/-- Id 7 is submitted again after its first request left `active` and before its registration
is removed: the removal takes the registration of the second one. -/
theorem live_request_unregistered :
    ∃ s, (system (sampleOptions .strict)).Reachable s ∧ s.closed = false ∧ s.Live 1 7 ∧
      (s.terminals 1).terminal = false ∧ s.registrations.get? 7 = none ∧ s.lookup 7 = none := by
  obtain ⟨s, hr, ht⟩ := (system (sampleOptions .strict)).exists_reachable_of_run rfl
    ([Label.submit 7] ++ Label.execs 12 ++ Label.works 0 9 ++ Label.execs 2 ++ [Label.submit 7] ++
      Label.execs 1)
    (fun s => s.closed = false ∧ s.input.map (fun e => (e.sequence, e.requestId)) = [(1, 7)] ∧
      (s.terminals 1).terminal = false ∧ s.registrations.get? 7 = none) (by decide +kernel)
  simp only [decide_eq_true_eq] at ht
  obtain ⟨hcl, hin, hterm, hreg⟩ := ht
  obtain ⟨e, he, heq⟩ := List.mem_map.mp (hin ▸ List.mem_singleton_self (1, 7))
  obtain ⟨hq, hid⟩ := Prod.mk.inj heq
  exact ⟨s, hr, hcl, .inl ⟨e, he, hq, hid⟩, hterm, hreg, by simp [State.lookup, hreg]⟩

end Muxiva.Stream
