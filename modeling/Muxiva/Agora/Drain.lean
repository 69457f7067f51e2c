import Muxiva.Agora.Adapter

/-! What `leave` may rely on: when it has seen no callback in flight the gate is shut for good, and
no callback that comes later gets past it. -/
set_option linter.all false
namespace Muxiva.Agora

open Transition Transition.System

theorem no_true {b : Bool} {P : Prop} (hfalse : b = false) (htrue : b = true) : P :=
  Bool.noConfusion (hfalse.symm.trans htrue)

theorem no_false {b : Bool} {P : Prop} (htrue : b = true) (hfalse : b = false) : P :=
  no_true hfalse htrue

namespace Pc

/-- The thread is in a callback. -/
def isCallback : Pc → Bool
  | .builds => true
  | .enters _ => true
  | .looks _ => true
  | .tardy => true
  | .admitted _ => true
  | .numbered _ _ => true
  | .accounts _ _ => true
  | .stores _ => true
  | .lands => true
  | .gone => true
  | _ => false

/-- The callback has a `Flight`. -/
def flying : Pc → Bool
  | .looks _ => true
  | .tardy => true
  | .admitted _ => true
  | .numbered _ _ => true
  | .accounts _ _ => true
  | .stores _ => true
  | .lands => true
  | _ => false

/-- The callback has passed the gate and has not told its outcome. -/
def inside : Pc → Bool
  | .admitted _ => true
  | .numbered _ _ => true
  | .accounts _ _ => true
  | .stores _ => true
  | _ => false

/-- The callback is in none of the counters yet. -/
def uncounted : Pc → Bool
  | .builds => true
  | .enters _ => true
  | .looks _ => true
  | .tardy => true
  | .admitted _ => true
  | .numbered _ _ => true
  | .accounts _ _ => true
  | _ => false

/-- The thread holds the lock `lifecycle`. -/
def critical : Pc → Bool
  | .checks => true
  | .initializes => true
  | .opens => true
  | .joins => true
  | .lowersGate => true
  | .shutsDown => true
  | .marks => true
  | .closesIngress => true
  | .unlocksConnect _ => true
  | .exchanges => true
  | .lowers => true
  | .closesFirst => true
  | .leavesSdk => true
  | .unlocksLeave => true
  | _ => false

/-- The lifecycle part of `leave` is over. -/
def hasLeft : Pc → Bool
  | .drains => true
  | .left _ => true
  | _ => false

theorem not_callback {pc : Pc} (h : pc.isCallback = false) :
    pc.flying = false ∧ pc.uncounted = false ∧ pc.inside = false := by
  cases pc <;> first | exact ⟨rfl, rfl, rfl⟩ | cases h

theorem flying_of_inside {pc : Pc} (h : pc.inside = true) : pc.flying = true := by
  cases pc <;> first | rfl | cases h

end Pc

namespace Adapter

/-- The gate is shut for good, and the SDK and the ingress were told so once. -/
structure Shut (s : Adapter) : Prop where
  closed : s.closedOnce = true
  gate : s.accepting = false
  shutdown : s.shutdowns = 1
  ingress : s.ingressCloses = 1

/-- What holds while nobody has the lock. -/
structure Rest (s : Adapter) : Prop where
  fresh : s.closedOnce = false → s.shutdowns = 0 ∧ s.ingressCloses = 0
  settled : s.closedOnce = true → s.accepting = false ∧ s.shutdowns = 1 ∧ s.ingressCloses = 1

/-- What holds where the thread with the lock stands. -/
def Fits (s : Adapter) : Pc → Prop
  | .checks => s.Rest
  | .exchanges => s.Rest
  | .unlocksConnect _ => s.Rest
  | .initializes =>
    s.closedOnce = false ∧ s.accepting = false ∧ s.shutdowns = 0 ∧ s.ingressCloses = 0
  | .opens => s.closedOnce = false ∧ s.accepting = false ∧ s.shutdowns = 0 ∧ s.ingressCloses = 0
  | .joins => s.closedOnce = false ∧ s.shutdowns = 0 ∧ s.ingressCloses = 0
  | .lowersGate => s.closedOnce = false ∧ s.shutdowns = 0 ∧ s.ingressCloses = 0
  | .shutsDown => s.closedOnce = false ∧ s.accepting = false ∧ s.shutdowns = 0 ∧ s.ingressCloses = 0
  | .marks => s.closedOnce = false ∧ s.accepting = false ∧ s.shutdowns = 1 ∧ s.ingressCloses = 0
  | .closesIngress =>
    s.closedOnce = true ∧ s.accepting = false ∧ s.shutdowns = 1 ∧ s.ingressCloses = 0
  | .lowers => s.closedOnce = true ∧ s.shutdowns = 0 ∧ s.ingressCloses = 0
  | .closesFirst =>
    s.closedOnce = true ∧ s.accepting = false ∧ s.shutdowns = 0 ∧ s.ingressCloses = 0
  | .leavesSdk => s.closedOnce = true ∧ s.accepting = false ∧ s.shutdowns = 0 ∧ s.ingressCloses = 1
  | .unlocksLeave =>
    s.closedOnce = true ∧ s.accepting = false ∧ s.shutdowns = 1 ∧ s.ingressCloses = 1
  | _ => True

/-- The callbacks counted so far. -/
def counted (s : Adapter) : ℕ := s.late + s.accepted + s.full + s.closed + s.invalid

structure Sound (s : Adapter) : Prop where
  flights : s.inFlight = s.threads.countP Pc.flying
  tally : s.counted + s.threads.countP Pc.uncounted = s.threads.countP Pc.isCallback
  owner : ∀ i pc, s.threads[i]? = some pc → (pc.critical = true ↔ s.lifecycle = some i)
  owned : ∀ i, s.lifecycle = some i → ∃ pc, s.threads[i]? = some pc ∧ s.Fits pc
  rest : s.lifecycle = none → s.Rest
  shut : ∀ pc ∈ s.threads, pc.hasLeft = true → s.Shut
  drained : .left true ∈ s.threads → ∀ pc ∈ s.threads, pc.inside = false

variable {maxPacketBytes : UInt64} {s t : Adapter} {i : ℕ} {pc pc' : Pc}

theorem sound_new : new.Sound := by
  constructor
  · rfl
  · rfl
  · intro i pc hpc
    cases hpc
  · intro i hi
    cases hi
  · intro _
    exact ⟨fun _ => ⟨rfl, rfl⟩, fun hfalse => by cases hfalse⟩
  · intro pc hmem
    cases hmem
  · intro hmem
    cases hmem

/-- What a move of one thread does to a count of threads. -/
theorem countP_moveTo (f : Pc → Bool) (hpc : s.threads[i]? = some pc) (pc' : Pc) :
    (s.moveTo i pc').threads.countP f + (f pc).toNat = s.threads.countP f + (f pc').toNat := by
  obtain ⟨hi, rfl⟩ := List.getElem?_eq_some_iff.mp hpc
  have hle := List.boole_getElem_le_countP (p := f) hi
  have hset : (s.moveTo i pc').threads.countP f = _ := List.countP_set hi
  rw [hset]
  cases hold : f s.threads[i] <;> cases f pc' <;> simp only [hold, Bool.false_eq_true, if_true,
    if_false, Bool.toNat_true, Bool.toNat_false] at hle ⊢ <;> omega

theorem getElem?_moveTo (hpc : s.threads[i]? = some pc) (pc' : Pc) :
    (s.moveTo i pc').threads[i]? = some pc' := by
  obtain ⟨hi, -⟩ := List.getElem?_eq_some_iff.mp hpc
  exact List.getElem?_set_self hi

theorem getElem?_moveTo_of_ne {j : ℕ} (hji : j ≠ i) (pc' : Pc) :
    (s.moveTo i pc').threads[j]? = s.threads[j]? :=
  List.getElem?_set_ne hji.symm

/-- A thread moves that neither takes, holds nor gives up the lock. -/
theorem Sound.moves (h : s.Sound) (hpc : s.threads[i]? = some pc)
    (hthreads : t.threads = (s.moveTo i pc').threads)
    (hgate : t.closedOnce = s.closedOnce ∧ t.accepting = s.accepting ∧ t.lifecycle = s.lifecycle ∧
      t.shutdowns = s.shutdowns ∧ t.ingressCloses = s.ingressCloses)
    (hold : pc.critical = false) (hnew : pc'.critical = false)
    (hflights : t.inFlight + pc.flying.toNat = s.inFlight + pc'.flying.toNat)
    (hcallback : pc'.isCallback = pc.isCallback)
    (htally : t.counted + pc'.uncounted.toNat = s.counted + pc.uncounted.toNat)
    (hinside : pc'.inside = true → pc.inside = true ∨ s.accepting = true)
    (hleft : pc'.hasLeft = true → s.Shut)
    (hdrained : pc' = .left true → ∀ q ∈ s.threads, q.inside = false) : t.Sound := by
  obtain ⟨hclosed, haccepting, hlock, hshutdowns, hcloses⟩ := hgate
  have hmem : pc ∈ s.threads := List.mem_of_getElem? hpc
  have hset : ∀ q ∈ t.threads, q ∈ s.threads ∨ q = pc' := by
    intro q hq
    rw [hthreads] at hq
    exact List.mem_or_eq_of_mem_set hq
  have hrest : s.Rest → t.Rest := by
    rintro ⟨hfresh, hsettled⟩
    constructor
    · rw [hclosed, hshutdowns, hcloses]
      exact hfresh
    · rw [hclosed, haccepting, hshutdowns, hcloses]
      exact hsettled
  have hfits : ∀ q, s.Fits q → t.Fits q := by
    intro q hq
    cases q <;> first
      | exact hrest hq
      | exact True.intro
      | (simp only [Fits, hclosed, haccepting, hshutdowns, hcloses]; exact hq)
  have hshut : s.Shut → t.Shut := fun hs => ⟨hclosed.trans hs.closed, haccepting.trans hs.gate,
    hshutdowns.trans hs.shutdown, hcloses.trans hs.ingress⟩
  refine ⟨?_, ?_, ?_, ?_, ?_, ?_, ?_⟩
  · have hcount := countP_moveTo Pc.flying hpc pc'
    have hin := h.flights
    rw [hthreads]
    omega
  · have huncounted := countP_moveTo Pc.uncounted hpc pc'
    have hcallbacks := countP_moveTo Pc.isCallback hpc pc'
    have hsum := h.tally
    rw [hcallback] at hcallbacks
    rw [hthreads]
    omega
  · intro j q hq
    rw [hthreads] at hq
    rw [hlock]
    by_cases hji : j = i
    · subst hji
      rw [getElem?_moveTo hpc] at hq
      cases hq
      rw [← h.owner j pc hpc, hold, hnew]
    · rw [getElem?_moveTo_of_ne hji] at hq
      exact h.owner j q hq
  · intro j hj
    rw [hlock] at hj
    obtain ⟨q, hq, hfit⟩ := h.owned j hj
    have hji : j ≠ i := by
      rintro rfl
      rw [← h.owner j pc hpc, hold] at hj
      cases hj
    refine ⟨q, ?_, hfits q hfit⟩
    rw [hthreads, getElem?_moveTo_of_ne hji]
    exact hq
  · intro hnone
    rw [hlock] at hnone
    exact hrest (h.rest hnone)
  · intro q hq hqleft
    rcases hset q hq with hq | rfl
    · exact hshut (h.shut q hq hqleft)
    · exact hshut (hleft hqleft)
  · intro hleave q hq
    have hnone : ∀ p ∈ s.threads, p.inside = false := by
      rcases hset _ hleave with hleave | heq
      · exact h.drained hleave
      · exact hdrained heq.symm
    have hclosedGate : s.accepting = false := by
      rcases hset _ hleave with hleave | heq
      · exact (h.shut _ hleave rfl).gate
      · exact (hleft (by rw [← heq]; rfl)).gate
    rcases hset q hq with hq | rfl
    · exact hnone q hq
    · rw [← Bool.not_eq_true]
      intro htrue
      rcases hinside htrue with hpcin | hopen
      · exact absurd (hnone pc hmem) (by rw [hpcin]; exact Bool.noConfusion)
      · rw [hclosedGate] at hopen
        cases hopen

/-- A thread of `connect` or `leave` takes the lock, works under it or gives it up. -/
theorem Sound.locked (h : s.Sound) (hpc : s.threads[i]? = some pc)
    (hthreads : t.threads = (s.moveTo i pc').threads)
    (hcounters : t.inFlight = s.inFlight ∧ t.counted = s.counted)
    (hold : pc.isCallback = false) (hnew : pc'.isCallback = false)
    (hfree : s.lifecycle = none ∨ s.lifecycle = some i)
    (hlock : t.lifecycle = if pc'.critical then some i else none)
    (hfit : pc'.critical = true → t.Fits pc') (hrest : pc'.critical = false → t.Rest)
    (hshut : s.Shut → t.Shut) (hleft : pc'.hasLeft = true → t.Shut)
    (hdrained : pc' ≠ .left true) : t.Sound := by
  obtain ⟨holdFlying, holdUncounted, -⟩ := Pc.not_callback hold
  obtain ⟨hnewFlying, hnewUncounted, hnewInside⟩ := Pc.not_callback hnew
  have hset : ∀ q ∈ t.threads, q ∈ s.threads ∨ q = pc' := by
    intro q hq
    rw [hthreads] at hq
    exact List.mem_or_eq_of_mem_set hq
  refine ⟨?_, ?_, ?_, ?_, ?_, ?_, ?_⟩
  · have hcount := countP_moveTo Pc.flying hpc pc'
    have hin := h.flights
    rw [holdFlying, hnewFlying] at hcount
    rw [hthreads, hcounters.1]
    omega
  · have huncounted := countP_moveTo Pc.uncounted hpc pc'
    have hcallbacks := countP_moveTo Pc.isCallback hpc pc'
    have hsum := h.tally
    rw [holdUncounted, hnewUncounted] at huncounted
    rw [hold, hnew] at hcallbacks
    rw [hthreads, hcounters.2]
    omega
  · intro j q hq
    rw [hthreads] at hq
    rw [hlock]
    by_cases hji : j = i
    · subst hji
      rw [getElem?_moveTo hpc] at hq
      cases hq
      cases pc'.critical <;> simp
    · rw [getElem?_moveTo_of_ne hji] at hq
      have hother : q.critical = false := by
        rw [← Bool.not_eq_true, h.owner j q hq]
        rcases hfree with hfree | hfree <;> rw [hfree] <;> intro heq
        · cases heq
        · exact hji (Option.some.inj heq).symm
      rw [hother]
      cases pc'.critical with
      | false => simp
      | true => simp [Ne.symm hji]
  · intro j hj
    rw [hlock] at hj
    split at hj
    next hcritical =>
      cases hj
      exact ⟨pc', by rw [hthreads, getElem?_moveTo hpc], hfit hcritical⟩
    next => cases hj
  · intro hnone
    rw [hlock] at hnone
    split at hnone
    next => cases hnone
    next hcritical => exact hrest (Bool.not_eq_true _ ▸ hcritical)
  · intro q hq hqleft
    rcases hset q hq with hq | rfl
    · exact hshut (h.shut q hq hqleft)
    · exact hleft hqleft
  · intro hleave q hq
    have hleave : .left true ∈ s.threads := (hset _ hleave).resolve_right hdrained.symm
    rcases hset q hq with hq | rfl
    · exact h.drained hleave q hq
    · exact hnewInside

/-- A new thread stands before everything it counts or locks. -/
theorem Sound.starts (h : s.Sound) (call : Call) :
    ({ s with threads := s.threads ++ [call.entry] } : Adapter).Sound := by
  have hentry : call.entry.flying = false ∧ call.entry.uncounted = call.entry.isCallback ∧
      call.entry.critical = false ∧ call.entry.hasLeft = false ∧ call.entry.inside = false ∧
      call.entry ≠ .left true := by
    rcases call with (_ | _ | _) | _ | _ <;>
      exact ⟨rfl, rfl, rfl, rfl, rfl, (fun heq => by cases heq)⟩
  obtain ⟨hflying, huncounted, hcritical, hleft, hinside, hne⟩ := hentry
  have hmem : ∀ q ∈ s.threads ++ [call.entry], q ∈ s.threads ∨ q = call.entry := by
    intro q hq
    rw [List.mem_append, List.mem_singleton] at hq
    exact hq
  refine ⟨?_, ?_, ?_, ?_, ?_, ?_, ?_⟩
  · have hin := h.flights
    simp only [List.countP_append, List.countP_singleton, hflying]
    exact hin
  · have hsum := h.tally
    simp only [List.countP_append, List.countP_singleton, huncounted]
    change s.counted + _ = _
    omega
  · intro j q hq
    rcases lt_trichotomy j s.threads.length with hlt | heq | hgt
    · rw [List.getElem?_append_left hlt] at hq
      exact h.owner j q hq
    · subst heq
      rw [List.getElem?_append_right le_rfl, Nat.sub_self] at hq
      cases hq
      rw [hcritical]
      constructor
      · intro hfalse
        cases hfalse
      · intro hlock
        obtain ⟨p, hp, -⟩ := h.owned _ hlock
        rw [List.getElem?_eq_none le_rfl] at hp
        cases hp
    · rw [List.getElem?_eq_none (by simp; omega)] at hq
      cases hq
  · intro j hj
    obtain ⟨q, hq, hfit⟩ := h.owned j hj
    refine ⟨q, ?_, ?_⟩
    · obtain ⟨hlt, -⟩ := List.getElem?_eq_some_iff.mp hq
      rw [List.getElem?_append_left hlt]
      exact hq
    · cases q <;> first | exact hfit | exact ⟨hfit.fresh, hfit.settled⟩
  · intro hnone
    exact ⟨(h.rest hnone).fresh, (h.rest hnone).settled⟩
  · intro q hq hqleft
    rcases hmem q hq with hq | rfl
    · obtain ⟨hclosed, hgate, hshutdown, hingress⟩ := h.shut q hq hqleft
      exact ⟨hclosed, hgate, hshutdown, hingress⟩
    · rw [hleft] at hqleft
      cases hqleft
  · intro hleave q hq
    have hleave : .left true ∈ s.threads := (hmem _ hleave).resolve_right hne.symm
    rcases hmem q hq with hq | rfl
    · exact h.drained hleave q hq
    · exact hinside

theorem Sound.stepCallback (h : s.Sound) (hpc : s.threads[i]? = some pc) {ok : Bool}
    {status : SubmitStatus} (hs : s.stepCallback maxPacketBytes i ok status pc = some t) :
    t.Sound := by
  have hgate : s.closedOnce = s.closedOnce ∧ s.accepting = s.accepting ∧
      s.lifecycle = s.lifecycle ∧ s.shutdowns = s.shutdowns ∧ s.ingressCloses = s.ingressCloses :=
    ⟨rfl, rfl, rfl, rfl, rfl⟩
  cases pc <;> simp only [Adapter.stepCallback] at hs
  case builds =>
    split at hs
    next =>
      cases hs
      exact h.moves hpc rfl hgate rfl rfl rfl rfl rfl (no_true rfl) (no_true rfl)
        (fun heq => by cases heq)
    next =>
      cases hs
      refine h.moves hpc rfl hgate rfl rfl rfl rfl ?_ (no_true rfl) (no_true rfl)
        (fun heq => by cases heq)
      simp only [counted, moveTo, Pc.uncounted, Bool.toNat_true, Bool.toNat_false]
      omega
  case enters c =>
    cases hs
    exact h.moves hpc rfl hgate rfl rfl rfl rfl rfl (no_true rfl) (no_true rfl)
      (fun heq => by cases heq)
  case looks c =>
    cases hs
    cases hopen : s.accepting with
    | false =>
      rw [if_neg Bool.false_ne_true]
      exact h.moves hpc rfl hgate rfl rfl rfl rfl rfl (no_true rfl) (no_true rfl)
        (fun heq => by cases heq)
    | true =>
      rw [if_pos rfl]
      exact h.moves hpc rfl hgate rfl rfl rfl rfl rfl (fun _ => .inr hopen) (no_true rfl)
        (fun heq => by cases heq)
  case tardy =>
    cases hs
    refine h.moves hpc rfl hgate rfl rfl rfl rfl ?_ (no_true rfl) (no_true rfl)
      (fun heq => by cases heq)
    simp only [counted, moveTo, Pc.uncounted, Bool.toNat_true, Bool.toNat_false]
    omega
  case admitted c =>
    split at hs
    next =>
      cases hs
      exact h.moves hpc rfl hgate rfl rfl rfl rfl rfl (fun _ => .inl rfl) (no_true rfl)
        (fun heq => by cases heq)
    next =>
      cases hs
      refine h.moves hpc rfl hgate rfl rfl rfl rfl ?_ (no_true rfl) (no_true rfl)
        (fun heq => by cases heq)
      simp only [counted, moveTo, Pc.uncounted, Bool.toNat_true, Bool.toNat_false]
      omega
  case numbered c current =>
    cases hs
    exact h.moves hpc rfl hgate rfl rfl rfl rfl rfl (fun _ => .inl rfl) (no_true rfl)
      (fun heq => by cases heq)
  case accounts answer current =>
    cases hs
    have hkeep : ((s.account answer).moveTo i (.stores current)).closedOnce = s.closedOnce ∧
        ((s.account answer).moveTo i (.stores current)).accepting = s.accepting ∧
        ((s.account answer).moveTo i (.stores current)).lifecycle = s.lifecycle ∧
        ((s.account answer).moveTo i (.stores current)).shutdowns = s.shutdowns ∧
        ((s.account answer).moveTo i (.stores current)).ingressCloses = s.ingressCloses := by
      cases answer <;> exact ⟨rfl, rfl, rfl, rfl, rfl⟩
    have hthreads : ((s.account answer).moveTo i (.stores current)).threads =
        (s.moveTo i (.stores current)).threads := by
      cases answer <;> rfl
    have hflights : ((s.account answer).moveTo i (.stores current)).inFlight = s.inFlight := by
      cases answer <;> rfl
    have hcounted : ((s.account answer).moveTo i (.stores current)).counted = s.counted + 1 := by
      cases answer <;> simp only [counted, moveTo, account] <;> omega
    exact h.moves hpc hthreads hkeep rfl rfl (by rw [hflights]; rfl) rfl (by rw [hcounted]; rfl)
      (fun _ => .inl rfl) (no_true rfl) (fun heq => by cases heq)
  case stores current =>
    cases hs
    exact h.moves hpc rfl hgate rfl rfl rfl rfl rfl (no_true rfl) (no_true rfl)
      (fun heq => by cases heq)
  case lands =>
    cases hs
    refine h.moves hpc rfl hgate rfl rfl ?_ rfl rfl (no_true rfl) (no_true rfl)
      (fun heq => by cases heq)
    -- The flight that lands is one of those counted.
    have hpos : 0 < s.threads.countP Pc.flying :=
      List.countP_pos_iff.mpr ⟨_, List.mem_of_getElem? hpc, rfl⟩
    have hin := h.flights
    simp only [Pc.flying, Bool.toNat_true, Bool.toNat_false]
    omega
  all_goals cases hs

theorem Sound.stepLifecycle (h : s.Sound) (hpc : s.threads[i]? = some pc) {ok : Bool}
    (hs : s.stepLifecycle i ok pc = some t) : t.Sound := by
  have hsame : ∀ {u : Adapter}, u.closedOnce = s.closedOnce → u.accepting = s.accepting →
      u.shutdowns = s.shutdowns → u.ingressCloses = s.ingressCloses → s.Shut → u.Shut := by
    intro u hclosed haccepting hshutdowns hcloses hs
    exact ⟨hclosed.trans hs.closed, haccepting.trans hs.gate, hshutdowns.trans hs.shutdown,
      hcloses.trans hs.ingress⟩
  have hone : ∀ {n : ℕ} {P : Prop}, n = 0 → n = 1 → P := by
    intro n P hzero hone
    omega
  have hown : pc.critical = true → s.lifecycle = some i := (h.owner i pc hpc).mp
  have hfit : pc.critical = true → s.Fits pc := by
    intro hcritical
    obtain ⟨q, hq, hfit⟩ := h.owned i (hown hcritical)
    rw [hpc] at hq
    cases hq
    exact hfit
  cases pc <;> simp only [Adapter.stepLifecycle] at hs
  case wantsConnect =>
    split at hs
    next hfree =>
      cases hs
      have hrest := h.rest hfree
      exact h.locked hpc rfl ⟨rfl, rfl⟩ rfl rfl (.inl hfree) rfl
        (fun _ => ⟨hrest.fresh, hrest.settled⟩) (no_false rfl) (hsame rfl rfl rfl rfl) (no_true rfl)
        (fun heq => by cases heq)
    next => cases hs
  case checks =>
    cases hs
    have hrest : s.Rest := hfit rfl
    have hlock : s.lifecycle = some i := hown rfl
    cases hclosed : s.closedOnce <;> cases hopen : s.accepting <;>
      simp only [Bool.or_true, Bool.or_false, Bool.false_eq_true, if_true, if_false]
    case false.false =>
      have hzero := hrest.fresh hclosed
      exact h.locked hpc rfl ⟨rfl, rfl⟩ rfl rfl (.inr hlock) hlock
        (fun _ => ⟨hclosed, hopen, hzero⟩) (no_false rfl) (hsame rfl rfl rfl rfl) (no_true rfl)
        (fun heq => by cases heq)
    all_goals
      exact h.locked hpc rfl ⟨rfl, rfl⟩ rfl rfl (.inr hlock) hlock
        (fun _ => ⟨hrest.fresh, hrest.settled⟩) (no_false rfl) (hsame rfl rfl rfl rfl) (no_true rfl)
        (fun heq => by cases heq)
  case initializes =>
    cases hs
    have hfit := hfit rfl
    cases ok <;>
      exact h.locked hpc rfl ⟨rfl, rfl⟩ rfl rfl (.inr (hown rfl)) (hown rfl) (fun _ => hfit)
        (no_false rfl) (hsame rfl rfl rfl rfl) (no_true rfl) (fun heq => by cases heq)
  case opens =>
    cases hs
    obtain ⟨hclosed, -, hzero⟩ := hfit rfl
    exact h.locked hpc rfl ⟨rfl, rfl⟩ rfl rfl (.inr (hown rfl)) (hown rfl)
      (fun _ => ⟨hclosed, hzero⟩) (no_false rfl) (fun hshut => no_true hclosed hshut.closed)
      (no_true rfl)
      (fun heq => by cases heq)
  case joins =>
    cases hs
    obtain ⟨hclosed, hzero⟩ := hfit rfl
    cases ok with
    | false =>
      exact h.locked hpc rfl ⟨rfl, rfl⟩ rfl rfl (.inr (hown rfl)) (hown rfl)
        (fun _ => ⟨hclosed, hzero⟩) (no_false rfl) (hsame rfl rfl rfl rfl) (no_true rfl)
        (fun heq => by cases heq)
    | true =>
      exact h.locked hpc rfl ⟨rfl, rfl⟩ rfl rfl (.inr (hown rfl)) (hown rfl)
        (fun _ => ⟨fun _ => hzero, no_true hclosed⟩) (no_false rfl) (hsame rfl rfl rfl rfl)
        (no_true rfl)
        (fun heq => by cases heq)
  case lowersGate =>
    cases hs
    obtain ⟨hclosed, hzero⟩ := hfit rfl
    exact h.locked hpc rfl ⟨rfl, rfl⟩ rfl rfl (.inr (hown rfl)) (hown rfl)
      (fun _ => ⟨hclosed, rfl, hzero⟩) (no_false rfl) (fun hshut => hone hzero.1 hshut.shutdown)
      (no_true rfl) (fun heq => by cases heq)
  case shutsDown =>
    cases hs
    obtain ⟨hclosed, hopen, hshutdowns, hcloses⟩ := hfit rfl
    exact h.locked hpc rfl ⟨rfl, rfl⟩ rfl rfl (.inr (hown rfl)) (hown rfl)
      (fun _ => ⟨hclosed, hopen, congrArg (· + 1) hshutdowns, hcloses⟩) (no_false rfl)
      (fun hshut => hone hshutdowns hshut.shutdown) (no_true rfl) (fun heq => by cases heq)
  case marks =>
    cases hs
    obtain ⟨-, hopen, hcalls⟩ := hfit rfl
    exact h.locked hpc rfl ⟨rfl, rfl⟩ rfl rfl (.inr (hown rfl)) (hown rfl)
      (fun _ => ⟨rfl, hopen, hcalls⟩) (no_false rfl) (fun hshut => hone hcalls.2 hshut.ingress)
      (no_true rfl)
      (fun heq => by cases heq)
  case closesIngress =>
    cases hs
    obtain ⟨hclosed, hopen, hshutdowns, hcloses⟩ := hfit rfl
    exact h.locked hpc rfl ⟨rfl, rfl⟩ rfl rfl (.inr (hown rfl)) (hown rfl)
      (fun _ => ⟨no_false hclosed, fun _ => ⟨hopen, hshutdowns, congrArg (· + 1) hcloses⟩⟩)
      (no_false rfl) (fun hshut => hone hcloses hshut.ingress) (no_true rfl)
      (fun heq => by cases heq)
  case unlocksConnect connected =>
    cases hs
    have hrest : s.Rest := hfit rfl
    exact h.locked hpc rfl ⟨rfl, rfl⟩ rfl rfl (.inr (hown rfl)) rfl (no_true rfl)
      (fun _ => ⟨hrest.fresh, hrest.settled⟩) (hsame rfl rfl rfl rfl) (no_true rfl)
      (fun heq => by cases heq)
  case wantsLeave =>
    split at hs
    next hfree =>
      cases hs
      have hrest := h.rest hfree
      exact h.locked hpc rfl ⟨rfl, rfl⟩ rfl rfl (.inl hfree) rfl
        (fun _ => ⟨hrest.fresh, hrest.settled⟩) (no_false rfl) (hsame rfl rfl rfl rfl) (no_true rfl)
        (fun heq => by cases heq)
    next => cases hs
  case exchanges =>
    cases hs
    have hrest : s.Rest := hfit rfl
    cases hclosed : s.closedOnce with
    | false =>
      rw [if_neg Bool.false_ne_true]
      exact h.locked hpc rfl ⟨rfl, rfl⟩ rfl rfl (.inr (hown rfl)) (hown rfl)
        (fun _ => ⟨rfl, hrest.fresh hclosed⟩) (no_false rfl)
        (fun hshut => ⟨rfl, hshut.gate, hshut.shutdown, hshut.ingress⟩) (no_true rfl)
        (fun heq => by cases heq)
    | true =>
      rw [if_pos rfl]
      exact h.locked hpc rfl ⟨rfl, rfl⟩ rfl rfl (.inr (hown rfl)) (hown rfl)
        (fun _ => ⟨rfl, hrest.settled hclosed⟩) (no_false rfl)
        (fun hshut => ⟨rfl, hshut.gate, hshut.shutdown, hshut.ingress⟩) (no_true rfl)
        (fun heq => by cases heq)
  case lowers =>
    cases hs
    obtain ⟨hclosed, hzero⟩ := hfit rfl
    exact h.locked hpc rfl ⟨rfl, rfl⟩ rfl rfl (.inr (hown rfl)) (hown rfl)
      (fun _ => ⟨hclosed, rfl, hzero⟩) (no_false rfl) (fun hshut => hone hzero.1 hshut.shutdown)
      (no_true rfl) (fun heq => by cases heq)
  case closesFirst =>
    cases hs
    obtain ⟨hclosed, hopen, hshutdowns, hcloses⟩ := hfit rfl
    exact h.locked hpc rfl ⟨rfl, rfl⟩ rfl rfl (.inr (hown rfl)) (hown rfl)
      (fun _ => ⟨hclosed, hopen, hshutdowns, congrArg (· + 1) hcloses⟩) (no_false rfl)
      (fun hshut => hone hcloses hshut.ingress) (no_true rfl) (fun heq => by cases heq)
  case leavesSdk =>
    cases hs
    obtain ⟨hclosed, hopen, hshutdowns, hcloses⟩ := hfit rfl
    exact h.locked hpc rfl ⟨rfl, rfl⟩ rfl rfl (.inr (hown rfl)) (hown rfl)
      (fun _ => ⟨hclosed, hopen, congrArg (· + 1) hshutdowns, hcloses⟩) (no_false rfl)
      (fun hshut => hone hshutdowns hshut.shutdown) (no_true rfl) (fun heq => by cases heq)
  case unlocksLeave =>
    cases hs
    obtain ⟨hclosed, hopen, hcalls⟩ := hfit rfl
    exact h.locked hpc rfl ⟨rfl, rfl⟩ rfl rfl (.inr (hown rfl)) rfl (no_true rfl)
      (fun _ => ⟨no_false hclosed, fun _ => ⟨hopen, hcalls⟩⟩) (hsame rfl rfl rfl rfl)
      (fun _ => ⟨hclosed, hopen, hcalls.1, hcalls.2⟩) (fun heq => by cases heq)
  case drains =>
    have hshut : s.Shut := h.shut _ (List.mem_of_getElem? hpc) rfl
    have hgate : s.closedOnce = s.closedOnce ∧ s.accepting = s.accepting ∧
        s.lifecycle = s.lifecycle ∧ s.shutdowns = s.shutdowns ∧ s.ingressCloses = s.ingressCloses :=
      ⟨rfl, rfl, rfl, rfl, rfl⟩
    split at hs
    next hzero =>
      cases hs
      refine h.moves hpc rfl hgate rfl rfl rfl rfl rfl (no_true rfl) (fun _ => hshut) ?_
      intro _ q hq
      rw [h.flights, List.countP_eq_zero] at hzero
      rw [← Bool.not_eq_true]
      exact fun hinside => hzero q hq (Pc.flying_of_inside hinside)
    next =>
      split at hs
      next => cases hs
      next =>
        cases hs
        exact h.moves hpc rfl hgate rfl rfl rfl rfl rfl (no_true rfl) (fun _ => hshut)
          (fun heq => by cases heq)
  all_goals cases hs

/-- What a step can do. -/
theorem step_cases {a : AdapterAction} (hs : s.step maxPacketBytes a = some t) :
    (∃ call : Call, t = { s with threads := s.threads ++ [call.entry] }) ∨
      ∃ i pc ok status, s.threads[i]? = some pc ∧
        (s.stepCallback maxPacketBytes i ok status pc = some t ∨
          s.stepLifecycle i ok pc = some t) := by
  cases a with
  | start call =>
    cases hs
    exact .inl ⟨call, rfl⟩
  | step i ok status =>
    obtain ⟨pc, hpc, hs⟩ := Option.bind_eq_some_iff.mp hs
    refine .inr ⟨i, pc, ok, status, hpc, ?_⟩
    cases hcallback : s.stepCallback maxPacketBytes i ok status pc with
    | none =>
      rw [hcallback] at hs
      exact .inr hs
    | some u =>
      rw [hcallback] at hs
      exact .inl hs

theorem Sound.step (h : s.Sound) {a : AdapterAction} (hs : s.step maxPacketBytes a = some t) :
    t.Sound := by
  rcases step_cases hs with ⟨call, rfl⟩ | ⟨i, pc, ok, status, hpc, hs | hs⟩
  · exact h.starts call
  · exact h.stepCallback hpc hs
  · exact h.stepLifecycle hpc hs

theorem sound_of_reachable (hr : (adapterSystem maxPacketBytes).Reachable s) : s.Sound :=
  hr.invariant (fun s h0 => by rw [h0]; exact sound_new) fun _ _ _ _ h hs => h.step hs

end Adapter

end Muxiva.Agora
