import Muxiva.Graph.Types
import Mathlib.Data.List.Infix

/-! Lifecycle callbacks, and the grammar their trace obeys whichever runner makes them: a phase
of `on_prepare`, `on_process` and `on_signal`, then `on_finish` in reverse topological order up
to the first failure, then `on_abort` of the prepared nodes, in that order too. -/
set_option linter.all false
namespace Muxiva

/-- A lifecycle callback as user code sees it, with whether it succeeded. -/
inductive Event where
  | prepare (n : NodeId) (ok : Bool)
  | process (n : NodeId) (input : Option EdgeDescriptor)
  | signal (n : NodeId)
  | finish (n : NodeId) (ok : Bool)
  | abort (n : NodeId) (reason : AbortReason)
  deriving DecidableEq

def Event.node : Event → NodeId
  | .prepare n _ | .process n _ | .signal n | .finish n _ | .abort n _ => n

def Event.isCall : Event → Bool
  | .process .. | .signal _ => true
  | _ => false

def Event.isFinish : Event → Bool
  | .finish .. => true
  | _ => false

def Event.isAbort : Event → Bool
  | .abort .. => true
  | _ => false

/-- Everything but `on_finish` and `on_abort`. -/
def Event.isWork (ev : Event) : Bool := !ev.isFinish && !ev.isAbort

/-- The callbacks of one node. -/
def nodeTrace (n : NodeId) (trace : List Event) : List Event := trace.filter (·.node = n)

/-- What one node may see. -/
def NodeGrammar (n : NodeId) (t : List Event) : Prop :=
  t = [.prepare n false] ∨
  ∃ calls finishes aborts, t = .prepare n true :: (calls ++ finishes ++ aborts) ∧
    (∀ ev ∈ calls, ev.isCall = true) ∧ (finishes = [] ∨ ∃ ok, finishes = [.finish n ok]) ∧
    (aborts = [] ∨ ∃ r, aborts = [.abort n r])

/-- What one node sees before the first `on_finish` or `on_abort` of the run. -/
structure WorkTrace (n : NodeId) (visited prepared : Bool) (t : List Event) : Prop where
  absent : visited = false → t = []
  first : visited = true → ∃ calls, t = .prepare n prepared :: calls ∧
    (∀ ev ∈ calls, ev.isCall = true) ∧ (prepared = false → calls = [])
  entered : prepared = true → visited = true

/-- The phases of a trace: `done` and `failed` are the nodes whose `on_finish` succeeded and
failed, `aborted` those whose `on_abort` ran. -/
structure TraceShape (order : List NodeId) (visited prepared : NodeId → Bool) (trace : List Event)
    (work : List Event) (done : List NodeId) (failed : Option NodeId) (aborted : List NodeId)
    (reason : AbortReason) : Prop where
  trace : trace = work ++
    (done.map (Event.finish · true) ++ failed.toList.map (Event.finish · false)) ++
    aborted.map (Event.abort · reason)
  isWork : ∀ ev ∈ work, ev.isWork = true
  nodes : ∀ n ∈ order, WorkTrace n (visited n) (prepared n) (nodeTrace n work)
  finishing : done ++ failed.toList <+: order.reverse
  ready : done ++ failed.toList ≠ [] → ∀ n ∈ order, prepared n = true
  aborting : aborted <+: order.reverse.filter prepared

namespace TraceShape
variable {order : List NodeId} {visited prepared : NodeId → Bool} {trace work : List Event}
  {done : List NodeId} {failed : Option NodeId} {aborted : List NodeId} {reason : AbortReason}

/-- Of a list of nodes without duplicates at most one entry is about a given node. -/
theorem filter_node {l : List NodeId} (hl : l.Nodup) (f : NodeId → Event)
    (hf : ∀ m, (f m).node = m) (n : NodeId) :
    nodeTrace n (l.map f) = if n ∈ l then [f n] else [] := by
  have hcomp : (fun m => decide ((f m).node = n)) = fun m => decide (m = n) := by
    funext m
    rw [hf m]
  unfold nodeTrace
  rw [List.filter_map]
  simp only [Function.comp_def, hcomp]
  rw [show (l.filter fun m => decide (m = n)) = if n ∈ l then [n] else [] from ?_]
  · split_ifs <;> rfl
  · split_ifs with hm
    · rw [show (fun m => decide (m = n)) = (· == n) from rfl, List.filter_beq,
        List.count_eq_one_of_mem hl hm]
      rfl
    · rw [List.filter_eq_nil_iff]
      intro m hm' heq
      simp only [decide_eq_true_eq] at heq
      exact hm (heq ▸ hm')

theorem nodeTrace_append (n : NodeId) (a b : List Event) :
    nodeTrace n (a ++ b) = nodeTrace n a ++ nodeTrace n b := List.filter_append _ _

variable (h : TraceShape order visited prepared trace work done failed aborted reason)
include h

theorem nodup_finishing (hnd : order.Nodup) : (done ++ failed.toList).Nodup :=
  h.finishing.sublist.nodup (List.nodup_reverse.mpr hnd)

theorem nodup_aborted (hnd : order.Nodup) : aborted.Nodup :=
  h.aborting.sublist.nodup ((List.nodup_reverse.mpr hnd).filter _)

/-- Work, `on_finish` and `on_abort` of one node. -/
theorem nodeTrace_eq (hnd : order.Nodup) (n : NodeId) :
    nodeTrace n trace = nodeTrace n work ++
      ((if n ∈ done then [Event.finish n true] else []) ++
        if n ∈ failed.toList then [Event.finish n false] else []) ++
      if n ∈ aborted then [Event.abort n reason] else [] := by
  have hfin := h.nodup_finishing hnd
  rw [List.nodup_append] at hfin
  rw [h.trace, nodeTrace_append, nodeTrace_append, nodeTrace_append,
    filter_node hfin.1 (Event.finish · true) (fun _ => rfl),
    filter_node hfin.2.1 (Event.finish · false) (fun _ => rfl),
    filter_node (h.nodup_aborted hnd) (.abort · reason) (fun _ => rfl)]

theorem mem_prepared_of_finish {n : NodeId} (hn : n ∈ done ++ failed.toList) :
    n ∈ order ∧ prepared n = true := by
  have hmem : n ∈ order := List.mem_reverse.mp (h.finishing.subset hn)
  exact ⟨hmem, h.ready (List.ne_nil_of_mem hn) n hmem⟩

theorem mem_prepared_of_abort {n : NodeId} (hn : n ∈ aborted) : prepared n = true :=
  (List.mem_filter.mp (h.aborting.subset hn)).2

/-- Each node's callbacks follow the grammar. -/
theorem nodeGrammar (hnd : order.Nodup) {n : NodeId} (hn : n ∈ order) :
    (visited n = false ∧ nodeTrace n trace = []) ∨
      visited n = true ∧ NodeGrammar n (nodeTrace n trace) := by
  have heq := h.nodeTrace_eq hnd n
  have hw := h.nodes n hn
  have hfin := h.nodup_finishing hnd
  rw [List.nodup_append] at hfin
  -- without a successful `on_prepare` no terminal callback names the node
  have hnone : prepared n = false → n ∉ done ∧ n ∉ failed.toList ∧ n ∉ aborted := by
    intro hp
    refine ⟨fun hd => ?_, fun hf => ?_, fun ha => ?_⟩
    · simp [(h.mem_prepared_of_finish (List.mem_append_left _ hd)).2] at hp
    · simp [(h.mem_prepared_of_finish (List.mem_append_right _ hf)).2] at hp
    · simp [h.mem_prepared_of_abort ha] at hp
  cases hv : visited n with
  | false =>
    have hp : prepared n = false := by
      by_contra hne
      simp [hw.entered (by simpa using hne)] at hv
    obtain ⟨hd, hf, ha⟩ := hnone hp
    left
    rw [heq, hw.absent hv]
    simp [hd, hf, ha]
  | true =>
    right
    obtain ⟨calls, ht, hcalls, hempty⟩ := hw.first hv
    refine ⟨rfl, ?_⟩
    rw [heq, ht]
    cases hp : prepared n with
    | false =>
      obtain ⟨hd, hf, ha⟩ := hnone hp
      left
      simp [hd, hf, ha, hempty hp]
    | true =>
      right
      refine ⟨calls, (if n ∈ done then [Event.finish n true] else []) ++
        (if n ∈ failed.toList then [Event.finish n false] else []),
        if n ∈ aborted then [Event.abort n reason] else [], by simp, hcalls, ?_, ?_⟩
      · by_cases hd : n ∈ done
        · have hf : n ∉ failed.toList := fun hf => hfin.2.2 n hd n hf rfl
          exact .inr ⟨true, by simp [hd, hf]⟩
        · by_cases hf : n ∈ failed.toList
          · exact .inr ⟨false, by simp [hd, hf]⟩
          · exact .inl (by simp [hd, hf])
      · by_cases ha : n ∈ aborted
        · exact .inr ⟨reason, by simp [ha]⟩
        · exact .inl (by simp [ha])

/-- No `on_prepare`, `on_process` or `on_signal` of any node comes after an `on_finish` or
`on_abort`. -/
theorem phases : ∃ work terminal, trace = work ++ terminal ∧
    (∀ ev ∈ work, ev.isWork = true) ∧ ∀ ev ∈ terminal, ev.isWork = false := by
  refine ⟨work, _, by rw [h.trace, List.append_assoc], h.isWork, fun ev hev => ?_⟩
  simp only [List.mem_append, List.mem_map] at hev
  rcases hev with (⟨m, -, rfl⟩ | ⟨m, -, rfl⟩) | ⟨m, -, rfl⟩ <;> rfl

theorem filter_abort : trace.filter Event.isAbort = aborted.map (Event.abort · reason) := by
  rw [h.trace, List.filter_append, List.filter_append]
  have hwork : work.filter Event.isAbort = [] := by
    rw [List.filter_eq_nil_iff]
    intro ev hev ha
    have := h.isWork ev hev
    simp [Event.isWork, ha] at this
  have hfin : (done.map (Event.finish · true) ++ failed.toList.map (Event.finish · false)).filter
      Event.isAbort = [] := by
    rw [List.filter_eq_nil_iff]
    intro ev hev
    simp only [List.mem_append, List.mem_map] at hev
    rcases hev with ⟨m, -, rfl⟩ | ⟨m, -, rfl⟩ <;> simp [Event.isAbort]
  have habort : (aborted.map (Event.abort · reason)).filter Event.isAbort =
      aborted.map (Event.abort · reason) := by
    rw [List.filter_eq_self]
    intro ev hev
    obtain ⟨m, -, rfl⟩ := List.mem_map.mp hev
    rfl
  rw [hwork, hfin, habort, List.nil_append, List.nil_append]

/-- The trace tells which nodes are prepared. -/
theorem prepared_iff {n : NodeId} (hn : n ∈ order) :
    prepared n = true ↔ .prepare n true ∈ trace := by
  have hterm : Event.prepare n true ∈ trace ↔ .prepare n true ∈ nodeTrace n work := by
    rw [h.trace]
    simp [nodeTrace, Event.node]
  rw [hterm]
  have hw := h.nodes n hn
  cases hv : visited n with
  | false =>
    rw [hw.absent hv]
    simp only [List.not_mem_nil, iff_false]
    intro hp
    simp [hw.entered hp] at hv
  | true =>
    obtain ⟨calls, ht, hcalls, -⟩ := hw.first hv
    rw [ht, List.mem_cons]
    constructor
    · intro hp
      exact .inl (by rw [hp])
    · rintro (heq | hmem)
      · simpa using heq.symm
      · simpa [Event.isCall] using hcalls _ hmem

/-- One more `on_finish` succeeded. -/
theorem finish_ok {n : NodeId} {rest : List NodeId} (hrest : order.reverse = done ++ n :: rest)
    (hf : failed = none) (ha : aborted = []) (hall : ∀ m ∈ order, prepared m = true) :
    TraceShape order visited prepared (trace ++ [Event.finish n true]) work (done ++ [n]) failed
      aborted reason := by
  subst hf ha
  refine ⟨?_, h.isWork, h.nodes, ⟨rest, by simp [hrest]⟩, fun _ => hall, by simp⟩
  rw [h.trace]
  simp

/-- An `on_finish` failed. -/
theorem finish_failed {n : NodeId} {rest : List NodeId} (hrest : order.reverse = done ++ n :: rest)
    (hf : failed = none) (ha : aborted = []) (hall : ∀ m ∈ order, prepared m = true) :
    TraceShape order visited prepared (trace ++ [Event.finish n false]) work done (some n) aborted
      reason := by
  subst hf ha
  refine ⟨?_, h.isWork, h.nodes, ⟨rest, by simp [hrest]⟩, fun _ => hall, by simp⟩
  rw [h.trace]
  simp

/-- One more prepared node was aborted. -/
theorem abort_next {n : NodeId} {past rest : List NodeId} (hrest : order.reverse = past ++ n :: rest)
    (ha : aborted = past.filter prepared) (hn : prepared n = true) :
    TraceShape order visited prepared (trace ++ [Event.abort n reason]) work done failed
      (aborted ++ [n]) reason := by
  refine ⟨?_, h.isWork, h.nodes, h.finishing, h.ready, ⟨rest.filter prepared, ?_⟩⟩
  · rw [h.trace]
    simp
  · simp [ha, hrest, hn]

/-- Before the first `on_abort` the reason is open. -/
theorem with_reason (ha : aborted = []) (r : AbortReason) :
    TraceShape order visited prepared trace work done failed aborted r := by
  refine ⟨?_, h.isWork, h.nodes, h.finishing, h.ready, h.aborting⟩
  rw [h.trace, ha]
  rfl

end TraceShape

/-- The callbacks of a whole run; `outcome` is the published reason, if any. -/
structure LifecycleGrammar (order : List NodeId) (visited : NodeId → Bool) (trace : List Event)
    (outcome : Option AbortReason) : Prop where
  nodes : ∀ n ∈ order, (visited n = false ∧ nodeTrace n trace = []) ∨
    visited n = true ∧ NodeGrammar n (nodeTrace n trace)
  phases : ∃ work terminal, trace = work ++ terminal ∧
    (∀ ev ∈ work, ev.isWork = true) ∧ ∀ ev ∈ terminal, ev.isWork = false
  ok_iff : outcome = none ↔
    (∀ n ∈ order, (nodeTrace n trace).filter Event.isFinish = [.finish n true]) ∧
      ∀ ev ∈ trace, ev.isAbort = false
  err_iff : outcome.isSome = true ↔ ∃ r, trace.filter Event.isAbort =
    (order.reverse.filter fun n => .prepare n true ∈ trace).map (.abort · r)
  reason : ∀ r, outcome = some r → trace.filter Event.isAbort =
    (order.reverse.filter fun n => .prepare n true ∈ trace).map (.abort · r)

/-- A run that succeeds finished every node; one that fails aborted every prepared node. -/
structure Completed (order : List NodeId) (prepared : NodeId → Bool) (done : List NodeId)
    (failed : Option NodeId) (aborted : List NodeId) (reason : AbortReason)
    (outcome : Option AbortReason) : Prop where
  ok : outcome = none → done = order.reverse ∧ failed = none ∧ aborted = []
  err : ∀ r, outcome = some r → reason = r ∧ aborted = order.reverse.filter prepared

theorem LifecycleGrammar.of_shape {order : List NodeId} {visited prepared : NodeId → Bool}
    {trace work : List Event} {done : List NodeId} {failed : Option NodeId} {aborted : List NodeId}
    {reason : AbortReason} {outcome : Option AbortReason} (hnd : order.Nodup) (hne : order ≠ [])
    (h : TraceShape order visited prepared trace work done failed aborted reason)
    (hc : Completed order prepared done failed aborted reason outcome) :
    LifecycleGrammar order visited trace outcome := by
  have hfilter : (order.reverse.filter fun n => .prepare n true ∈ trace) =
      order.reverse.filter prepared := by
    refine List.filter_congr fun n hn => ?_
    have := h.prepared_iff (List.mem_reverse.mp hn)
    cases hp : prepared n <;> simp_all
  have hreason : ∀ r, outcome = some r → trace.filter Event.isAbort =
      (order.reverse.filter fun n => .prepare n true ∈ trace).map (.abort · r) := by
    intro r hr
    obtain ⟨rfl, ha⟩ := hc.err r hr
    rw [hfilter, h.filter_abort, ha]
  obtain ⟨m, hm⟩ := List.exists_mem_of_ne_nil order hne
  -- what the trace shows of a run that finished some node
  have hall : (∀ n ∈ order, (nodeTrace n trace).filter Event.isFinish = [.finish n true]) →
      prepared m = true := by
    intro hfin
    have hmem : Event.finish m true ∈ trace := by
      have : Event.finish m true ∈ (nodeTrace m trace).filter Event.isFinish := by
        rw [hfin m hm]
        exact List.mem_singleton_self _
      exact List.mem_of_mem_filter (List.mem_of_mem_filter this)
    rw [h.trace] at hmem
    simp only [List.mem_append, List.mem_map] at hmem
    rcases hmem with (hw | ⟨k, hk, heq⟩ | ⟨k, -, heq⟩) | ⟨k, -, heq⟩
    · simpa [Event.isWork, Event.isFinish] using h.isWork _ hw
    · cases heq
      exact (h.mem_prepared_of_finish (List.mem_append_left _ hk)).2
    · cases heq
    · cases heq
  refine ⟨fun n hn => h.nodeGrammar hnd hn, h.phases, ⟨fun ho => ?_, fun hok => ?_⟩,
    ⟨fun ho => ?_, fun ⟨r, hr⟩ => ?_⟩, hreason⟩
  · obtain ⟨rfl, rfl, rfl⟩ := hc.ok ho
    refine ⟨fun n hn => ?_, fun ev hev => ?_⟩
    · have hwork : (nodeTrace n work).filter Event.isFinish = [] := by
        rw [List.filter_eq_nil_iff]
        intro ev hev hf
        have := h.isWork ev (List.mem_of_mem_filter hev)
        simp [Event.isWork, hf] at this
      rw [h.nodeTrace_eq hnd n]
      simp [hwork, hn, Event.isFinish]
    · by_contra ha
      have hmem : ev ∈ trace.filter Event.isAbort := List.mem_filter.mpr ⟨hev, by simpa using ha⟩
      simp [h.filter_abort] at hmem
  · by_contra hsome
    obtain ⟨r, hr⟩ := Option.ne_none_iff_exists'.mp hsome
    have hmem : Event.abort m r ∈ trace.filter Event.isAbort := by
      rw [hreason r hr, hfilter]
      exact List.mem_map.mpr ⟨m, List.mem_filter.mpr ⟨List.mem_reverse.mpr hm, hall hok.1⟩, rfl⟩
    have := hok.2 _ (List.mem_of_mem_filter hmem)
    simp [Event.isAbort] at this
  · obtain ⟨r, hr⟩ := Option.isSome_iff_exists.mp ho
    exact ⟨r, hreason r hr⟩
  · rw [Option.isSome_iff_ne_none]
    intro ho
    obtain ⟨hdone, hfailed, haborted⟩ := hc.ok ho
    have hp : prepared m = true :=
      (h.mem_prepared_of_finish (List.mem_append_left _ (by rw [hdone]; simpa using hm))).2
    rw [h.filter_abort, haborted, hfilter] at hr
    have hmem : m ∈ order.reverse.filter prepared :=
      List.mem_filter.mpr ⟨List.mem_reverse.mpr hm, hp⟩
    rw [List.map_nil, eq_comm, List.map_eq_nil_iff] at hr
    simp [hr] at hmem

end Muxiva
