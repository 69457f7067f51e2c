import Mathlib.Data.List.Lex
import Mathlib.Data.List.Perm.Subperm
import Mathlib.Logic.Relation
import Mathlib.Order.Bounds.Basic
import Mathlib.Order.WellFounded
import Mathlib.Data.Fintype.EquivFin
import Mathlib.Data.Fintype.Sets

/-! Topological orders of a finite directed multigraph, given by the list of its nodes and the
list of its arcs, and the order a greedy choice of the least available node produces. -/
set_option linter.all false
namespace Topological
open Relation

variable {ν : Type*} {nodes : List ν} {arcs : List (ν × ν)}

def Arc (arcs : List (ν × ν)) (u v : ν) : Prop := (u, v) ∈ arcs

def Acyclic (arcs : List (ν × ν)) : Prop := ∀ v, ¬ TransGen (Arc arcs) v v

/-- On a directed cycle, or reachable from one. -/
def BehindCycle (arcs : List (ν × ν)) (v : ν) : Prop :=
  ∃ u, TransGen (Arc arcs) u u ∧ ReflTransGen (Arc arcs) u v

/-- A listing of the nodes in which every arc goes forward. -/
structure IsOrder [DecidableEq ν] (nodes : List ν) (arcs : List (ν × ν)) (order : List ν) :
    Prop where
  perm : order.Perm nodes
  forward : ∀ u v, Arc arcs u v → order.idxOf u < order.idxOf v

/-- All that precedes `v` is done, and `v` is not. -/
def Available (nodes : List ν) (arcs : List (ν × ν)) (done : List ν) (v : ν) : Prop :=
  v ∈ nodes ∧ v ∉ done ∧ ∀ u, Arc arcs u v → u ∈ done

theorem acyclic_iff : Acyclic arcs ↔ ∀ v, ¬ BehindCycle arcs v := by
  constructor
  · rintro h v ⟨u, hcycle, -⟩
    exact h u hcycle
  · intro h v hcycle
    exact h v ⟨v, hcycle, .refl⟩

/-- In a finite set of nodes that all have a predecessor in it, going back ends in a cycle. -/
theorem behindCycle_of_predecessors {S : ν → Prop} (hfinite : ∃ l : List ν, ∀ v, S v → v ∈ l)
    (hpred : ∀ v, S v → ∃ u, S u ∧ Arc arcs u v) {v : ν} (hv : S v) : BehindCycle arcs v := by
  classical
  obtain ⟨l, hl⟩ := hfinite
  by_contra hnone
  -- the ancestors of `v` in `S`: none is on a cycle, so one of them has no predecessor
  let T := { u : ν // S u ∧ ReflTransGen (Arc arcs) u v }
  have : Finite T :=
    Finite.of_injective (β := { u : ν // u ∈ l }) (fun u => ⟨u.1, hl u.1 u.2.1⟩) fun a b h =>
      Subtype.ext (congrArg (fun x : { u : ν // u ∈ l } => x.1) h)
  let R : T → T → Prop := fun a b => TransGen (Arc arcs) a.1 b.1
  have : IsTrans T R := ⟨fun a b c hab hbc => TransGen.trans hab hbc⟩
  have : Std.Irrefl R := ⟨fun a ha => hnone ⟨a.1, ha, a.2.2⟩⟩
  have hwf : WellFounded R := Finite.wellFounded_of_trans_of_irrefl R
  obtain ⟨m, -, hm⟩ := hwf.has_min Set.univ ⟨⟨v, hv, .refl⟩, trivial⟩
  obtain ⟨u, hu, harc⟩ := hpred m.1 m.2.1
  exact hm ⟨u, hu, .head harc m.2.2⟩ trivial (.single harc)

section Greedy
variable [LinearOrder ν]

/-- Lexicographically before, or equal. -/
def LexLe (xs ys : List ν) : Prop := xs = ys ∨ List.Lex (· < ·) xs ys

/-- The choices made from `done` on, each the least available node, until none is. -/
inductive Greedy (nodes : List ν) (arcs : List (ν × ν)) : List ν → List ν → Prop where
  | stop {done : List ν} (h : ∀ v, ¬ Available nodes arcs done v) : Greedy nodes arcs done []
  | pick {done rest : List ν} {v : ν} (h : IsLeast {w | Available nodes arcs done w} v)
      (hrest : Greedy nodes arcs (done ++ [v]) rest) : Greedy nodes arcs done (v :: rest)

namespace Greedy
variable {done order : List ν}

theorem mem_nodes (h : Greedy nodes arcs done order) : ∀ v ∈ order, v ∈ nodes ∧ v ∉ done := by
  induction h with
  | stop => simp
  | pick h _ ih =>
    intro w hw
    rcases List.mem_cons.mp hw with rfl | hw
    · exact ⟨h.1.1, h.1.2.1⟩
    · obtain ⟨hnode, hdone⟩ := ih w hw
      exact ⟨hnode, fun hw => hdone (List.mem_append_left _ hw)⟩

theorem nodup (h : Greedy nodes arcs done order) : order.Nodup := by
  induction h with
  | stop => exact .nil
  | pick h hrest ih =>
    refine List.nodup_cons.mpr ⟨fun hmem => ?_, ih⟩
    exact (hrest.mem_nodes _ hmem).2 (List.mem_append_right _ (List.mem_singleton_self _))

/-- What precedes a chosen node has been chosen before it. -/
theorem before (h : Greedy nodes arcs done order) {front back : List ν} {v : ν}
    (hsplit : order = front ++ v :: back) : ∀ u, Arc arcs u v → u ∈ done ++ front := by
  induction h generalizing front with
  | stop => simp at hsplit
  | @pick done rest w h _ ih =>
    intro u hu
    cases front with
    | nil =>
      obtain ⟨rfl, rfl⟩ := List.cons.inj hsplit
      exact List.mem_append_left _ (h.1.2.2 u hu)
    | cons x front =>
      obtain ⟨rfl, hrest⟩ := List.cons.inj hsplit
      simpa using ih hrest u hu

/-- A node left out has a predecessor left out. -/
theorem left_out (h : Greedy nodes arcs done order) {v : ν} (hv : v ∈ nodes)
    (hout : v ∉ done ++ order) : ∃ u, u ∉ done ++ order ∧ Arc arcs u v := by
  induction h with
  | stop hnone =>
    rw [List.append_nil] at hout
    by_contra hall
    push Not at hall
    refine hnone v ⟨hv, hout, fun u hu => ?_⟩
    by_contra hu'
    exact hall u (by simpa using hu') hu
  | pick _ _ ih =>
    simpa using ih (by simpa using hout)

/-- Arcs into chosen nodes come from chosen nodes, and go forward. -/
theorem arc_back (h : Greedy nodes arcs [] order) {u v : ν} (hv : v ∈ order)
    (hu : Arc arcs u v) : u ∈ order ∧ order.idxOf u < order.idxOf v := by
  obtain ⟨front, back, hsplit⟩ := List.append_of_mem hv
  have hfront : u ∈ front := by simpa using h.before hsplit u hu
  have hnotin : v ∉ front := by
    intro hmem
    have hnodup := h.nodup
    rw [hsplit] at hnodup
    exact List.disjoint_of_nodup_append hnodup hmem List.mem_cons_self
  rw [hsplit, List.idxOf_append_of_mem hfront, List.idxOf_append_of_notMem hnotin]
  refine ⟨List.mem_append_left _ hfront, ?_⟩
  have := List.idxOf_lt_length_of_mem hfront
  omega

theorem path_back (h : Greedy nodes arcs [] order) {u v : ν} (hpath : TransGen (Arc arcs) u v)
    (hv : v ∈ order) : u ∈ order ∧ order.idxOf u < order.idxOf v := by
  induction hpath with
  | single harc => exact h.arc_back hv harc
  | tail _ harc ih =>
    obtain ⟨hmid, hlt⟩ := h.arc_back hv harc
    obtain ⟨hu, hlt'⟩ := ih hmid
    exact ⟨hu, hlt'.trans hlt⟩

/-- The nodes left out are those behind a cycle. -/
theorem notMem_iff (h : Greedy nodes arcs [] order)
    (hclosed : ∀ u v, Arc arcs u v → u ∈ nodes ∧ v ∈ nodes) {v : ν} (hv : v ∈ nodes) :
    v ∉ order ↔ BehindCycle arcs v := by
  constructor
  · intro hout
    refine behindCycle_of_predecessors (S := fun v => v ∈ nodes ∧ v ∉ order)
      ⟨nodes, fun v hv => hv.1⟩ ?_ ⟨hv, hout⟩
    rintro v ⟨hv, hout⟩
    obtain ⟨u, hu, harc⟩ := h.left_out hv (by simpa using hout)
    exact ⟨u, ⟨(hclosed u v harc).1, by simpa using hu⟩, harc⟩
  · rintro ⟨u, hcycle, hpath⟩ hmem
    have hu : u ∈ order := by
      rcases reflTransGen_iff_eq_or_transGen.mp hpath with rfl | hpath
      · exact hmem
      · exact (h.path_back hpath hmem).1
    exact lt_irrefl _ (h.path_back hcycle hu).2

/-- All nodes are chosen when there is no cycle. -/
theorem covers_iff (h : Greedy nodes arcs [] order)
    (hclosed : ∀ u v, Arc arcs u v → u ∈ nodes ∧ v ∈ nodes) :
    (∀ v ∈ nodes, v ∈ order) ↔ Acyclic arcs := by
  constructor
  · intro hall v hcycle
    have hv : v ∈ nodes := by
      obtain ⟨w, harc, -⟩ := TransGen.head'_iff.mp hcycle
      exact (hclosed v w harc).1
    exact (h.notMem_iff hclosed hv).mpr ⟨v, hcycle, .refl⟩ (hall v hv)
  · intro hacyclic v hv
    by_contra hout
    exact acyclic_iff.mp hacyclic v ((h.notMem_iff hclosed hv).mp hout)

theorem length_eq_iff (h : Greedy nodes arcs [] order) (hnodes : nodes.Nodup) :
    order.length = nodes.length ↔ ∀ v ∈ nodes, v ∈ order := by
  have hsub : order.Subperm nodes := List.subperm_of_subset h.nodup fun v hv => (h.mem_nodes v hv).1
  constructor
  · intro hlen v hv
    exact (hsub.perm_of_length_le hlen.ge).mem_iff.mpr hv
  · intro hall
    exact le_antisymm hsub.length_le (List.subperm_of_subset hnodes hall).length_le

theorem isOrder (h : Greedy nodes arcs [] order) (hnodes : nodes.Nodup)
    (hclosed : ∀ u v, Arc arcs u v → u ∈ nodes ∧ v ∈ nodes)
    (hall : ∀ v ∈ nodes, v ∈ order) : IsOrder nodes arcs order where
  perm := (List.perm_ext_iff_of_nodup h.nodup hnodes).mpr fun v =>
    ⟨fun hv => (h.mem_nodes v hv).1, hall v⟩
  forward u v harc := (h.arc_back (hall v (hclosed u v harc).2) harc).2

/-- The next node of any order is available, so the least available one is no greater. -/
theorem le_order (h : Greedy nodes arcs done order) (hnodes : nodes.Nodup) {other : List ν}
    (hother : IsOrder nodes arcs (done ++ other)) : LexLe order other := by
  induction h generalizing other with
  | stop =>
    cases other with
    | nil => exact .inl rfl
    | cons w other => exact .inr .nil
  | @pick done rest v hleast _ ih =>
    obtain ⟨hv, hnew, -⟩ := hleast.1
    have hnodup := hother.perm.nodup_iff.mpr hnodes
    cases other with
    | nil => exact absurd (hother.perm.mem_iff.mpr hv) (by simpa using hnew)
    | cons w other =>
      have hw : w ∉ done := fun hmem =>
        List.disjoint_of_nodup_append hnodup hmem List.mem_cons_self
      have havailable : Available nodes arcs done w := by
        refine ⟨hother.perm.mem_iff.mp (by simp), hw, fun u hu => ?_⟩
        by_contra hout
        have hlt := hother.forward u w hu
        rw [List.idxOf_append_of_notMem hout, List.idxOf_append_of_notMem hw,
          List.idxOf_cons_self] at hlt
        omega
      rcases (hleast.2 havailable).lt_or_eq with hlt | rfl
      · exact .inr (.rel hlt)
      · rcases ih (by simpa using hother) with rfl | hlex
        · exact .inl rfl
        · exact .inr (.cons hlex)

end Greedy
end Greedy
end Topological
