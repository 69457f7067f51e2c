import Mathlib.Data.List.Basic
import Mathlib.Data.List.Chain
import Mathlib.Order.Basic
import Mathlib.Order.CompletePartialOrder
import Mathlib.Order.Interval.Set.Disjoint

/-! Half-open pieces laid end to end. -/
namespace Tiling

universe u v

variable {α : Type u} {ι : Type v} [LinearOrder α] (lo hi : ι → α)

/-- The pieces, in order, start at `a`, meet each other and end at `b`. -/
def Tiles : α → List ι → α → Prop
  | a, [], b => a = b
  | a, i :: is, b => lo i = a ∧ lo i < hi i ∧ Tiles (hi i) is b

variable {lo hi} {a b : α} {i : ι} {is : List ι}

theorem Tiles.le (h : Tiles lo hi a is b) : a ≤ b := by
  induction is generalizing a with
  | nil => exact le_of_eq h
  | cons i is ih =>
    obtain ⟨rfl, hlt, hrest⟩ := h
    exact hlt.le.trans (ih hrest)

theorem Tiles.bounds (h : Tiles lo hi a is b) (hi' : i ∈ is) : a ≤ lo i ∧ hi i ≤ b := by
  induction is generalizing a with
  | nil => cases hi'
  | cons j is ih =>
    obtain ⟨rfl, hlt, hrest⟩ := h
    rcases List.mem_cons.mp hi' with rfl | hmem
    · exact ⟨le_rfl, hrest.le⟩
    · obtain ⟨hle, hend⟩ := ih hrest hmem
      exact ⟨hlt.le.trans hle, hend⟩

theorem Tiles.lt (h : Tiles lo hi a is b) (hi' : i ∈ is) : lo i < hi i := by
  induction is generalizing a with
  | nil => cases hi'
  | cons j is ih =>
    obtain ⟨-, hlt, hrest⟩ := h
    rcases List.mem_cons.mp hi' with rfl | hmem
    · exact hlt
    · exact ih hrest hmem

theorem Tiles.chain (h : Tiles lo hi a is b) : is.IsChain fun i j => hi i = lo j := by
  induction is generalizing a with
  | nil => exact .nil
  | cons i is ih =>
    obtain ⟨-, -, hrest⟩ := h
    cases is with
    | nil => exact .singleton i
    | cons j is =>
      have hmeet := hrest.1.symm
      exact .cons_cons hmeet (ih hrest)

theorem Tiles.pairwise (h : Tiles lo hi a is b) : is.Pairwise fun i j => hi i ≤ lo j := by
  induction is generalizing a with
  | nil => exact .nil
  | cons i is ih =>
    obtain ⟨-, -, hrest⟩ := h
    exact .cons (fun j hj => (hrest.bounds hj).1) (ih hrest)

theorem Tiles.mem_iff (h : Tiles lo hi a is b) (t : α) :
    (∃ i ∈ is, lo i ≤ t ∧ t < hi i) ↔ a ≤ t ∧ t < b := by
  induction is generalizing a with
  | nil =>
    obtain rfl := h
    simp
  | cons i is ih =>
    obtain ⟨rfl, hlt, hrest⟩ := h
    rw [List.exists_mem_cons_iff, ih hrest]
    have hle := hrest.le
    constructor
    · rintro (⟨hlow, hhigh⟩ | ⟨hlow, hhigh⟩)
      · exact ⟨hlow, hhigh.trans_le hle⟩
      · exact ⟨hlt.le.trans hlow, hhigh⟩
    · rintro ⟨hlow, hhigh⟩
      rcases lt_or_ge t (hi i) with hlt | hge
      · exact .inl ⟨hlow, hlt⟩
      · exact .inr ⟨hge, hhigh⟩

theorem Tiles.append {c : α} {js : List ι} (h : Tiles lo hi a is b) (h' : Tiles lo hi b js c) :
    Tiles lo hi a (is ++ js) c := by
  induction is generalizing a with
  | nil =>
    obtain rfl := h
    exact h'
  | cons i is ih =>
    obtain ⟨hlo, hlt, hrest⟩ := h
    exact ⟨hlo, hlt, ih hrest⟩

/-- No two pieces share a point. -/
theorem Tiles.disjoint (h : Tiles lo hi a is b) :
    is.Pairwise fun i j => Disjoint (Set.Ico (lo i) (hi i)) (Set.Ico (lo j) (hi j)) := by
  refine h.pairwise.imp fun {i j} hle => ?_
  rw [Set.Ico_disjoint_Ico]
  exact (min_le_left _ _).trans (hle.trans (le_max_right _ _))

end Tiling
