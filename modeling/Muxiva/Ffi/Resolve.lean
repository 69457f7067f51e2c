import Mathlib.Data.List.Count
import Mathlib.Data.List.Induction
import Muxiva.Ffi.Handles

/-! What a token resolves to. The generation of a slot counts what was inserted there, so that every
insertion issues a new token. -/
set_option linter.all false
namespace Muxiva.Ffi

variable {Frame Node Ingress α : Type*}

namespace Registry

/-- The entry a token stands for. -/
def resolve (r : Registry Frame Node Ingress) (token : Token) : Option (Entry Frame Node Ingress) :=
  (r.slots[token.slot]?).bind fun slot =>
    if slot.generation = token.generation then slot.entry else none

variable {r : Registry Frame Node Ingress} {token : Token} {entry : Entry Frame Node Ingress}

theorem resolve_eq_some :
    r.resolve token = some entry ↔
      ∃ slot, r.slots[token.slot]? = some slot ∧ slot.generation = token.generation ∧
        slot.entry = some entry := by
  unfold resolve
  cases hslot : r.slots[token.slot]? with
  | none => simp
  | some slot =>
    simp only [Option.bind_some, Option.some.injEq, exists_eq_left']
    split_ifs with hgeneration
    · simp [hgeneration]
    · simp [hgeneration]

/-- A token that resolves is answered by its entry alone. -/
theorem lookup_some (h : r.resolve token = some entry)
    (project : Entry Frame Node Ingress → Option α) (gone stale : String) :
    r.lookup token project gone stale =
      match project entry with
      | some a => .ok a
      | none => .error wrongKind := by
  obtain ⟨slot, hslot, hgeneration, hentry⟩ := resolve_eq_some.mp h
  have hfound : r.slot token = .ok slot := by
    simp only [Registry.slot, hslot, hgeneration, ne_eq, not_true_eq_false, if_false]
  unfold lookup
  cases hproject : project entry with
  | some a => simp only [hfound, hentry, hproject]
  | none => simp only [hfound, hentry, hproject]

/-- A token that does not resolve is refused. -/
theorem lookup_none (h : r.resolve token = none)
    (project : Entry Frame Node Ingress → Option α) (gone stale : String) :
    ∃ e, r.lookup token project gone stale = .error e := by
  unfold lookup Registry.slot
  unfold resolve at h
  cases hslot : r.slots[token.slot]? with
  | none => exact ⟨_, rfl⟩
  | some slot =>
    simp only [hslot, Option.bind_some] at h
    by_cases hgeneration : slot.generation = token.generation
    · simp only [hgeneration, if_true] at h
      simp only [hgeneration, ne_eq, not_true_eq_false, if_false, h]
      split_ifs <;> exact ⟨_, rfl⟩
    · simp only [ne_eq, hgeneration, not_false_eq_true, if_true]
      exact ⟨_, rfl⟩

/-- What a lookup finds is what the token resolves to. -/
theorem lookup_ok {project : Entry Frame Node Ingress → Option α} {gone stale : String} {a : α}
    (h : r.lookup token project gone stale = .ok a) :
    ∃ entry, r.resolve token = some entry ∧ project entry = some a := by
  cases hresolve : r.resolve token with
  | none =>
    obtain ⟨e, he⟩ := lookup_none hresolve project gone stale
    rw [he] at h
    cases h
  | some entry =>
    rw [lookup_some hresolve] at h
    cases hproject : project entry with
    | none => simp [hproject] at h
    | some b =>
      simp only [hproject, Except.ok.injEq] at h
      exact ⟨entry, rfl, h ▸ hproject⟩

theorem nextGeneration_eq {generation : ℕ} (h : generation + 1 < 2 ^ 64) :
    nextGeneration generation = generation + 1 := by
  unfold nextGeneration
  rw [Nat.mod_eq_of_lt h]
  omega

/-- An insertion fills an empty slot under its next generation, or makes a slot of generation 1. -/
theorem insert_cases (r : Registry Frame Node Ingress) (entry : Entry Frame Node Ingress) :
    (∃ index slot, r.slots[index]? = some slot ∧ slot.entry = none ∧
        r.insert entry = (⟨r.slots.set index
          { slot with generation := nextGeneration slot.generation, entry := some entry }⟩,
          ⟨index, nextGeneration slot.generation⟩)) ∨
      r.insert entry = (⟨r.slots ++ [⟨1, some entry, 0⟩]⟩, ⟨r.slots.length, 1⟩) := by
  unfold Registry.insert
  cases hfind : r.slots.zipIdx.find? fun x => x.1.entry.isNone with
  | none => exact .inr rfl
  | some x =>
    obtain ⟨slot, index⟩ := x
    have hempty : slot.entry = none := by simpa using List.find?_some hfind
    have hslot : r.slots[index]? = some slot :=
      List.mem_zipIdx_iff_getElem?.mp (List.mem_of_find?_eq_some hfind)
    exact .inl ⟨index, slot, hslot, hempty, rfl⟩

theorem resolve_set {index : ℕ} {slot new : Slot Frame Node Ingress}
    (hslot : r.slots[index]? = some slot) (hempty : slot.entry = none) :
    (⟨r.slots.set index new⟩ : Registry Frame Node Ingress).resolve =
      Function.update r.resolve ⟨index, new.generation⟩ new.entry := by
  have hlt : index < r.slots.length := (List.getElem?_eq_some_iff.mp hslot).1
  funext token
  obtain ⟨number, generation⟩ := token
  by_cases hindex : number = index
  · subst hindex
    by_cases hsame : generation = new.generation
    · subst hsame
      simp [resolve, hlt]
    · have hother : (⟨number, generation⟩ : Token) ≠ ⟨number, new.generation⟩ := by simpa using hsame
      have hold : r.resolve ⟨number, generation⟩ = none := by simp [resolve, hslot, hempty]
      simp only [Function.update_of_ne hother, hold]
      simp [resolve, hlt, Ne.symm hsame]
  · have hother : (⟨number, generation⟩ : Token) ≠ ⟨index, new.generation⟩ := by simp [hindex]
    simp only [Function.update_of_ne hother]
    simp [resolve, Ne.symm hindex]

theorem resolve_push (new : Slot Frame Node Ingress) :
    (⟨r.slots ++ [new]⟩ : Registry Frame Node Ingress).resolve =
      Function.update r.resolve ⟨r.slots.length, new.generation⟩ new.entry := by
  funext token
  obtain ⟨number, generation⟩ := token
  by_cases hindex : number = r.slots.length
  · subst hindex
    by_cases hsame : generation = new.generation
    · subst hsame
      simp [resolve]
    · have hother : (⟨r.slots.length, generation⟩ : Token) ≠ ⟨r.slots.length, new.generation⟩ := by
        simpa using hsame
      simp only [Function.update_of_ne hother]
      simp [resolve, Ne.symm hsame]
  · have hother : (⟨number, generation⟩ : Token) ≠ ⟨r.slots.length, new.generation⟩ := by
      simp [hindex]
    simp only [Function.update_of_ne hother]
    unfold resolve
    congr 1
    show (r.slots ++ [new])[number]? = r.slots[number]?
    rcases Nat.lt_or_gt_of_ne hindex with hlt | hgt
    · exact List.getElem?_append_left hlt
    · rw [List.getElem?_eq_none (by simp; omega), List.getElem?_eq_none (by omega)]

theorem resolve_modify (h : r.resolve token = some entry) :
    (⟨r.slots.modify token.slot fun slot =>
        { slot with entry := none, retiredGeneration := token.generation }⟩ :
      Registry Frame Node Ingress).resolve = Function.update r.resolve token none := by
  obtain ⟨slot, hslot, hgeneration, -⟩ := resolve_eq_some.mp h
  funext other
  by_cases hsame : other = token
  · subst hsame
    simp [resolve, hslot]
  · simp only [Function.update_of_ne hsame]
    unfold resolve
    rw [List.getElem?_modify]
    by_cases hindex : token.slot = other.slot
    · have hdiffer : slot.generation ≠ other.generation := by
        intro hequal
        apply hsame
        cases other
        cases token
        simp_all
      simp [← hindex, hslot, hdiffer]
    · simp [hindex]

end Registry

end Muxiva.Ffi
