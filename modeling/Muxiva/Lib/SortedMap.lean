import Mathlib.Tactic.Common
import Mathlib.Data.List.Sort
import Mathlib.Order.Basic

/-! Finite maps kept as strictly sorted association lists: the lookups, the
iteration order and the size of an ordered tree map. -/
set_option linter.all false

/-- Entries in strictly increasing key order. -/
structure SortedMap (κ β : Type*) [LinearOrder κ] where
  entries : List (κ × β)
  sorted : entries.Pairwise fun p q => p.1 < q.1

namespace SortedMap
variable {κ β : Type*} [LinearOrder κ]

/-- Inserts or replaces the value at `k`. -/
def insertEntry (k : κ) (v : β) : List (κ × β) → List (κ × β)
  | [] => [(k, v)]
  | (k', v') :: m =>
    if k < k' then (k, v) :: (k', v') :: m
    else if k = k' then (k, v) :: m
    else (k', v') :: insertEntry k v m

theorem mem_insertEntry {k : κ} {v : β} {m : List (κ × β)} {p : κ × β}
    (h : p ∈ insertEntry k v m) : p = (k, v) ∨ p ∈ m := by
  induction m with
  | nil => simpa [insertEntry] using h
  | cons e m ih =>
    obtain ⟨k', v'⟩ := e
    simp only [insertEntry] at h
    split_ifs at h
    · simpa using h
    · rcases List.mem_cons.mp h with h | h
      · exact .inl h
      · exact .inr (List.mem_cons_of_mem _ h)
    · rcases List.mem_cons.mp h with h | h
      · exact .inr (h ▸ List.mem_cons_self)
      · exact (ih h).imp_right (List.mem_cons_of_mem _)

theorem sorted_insertEntry (k : κ) (v : β) {m : List (κ × β)}
    (hm : m.Pairwise fun p q => p.1 < q.1) :
    (insertEntry k v m).Pairwise fun p q => p.1 < q.1 := by
  induction m with
  | nil => simp [insertEntry]
  | cons e m ih =>
    obtain ⟨k', v'⟩ := e
    obtain ⟨hlt, hm'⟩ := List.pairwise_cons.mp hm
    simp only [insertEntry]
    split_ifs with h1 h2
    · refine List.pairwise_cons.mpr ⟨fun p hp => ?_, hm⟩
      rcases List.mem_cons.mp hp with rfl | hp
      · exact h1
      · exact h1.trans (hlt p hp)
    · subst h2
      exact List.pairwise_cons.mpr ⟨hlt, hm'⟩
    · refine List.pairwise_cons.mpr ⟨fun p hp => ?_, ih hm'⟩
      rcases mem_insertEntry hp with rfl | hp
      · exact lt_of_le_of_ne (not_lt.mp h1) (Ne.symm h2)
      · exact hlt p hp

theorem ext_entries {m m' : SortedMap κ β} (h : m.entries = m'.entries) : m = m' := by
  cases m
  cases m'
  cases h
  rfl

def empty : SortedMap κ β := ⟨[], .nil⟩

def insert (m : SortedMap κ β) (k : κ) (v : β) : SortedMap κ β :=
  ⟨insertEntry k v m.entries, sorted_insertEntry k v m.sorted⟩

def erase (m : SortedMap κ β) (k : κ) : SortedMap κ β :=
  ⟨m.entries.filter fun p => p.1 ≠ k, m.sorted.filter _⟩

def get? (m : SortedMap κ β) (k : κ) : Option β :=
  (m.entries.find? fun p => p.1 = k).map Prod.snd

def contains (m : SortedMap κ β) (k : κ) : Bool := (m.get? k).isSome

def keys (m : SortedMap κ β) : List κ := m.entries.map Prod.fst

def size (m : SortedMap κ β) : ℕ := m.entries.length

@[simp, grind =] theorem get?_empty (k : κ) : (empty : SortedMap κ β).get? k = none := rfl

@[simp] theorem entries_empty : (empty : SortedMap κ β).entries = [] := rfl

@[simp, grind =] theorem get?_insert (m : SortedMap κ β) (k k' : κ) (v : β) :
    (m.insert k v).get? k' = if k' = k then some v else m.get? k' := by
  obtain ⟨m, hm⟩ := m
  simp only [insert, get?]
  induction m with
  | nil =>
    by_cases h : k = k'
    · simp [insertEntry, h]
    · simp [insertEntry, h, Ne.symm h]
  | cons e m ih =>
    obtain ⟨a, b⟩ := e
    have hm' := (List.pairwise_cons.mp hm).2
    simp only [insertEntry]
    split_ifs with h1 h2 h3 h4 h5
    · simp [h2]
    · simp [Ne.symm h2]
    · subst h3; subst h4; simp
    · subst h3; simp [Ne.symm h4]
    · subst h5
      have := ih hm'
      simp only [List.find?_cons, Ne.symm h3, decide_false, if_true] at this ⊢
      exact this
    · have := ih hm'
      simp only [if_neg h5] at this
      by_cases ha : a = k'
      · simp [ha]
      · simp only [List.find?_cons, ha, decide_false]
        exact this

@[simp, grind =] theorem get?_erase (m : SortedMap κ β) (k k' : κ) :
    (m.erase k).get? k' = if k' = k then none else m.get? k' := by
  obtain ⟨m, hm⟩ := m
  simp only [erase, get?, List.find?_filter]
  split_ifs with h
  · subst h
    simp
  · congr 2
    funext p
    by_cases hp : p.1 = k'
    · simp [hp, h]
    · simp [hp]

theorem mem_entries_iff (m : SortedMap κ β) (k : κ) (v : β) :
    (k, v) ∈ m.entries ↔ m.get? k = some v := by
  obtain ⟨m, hm⟩ := m
  simp only [get?]
  induction m with
  | nil => simp
  | cons e m ih =>
    obtain ⟨a, b⟩ := e
    obtain ⟨hlt, hm'⟩ := List.pairwise_cons.mp hm
    by_cases ha : a = k
    · subst ha
      have hnot : (a, v) ∉ m := fun hv => absurd (hlt _ hv) (lt_irrefl _)
      simp [hnot, eq_comm]
    · have := ih hm'
      simp only [List.mem_cons, Prod.mk.injEq, Ne.symm ha, false_and, false_or,
        List.find?_cons, ha, decide_false]
      exact this

@[simp, grind =] theorem contains_insert (m : SortedMap κ β) (k k' : κ) (v : β) :
    (m.insert k v).contains k' = (decide (k' = k) || m.contains k') := by
  simp only [contains, get?_insert]
  split_ifs with h <;> simp [h]

@[simp, grind =] theorem contains_erase (m : SortedMap κ β) (k k' : κ) :
    (m.erase k).contains k' = (!decide (k' = k) && m.contains k') := by
  simp only [contains, get?_erase]
  split_ifs with h <;> simp [h]

theorem contains_iff (m : SortedMap κ β) (k : κ) :
    m.contains k = true ↔ ∃ v, m.get? k = some v := by
  simp [contains, Option.isSome_iff_exists]

theorem mem_keys_iff (m : SortedMap κ β) (k : κ) : k ∈ m.keys ↔ ∃ v, m.get? k = some v := by
  simp only [keys, List.mem_map, Prod.exists, exists_and_right, exists_eq_right, mem_entries_iff]

theorem nodup_keys (m : SortedMap κ β) : m.keys.Nodup :=
  List.pairwise_map.mpr (m.sorted.imp fun h => ne_of_lt h)

@[simp] theorem length_keys (m : SortedMap κ β) : m.keys.length = m.size := by
  simp [keys, size]

@[simp] theorem size_empty : (empty : SortedMap κ β).size = 0 := rfl

theorem nodup_entries (m : SortedMap κ β) : m.entries.Nodup :=
  m.sorted.imp fun h e => absurd (congrArg Prod.fst e) (ne_of_lt h)

/-- A fresh key adds one entry. -/
theorem entries_insert_perm {m : SortedMap κ β} {k : κ} {v : β} (h : m.get? k = none) :
    (m.insert k v).entries.Perm ((k, v) :: m.entries) := by
  have hk : (k, v) ∉ m.entries := by
    simp [mem_entries_iff, h]
  refine (List.perm_ext_iff_of_nodup (nodup_entries _)
    (List.nodup_cons.mpr ⟨hk, nodup_entries m⟩)).mpr fun p => ?_
  obtain ⟨k', v'⟩ := p
  simp only [mem_entries_iff, get?_insert, List.mem_cons, Prod.mk.injEq]
  split_ifs with hkk
  · subst hkk
    simp [h, eq_comm]
  · simp [hkk]

/-- Erasing a key that is there removes one entry. -/
theorem entries_erase_perm {m : SortedMap κ β} {k : κ} {v : β} (h : m.get? k = some v) :
    m.entries.Perm ((k, v) :: (m.erase k).entries) := by
  have hk : (k, v) ∉ (m.erase k).entries := by
    simp [mem_entries_iff]
  refine (List.perm_ext_iff_of_nodup (nodup_entries _)
    (List.nodup_cons.mpr ⟨hk, nodup_entries _⟩)).mpr fun p => ?_
  obtain ⟨k', v'⟩ := p
  simp only [mem_entries_iff, get?_erase, List.mem_cons, Prod.mk.injEq]
  split_ifs with hkk
  · subst hkk
    simp [h, eq_comm]
  · simp [hkk]

theorem size_insert {m : SortedMap κ β} {k : κ} {v : β} (h : m.get? k = none) :
    (m.insert k v).size = m.size + 1 := by
  simpa [size] using (entries_insert_perm h (v := v)).length_eq

/-- Replacing a value keeps the size. -/
theorem size_insert_of_get? {m : SortedMap κ β} {k : κ} {v v' : β} (h : m.get? k = some v') :
    (m.insert k v).size = m.size := by
  rw [← length_keys, ← length_keys]
  refine ((List.perm_ext_iff_of_nodup (nodup_keys _) (nodup_keys _)).mpr fun k' => ?_).length_eq
  simp only [mem_keys_iff, get?_insert]
  by_cases hk : k' = k <;> simp [hk, h]

theorem size_erase {m : SortedMap κ β} {k : κ} {v : β} (h : m.get? k = some v) :
    m.size = (m.erase k).size + 1 := by
  simpa [size] using (entries_erase_perm h).length_eq

theorem size_erase_le (m : SortedMap κ β) (k : κ) : (m.erase k).size ≤ m.size :=
  List.length_filter_le _ _

theorem get?_foldl_erase (ks : List κ) (m : SortedMap κ β) (k : κ) :
    (ks.foldl erase m).get? k = if k ∈ ks then none else m.get? k := by
  induction ks generalizing m with
  | nil => simp
  | cons a ks ih =>
    rw [List.foldl_cons, ih, get?_erase]
    by_cases hk : k = a <;> simp [hk]

theorem size_foldl_erase_le (ks : List κ) (m : SortedMap κ β) :
    (ks.foldl erase m).size ≤ m.size := by
  induction ks generalizing m with
  | nil => exact le_refl _
  | cons a ks ih => exact (ih _).trans (size_erase_le m a)

theorem mem_filter_keys_iff (m : SortedMap κ β) (p : β → Bool) (k : κ) :
    k ∈ (m.entries.filter fun e => p e.2).map Prod.fst ↔ ∃ v, m.get? k = some v ∧ p v = true := by
  simp only [List.mem_map, List.mem_filter, Prod.exists, exists_and_right, exists_eq_right,
    mem_entries_iff]

theorem nodup_filter_keys (m : SortedMap κ β) (p : κ × β → Bool) :
    ((m.entries.filter p).map Prod.fst).Nodup :=
  m.nodup_keys.sublist (List.filter_sublist.map _)

/-- A map is its lookups. -/
theorem ext_get? {m m' : SortedMap κ β} (h : ∀ k, m.get? k = m'.get? k) : m = m' := by
  have hperm : m.entries.Perm m'.entries := by
    rw [List.perm_ext_iff_of_nodup m.nodup_entries m'.nodup_entries]
    rintro ⟨k, v⟩
    rw [mem_entries_iff, mem_entries_iff, h k]
  apply ext_entries
  refine hperm.eq_of_pairwise ?_ m.sorted m'.sorted
  intro p q _ _ hlt hgt
  exact absurd hlt hgt.asymm

theorem insert_insert_same (m : SortedMap κ β) (k : κ) (v v' : β) :
    (m.insert k v).insert k v' = m.insert k v' := by
  apply ext_get?
  intro j
  simp only [get?_insert]
  split <;> rfl

theorem insert_insert_comm (m : SortedMap κ β) {k k' : κ} (h : k ≠ k') (v v' : β) :
    (m.insert k v).insert k' v' = (m.insert k' v').insert k v := by
  apply ext_get?
  intro j
  simp only [get?_insert]
  by_cases hk : j = k
  · subst hk
    simp [h]
  · simp [hk]

/-- A key above all others goes to the end. -/
theorem insertEntry_of_lt {k : κ} (v : β) {m : List (κ × β)} (h : ∀ p ∈ m, p.1 < k) :
    insertEntry k v m = m ++ [(k, v)] := by
  induction m with
  | nil => rfl
  | cons e m ih =>
    have hlt : e.1 < k := h e List.mem_cons_self
    have hrest := ih fun p hp => h p (List.mem_cons_of_mem e hp)
    simp only [insertEntry, if_neg hlt.asymm, if_neg (ne_of_gt hlt), hrest, List.cons_append]

theorem entries_foldl_insert (l : List (κ × β)) (m : SortedMap κ β)
    (h : (m.entries ++ l).Pairwise fun p q => p.1 < q.1) :
    (l.foldl (fun m e => m.insert e.1 e.2) m).entries = m.entries ++ l := by
  induction l generalizing m with
  | nil => simp
  | cons e l ih =>
    have hlt : ∀ p ∈ m.entries, p.1 < e.1 := by
      intro p hp
      exact (List.pairwise_append.mp h).2.2 p hp e List.mem_cons_self
    have hinsert : (m.insert e.1 e.2).entries = m.entries ++ [e] := insertEntry_of_lt e.2 hlt
    rw [List.foldl_cons, ih, hinsert, List.append_assoc, List.singleton_append]
    rw [hinsert, List.append_assoc]
    exact h

/-- A map is built up again from its entries. -/
theorem foldl_insert_entries (m : SortedMap κ β) :
    m.entries.foldl (fun m e => m.insert e.1 e.2) empty = m := by
  apply ext_entries
  rw [entries_foldl_insert _ _ (by simpa using m.sorted)]
  simp

/-- Applies `f` to every value. -/
def mapValues {γ : Type*} (m : SortedMap κ β) (f : β → γ) : SortedMap κ γ :=
  ⟨m.entries.map fun p => (p.1, f p.2), List.pairwise_map.mpr m.sorted⟩

@[simp] theorem get?_mapValues {γ : Type*} (m : SortedMap κ β) (f : β → γ) (k : κ) :
    (m.mapValues f).get? k = (m.get? k).map f := by
  simp only [get?, mapValues, List.find?_map, Option.map_map]
  rfl

@[simp] theorem size_mapValues {γ : Type*} (m : SortedMap κ β) (f : β → γ) :
    (m.mapValues f).size = m.size := by
  simp [size, mapValues]

end SortedMap
