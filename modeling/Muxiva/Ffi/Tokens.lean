import Muxiva.Ffi.Resolve

/-! Over any calls, the registry is a table of live handles: what the history of issued and released
tokens says is what the tokens resolve to. -/
set_option linter.all false
namespace Muxiva.Ffi

open Handles

variable {Frame Node Ingress : Type*} {r : Registry Frame Node Ingress}
  {history : List (Call Frame Node Ingress × Reply Frame Node Ingress)}
  {token : Token} {entry : Entry Frame Node Ingress}

def insertionsAt (history : List (Call Frame Node Ingress × Reply Frame Node Ingress))
    (index : ℕ) : ℕ :=
  (issued history).countP fun x => x.1.slot = index

def ledger (history : List (Call Frame Node Ingress × Reply Frame Node Ingress)) :
    Ledger Token (Entry Frame Node Ingress) :=
  ⟨issued history, released history⟩

namespace Registry

/-- What holds of a registry with this history. -/
structure Sound (r : Registry Frame Node Ingress)
    (history : List (Call Frame Node Ingress × Reply Frame Node Ingress)) : Prop where
  table : (ledger history).Sound r.resolve
  below : ∀ x ∈ issued history, ∃ slot, r.slots[x.1.slot]? = some slot ∧
    x.1.generation ≤ slot.generation
  counted : ∀ index slot, r.slots[index]? = some slot →
    slot.generation = insertionsAt history index

theorem Sound.init : (⟨[]⟩ : Registry Frame Node Ingress).Sound [] := by
  constructor
  · exact Ledger.Sound.empty
  · intro x hx
    cases hx
  · intro index slot hslot
    simp at hslot

/-- A slot that does not exist had no insertion. -/
theorem Sound.insertionsAt_length (h : r.Sound history) :
    insertionsAt history r.slots.length = 0 := by
  unfold insertionsAt
  rw [List.countP_eq_zero]
  intro x hx hindex
  obtain ⟨slot, hslot, -⟩ := h.below x hx
  have hindex : x.1.slot = r.slots.length := of_decide_eq_true hindex
  rw [hindex] at hslot
  simp at hslot

theorem issued_insert (history : List (Call Frame Node Ingress × Reply Frame Node Ingress)) :
    issued (history ++ [(Call.insert entry, Reply.issued token)]) =
      issued history ++ [(token, entry)] := by
  simp [issued]

theorem released_insert (history : List (Call Frame Node Ingress × Reply Frame Node Ingress)) :
    released (history ++ [(Call.insert entry, Reply.issued token)]) = released history := by
  simp [released]

theorem insertionsAt_insert (history : List (Call Frame Node Ingress × Reply Frame Node Ingress))
    (index : ℕ) :
    insertionsAt (history ++ [(Call.insert entry, Reply.issued token)]) index =
      insertionsAt history index + if token.slot = index then 1 else 0 := by
  unfold insertionsAt
  rw [issued_insert, List.countP_append]
  simp [List.countP_cons]

/-- A token above every generation of its slot is a new one. -/
theorem Sound.fresh (h : r.Sound history)
    (hnew : ∀ slot, r.slots[token.slot]? = some slot → slot.generation < token.generation) :
    token ∉ (ledger history).issued.map Prod.fst := by
  intro hmem
  obtain ⟨x, hx, hxt⟩ := List.mem_map.mp hmem
  obtain ⟨slot, hslot, hle⟩ := h.below x hx
  rw [hxt] at hslot hle
  have hlt := hnew slot hslot
  omega

theorem Sound.insert (h : r.Sound history) (entry : Entry Frame Node Ingress)
    (hcount : insertionsAt (history ++ [(Call.insert entry, Reply.issued (r.insert entry).2)])
      (r.insert entry).2.slot < 2 ^ 64) :
    (r.insert entry).1.Sound
      (history ++ [(Call.insert entry, Reply.issued (r.insert entry).2)]) := by
  rw [insertionsAt_insert] at hcount
  rcases insert_cases r entry with ⟨index, slot, hslot, hempty, hinsert⟩ | hinsert
  · rw [hinsert] at hcount ⊢
    simp only [if_true] at hcount
    have hgeneration := h.counted index slot hslot
    have hnext : nextGeneration slot.generation = slot.generation + 1 :=
      nextGeneration_eq (by omega)
    have hlt : index < r.slots.length := (List.getElem?_eq_some_iff.mp hslot).1
    rw [hnext]
    constructor
    · have htable := h.table.issue (i := ⟨index, slot.generation + 1⟩) (h.fresh (by
        intro other hother
        rw [hslot] at hother
        cases hother
        exact Nat.lt_succ_self _)) entry
      rw [resolve_set hslot hempty]
      unfold ledger
      rw [issued_insert, released_insert]
      exact htable
    · intro x hx
      rw [issued_insert] at hx
      rcases List.mem_append.mp hx with hold | hnew
      · obtain ⟨other, hother, hle⟩ := h.below x hold
        by_cases hindex : index = x.1.slot
        · rw [← hindex, hslot] at hother
          cases hother
          refine ⟨_, by rw [← hindex]; exact List.getElem?_set_self hlt, ?_⟩
          exact Nat.le_succ_of_le hle
        · exact ⟨other, by simp [hindex, hother], hle⟩
      · rw [List.mem_singleton] at hnew
        subst hnew
        exact ⟨_, List.getElem?_set_self hlt, Nat.le_refl _⟩
    · intro other found hfound
      rw [insertionsAt_insert]
      by_cases hindex : index = other
      · subst hindex
        simp only [List.getElem?_set_self hlt, Option.some.injEq] at hfound
        subst hfound
        simp [hgeneration]
      · simp only [List.getElem?_set_ne hindex] at hfound
        simp [h.counted other found hfound, hindex]
  · rw [hinsert]
    constructor
    · have htable := h.table.issue (i := ⟨r.slots.length, 1⟩) (h.fresh (by
        intro other hother
        simp at hother)) entry
      rw [resolve_push]
      unfold ledger
      rw [issued_insert, released_insert]
      exact htable
    · intro x hx
      rw [issued_insert] at hx
      rcases List.mem_append.mp hx with hold | hnew
      · obtain ⟨other, hother, hle⟩ := h.below x hold
        have hlt := (List.getElem?_eq_some_iff.mp hother).1
        exact ⟨other, by rw [List.getElem?_append_left hlt]; exact hother, hle⟩
      · rw [List.mem_singleton] at hnew
        subst hnew
        exact ⟨⟨1, some entry, 0⟩, by simp, Nat.le_refl _⟩
    · intro other found hfound
      rw [insertionsAt_insert]
      rcases Nat.lt_trichotomy other r.slots.length with hlt | heq | hgt
      · rw [List.getElem?_append_left hlt] at hfound
        simp [h.counted other found hfound, (Nat.ne_of_lt hlt).symm]
      · subst heq
        simp only [List.getElem?_concat_length, Option.some.injEq] at hfound
        subst hfound
        simp [h.insertionsAt_length]
      · rw [List.getElem?_eq_none (by simp; omega)] at hfound
        cases hfound

/-- A call that issues and releases nothing. -/
theorem Sound.other (h : r.Sound history) {c : Call Frame Node Ingress}
    {reply : Reply Frame Node Ingress} (hissued : issued (history ++ [(c, reply)]) = issued history)
    (hreleased : released (history ++ [(c, reply)]) = released history) :
    r.Sound (history ++ [(c, reply)]) where
  table := by
    unfold ledger
    rw [hissued, hreleased]
    exact h.table
  below := by rw [hissued]; exact h.below
  counted := by
    unfold insertionsAt
    rw [hissued]
    exact h.counted

/-- A release hands out what the token resolves to. -/
theorem release_cases (r : Registry Frame Node Ingress) (token : Token) (kind : Kind) :
    (∃ e, r.release token kind = (r, .error e)) ∨
      ∃ entry, r.resolve token = some entry ∧ entry.kind = kind ∧
        r.release token kind = (⟨r.slots.modify token.slot fun slot =>
          { slot with entry := none, retiredGeneration := token.generation }⟩, .ok entry) := by
  unfold release
  cases hlookup : r.lookup token (Entry.ofKind kind) "handle was already released"
      "handle generation is stale" with
  | error e => exact .inl ⟨e, rfl⟩
  | ok entry =>
    obtain ⟨found, hresolve, hkind⟩ := lookup_ok hlookup
    unfold Entry.ofKind at hkind
    split_ifs at hkind with hsame
    cases hkind
    exact .inr ⟨entry, hresolve, hsame, rfl⟩

theorem Sound.release (h : r.Sound history) (kind : Kind) (hresolve : r.resolve token = some entry) :
    (⟨r.slots.modify token.slot fun slot =>
        { slot with entry := none, retiredGeneration := token.generation }⟩ :
      Registry Frame Node Ingress).Sound
      (history ++ [(Call.release token kind, Reply.entry entry)]) := by
  have hissued : issued (history ++ [(Call.release token kind, Reply.entry entry)]) =
      issued history := by
    simp [issued]
  have hreleased : released (history ++ [(Call.release token kind, Reply.entry entry)]) =
      released history ++ [(token, entry)] := by simp [released]
  constructor
  · have htable := h.table.retire hresolve
    rw [resolve_modify hresolve]
    unfold ledger
    rw [hissued, hreleased]
    exact htable
  · intro x hx
    rw [hissued] at hx
    obtain ⟨slot, hslot, hle⟩ := h.below x hx
    rw [List.getElem?_modify, hslot]
    split_ifs
    · exact ⟨_, rfl, hle⟩
    · exact ⟨_, rfl, hle⟩
  · intro index slot hslot
    unfold insertionsAt
    rw [hissued]
    simp only [List.getElem?_modify] at hslot
    obtain ⟨old, hold, hmodified⟩ := Option.map_eq_some_iff.mp hslot
    have hgeneration : slot.generation = old.generation := by
      split_ifs at hmodified
      · rw [← hmodified]
      · rw [← hmodified]
    rw [hgeneration]
    exact h.counted index old hold

theorem Sound.call (h : r.Sound history) (c : Call Frame Node Ingress)
    (hcount : ∀ index, insertionsAt (history ++ [(c, (r.call c).2)]) index < 2 ^ 64) :
    (r.call c).1.Sound (history ++ [(c, (r.call c).2)]) := by
  cases c with
  | insert entry => exact h.insert entry (hcount _)
  | release token kind =>
    unfold Registry.call
    rcases release_cases r token kind with ⟨e, hrelease⟩ | ⟨entry, hresolve, -, hrelease⟩
    · simp only [hrelease]
      exact h.other (by simp [issued]) (by simp [released, Reply.ofExcept])
    · simp only [hrelease]
      exact h.release kind hresolve
  | contains token kind => exact h.other (by simp [issued]) (by simp [released])
  | node token => exact h.other (by simp [issued]) (by simp [released])
  | ingress token => exact h.other (by simp [issued]) (by simp [released])
  | tryIngress busy token => exact h.other (by simp [issued]) (by simp [released])

theorem insertionsAt_append_le
    (history more : List (Call Frame Node Ingress × Reply Frame Node Ingress)) (index : ℕ) :
    insertionsAt history index ≤ insertionsAt (history ++ more) index := by
  unfold insertionsAt issued
  rw [List.filterMap_append, List.countP_append]
  omega

theorem run_append (calls : List (Call Frame Node Ingress)) (c : Call Frame Node Ingress) :
    run (calls ++ [c]) = (((run calls).1.call c).1,
      (run calls).2 ++ [(c, ((run calls).1.call c).2)]) := by
  simp [run]

theorem run_sound (calls : List (Call Frame Node Ingress))
    (hcount : ∀ index, insertionsAt (run calls).2 index < 2 ^ 64) :
    (run calls).1.Sound (run calls).2 := by
  induction calls using List.reverseRecOn with
  | nil => exact Sound.init
  | append_singleton calls c ih =>
    rw [run_append] at hcount ⊢
    refine (ih fun index => ?_).call c hcount
    have hle := insertionsAt_append_le (run calls).2 [(c, ((run calls).1.call c).2)] index
    exact Nat.lt_of_le_of_lt hle (hcount index)

end Registry

/-- Every lookup of a token is answered by this entry. -/
structure Registry.Resolves (r : Registry Frame Node Ingress) (token : Token)
    (entry : Entry Frame Node Ingress) : Prop where
  contains : ∀ kind, r.contains token kind = if entry.kind = kind then .ok () else .error wrongKind
  node : r.node token = match entry with | .node n => .ok n | _ => .error wrongKind
  ingress : r.ingress token = match entry with | .ingress i => .ok i | _ => .error wrongKind
  tryIngress : r.tryIngress false token = r.ingress token
  release : ∀ kind, (r.release token kind).2 =
    if entry.kind = kind then .ok entry else .error wrongKind

/-- Every lookup of a token fails. -/
structure Registry.Refuses (r : Registry Frame Node Ingress) (token : Token) : Prop where
  contains : ∀ kind, ∃ e, r.contains token kind = .error e
  node : ∃ e, r.node token = .error e
  ingress : ∃ e, r.ingress token = .error e
  tryIngress : ∀ busy, ∃ e, r.tryIngress busy token = .error e
  release : ∀ kind, ∃ e, (r.release token kind).2 = .error e

namespace Registry

theorem resolves (h : r.resolve token = some entry) : r.Resolves token entry where
  contains := by
    intro kind
    unfold contains
    rw [lookup_some h]
    unfold Entry.ofKind
    split_ifs <;> rfl
  node := by
    unfold Registry.node
    rw [lookup_some h]
    cases entry <;> rfl
  ingress := by
    unfold Registry.ingress
    rw [lookup_some h]
    cases entry <;> rfl
  tryIngress := rfl
  release := by
    intro kind
    unfold Registry.release
    rw [lookup_some h]
    unfold Entry.ofKind
    split_ifs <;> rfl

theorem refuses (h : r.resolve token = none) : r.Refuses token := by
  have hingress : ∃ e, r.ingress token = .error e := lookup_none h _ _ _
  constructor
  · intro kind
    obtain ⟨e, he⟩ := lookup_none h (Entry.ofKind kind) "handle was released"
      "handle generation is stale"
    exact ⟨e, by unfold contains; rw [he]; rfl⟩
  · exact lookup_none h _ _ _
  · exact hingress
  · intro busy
    unfold tryIngress
    split_ifs
    · exact ⟨_, rfl⟩
    · exact hingress
  · intro kind
    rcases release_cases r token kind with ⟨e, hrelease⟩ | ⟨entry, hresolve, -, -⟩
    · exact ⟨e, by rw [hrelease]⟩
    · rw [h] at hresolve
      cases hresolve

theorem call_failed (r : Registry Frame Node Ingress) (c : Call Frame Node Ingress) (e : FfiError)
    (h : (r.call c).2 = .failed e) : (r.call c).1 = r := by
  cases c with
  | insert entry => cases h
  | release token kind =>
    rcases release_cases r token kind with ⟨error, hrelease⟩ | ⟨entry, -, -, hrelease⟩
    · simp only [Registry.call, hrelease]
    · simp only [Registry.call, hrelease, Reply.ofExcept] at h
      cases h
  | contains token kind => rfl
  | node token => rfl
  | ingress token => rfl
  | tryIngress busy token => rfl

end Registry

/-- While no slot is filled `2 ^ 64` times, a token stands for its entry until it is released and for
nothing before and after. -/
theorem handle_safety (calls : List (Call Frame Node Ingress))
    (hcount : ∀ index, insertionsAt (Registry.run calls).2 index < 2 ^ 64) :
    let r := (Registry.run calls).1
    let history := (Registry.run calls).2
    ((issued history).map Prod.fst).Nodup ∧
      (∀ token entry, (token, entry) ∈ issued history → token ∉ (released history).map Prod.fst →
        r.Resolves token entry) ∧
      (∀ token, token ∉ (issued history).map Prod.fst ∨ token ∈ (released history).map Prod.fst →
        r.Refuses token) ∧
      ((released history).map Prod.fst).Nodup ∧
      (∀ x ∈ released history, x ∈ issued history) ∧
      ∀ c e, (r.call c).2 = .failed e → (r.call c).1 = r := by
  have h := Registry.run_sound calls hcount
  refine ⟨h.table.fresh, ?_, ?_, h.table.once, h.table.own, Registry.call_failed _⟩
  · intro token entry hissued hkept
    exact Registry.resolves ((h.table.live_iff token entry).mpr ⟨hissued, hkept⟩)
  · intro token hgone
    exact Registry.refuses (h.table.eq_none hgone)

/-- A slot that is used again does not answer to its first token. -/
theorem handle_safety_reused :
    let calls : List (Call Unit ℕ ℕ) :=
      [.insert (.node 7), .release ⟨0, 1⟩ .node, .insert (.ingress 3), .node ⟨0, 1⟩]
    (Registry.run calls).1.Resolves ⟨0, 2⟩ (.ingress 3) ∧ (Registry.run calls).1.Refuses ⟨0, 1⟩ := by
  intro calls
  have hcount : ∀ index, insertionsAt (Registry.run calls).2 index < 2 ^ 64 := by
    intro index
    have hlength : insertionsAt (Registry.run calls).2 index ≤ 2 := List.countP_le_length
    omega
  obtain ⟨-, hresolves, hrefuses, -⟩ := handle_safety calls hcount
  exact ⟨hresolves ⟨0, 2⟩ (.ingress 3) (.tail _ (.head _)) (by decide),
    hrefuses ⟨0, 1⟩ (.inr (by decide))⟩

end Muxiva.Ffi
