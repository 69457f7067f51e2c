import Mathlib.Data.List.Infix
import Mathlib.Tactic.Common

/-! Messages read from a stream in pieces. What a reader decides on the bytes it has must not change
with more of them; then the pieces the stream comes in do not matter. -/
namespace Framing

variable {α γ : Type*}

/-- What is decided on some bytes is decided on more. -/
def Stable (decide : List α → Option γ) : Prop :=
  ∀ p q r, decide p = some r → decide (p ++ q) = some r

/-- Takes pieces until the bytes decide, or the stream ends. -/
def readUntil (decide : List α → Option γ) (ended : List α → γ) : List α → List (List α) → γ
  | bytes, [] => ended bytes
  | bytes, piece :: pieces =>
    match decide (bytes ++ piece) with
    | some r => r
    | none => readUntil decide ended (bytes ++ piece) pieces

/-- The outcome is that of the whole stream. -/
theorem readUntil_eq {decide : List α → Option γ} (hstable : Stable decide) {ended : List α → γ}
    {bytes : List α} (hopen : decide bytes = none) (pieces : List (List α)) :
    readUntil decide ended bytes pieces =
      (decide (bytes ++ pieces.flatten)).getD (ended (bytes ++ pieces.flatten)) := by
  induction pieces generalizing bytes with
  | nil =>
    rw [List.flatten_nil, List.append_nil, hopen]
    rfl
  | cons piece pieces ih =>
    rw [readUntil, List.flatten_cons, ← List.append_assoc]
    cases hpiece : decide (bytes ++ piece) with
    | some r => rw [hstable _ _ r hpiece]; rfl
    | none => exact ih hpiece

/-- The length up to the end of the first place where the mark stands. -/
def endOf [DecidableEq α] (mark : List α) : List α → Option ℕ
  | [] => none
  | b :: bytes =>
    if mark.isPrefixOf (b :: bytes) then some mark.length else (endOf mark bytes).map (· + 1)

section EndOf

variable [DecidableEq α] {mark : List α}

theorem endOf_le {bytes : List α} {n : ℕ} (h : endOf mark bytes = some n) : n ≤ bytes.length := by
  induction bytes generalizing n with
  | nil => cases h
  | cons b bytes ih =>
    unfold endOf at h
    split_ifs at h with hmark
    · cases h
      exact (List.isPrefixOf_iff_prefix.mp hmark).length_le
    · obtain ⟨m, hm, rfl⟩ := Option.map_eq_some_iff.mp h
      have hle := ih hm
      rw [List.length_cons]
      omega

theorem length_le_endOf {bytes : List α} {n : ℕ} (h : endOf mark bytes = some n) :
    mark.length ≤ n := by
  induction bytes generalizing n with
  | nil => cases h
  | cons b bytes ih =>
    unfold endOf at h
    split_ifs at h
    · cases h
      exact Nat.le_refl _
    · obtain ⟨m, hm, rfl⟩ := Option.map_eq_some_iff.mp h
      have hle := ih hm
      omega

/-- Bytes behind those that are long enough for the mark do not matter at their front. -/
theorem isPrefixOf_append {bytes : List α} (h : mark.length ≤ bytes.length) (more : List α) :
    mark.isPrefixOf (bytes ++ more) = mark.isPrefixOf bytes := by
  rw [Bool.eq_iff_iff, List.isPrefixOf_iff_prefix, List.isPrefixOf_iff_prefix]
  constructor
  · exact fun hp => List.prefix_of_prefix_length_le hp (List.prefix_append bytes more) h
  · exact fun hp => hp.trans (List.prefix_append bytes more)

/-- A mark that has been found stays the first one. -/
theorem endOf_append {bytes : List α} {n : ℕ} (h : endOf mark bytes = some n) (more : List α) :
    endOf mark (bytes ++ more) = some n := by
  induction bytes generalizing n with
  | nil => cases h
  | cons b bytes ih =>
    have hlong : mark.length ≤ (b :: bytes).length := (length_le_endOf h).trans (endOf_le h)
    rw [List.cons_append, endOf, ← List.cons_append, isPrefixOf_append hlong]
    unfold endOf at h
    split_ifs at h ⊢ with hmark
    · exact h
    · obtain ⟨m, hm, rfl⟩ := Option.map_eq_some_iff.mp h
      rw [ih hm]
      rfl

/-- A mark found within the first bytes is found in them alone. -/
theorem endOf_of_append {bytes more : List α} {n : ℕ} (h : endOf mark (bytes ++ more) = some n)
    (hn : n ≤ bytes.length) (hmark : mark ≠ []) : endOf mark bytes = some n := by
  induction bytes generalizing n with
  | nil =>
    have hle := length_le_endOf h
    have hpos := List.length_pos_iff.mpr hmark
    rw [List.length_nil] at hn
    omega
  | cons b bytes ih =>
    have hlong : mark.length ≤ (b :: bytes).length := (length_le_endOf h).trans hn
    rw [List.cons_append, endOf, ← List.cons_append, isPrefixOf_append hlong] at h
    unfold endOf
    split_ifs at h ⊢ with hfront
    · exact h
    · obtain ⟨m, hm, rfl⟩ := Option.map_eq_some_iff.mp h
      rw [List.length_cons] at hn
      rw [ih hm (by omega)]
      rfl

end EndOf

end Framing
