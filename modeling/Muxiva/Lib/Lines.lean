import Muxiva.Lib.Text

/-! Texts cut at line ends, at a separator and at white space. -/
namespace Muxiva

/-- `str::lines`. -/
def lines : Text → List Text
  | [] => []
  | '\r' :: '\n' :: t => [] :: lines t
  | '\n' :: t => [] :: lines t
  | c :: t =>
    match lines t with
    | [] => [[c]]
    | line :: rest => (c :: line) :: rest

/-- `str::split_once`. -/
def splitOnce (separator : Char) (line : Text) : Option (Text × Text) :=
  match line.dropWhile (· ≠ separator) with
  | _ :: rest => some (line.takeWhile (· ≠ separator), rest)
  | [] => none

/-- `str::split_whitespace`. -/
def splitWhitespace (t : Text) : List Text := (t.splitOnP isWhitespace).filter (· ≠ [])

theorem lines_newline (t : Text) : lines ('\n' :: t) = [] :: lines t := by
  rw [lines]

theorem lines_cons {c : Char} (hn : c ≠ '\n') (hr : c ≠ '\r') (t : Text) :
    lines (c :: t) = match lines t with
      | [] => [[c]]
      | line :: rest => (c :: line) :: rest := by
  rw [lines]
  · rintro t' rfl
    exact absurd rfl hr
  · rintro rfl
    exact absurd rfl hn

/-- A line ends at its line feed. -/
theorem lines_append {line : Text} (hn : '\n' ∉ line) (hr : '\r' ∉ line) (t : Text) :
    lines (line ++ '\n' :: t) = line :: lines t := by
  induction line with
  | nil => exact lines_newline t
  | cons c line ih =>
    have hrest := ih (fun h => hn (List.mem_cons_of_mem c h)) fun h => hr (List.mem_cons_of_mem c h)
    have hcn : c ≠ '\n' := fun h => hn (by simp [h])
    have hcr : c ≠ '\r' := fun h => hr (by simp [h])
    rw [List.cons_append, lines_cons hcn hcr, hrest]

theorem lines_flatMap {α : Type*} (f : α → Text) (as : List α)
    (h : ∀ a ∈ as, '\n' ∉ f a ∧ '\r' ∉ f a) :
    lines (as.flatMap fun a => f a ++ ['\n']) = as.map f := by
  induction as with
  | nil => rfl
  | cons a as ih =>
    have hrest := ih fun b hb => h b (List.mem_cons_of_mem a hb)
    obtain ⟨hn, hr⟩ := h a List.mem_cons_self
    simp only [List.flatMap_cons, List.append_assoc, List.singleton_append, List.map_cons]
    rw [lines_append hn hr, hrest]

theorem splitOnce_append {separator : Char} {key : Text} (h : separator ∉ key) (rest : Text) :
    splitOnce separator (key ++ separator :: rest) = some (key, rest) := by
  have hkey : ∀ c ∈ key, decide (c ≠ separator) = true := by
    intro c hc
    apply decide_eq_true
    rintro rfl
    exact h hc
  unfold splitOnce
  rw [List.dropWhile_append_of_pos hkey, List.takeWhile_append_of_pos hkey]
  simp

/-- A text that begins and ends with other than white space. -/
theorem trim_eq_self {first last : Char} {t middle : Text} (hfirst : isWhitespace first = false)
    (hlast : isWhitespace last = false) (hbegin : t.head? = some first)
    (hend : t = middle ++ [last]) : trim t = t := by
  have hdrop : t.dropWhile isWhitespace = t := by
    cases t with
    | nil => cases hbegin
    | cons c t =>
      cases hbegin
      exact List.dropWhile_cons_of_neg (by simp [hfirst])
  unfold trim
  rw [hdrop, hend, List.reverse_append, List.reverse_singleton, List.singleton_append,
    List.dropWhile_cons_of_neg (by simp [hlast])]
  simp

end Muxiva
