import Mathlib.Data.Bool.AllAny
import Mathlib.Data.List.SplitLengths
import Muxiva.Speech.Letters
import Muxiva.Speech.Plain
import Muxiva.Speech.Speaking

/-! Bare URLs. The loop of the code is a scan letter by letter, and the scan of a chunk does not lose
track of the URLs of the whole text unless a chunk boundary cuts a prefix or a table hides one. -/
set_option linter.all false
namespace Muxiva.Speech

open Letter

section Scan

variable {α : Type} [Letter α]

/-- The letter a text starts with is in a URL. -/
def inUrl (inside : Bool) (x : α) (rest : List α) : Bool :=
  if inside then !isUrlDelimiter (char x) else startsUrl (x :: rest)

/-- What is left of a text, and whether it ends in a URL. -/
def scanUrls (inside : Bool) : List α → Bool × List α
  | [] => (inside, [])
  | x :: rest =>
    let (last, kept) := scanUrls (inUrl inside x rest) rest
    (last, if inUrl inside x rest then kept else x :: kept)

theorem scanUrls_cons (inside : Bool) (x : α) (rest : List α) : scanUrls inside (x :: rest) =
    ((scanUrls (inUrl inside x rest) rest).1,
      if inUrl inside x rest then (scanUrls (inUrl inside x rest) rest).2
      else x :: (scanUrls (inUrl inside x rest) rest).2) := rfl

theorem find?_range_succ (p : ℕ → Bool) (n : ℕ) : (List.range (n + 1)).find? p =
    if p 0 then some 0 else ((List.range n).find? fun i => p (i + 1)).map (· + 1) := by
  rw [List.range_succ_eq_map, List.find?_cons, List.find?_map]
  cases p 0 <;> rfl

theorem findUrl_cons (x : α) (rest : List α) : findUrl (x :: rest) =
    if startsUrl (x :: rest) then some 0 else (findUrl rest).map (· + 1) := by
  rw [findUrl, List.length_cons, find?_range_succ]
  rfl

theorem findDelimiter_zero_cons (x : α) (rest : List α) : findDelimiter 0 (x :: rest) =
    if isUrlDelimiter (char x) then some 0 else (findDelimiter 0 rest).map (· + 1) := by
  have hall (n : ℕ) : (List.range n).filter (0 ≤ ·) = List.range n := by simp
  rw [findDelimiter, hall, List.length_cons, find?_range_succ, findDelimiter, hall]
  rfl

theorem findDelimiter_one_cons (x : α) (rest : List α) :
    findDelimiter 1 (x :: rest) = (findDelimiter 0 rest).map (· + 1) := by
  have hall (n : ℕ) : (List.range n).filter (0 ≤ ·) = List.range n := by simp
  have hone (n : ℕ) : (List.range (n + 1)).filter (1 ≤ ·) = (List.range n).map (· + 1) := by
    rw [List.range_succ_eq_map, List.filter_cons_of_neg (by simp), List.filter_map]
    simp [Function.comp_def]
  rw [findDelimiter, List.length_cons, hone, List.find?_map, findDelimiter, hall]
  rfl

theorem startsUrl_head {x : α} {rest : List α} (h : startsUrl (x :: rest) = true) :
    char x = 'h' ∨ char x = 'w' := by
  obtain ⟨start, hmem, hopens⟩ := (startsUrl_iff _).mp h
  rw [chars_cons] at hopens
  rcases List.mem_cons.mp hmem with rfl | hmem
  · exact Or.inl (List.cons_prefix_cons.mp hopens).1.symm
  rcases List.mem_cons.mp hmem with rfl | hmem
  · exact Or.inl (List.cons_prefix_cons.mp hopens).1.symm
  obtain rfl := List.mem_singleton.mp hmem
  exact Or.inr (List.cons_prefix_cons.mp hopens).1.symm

/-- A delimiter starts no URL. -/
theorem startsUrl_delimiter {x : α} {rest : List α} (h : startsUrl (x :: rest) = true) :
    isUrlDelimiter (char x) = false := by
  rcases startsUrl_head h with h | h <;> rw [h] <;> decide

theorem inUrl_delimiter {inside : Bool} {x : α} (rest : List α)
    (h : isUrlDelimiter (char x) = true) : inUrl inside x rest = false := by
  unfold inUrl
  split_ifs
  · rw [h]
    rfl
  · by_contra hstart
    rw [startsUrl_delimiter (by simpa using hstart)] at h
    cases h

theorem not_delimiter {inside : Bool} {x : α} {rest : List α} (h : inUrl inside x rest = true) :
    isUrlDelimiter (char x) = false := by
  by_contra hdelimiter
  rw [inUrl_delimiter rest (by simpa using hdelimiter)] at h
  cases h

theorem scanUrls_inside (text : List α) : scanUrls true text =
    match findDelimiter 0 text with
    | none => (true, [])
    | some stop => scanUrls false (text.drop stop) := by
  induction text with
  | nil => rfl
  | cons x rest ih =>
    rw [findDelimiter_zero_cons]
    by_cases hx : isUrlDelimiter (char x) = true
    · have hdrop : (x :: rest).drop 0 = x :: rest := rfl
      rw [if_pos hx]
      dsimp only
      rw [hdrop, scanUrls_cons, scanUrls_cons, inUrl_delimiter rest hx, inUrl_delimiter rest hx]
    · have hin : inUrl true x rest = true := by simp [inUrl, hx]
      rw [if_neg hx, scanUrls_cons, hin, ih]
      cases findDelimiter 0 rest <;> rfl

theorem scanUrls_outside (text : List α) : scanUrls false text =
    match findUrl text with
    | none => (false, text)
    | some start =>
      match findDelimiter 1 (text.drop start) with
      | none => (true, text.take start)
      | some stop =>
        ((scanUrls false ((text.drop start).drop stop)).1,
          text.take start ++ (scanUrls false ((text.drop start).drop stop)).2) := by
  induction text with
  | nil => rfl
  | cons x rest ih =>
    rw [findUrl_cons, scanUrls_cons]
    by_cases hx : startsUrl (x :: rest) = true
    · have hin : inUrl false x rest = true := by simp [inUrl, hx]
      have hdrop : (x :: rest).drop 0 = x :: rest := rfl
      rw [if_pos hx, hin, scanUrls_inside]
      dsimp only
      rw [hdrop, findDelimiter_one_cons]
      cases findDelimiter 0 rest <;> rfl
    · have hin : inUrl false x rest = false := by simp [inUrl, hx]
      rw [if_neg hx, hin, ih]
      cases findUrl rest with
      | none => rfl
      | some start =>
        have hdrop : (x :: rest).drop (start + 1) = rest.drop start := rfl
        dsimp only [Option.map_some]
        rw [hdrop]
        cases findDelimiter 1 (rest.drop start) <;> rfl

theorem findDelimiter_one_pos {text : List α} {stop : ℕ} (h : findDelimiter 1 text = some stop) :
    1 ≤ stop ∧ stop < text.length := by
  have hmem := List.mem_filter.mp (List.mem_of_find?_eq_some h)
  exact ⟨by simpa using hmem.2, List.mem_range.mp hmem.1⟩

/-- The loop of the code is the scan. -/
theorem removeUrls_eq (fuel : ℕ) (inside : Bool) {text : List α} (hfuel : text.length < fuel) :
    removeUrls fuel inside text = scanUrls inside text := by
  induction fuel generalizing inside text with
  | zero => omega
  | succ fuel ih =>
    have hturn (rest : List α) (hle : rest.length ≤ text.length) :
        (match findUrl rest with
        | none => (false, rest)
        | some start =>
          match findDelimiter 1 (rest.drop start) with
          | none => (true, rest.take start)
          | some stop =>
            ((removeUrls fuel false ((rest.drop start).drop stop)).1,
              rest.take start ++ (removeUrls fuel false ((rest.drop start).drop stop)).2)) =
          scanUrls false rest := by
      rw [scanUrls_outside]
      cases findUrl rest with
      | none => rfl
      | some start =>
        dsimp only
        cases hstop : findDelimiter 1 (rest.drop start) with
        | none => rfl
        | some stop =>
          have hpos := findDelimiter_one_pos hstop
          dsimp only
          rw [ih]
          rw [List.length_drop] at hpos
          rw [List.length_drop, List.length_drop]
          omega
    cases inside with
    | false => exact hturn text (le_refl _)
    | true =>
      rw [scanUrls_inside]
      cases hstop : findDelimiter 0 text with
      | none => simp [removeUrls, hstop]
      | some stop =>
        have hdrop := hturn (text.drop stop) (by rw [List.length_drop]; omega)
        dsimp only
        rw [← hdrop, removeUrls, hstop]
        rfl

theorem removeBareUrls_eq (inside : Bool) (text : List α) :
    removeBareUrls inside text = scanUrls inside text :=
  removeUrls_eq _ _ (Nat.lt_succ_self _)

/-- Links taken out: opening brackets, exclamation marks and targets go, all else stays. -/
inductive Linked : List α → List α → Prop where
  | nil : Linked [] []
  | keep (x : α) {raw linked : List α} (h : Linked raw linked) : Linked (x :: raw) (x :: linked)
  | skip (x : α) (hx : char x = '[' ∨ char x = '!') {raw linked : List α} (h : Linked raw linked) :
      Linked (x :: raw) linked
  | target (x y : α) (inner : List α) (z : α) (hx : char x = ']') (hz : char z = ')')
      {raw linked : List α} (h : Linked raw linked) : Linked (x :: y :: (inner ++ z :: raw)) linked

theorem Linked.keepAll (kept : List α) {raw linked : List α} (h : Linked raw linked) :
    Linked (kept ++ raw) (kept ++ linked) := by
  induction kept with
  | nil => exact h
  | cons x kept ih => exact .keep x ih

theorem Linked.refl (text : List α) : Linked text text := by
  have h := Linked.keepAll text Linked.nil
  rwa [List.append_nil] at h

theorem Linked.stripBang (before : List α) {raw linked : List α} (h : Linked raw linked) :
    Linked (before ++ raw) (stripBang before ++ linked) := by
  unfold Speech.stripBang
  split_ifs with hbang
  · obtain ⟨x, hlast, hx⟩ := (Option.any_eq_true _ _).mp hbang
    have hchar : char x = '!' := by simpa [isChar] using hx
    have hsplit := List.dropLast_append_getLast? x hlast
    conv_lhs => rw [← hsplit, List.append_assoc]
    exact Linked.keepAll _ (.skip x (Or.inr hchar) h)
  · exact h.keepAll before

theorem linked_replaceLinks (fuel : ℕ) (text : List α) : Linked text (replaceLinks fuel text) := by
  induction fuel generalizing text with
  | zero => exact Linked.refl text
  | succ fuel ih =>
    unfold replaceLinks
    cases hopen : splitAtChar '[' text with
    | none => exact Linked.refl text
    | some p =>
      obtain ⟨before, tail⟩ := p
      obtain ⟨x, hx, rfl, -⟩ := splitAtChar_eq hopen
      dsimp only
      cases hclose : splitAtChar ']' tail with
      | none => exact Linked.refl _
      | some q =>
        obtain ⟨label, afterLabel⟩ := q
        obtain ⟨y, hy, rfl, -⟩ := splitAtChar_eq hclose
        cases afterLabel with
        | nil => exact Linked.refl _
        | cons z target =>
          dsimp only
          have hsplit : before ++ x :: (label ++ y :: z :: target) =
              (before ++ x :: (label ++ [y])) ++ z :: target := by simp
          split_ifs
          · have htake : (before ++ x :: (label ++ y :: z :: target)).take
                (before.length + 1 + label.length + 1) = before ++ x :: (label ++ [y]) := by
              rw [hsplit]
              apply List.take_left'
              simp only [List.length_append, List.length_cons, List.length_nil]
              omega
            rw [htake, hsplit]
            exact (ih _).keepAll _
          · cases htarget : splitAtChar ')' target with
            | none => exact Linked.refl _
            | some r =>
              obtain ⟨inner, behind⟩ := r
              obtain ⟨w, hw, rfl, -⟩ := splitAtChar_eq htarget
              dsimp only
              rw [List.append_assoc]
              exact Linked.stripBang before <| .skip x (Or.inl hx) <|
                Linked.keepAll label (.target y z inner w hy hw (ih behind))

/-- What has none of the characters of a link stays at the start. -/
theorem Linked.isPrefix {raw linked : List α} (h : Linked raw linked) {start : Text}
    (hstart : ∀ c ∈ start, c ≠ '[' ∧ c ≠ '!' ∧ c ≠ ']') (hopens : start <+: chars raw) :
    start <+: chars linked := by
  induction start generalizing raw linked with
  | nil => exact List.nil_prefix
  | cons c start ih =>
    obtain ⟨hopen, hbang, hclose⟩ := hstart c (by simp)
    cases h with
    | nil => exact absurd hopens (by simp)
    | keep x h =>
      rw [chars_cons, List.cons_prefix_cons] at hopens ⊢
      exact ⟨hopens.1, ih h (fun d hd => hstart d (by simp [hd])) hopens.2⟩
    | skip x hx h =>
      rw [chars_cons, List.cons_prefix_cons] at hopens
      rcases hx with hx | hx
      · exact absurd (hopens.1.trans hx) hopen
      · exact absurd (hopens.1.trans hx) hbang
    | target x y inner z hx hz h =>
      rw [chars_cons, List.cons_prefix_cons] at hopens
      exact absurd (hopens.1.trans hx) hclose

theorem Linked.startsUrl {raw linked : List α} (h : Linked raw linked)
    (hraw : startsUrl raw = true) : Speech.startsUrl linked = true := by
  have hplain : ∀ start ∈ urlPrefixes, start.all fun c => c ≠ '[' ∧ c ≠ '!' ∧ c ≠ ']' := by
    decide
  obtain ⟨start, hmem, hopens⟩ := (startsUrl_iff _).mp hraw
  have hall := List.all_iff_forall_prop.mp (hplain start hmem)
  exact (startsUrl_iff _).mpr ⟨start, hmem, h.isPrefix hall hopens⟩

end Scan

/-- The letters of a text, marked where they are in a URL of it. -/
def markUrls (inside : Bool) : Text → List (Char × Bool)
  | [] => []
  | c :: rest => (c, inUrl inside c rest) :: markUrls (inUrl inside c rest) rest

/-- Letters with the marks they have in a text that goes on with `ahead`. -/
def Marked (inside : Bool) (ahead : Text) : List (Char × Bool) → Prop
  | [] => True
  | x :: rest => x.2 = inUrl inside x.1 (chars rest ++ ahead) ∧ Marked x.2 ahead rest

/-- Whether the text so far ends in a URL. -/
def lastMark (inside : Bool) (text : List (Char × Bool)) : Bool :=
  text.foldl (fun _ x => x.2) inside

/-- Where a URL begins, all of its prefix is there. -/
def Whole (inside : Bool) : List (Char × Bool) → Prop
  | [] => True
  | x :: rest => (inside = false → x.2 = true → startsUrl (x :: rest) = true) ∧ Whole x.2 rest

theorem lastMark_append (inside : Bool) (a b : List (Char × Bool)) :
    lastMark inside (a ++ b) = lastMark (lastMark inside a) b := List.foldl_append

theorem Marked.append_iff {inside : Bool} {ahead : Text} {a b : List (Char × Bool)} :
    Marked inside ahead (a ++ b) ↔
      Marked inside (chars b ++ ahead) a ∧ Marked (lastMark inside a) ahead b := by
  induction a generalizing inside with
  | nil => exact ⟨fun h => ⟨trivial, h⟩, fun h => h.2⟩
  | cons x a ih =>
    have hsame : chars (a ++ b) ++ ahead = chars a ++ (chars b ++ ahead) := by
      rw [chars_append, List.append_assoc]
    rw [List.cons_append, Marked, Marked, ih, hsame]
    exact ⟨fun ⟨hx, ha, hb⟩ => ⟨⟨hx, ha⟩, hb⟩, fun ⟨⟨hx, ha⟩, hb⟩ => ⟨hx, ha, hb⟩⟩

theorem Whole.of_append {inside : Bool} {a b : List (Char × Bool)} (h : Whole inside (a ++ b)) :
    Whole (lastMark inside a) b := by
  induction a generalizing inside with
  | nil => exact h
  | cons x a ih => exact ih h.2

theorem chars_markUrls (inside : Bool) (text : Text) : chars (markUrls inside text) = text := by
  induction text generalizing inside with
  | nil => rfl
  | cons c rest ih =>
    rw [markUrls, chars_cons, ih]
    rfl

theorem marked_markUrls (inside : Bool) (text : Text) : Marked inside [] (markUrls inside text) := by
  induction text generalizing inside with
  | nil => trivial
  | cons c rest ih =>
    refine ⟨?_, ih _⟩
    rw [chars_markUrls, List.append_nil]

/-- The scan of a text without its links takes out all that is marked. -/
theorem scanUrls_unmarked {raw linked : List (Char × Bool)} (h : Linked raw linked)
    {inside scanning : Bool} {ahead : Text} (hle : inside = true → scanning = true)
    (hmarked : Marked inside ahead raw) (hwhole : Whole inside raw) :
    (∀ x ∈ (scanUrls scanning linked).2, x.2 = false) ∧
      (lastMark inside raw = true → (scanUrls scanning linked).1 = true) := by
  induction h generalizing inside scanning with
  | nil => exact ⟨by simp [scanUrls], hle⟩
  | @keep x raw linked h ih =>
    obtain ⟨hmark, hrest⟩ := hmarked
    have hnext : x.2 = true → inUrl scanning x linked = true := by
      intro hx
      unfold inUrl
      split_ifs with hscanning
      · rw [hx] at hmark
        have hplain : isUrlDelimiter (char x.1) = false := not_delimiter hmark.symm
        change (!isUrlDelimiter (char x.1)) = true
        rw [hplain]
        rfl
      · have hinside : inside = false := by
          by_contra hno
          exact hscanning (hle (by simpa using hno))
        exact (Linked.keep x h).startsUrl (hwhole.1 hinside hx)
    obtain ⟨hkept, hlast⟩ := ih hnext hrest hwhole.2
    rw [scanUrls_cons]
    refine ⟨?_, hlast⟩
    intro y hy
    dsimp only at hy
    split_ifs at hy with hin
    · exact hkept y hy
    · rcases List.mem_cons.mp hy with rfl | hy
      · by_contra hy
        exact hin (hnext (by simpa using hy))
      · exact hkept y hy
  | skip x hx h ih =>
    obtain ⟨hmark, hrest⟩ := hmarked
    have hnext : x.2 = true → scanning = true := by
      intro hin
      rw [hin, inUrl] at hmark
      split_ifs at hmark with hinside
      · exact hle hinside
      · have hhead : x.1 = 'h' ∨ x.1 = 'w' := startsUrl_head hmark.symm
        have hx' : x.1 = '[' ∨ x.1 = '!' := hx
        rcases hhead with hh | hh <;> rw [hh] at hx' <;> exact absurd hx' (by decide)
    exact ih hnext hrest hwhole.2
  | target x y inner z hx hz h ih =>
    have hsplit (raw : List (Char × Bool)) :
        x :: y :: (inner ++ z :: raw) = (x :: y :: inner) ++ z :: raw := rfl
    rw [hsplit] at hmarked hwhole ⊢
    obtain ⟨-, hmark, hrest⟩ := Marked.append_iff.mp hmarked
    have hclose : z.2 = false := by
      rw [hmark]
      have hdelimiter : isUrlDelimiter (char z) = true := by rw [hz]; decide
      exact inUrl_delimiter _ hdelimiter
    have hnext : z.2 = true → scanning = true := by
      rw [hclose]
      exact nofun
    rw [lastMark_append]
    exact ih hnext hrest hwhole.of_append.2

theorem Marked.spaces {inside : Bool} {ahead : Text} {text : List (Char × Bool)}
    (h : Marked inside ahead text) (hspaces : ∀ x ∈ text, isSpace x = true) (hne : text ≠ []) :
    lastMark inside text = false := by
  induction text generalizing inside with
  | nil => exact absurd rfl hne
  | cons x rest ih =>
    cases rest with
    | nil =>
      have hdelimiter : isUrlDelimiter (char x.1) = true := by
        rw [isUrlDelimiter, show isWhitespace (char x.1) = true from hspaces x (by simp)]
        rfl
      exact h.1.trans (inUrl_delimiter _ hdelimiter)
    | cons y rest => exact ih h.2 (fun z hz => hspaces z (by simp [hz])) (by simp)

/-- What starts with neither of the letters that URLs start with does not begin one. -/
theorem Marked.no_start {inside : Bool} {ahead : Text} {front : List (Char × Bool)}
    (h : Marked inside ahead front) (hfront : ∀ x ∈ front, isWord x.1 = false)
    (hlast : lastMark inside front = true) : inside = true := by
  induction front generalizing inside with
  | nil => exact hlast
  | cons x front ih =>
    have hx := ih h.2 (fun y hy => hfront y (by simp [hy])) hlast
    have hmark := h.1
    rw [hx, inUrl] at hmark
    split_ifs at hmark with hinside
    · exact hinside
    · have hword := hfront x (by simp)
      rcases startsUrl_head hmark.symm with hh | hh
      · rw [show x.1 = 'h' from hh] at hword
        exact absurd hword (by decide)
      · rw [show x.1 = 'w' from hh] at hword
        exact absurd hword (by decide)

theorem prefix_of_space {start text behind : Text} {c : Char}
    (hstart : ∀ d ∈ start, isWhitespace d = false) (hc : isWhitespace c = true)
    (h : start <+: text ++ c :: behind) : start <+: text := by
  induction start generalizing text with
  | nil => exact List.nil_prefix
  | cons d start ih =>
    have hd := hstart d (by simp)
    cases text with
    | nil =>
      rw [List.nil_append, List.cons_prefix_cons] at h
      rw [h.1, hc] at hd
      cases hd
    | cons e text =>
      rw [List.cons_append, List.cons_prefix_cons] at h
      rw [List.cons_prefix_cons]
      exact ⟨h.1, ih (fun e he => hstart e (by simp [he])) h.2⟩

/-- A prefix of a URL has no white space. -/
theorem startsUrl_space {text behind : List (Char × Bool)} {x : Char × Bool}
    (hx : isSpace x = true) (h : startsUrl (text ++ x :: behind) = true) :
    startsUrl text = true := by
  have hplain : ∀ start ∈ urlPrefixes, start.all fun c => isWhitespace c = false := by decide
  obtain ⟨start, hmem, hopens⟩ := (startsUrl_iff _).mp h
  rw [chars_append, chars_cons] at hopens
  have hall := List.all_iff_forall_prop.mp (hplain start hmem)
  exact (startsUrl_iff _).mpr ⟨start, hmem, prefix_of_space hall hx hopens⟩

theorem startsUrl_append {text : List (Char × Bool)} (behind : List (Char × Bool))
    (h : startsUrl text = true) : startsUrl (text ++ behind) = true := by
  obtain ⟨start, hmem, hopens⟩ := (startsUrl_iff _).mp h
  rw [startsUrl_iff, chars_append]
  exact ⟨start, hmem, hopens.trans (List.prefix_append _ _)⟩

theorem Whole.of_space {inside : Bool} {text behind : List (Char × Bool)} {x : Char × Bool}
    (hx : isSpace x = true) (h : Whole inside (text ++ x :: behind)) : Whole inside text := by
  induction text generalizing inside with
  | nil => trivial
  | cons y text ih => exact ⟨fun hinside hy => startsUrl_space hx (h.1 hinside hy), ih h.2⟩

theorem Whole.of_spaces {inside : Bool} {text spaces : List (Char × Bool)}
    (hspaces : ∀ x ∈ spaces, isSpace x = true) (h : Whole inside (text ++ spaces)) :
    Whole inside text := by
  cases spaces with
  | nil => rwa [List.append_nil] at h
  | cons x spaces => exact h.of_space (hspaces x (by simp))

/-- A line that is ended is read as part of its text. -/
theorem Whole.of_line {inside : Bool} {line behind : List (Char × Bool)}
    (hend : line.getLast?.any isSpace = true) (h : Whole inside (line ++ behind)) :
    Whole inside line := by
  induction line generalizing inside with
  | nil => trivial
  | cons x line ih =>
    refine ⟨fun hinside hx => ?_, ?_⟩
    · obtain ⟨y, hy, hspace⟩ := (Option.any_eq_true _ _).mp hend
      have hsplit := List.dropLast_append_getLast? y hy
      have hstart := h.1 hinside hx
      change startsUrl ((x :: line) ++ behind) = true at hstart
      rw [← hsplit, List.append_assoc] at hstart
      rw [← hsplit]
      exact startsUrl_append [y] (startsUrl_space hspace hstart)
    · cases line with
      | nil => trivial
      | cons y line => exact ih (by simpa using hend) h.2

instance decidableWhole : (inside : Bool) → (text : List (Char × Bool)) → Decidable (Whole inside text)
  | _, [] => isTrue trivial
  | inside, x :: rest =>
    have := decidableWhole x.2 rest
    inferInstanceAs (Decidable ((inside = false → x.2 = true → startsUrl (x :: rest) = true) ∧
      Whole x.2 rest))

/-- What is taken off a line before the links are. -/
theorem stripped_split (text : List (Char × Bool)) :
    ∃ front, text = front ++ stripMarkdownPrefix text ∧ ∀ x ∈ front, isWord x.1 = false := by
  obtain ⟨front, hsplit⟩ := stripMarkdownPrefix_suffix text
  refine ⟨front, hsplit.symm, fun x hx => ?_⟩
  have hwords := stripMarkdownPrefix_words (chars text)
  rw [← chars_stripMarkdownPrefix] at hwords
  conv_rhs at hwords => rw [← hsplit, chars_append, List.filter_append]
  have hnone := List.append_left_eq_self.mp hwords.symm
  have hmem : x.1 ∈ chars front := List.mem_map_of_mem hx
  by_contra hword
  exact List.filter_eq_nil_iff.mp hnone x.1 hmem (by simpa using hword)

/-- A line as white space around what is trimmed. -/
theorem trim_split (line : List (Char × Bool)) : ∃ lead trail,
    line = lead ++ (trimEnd (trimStart line) ++ trail) ∧ (∀ x ∈ lead, isSpace x = true) ∧
      (∀ x ∈ trail, isSpace x = true) ∧ (lead = [] → line.head?.any isSpace = false) ∧
      (lead ≠ [] → line.head?.any isSpace = true) ∧
      (trail ≠ [] → line.getLast?.any isSpace = true) := by
  obtain ⟨lead, rest, hline, -, hdrop, hlead, hhead⟩ := split_while isSpace line
  obtain ⟨trail, htrail, hrest⟩ := trimEnd_split rest
  have hstart : trimStart line = rest := hdrop
  refine ⟨lead, trail, by rw [hstart, ← hrest, ← hline], hlead, htrail, ?_, ?_, ?_⟩
  · rintro rfl
    rw [hline, List.nil_append]
    cases rest with
    | nil => rfl
    | cons x rest => exact hhead x rfl
  · intro hne
    obtain ⟨x, lead, rfl⟩ := List.exists_cons_of_ne_nil hne
    rw [hline]
    exact hlead x (by simp)
  · intro hne
    rw [hline, hrest, ← List.append_assoc, List.getLast?_append_of_ne_nil _ hne,
      List.getLast?_eq_some_getLast hne]
    exact htrail _ (List.getLast_mem hne)

theorem Marked.last_space {inside : Bool} {ahead : Text} {text : List (Char × Bool)}
    (h : Marked inside ahead text) (hlast : text.getLast?.any isSpace = true) :
    lastMark inside text = false := by
  obtain ⟨x, hx, hspace⟩ := (Option.any_eq_true _ _).mp hlast
  have hsplit := List.dropLast_append_getLast? x hx
  rw [← hsplit] at h ⊢
  obtain ⟨-, hone⟩ := Marked.append_iff.mp h
  rw [lastMark_append]
  exact hone.spaces (by simpa using hspace) (by simp)

theorem plainLine_urls {α : Type} [Letter α] {config : FormatterConfig}
    (hstrip : config.stripUrls = true) (inBareUrl : Bool) (text : List α) :
    plainLine config inBareUrl text =
      ((scanUrls inBareUrl (replaceMarkdownLinks (stripMarkdownPrefix text))).1,
        (scanUrls inBareUrl (replaceMarkdownLinks (stripMarkdownPrefix text))).2.filter
          fun x => !isFormatting (char x)) := by
  rw [plainLine, if_pos hstrip, removeBareUrls_eq]

/-- A line keeps none of the letters that are marked, and does not lose track of a URL that runs on,
unless it looks like a table row that such a URL begins in. -/
theorem appendLine_urls {config : FormatterConfig} (hstrip : config.stripUrls = true)
    {state : Format (Char × Bool) × List (Char × Bool)} {line : List (Char × Bool)} {inside : Bool}
    {ahead : Text} (hle : inside = true → state.1.inBareUrl = true)
    (hmarked : Marked inside ahead line) (hwhole : Whole inside line) (hne : line ≠ [])
    (houtput : ∀ x ∈ state.2, x.2 = false)
    (htable : looksLikeMarkdownTable (trimEnd (trimStart line)) = true →
      lastMark inside line = true → line.head?.any isSpace = false ∧ inside = true) :
    (lastMark inside line = true → (appendLine config state line).1.inBareUrl = true) ∧
      ∀ x ∈ (appendLine config state line).2, x.2 = false := by
  obtain ⟨lead, trail, hsplit, hlead, htrail, hstart, hindent, hstop⟩ := trim_split line
  obtain ⟨front, htrim, hfront⟩ := stripped_split (trimEnd (trimStart line))
  have hP : ∀ c, (inserted c : Char × Bool).2 = false := fun c => rfl
  -- white space at the start of the line ends a URL in both
  have henter : lastMark inside lead = true → (state.1.enterLine line).inBareUrl = true := by
    unfold Format.enterLine
    by_cases hnil : lead = []
    · rw [hstart hnil, hnil]
      exact hle
    · rw [hsplit] at hmarked
      rw [(Marked.append_iff.mp hmarked).1.spaces hlead hnil]
      exact nofun
  have hparts := hmarked
  have hparts' := hwhole
  rw [hsplit] at hparts hparts'
  obtain ⟨-, hparts⟩ := Marked.append_iff.mp hparts
  obtain ⟨htext, -⟩ := Marked.append_iff.mp hparts
  have hwtext : Whole (lastMark inside lead) (trimEnd (trimStart line)) :=
    hparts'.of_append.of_spaces htrail
  unfold appendLine
  dsimp only
  by_cases hblank : (trimEnd (trimStart line)).isEmpty = true
  · rw [if_pos hblank]
    refine ⟨fun hlast => ?_, houtput⟩
    have hspaces : ∀ x ∈ line, isSpace x = true := by
      intro x hx
      rw [hsplit, List.isEmpty_iff.mp hblank, List.nil_append] at hx
      exact (List.mem_append.mp hx).elim (hlead x) (htrail x)
    rw [hmarked.spaces hspaces hne] at hlast
    cases hlast
  rw [if_neg hblank]
  by_cases hrow : looksLikeMarkdownTable (trimEnd (trimStart line)) = true
  · rw [if_pos hrow]
    refine ⟨fun hlast => ?_, ?_⟩
    · obtain ⟨hhead, hinside⟩ := htable hrow hlast
      have hnil : lead = [] := by
        by_contra hno
        rw [hindent hno] at hhead
        cases hhead
      rw [hnil] at henter
      exact henter hinside
    · dsimp only
      split_ifs
      · exact houtput
      · exact all_appendPhrase hP houtput (all_insertedText hP _)
  rw [if_neg hrow]
  rw [htrim] at htext hwtext
  obtain ⟨hfrontmarks, hstripped⟩ := Marked.append_iff.mp htext
  have hlinked : Linked (stripMarkdownPrefix (trimEnd (trimStart line)))
      (replaceMarkdownLinks (stripMarkdownPrefix (trimEnd (trimStart line)))) :=
    linked_replaceLinks _ _
  obtain ⟨hkept, hlast⟩ := scanUrls_unmarked hlinked
    (fun h => henter (hfrontmarks.no_start hfront h)) hstripped hwtext.of_append
  rw [plainLine_urls hstrip]
  generalize scanUrls (state.1.enterLine line).inBareUrl
    (replaceMarkdownLinks (stripMarkdownPrefix (trimEnd (trimStart line)))) = scan at hkept hlast ⊢
  dsimp only
  constructor
  · intro hmark
    have hnotrail : trail = [] := by
      by_contra hno
      rw [hmarked.last_space (hstop hno)] at hmark
      cases hmark
    have hend : line.getLast?.any isSpace = false := by
      by_contra hno
      rw [hmarked.last_space (by simpa using hno)] at hmark
      cases hmark
    have hmarks : lastMark inside line =
        lastMark (lastMark (lastMark inside lead) front)
          (stripMarkdownPrefix (trimEnd (trimStart line))) := by
      conv_lhs => rw [hsplit, hnotrail, List.append_nil, htrim]
      rw [lastMark_append, lastMark_append]
    rw [hend]
    exact hlast (hmarks ▸ hmark)
  · have hphrase : ∀ x ∈ trimEnd (trimStart (scan.2.filter fun x => !isFormatting (char x))),
        x.2 = false := by
      intro x hx
      exact hkept x (List.mem_of_mem_filter ((trim_sublist _).mem hx))
    exact all_appendPhrase (P := fun x : Char × Bool => x.2 = false) hP houtput hphrase

theorem splitInclusive_lines (text : List (Char × Bool)) (front : List (List (Char × Bool)))
    (line : List (Char × Bool)) (rest : List (List (Char × Bool)))
    (h : splitInclusive text = front ++ line :: rest) :
    line ≠ [] ∧ (rest = [] ∨ line.getLast?.any isSpace = true) := by
  induction text generalizing front line rest with
  | nil => simp [splitInclusive] at h
  | cons x text ih =>
    unfold splitInclusive at h
    split_ifs at h with hx
    · cases front with
      | nil =>
        obtain ⟨rfl, -⟩ := List.cons.inj h
        have hspace : isSpace x = true := by rw [isSpace, hx]; decide
        exact ⟨by simp, Or.inr hspace⟩
      | cons first front => exact ih front line rest (List.cons.inj h).2
    · cases hlines : splitInclusive text with
      | nil =>
        rw [hlines] at h
        cases front with
        | nil =>
          obtain ⟨rfl, rfl⟩ := List.cons.inj h
          exact ⟨by simp, Or.inl rfl⟩
        | cons first front => simp at h
      | cons second lines =>
        rw [hlines] at h ih
        cases front with
        | nil =>
          obtain ⟨rfl, rfl⟩ := List.cons.inj h
          obtain ⟨hne, hend⟩ := ih [] second lines rfl
          obtain ⟨y, second, rfl⟩ := List.exists_cons_of_ne_nil hne
          exact ⟨by simp, by simpa using hend⟩
        | cons first front =>
          obtain ⟨-, rfl⟩ := List.cons.inj h
          exact ih (second :: front) line rest rfl

/-- A URL that runs on past a line that looks like a table row runs all through it. -/
def TablesApart (inside : Bool) : List (List (Char × Bool)) → Prop
  | [] => True
  | line :: lines =>
    (looksLikeMarkdownTable (trimEnd (trimStart line)) = true → lastMark inside line = true →
      line.head?.any isSpace = false ∧ inside = true) ∧ TablesApart (lastMark inside line) lines

instance decidableTablesApart :
    (inside : Bool) → (lines : List (List (Char × Bool))) → Decidable (TablesApart inside lines)
  | _, [] => isTrue trivial
  | inside, line :: lines =>
    have := decidableTablesApart (lastMark inside line) lines
    inferInstanceAs (Decidable ((looksLikeMarkdownTable (trimEnd (trimStart line)) = true →
      lastMark inside line = true → line.head?.any isSpace = false ∧ inside = true) ∧
        TablesApart (lastMark inside line) lines))

theorem appendLines_urls {config : FormatterConfig} (hstrip : config.stripUrls = true)
    (lines : List (List (Char × Bool))) (state : Format (Char × Bool) × List (Char × Bool))
    {inside : Bool} {ahead : Text} (hle : inside = true → state.1.inBareUrl = true)
    (hmarked : Marked inside ahead lines.flatten) (hwhole : Whole inside lines.flatten)
    (hlines : ∀ front line rest, lines = front ++ line :: rest →
      line ≠ [] ∧ (rest = [] ∨ line.getLast?.any isSpace = true))
    (htables : TablesApart inside lines) (houtput : ∀ x ∈ state.2, x.2 = false) :
    (lastMark inside lines.flatten = true →
        (lines.foldl (appendLine config) state).1.inBareUrl = true) ∧
      ∀ x ∈ (lines.foldl (appendLine config) state).2, x.2 = false := by
  induction lines generalizing state inside with
  | nil => exact ⟨hle, houtput⟩
  | cons line lines ih =>
    rw [List.flatten_cons] at hmarked hwhole ⊢
    obtain ⟨hone, hrest⟩ := Marked.append_iff.mp hmarked
    obtain ⟨hne, hend⟩ := hlines [] line lines rfl
    have hwline : Whole inside line := by
      rcases hend with rfl | hend
      · rwa [List.flatten_nil, List.append_nil] at hwhole
      · exact hwhole.of_line hend
    obtain ⟨hflag, hkept⟩ := appendLine_urls hstrip hle hone hwline hne houtput htables.1
    rw [List.foldl_cons, lastMark_append]
    refine ih _ hflag hrest hwhole.of_append (fun front second rest hsplit => ?_) htables.2 hkept
    exact hlines (line :: front) second rest (by rw [hsplit, List.cons_append])

/-- Each URL begins with its whole prefix in one chunk, and no table hides one that runs on. -/
def UrlsKept (inside : Bool) : List (List (Char × Bool)) → Prop
  | [] => True
  | chunk :: chunks => Whole inside chunk ∧ TablesApart inside (splitInclusive chunk) ∧
    UrlsKept (lastMark inside chunk) chunks

instance decidableUrlsKept :
    (inside : Bool) → (chunks : List (List (Char × Bool))) → Decidable (UrlsKept inside chunks)
  | _, [] => isTrue trivial
  | inside, chunk :: chunks =>
    have := decidableUrlsKept (lastMark inside chunk) chunks
    inferInstanceAs (Decidable (Whole inside chunk ∧ TablesApart inside (splitInclusive chunk) ∧
      UrlsKept (lastMark inside chunk) chunks))

/-- One chunk. -/
theorem formatChunk_urls {config : FormatterConfig} (hstrip : config.stripUrls = true)
    (hterms : config.suppressedParentheticalTerms = []) {s : Format (Char × Bool)}
    {chunk : List (Char × Bool)} {inside : Bool} {ahead : Text} (hs : s.Outside)
    (hle : inside = true → s.inBareUrl = true) (hmarked : Marked inside ahead chunk)
    (hwhole : Whole inside chunk) (htables : TablesApart inside (splitInclusive chunk))
    (htick : ∀ x ∈ chunk, char x ≠ '`') :
    (formatChunk config s chunk).1.Outside ∧
      (lastMark inside chunk = true → (formatChunk config s chunk).1.inBareUrl = true) ∧
      ∀ x ∈ (formatChunk config s chunk).2, x.2 = false := by
  have hsame := appendMarkdownText_sameFence config (s, []) chunk
  have hflatten := splitInclusive_flatten chunk
  obtain ⟨hflag, hkept⟩ := appendLines_urls hstrip (splitInclusive chunk) (s, []) hle
    (by rwa [hflatten]) (by rwa [hflatten]) (splitInclusive_lines chunk) htables (by simp)
  rw [hflatten] at hflag
  rw [formatChunk_outside config (filterParenthetical_nil hterms s chunk) hs htick]
  have hinserted : ∀ c, (inserted c : Char × Bool).2 = false := fun c => rfl
  exact ⟨⟨hsame.inFencedCode.trans hs.unfenced, hsame.pendingBackticks.trans hs.pending⟩, hflag,
    all_collapseSpokenWhitespace (P := fun x : Char × Bool => x.2 = false) hinserted hkept⟩

theorem emitChunks_urls {config : FormatterConfig} (hstrip : config.stripUrls = true)
    (hterms : config.suppressedParentheticalTerms = []) {chunks : List (List (Char × Bool))}
    {s : Format (Char × Bool)} {inside : Bool} {ahead : Text} (hs : s.Outside)
    (hle : inside = true → s.inBareUrl = true) (hmarked : Marked inside ahead chunks.flatten)
    (hkept : UrlsKept inside chunks) (htick : ∀ x ∈ chunks.flatten, char x ≠ '`') :
    ∀ spoken ∈ (emitChunks config s chunks).2, ∀ x ∈ spoken, x.2 = false := by
  induction chunks generalizing s inside with
  | nil => simp [emitChunks]
  | cons chunk chunks ih =>
    obtain ⟨hwhole, htables, hrest⟩ := hkept
    rw [List.flatten_cons] at hmarked htick
    obtain ⟨hone, hmarked⟩ := Marked.append_iff.mp hmarked
    obtain ⟨hnext, hflag, hspoken⟩ := formatChunk_urls hstrip hterms hs hle hone hwhole htables
      fun x hx => htick x (List.mem_append_left _ hx)
    intro spoken hmem
    rcases mem_emitChunks_cons hmem with heq | hmem
    · rw [heq]
      exact hspoken
    · exact ih hnext hflag hmarked hrest (fun x hx => htick x (List.mem_append_right _ hx))
        spoken hmem

theorem map_chars_splitLengths (chunks : List Text) {text : List (Char × Bool)} {dropped : Text}
    (h : chars text = chunks.flatten ++ dropped) :
    ((chunks.map List.length).splitLengths text).map chars = chunks ∧
      ∃ behind, text = ((chunks.map List.length).splitLengths text).flatten ++ behind ∧
        chars behind = dropped := by
  induction chunks generalizing text with
  | nil => exact ⟨rfl, text, rfl, h⟩
  | cons chunk chunks ih =>
    rw [List.flatten_cons, List.append_assoc] at h
    have hfirst : chars (text.take chunk.length) = chunk := by
      rw [chars, List.map_take]
      change (chars text).take chunk.length = chunk
      rw [h, List.take_left]
    have hrest : chars (text.drop chunk.length) = chunks.flatten ++ dropped := by
      rw [chars, List.map_drop]
      change (chars text).drop chunk.length = _
      rw [h, List.drop_left]
    obtain ⟨hmap, behind, hsplit, hbehind⟩ := ih hrest
    rw [List.map_cons, List.splitLengths_cons, List.map_cons, hfirst, hmap]
    refine ⟨rfl, behind, ?_, hbehind⟩
    rw [List.flatten_cons, List.append_assoc, ← hsplit, List.take_append_drop]

/-- The chunks of a response, each letter marked that is in a bare URL of the whole text. -/
def ChunkLimits.markedChunks (limits : ChunkLimits) (fragments : List Text) :
    List (List (Char × Bool)) :=
  ((limits.cut fragments).map List.length).splitLengths (markUrls false fragments.flatten)

/-- A formatter that has not spoken yet, with chunks of up to twenty characters. -/
def briefFormatter : SpokenFormatter :=
  ⟨⟨⟨1, 20, by decide⟩, none, []⟩, ⟨"Code.".toList, "Table.".toList, true, []⟩, .fresh⟩

end Muxiva.Speech
