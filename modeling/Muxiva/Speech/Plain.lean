import Muxiva.Speech.Origin

/-! Text without markup: what a test of letters that is blind to white space sees of the output. -/
set_option linter.all false
namespace Muxiva.Speech

open Letter

section Seen

variable {α : Type} [Letter α] {v : α → Bool} (hv : ∀ x, isSpace x = true → v x = false)
include hv

theorem filter_spaces {text : List α} (h : ∀ x ∈ text, isSpace x = true) : text.filter v = [] := by
  rw [List.filter_eq_nil_iff]
  intro x hx
  rw [hv x (h x hx)]
  decide

theorem filter_trimStart (text : List α) : (trimStart text).filter v = text.filter v := by
  have hsplit := List.takeWhile_append_dropWhile (p := isSpace) (l := text)
  have hspaces : (text.takeWhile isSpace).filter v = [] :=
    filter_spaces hv fun x hx => List.mem_takeWhile_imp hx
  conv_rhs => rw [← hsplit, List.filter_append, hspaces, List.nil_append]
  rfl

theorem filter_trimEnd (text : List α) : (trimEnd text).filter v = text.filter v := by
  have h := filter_trimStart hv text.reverse
  rw [List.filter_reverse] at h
  rw [trimEnd, List.filter_reverse]
  exact (congrArg List.reverse h).trans (List.reverse_reverse _)

theorem filter_trim (text : List α) : (trimEnd (trimStart text)).filter v = text.filter v :=
  (filter_trimEnd hv _).trans (filter_trimStart hv text)

theorem filter_appendPhrase (output phrase : List α) :
    (appendPhrase output phrase).filter v = output.filter v ++ phrase.filter v := by
  have hspace : v (inserted ' ') = false := hv _ (by rw [isSpace, char_inserted]; decide)
  unfold appendPhrase
  split_ifs with hempty
  · rw [List.isEmpty_iff.mp hempty]
    simp
  · rw [List.filter_append, List.filter_cons_of_neg (by simp [hspace])]
  · exact List.filter_append ..

theorem filter_collapse (text : List α) :
    (collapseSpokenWhitespace text).filter v = text.filter v := by
  have hspace : v (inserted ' ') = false := hv _ (by rw [isSpace, char_inserted]; decide)
  have hfold (state : List α × Bool) :
      (text.foldl collapseCharacter state).1.filter v = state.1.filter v ++ text.filter v := by
    induction text generalizing state with
    | nil => simp
    | cons x rest ih =>
      rw [List.foldl_cons, ih]
      have hone : (collapseCharacter state x).1.filter v = state.1.filter v ++ [x].filter v := by
        unfold collapseCharacter
        dsimp only
        split_ifs with hx hword
        · simp [hv x hx]
        · simp [hspace]
        · rw [List.filter_append]
      rw [hone, List.append_assoc, ← List.filter_append]
      rfl
  rw [collapseSpokenWhitespace, filter_trim hv, hfold]
  rfl

end Seen

section Chunk

variable {α : Type} [Letter α]

theorem replaceLinks_eq_self (fuel : ℕ) {text : List α} (h : ∀ x ∈ text, char x ≠ '[') :
    replaceLinks fuel text = text := by
  cases fuel with
  | zero => rfl
  | succ fuel => rw [replaceLinks, splitAtChar_eq_none h]

theorem startsUrl_iff (text : List α) :
    startsUrl text = true ↔ ∃ start ∈ urlPrefixes, start <+: chars text := by
  simp [startsUrl]

theorem findUrl_eq_none {text : List α} (h : ∀ start ∈ urlPrefixes, ¬start <:+: chars text) :
    findUrl text = none := by
  rw [findUrl, List.find?_eq_none]
  intro i _ hstart
  obtain ⟨start, hmem, hopens⟩ := (startsUrl_iff _).mp hstart
  refine h start hmem (hopens.isInfix.trans ?_)
  rw [chars, List.map_drop]
  exact (List.drop_suffix i _).isInfix

theorem removeBareUrls_eq_self {text : List α} (h : ∀ start ∈ urlPrefixes, ¬start <:+: chars text) :
    removeBareUrls false text = (false, text) := by
  rw [removeBareUrls, removeUrls]
  simp [findUrl_eq_none h]

/-- No fence is open and no backticks are pending. -/
structure Format.Outside (s : Format α) : Prop where
  unfenced : s.inFencedCode = false
  pending : s.pendingBackticks = 0

theorem formatSegments_outside (config : FormatterConfig) {fuel : ℕ} {state : Format α × List α}
    (hopen : state.1.inFencedCode = false) {text : List α} (hfuel : text.length ≤ fuel)
    (htext : ∀ x ∈ text, char x ≠ '`') :
    formatSegments config fuel state text = appendMarkdownText config state text := by
  cases fuel with
  | zero =>
    obtain rfl : text = [] := List.length_eq_zero_iff.mp (by omega)
    rfl
  | succ fuel =>
    unfold formatSegments
    have hall : ∀ x ∈ text, (!isChar '`' x) = true := by simpa [isChar] using htext
    by_cases hempty : text.isEmpty = true
    · rw [if_pos hempty, List.isEmpty_iff.mp hempty]
      rfl
    · rw [if_neg hempty, List.takeWhile_eq_self_iff.mpr hall, List.dropWhile_eq_nil_iff.mpr hall]
      simp [hopen]

/-- A chunk without backticks outside of fenced code. -/
theorem formatChunk_outside (config : FormatterConfig) {s s' : Format α} {chunk text : List α}
    (hfilter : filterParenthetical config.suppressedParentheticalTerms s chunk = (s', text))
    (houtside : s'.Outside) (htext : ∀ x ∈ text, char x ≠ '`') :
    formatChunk config s chunk = ((appendMarkdownText config (s', []) text).1,
      collapseSpokenWhitespace (appendMarkdownText config (s', []) text).2) := by
  have htrailing : trailingBackticks text = 0 := by
    have hnone : text.reverse.takeWhile (isChar '`') = [] := by
      refine List.takeWhile_eq_nil_iff.mpr fun hpos => ?_
      have hmem := List.mem_reverse.mp (List.get_mem text.reverse ⟨0, hpos⟩)
      simpa [isChar] using htext _ hmem
    rw [trailingBackticks, hnone]
    rfl
  have hstate : { s' with pendingBackticks := 0 } = s' := by
    rw [← houtside.pending]
  unfold formatChunk
  rw [hfilter]
  dsimp only
  rw [houtside.pending, List.replicate_zero, List.nil_append, htrailing, if_pos (by omega),
    Nat.sub_zero, List.take_length, hstate,
    formatSegments_outside config houtside.unfenced (le_refl _) htext]

theorem looksLikeMarkdownTable_eq_false {text : List α} (h : ∀ x ∈ text, char x ≠ '|') :
    looksLikeMarkdownTable text = false := by
  have hnone : text.countP (isChar '|') = 0 := by
    rw [List.countP_eq_zero]
    simpa [isChar] using h
  simp [looksLikeMarkdownTable, hnone]

/-- What a test that is blind to white space sees of a line that is no table row and has no URL. -/
theorem appendLine_seen {v : α → Bool} (hv : ∀ x, isSpace x = true → v x = false)
    (config : FormatterConfig) (state : Format α × List α) {line : List α}
    (hurl : state.1.inBareUrl = false) (hpipe : ∀ x ∈ line, char x ≠ '|')
    (hlinked : config.stripUrls = true → ∀ start ∈ urlPrefixes,
      ¬start <:+: chars (replaceMarkdownLinks (stripMarkdownPrefix (trimEnd (trimStart line))))) :
    (appendLine config state line).1.inBareUrl = false ∧
      (appendLine config state line).2.filter v = state.2.filter v ++
        ((replaceMarkdownLinks (stripMarkdownPrefix (trimEnd (trimStart line)))).filter
          fun x => !isFormatting (char x)).filter v := by
  have henter : (state.1.enterLine line).inBareUrl = false := by
    unfold Format.enterLine
    split_ifs
    · rfl
    · exact hurl
  have htable : looksLikeMarkdownTable (trimEnd (trimStart line)) = false :=
    looksLikeMarkdownTable_eq_false fun x hx => hpipe x ((trim_sublist line).mem hx)
  have hline : plainLine config false (trimEnd (trimStart line)) = (false,
      (replaceMarkdownLinks (stripMarkdownPrefix (trimEnd (trimStart line)))).filter
        fun x => !isFormatting (char x)) := by
    unfold plainLine
    dsimp only
    split_ifs with hstrip
    · rw [removeBareUrls_eq_self (hlinked hstrip)]
    · rfl
  unfold appendLine
  dsimp only
  rw [htable, henter, hline]
  dsimp only
  by_cases hblank : (trimEnd (trimStart line)).isEmpty = true
  · rw [if_pos hblank, List.isEmpty_iff.mp hblank]
    exact ⟨rfl, (List.append_nil _).symm⟩
  · rw [if_neg hblank]
    refine ⟨?_, ?_⟩
    · simp
    · simp only [Bool.false_eq_true, if_false]
      rw [filter_appendPhrase hv, filter_trim hv]

end Chunk

/-- Letters and whatever else is neither white space nor a bracket nor markup. -/
def isWord (c : Char) : Bool :=
  !isWhitespace c && !c.isDigit && !isFormatting c && !(['#', '>', '-', '+', '|', '.'].contains c)

theorem isWord_space (c : Char) (h : isSpace c = true) : isWord c = false := by
  rw [isWord, show isWhitespace c = true from h]
  rfl

/-- What is stripped off the start of a line is no word. -/
theorem filter_strip {front rest : Text} (h : ∀ c ∈ front, isWord c = false) :
    (front ++ rest).filter isWord = rest.filter isWord := by
  rw [List.filter_append, List.filter_eq_nil_iff.mpr fun c hc => by simp [h c hc], List.nil_append]

theorem filter_dropWhile {p : Char → Bool} (h : ∀ c, p c = true → isWord c = false) (text : Text) :
    (text.dropWhile p).filter isWord = text.filter isWord := by
  conv_rhs => rw [← List.takeWhile_append_dropWhile (p := p) (l := text)]
  exact (filter_strip fun c hc => h c (List.mem_takeWhile_imp hc)).symm

theorem isWord_digit {c : Char} (h : isDigitLetter c = true) : isWord c = false := by
  rw [isWord, show c.isDigit = true from h]
  simp

theorem stripMarker_words (line : Text) :
    (stripMarker line).filter isWord = line.filter isWord := by
  have htwo {a b : Char} {rest : Text} (hab : isWord a = false ∧ isWord b = false)
      (h : stripTwo a b line = some rest) : rest.filter isWord = line.filter isWord := by
    obtain ⟨x, y, rfl, hx, hy⟩ := stripTwo_eq h
    obtain rfl : x = a := hx
    obtain rfl : y = b := hy
    simp [hab]
  unfold stripMarker
  cases hbullet : (stripTwo '-' ' ' line).or ((stripTwo '+' ' ' line).or (stripTwo '*' ' ' line)) with
  | some behind =>
    simp only [Option.or_eq_some_iff] at hbullet
    rcases hbullet with h | ⟨-, h | ⟨-, h⟩⟩
    · exact htwo (by decide) h
    · exact htwo (by decide) h
    · exact htwo (by decide) h
  | none =>
    obtain ⟨digits, rest, hline, htake, -, hdigits, -⟩ := split_while isDigitLetter line
    dsimp only
    rw [htake, show line.drop digits.length = rest by rw [hline, List.drop_left]]
    split_ifs with hmark
    · have hordinal : ∃ x y behind, rest = x :: y :: behind ∧ isWord x = false ∧ isWord y = false := by
        rcases hmark.2 with h | h
        all_goals
          obtain ⟨behind, hbehind⟩ := Option.isSome_iff_exists.mp h
          obtain ⟨x, y, hrest, hx, hy⟩ := stripTwo_eq hbehind
          refine ⟨x, y, behind, hrest, ?_, ?_⟩
          · rw [show x = _ from hx]
            decide
          · rw [show y = _ from hy]
            decide
      obtain ⟨x, y, behind, rfl, hx, hy⟩ := hordinal
      have hdrop : line.drop (digits.length + 2) = behind := by
        rw [hline, show digits ++ x :: y :: behind = (digits ++ [x, y]) ++ behind by simp]
        exact List.drop_left' (by simp)
      rw [hdrop, hline, filter_strip fun c hc => isWord_digit (hdigits c hc)]
      simp [hx, hy]
    · rfl

theorem stripMarkdownPrefix_words (line : Text) :
    (stripMarkdownPrefix line).filter isWord = line.filter isWord := by
  have hmark (mark : Char) (hmark : isWord mark = false) (text : Text) :
      (text.dropWhile (isChar mark)).filter isWord = text.filter isWord := by
    refine filter_dropWhile (fun c hc => ?_) text
    have heq : c = mark := of_decide_eq_true hc
    rwa [heq]
  unfold stripMarkdownPrefix
  dsimp only
  rw [stripMarker_words, filter_trimStart isWord_space, hmark '>' (by decide),
    filter_trimStart isWord_space, hmark '#' (by decide), filter_trimStart isWord_space]

end Muxiva.Speech
