import Mathlib.Data.Bool.AllAny
import Muxiva.Speech.Letters
import Muxiva.Speech.Plain
import Muxiva.Speech.Speaking

/-! The filter of parentheticals. What it holds back it hands on later, so that no word is lost to it
unless a term is in a bracket or a bracket stays open. -/
set_option linter.all false
namespace Muxiva.Speech

open Letter

/-- A link: the label up to the first closing bracket, and the target right behind it. -/
def HasLink (text : Text) : Prop :=
  ∃ a label target b, text = a ++ '[' :: (label ++ ']' :: '(' :: (target ++ ')' :: b)) ∧ ']' ∉ label

/-- Text without fences, tables, links and suppressed terms, and without URLs where these are
stripped. -/
structure PlainText (config : FormatterConfig) (text : Text) : Prop where
  noMark : ∀ c ∈ text, c ≠ '`' ∧ c ≠ '|'
  noLink : ¬HasLink text
  noTerm : ∀ term ∈ config.suppressedParentheticalTerms, ¬term <:+: text
  noUrl : config.stripUrls = true → ∀ start ∈ urlPrefixes, ¬start <:+: text

/-- The closing bracket that is waited for and how much is held for it. -/
def holdCharacter (held : Option (Char × ℕ)) (c : Char) : Option (Char × ℕ) :=
  match held with
  | some (closing, count) =>
    if c = closing then none else if 120 < count + 1 then none else some (closing, count + 1)
  | none => (closingOf c).map (·, 1)

/-- A bracket is open at the end of the text, and no more than 120 characters from there. -/
def LeftOpen (text : Text) : Prop := (text.foldl holdCharacter none).isSome

instance (text : Text) : Decidable (LeftOpen text) := inferInstanceAs (Decidable (_ = true))

theorem HasLink.of_part {part text : Text} (h : HasLink part) (hpart : part <:+: text) :
    HasLink text := by
  obtain ⟨a, label, target, b, rfl, hlabel⟩ := h
  obtain ⟨before, behind, rfl⟩ := hpart
  exact ⟨before ++ a, label, target, b ++ behind, by simp, hlabel⟩

theorem PlainText.of_part {config : FormatterConfig} {part text : Text} (h : PlainText config text)
    (hpart : part <:+: text) : PlainText config part :=
  ⟨fun c hc => h.noMark c (hpart.subset hc), fun hlink => h.noLink (hlink.of_part hpart),
    fun term hterm hwithin => h.noTerm term hterm (hwithin.trans hpart),
    fun hstrip start hstart hwithin => h.noUrl hstrip start hstart (hwithin.trans hpart)⟩

theorem replaceLinks_plain (fuel : ℕ) {text : Text} (h : ¬HasLink text) :
    replaceLinks fuel text = text := by
  induction fuel generalizing text with
  | zero => rfl
  | succ fuel ih =>
    unfold replaceLinks
    cases hopen : splitAtChar '[' text with
    | none => rfl
    | some p =>
      obtain ⟨before, tail⟩ := p
      obtain ⟨x, hx, rfl, -⟩ := splitAtChar_eq hopen
      obtain rfl : x = '[' := hx
      dsimp only
      cases hclose : splitAtChar ']' tail with
      | none => rfl
      | some q =>
        obtain ⟨label, afterLabel⟩ := q
        obtain ⟨y, hy, rfl, hlabel⟩ := splitAtChar_eq hclose
        obtain rfl : y = ']' := hy
        cases afterLabel with
        | nil => rfl
        | cons z target =>
          dsimp only
          have hsplit : before ++ '[' :: (label ++ ']' :: z :: target) =
              (before ++ '[' :: (label ++ [']'])) ++ z :: target := by simp
          split_ifs with hz
          · have hrest : ¬HasLink (z :: target) := fun hlink =>
              h (hlink.of_part ⟨before ++ '[' :: (label ++ [']']), [], by simp⟩)
            rw [ih hrest, hsplit]
            congr 1
            apply List.take_left'
            simp only [List.length_append, List.length_cons, List.length_nil]
            omega
          · obtain rfl : z = '(' := not_not.mp hz
            cases htarget : splitAtChar ')' target with
            | none => rfl
            | some r =>
              obtain ⟨inner, behind⟩ := r
              obtain ⟨w, hw, rfl, -⟩ := splitAtChar_eq htarget
              obtain rfl : w = ')' := hw
              exact absurd ⟨before, label, inner, behind, rfl, fun hmem => hlabel _ hmem rfl⟩ h

theorem filter_formatting (text : Text) :
    (text.filter fun c => !isFormatting c).filter isWord = text.filter isWord := by
  rw [List.filter_filter]
  refine List.filter_congr fun c _ => ?_
  cases hc : isFormatting c <;> simp [isWord, hc]

/-- A line of plain text keeps its words. -/
theorem appendLine_words {config : FormatterConfig} {state : Format Char × Text} {line : Text}
    (hurl : state.1.inBareUrl = false) (hline : PlainText config line) :
    (appendLine config state line).1.inBareUrl = false ∧
      (appendLine config state line).2.filter isWord =
        state.2.filter isWord ++ line.filter isWord := by
  have hpart : stripMarkdownPrefix (trimEnd (trimStart line)) <:+: line :=
    (stripMarkdownPrefix_suffix _).isInfix.trans <|
      (trimEnd_start _).isInfix.trans (trimStart_suffix line).isInfix
  have hstripped := hline.of_part hpart
  have hlinks : replaceMarkdownLinks (stripMarkdownPrefix (trimEnd (trimStart line))) =
      stripMarkdownPrefix (trimEnd (trimStart line)) := replaceLinks_plain _ hstripped.noLink
  obtain ⟨hnone, hseen⟩ := appendLine_seen isWord_space config state hurl
    (fun c hc => (hline.noMark c hc).2) fun hstrip start hstart => by
      rw [hlinks, chars_self]
      exact hstripped.noUrl hstrip start hstart
  refine ⟨hnone, hseen.trans ?_⟩
  rw [hlinks]
  change _ ++ (List.filter (fun c => !isFormatting c) _).filter isWord = _
  rw [filter_formatting, stripMarkdownPrefix_words, filter_trim isWord_space]

theorem appendMarkdownText_words {config : FormatterConfig} (state : Format Char × Text)
    {text : Text} (hurl : state.1.inBareUrl = false) (htext : PlainText config text) :
    (appendMarkdownText config state text).1.inBareUrl = false ∧
      (appendMarkdownText config state text).2.filter isWord =
        state.2.filter isWord ++ text.filter isWord := by
  have hlines : ∀ line ∈ splitInclusive text, PlainText config line := fun line hline => by
    have hwithin := List.infix_of_mem_flatten hline
    rw [splitInclusive_flatten] at hwithin
    exact htext.of_part hwithin
  conv => enter [2, 2, 2]; rw [← splitInclusive_flatten text]
  unfold appendMarkdownText
  generalize splitInclusive text = lines at hlines ⊢
  induction lines generalizing state with
  | nil => exact ⟨hurl, by simp⟩
  | cons line lines ih =>
    obtain ⟨hnone, hone⟩ := appendLine_words hurl (hlines line (by simp))
    obtain ⟨hrest, hwords⟩ := ih _ hnone fun l hl => hlines l (by simp [hl])
    rw [List.foldl_cons]
    refine ⟨hrest, hwords.trans ?_⟩
    rw [hone, List.flatten_cons, List.filter_append, List.append_assoc]

/-- What the state of the filter says about the text held back. -/
structure Holding (s : Format Char) (held : Option (Char × ℕ)) : Prop where
  closing : s.parentheticalClosing = held.map Prod.fst
  pending : s.pendingParenthetical.length = held.elim 0 Prod.snd

/-- The filter works on the text it holds back and on nothing else. -/
structure Format.SameMarkup (s s' : Format Char) : Prop where
  inFencedCode : s'.inFencedCode = s.inFencedCode
  pendingBackticks : s'.pendingBackticks = s.pendingBackticks
  inBareUrl : s'.inBareUrl = s.inBareUrl

/-- A character goes out or is held back, with what has been held before, unless that has a term. -/
theorem filterCharacter_spec {terms : List Text} {s : Format Char} {held : Option (Char × ℕ)} {c : Char}
    (hs : Holding s held)
    (hterms : ∀ term ∈ terms, ¬term <:+: s.pendingParenthetical ++ [c]) :
    Holding (filterCharacter terms s c).1 (holdCharacter held c) ∧
      s.SameMarkup (filterCharacter terms s c).1 ∧
      (filterCharacter terms s c).2 ++ (filterCharacter terms s c).1.pendingParenthetical =
        s.pendingParenthetical ++ [c] := by
  obtain ⟨hclosing, hpending⟩ := hs
  have hsuppress : (terms.any fun term =>
      decide (term <:+: chars (s.pendingParenthetical ++ [c]))) = false := by
    rw [chars_self, List.any_eq_false]
    intro term hterm
    simpa using hterms term hterm
  unfold filterCharacter
  dsimp only
  rw [hclosing, hsuppress]
  match held with
  | some (closing, count) =>
    simp only [Option.map_some, Option.elim_some] at hpending ⊢
    unfold holdCharacter
    dsimp only
    rw [List.length_append, List.length_singleton, hpending, char_self]
    simp only [Bool.false_eq_true, if_false]
    split_ifs with hclose hlong
    · exact ⟨⟨rfl, rfl⟩, ⟨rfl, rfl, rfl⟩, List.append_nil _⟩
    · exact ⟨⟨rfl, rfl⟩, ⟨rfl, rfl, rfl⟩, List.append_nil _⟩
    · refine ⟨⟨rfl, ?_⟩, ⟨rfl, rfl, rfl⟩, rfl⟩
      simp [hpending]
  | none =>
    simp only [Option.map_none, Option.elim_none] at hpending ⊢
    obtain hnil := List.length_eq_zero_iff.mp hpending
    unfold holdCharacter
    dsimp only
    rw [char_self]
    cases hopen : closingOf c with
    | some closing =>
      refine ⟨⟨rfl, ?_⟩, ⟨rfl, rfl, rfl⟩, rfl⟩
      simp [hnil]
    | none =>
      refine ⟨⟨hclosing, hpending⟩, ⟨rfl, rfl, rfl⟩, ?_⟩
      dsimp only
      rw [hnil]
      rfl

theorem filterCharacters_spec {terms : List Text} {s : Format Char} {held : Option (Char × ℕ)}
    {input : Text} (hs : Holding s held)
    (hterms : ∀ term ∈ terms, ¬term <:+: s.pendingParenthetical ++ input) :
    Holding (filterCharacters terms s input).1 (input.foldl holdCharacter held) ∧
      s.SameMarkup (filterCharacters terms s input).1 ∧
      (filterCharacters terms s input).2 ++ (filterCharacters terms s input).1.pendingParenthetical =
        s.pendingParenthetical ++ input := by
  induction input generalizing s held with
  | nil => exact ⟨hs, ⟨rfl, rfl, rfl⟩, by simp [filterCharacters]⟩
  | cons c rest ih =>
    obtain ⟨hone, hmarkup, htext⟩ := filterCharacter_spec (c := c) hs fun term hterm hwithin =>
      hterms term hterm (hwithin.trans ⟨[], rest, by simp⟩)
    have hsplit : s.pendingParenthetical ++ c :: rest = (filterCharacter terms s c).2 ++
        ((filterCharacter terms s c).1.pendingParenthetical ++ rest) := by
      rw [← List.append_assoc, htext, List.append_assoc]
      rfl
    obtain ⟨hrest, hmarkup', htext'⟩ := ih hone fun term hterm hwithin =>
      hterms term hterm (hwithin.trans ⟨(filterCharacter terms s c).2, [], by simp [hsplit]⟩)
    refine ⟨hrest, ⟨hmarkup'.1.trans hmarkup.1, hmarkup'.2.trans hmarkup.2,
      hmarkup'.3.trans hmarkup.3⟩, ?_⟩
    change ((filterCharacter terms s c).2 ++
      (filterCharacters terms (filterCharacter terms s c).1 rest).2) ++
        (filterCharacters terms (filterCharacter terms s c).1 rest).1.pendingParenthetical = _
    rw [List.append_assoc, htext', hsplit]

/-- What the node keeps between chunks of plain text. -/
structure Format.Holds (s : Format Char) (held : Option (Char × ℕ)) : Prop where
  outside : s.Outside
  noUrl : s.inBareUrl = false
  holding : Holding s held

/-- The words of a chunk go out or are held back. -/
theorem formatChunk_words {config : FormatterConfig}
    (hterms : config.suppressedParentheticalTerms ≠ []) {s : Format Char}
    {held : Option (Char × ℕ)} (hs : s.Holds held) {chunk rest : Text}
    (htext : PlainText config (s.pendingParenthetical ++ (chunk ++ rest))) :
    (formatChunk config s chunk).1.Holds (chunk.foldl holdCharacter held) ∧
      PlainText config ((formatChunk config s chunk).1.pendingParenthetical ++ rest) ∧
      (formatChunk config s chunk).2.filter isWord ++
          (formatChunk config s chunk).1.pendingParenthetical.filter isWord =
        s.pendingParenthetical.filter isWord ++ chunk.filter isWord := by
  have hpart : s.pendingParenthetical ++ chunk <:+: s.pendingParenthetical ++ (chunk ++ rest) :=
    ⟨[], rest, by simp⟩
  obtain ⟨hholding, hmarkup, hsplit⟩ := filterCharacters_spec hs.holding
    (htext.of_part hpart).noTerm
  have hfilter : filterParenthetical config.suppressedParentheticalTerms s chunk =
      filterCharacters config.suppressedParentheticalTerms s chunk :=
    if_neg (by simpa using hterms)
  generalize filterCharacters config.suppressedParentheticalTerms s chunk = filtered
    at hholding hmarkup hsplit hfilter
  obtain ⟨s', text⟩ := filtered
  dsimp only at hholding hmarkup hsplit
  have houtside : s'.Outside := ⟨hmarkup.inFencedCode.trans hs.outside.unfenced,
    hmarkup.pendingBackticks.trans hs.outside.pending⟩
  have hplain : PlainText config text :=
    htext.of_part (List.IsInfix.trans ⟨[], s'.pendingParenthetical, by simpa using hsplit⟩ hpart)
  rw [formatChunk_outside config hfilter houtside fun c hc => (hplain.noMark c hc).1]
  have hsame := appendMarkdownText_sameFence config (s', []) text
  obtain ⟨hurl, hwords⟩ := appendMarkdownText_words (s', [])
    (hmarkup.inBareUrl.trans hs.noUrl) hplain
  dsimp only
  have hpend := hsame.pendingParenthetical
  have hclose := hsame.parentheticalClosing
  dsimp only at hpend hclose
  refine ⟨⟨⟨hsame.inFencedCode.trans houtside.unfenced,
      hsame.pendingBackticks.trans houtside.pending⟩, hurl,
    ⟨hclose.trans hholding.closing, by rw [hpend]; exact hholding.pending⟩⟩, ?_, ?_⟩
  · rw [hpend]
    refine htext.of_part ⟨text, [], ?_⟩
    rw [List.append_nil, ← List.append_assoc, hsplit, List.append_assoc]
  · have hkept := congrArg (List.filter isWord) hsplit
    rw [List.filter_append, List.filter_append] at hkept
    rw [filter_collapse isWord_space, hwords, hpend]
    exact hkept

theorem emitChunks_words {config : FormatterConfig}
    (hterms : config.suppressedParentheticalTerms ≠ []) {s : Format Char}
    {held : Option (Char × ℕ)} (hs : s.Holds held) {chunks : List Text}
    (htext : PlainText config (s.pendingParenthetical ++ chunks.flatten)) :
    (emitChunks config s chunks).1.Holds (chunks.flatten.foldl holdCharacter held) ∧
      (emitChunks config s chunks).2.flatten.filter isWord ++
          (emitChunks config s chunks).1.pendingParenthetical.filter isWord =
        s.pendingParenthetical.filter isWord ++ chunks.flatten.filter isWord := by
  induction chunks generalizing s held with
  | nil => exact ⟨hs, by simp [emitChunks]⟩
  | cons chunk chunks ih =>
    obtain ⟨hnext, hplain, hone⟩ := formatChunk_words hterms hs htext
    obtain ⟨hlast, hrest⟩ := ih hnext hplain
    rw [emitChunks_cons, emitChunks_flatten, List.flatten_cons, List.foldl_append]
    refine ⟨hlast, ?_⟩
    rw [List.filter_append, List.append_assoc, hrest, ← List.append_assoc, hone, List.filter_append,
      List.append_assoc]

theorem trimEnd_append {dropped : Text} (h : Blank dropped) (text : Text) :
    trimEnd (text ++ dropped) = trimEnd text := by
  have hspaces : ∀ c ∈ dropped.reverse, isSpace c = true := fun c hc => h c (List.mem_reverse.mp hc)
  rw [trimEnd, trimEnd, List.reverse_append, List.dropWhile_append_of_pos hspaces]

/-- White space opens no bracket. -/
theorem foldl_spaces {text : Text} (h : Blank text) :
    text.foldl holdCharacter none = none := by
  induction text with
  | nil => rfl
  | cons c rest ih =>
    have hc := h c (by simp)
    have hopen : closingOf c = none := by
      unfold closingOf
      split_ifs with h1 h2 h3 h4
      · rw [h1] at hc
        exact absurd hc (by decide)
      · rw [h2] at hc
        exact absurd hc (by decide)
      · rw [h3] at hc
        exact absurd hc (by decide)
      · rw [h4] at hc
        exact absurd hc (by decide)
      · rfl
    rw [List.foldl_cons, holdCharacter, hopen]
    exact ih fun d hd => h d (by simp [hd])

/-- The words of a response are spoken, all of them and in order, if it has no link, no URL to strip
and no term, and no bracket is open at its end. -/
theorem words_spoken {self : SpokenFormatter} {sequence : ℕ}
    (hnew : self.formatter.activeSequence ≠ some sequence)
    (hterms : self.config.suppressedParentheticalTerms ≠ []) {fragments : List Text}
    (htext : PlainText self.config fragments.flatten)
    (hclosed : ¬LeftOpen (trimEnd fragments.flatten)) :
    ∃ next emitted, self.run (response sequence fragments) = .ok (next, emitted) ∧
      emitted.flatten.filter isWord = fragments.flatten.filter isWord := by
  obtain ⟨next, hrun⟩ := self.run_response hnew fragments
  refine ⟨next, _, hrun, ?_⟩
  obtain ⟨⟨dropped, hblank, hcut⟩, -⟩ := self.formatter.limits.cutFrom_spec fragments []
  rw [List.nil_append] at hcut
  change (self.formatter.limits.cut fragments).flatten ++ dropped = fragments.flatten at hcut
  generalize self.formatter.limits.cut fragments = chunks at hcut ⊢
  rw [← hcut] at htext hclosed ⊢
  have hfresh : (Format.fresh : Format Char).Holds none := ⟨⟨rfl, rfl⟩, rfl, ⟨rfl, rfl⟩⟩
  have hprocessed : PlainText self.config chunks.flatten := htext.of_part ⟨[], dropped, rfl⟩
  obtain ⟨hlast, hwords⟩ := emitChunks_words hterms hfresh hprocessed
  have hnothing : chunks.flatten.foldl holdCharacter none = none := by
    obtain ⟨spaces, hspaces, htrim⟩ := trimEnd_split chunks.flatten
    rw [trimEnd_append hblank, LeftOpen, Option.isSome_iff_ne_none, not_not] at hclosed
    rw [htrim, List.foldl_append, hclosed, foldl_spaces hspaces]
  rw [hnothing] at hlast
  have hpending := List.length_eq_zero_iff.mp hlast.holding.pending
  rw [hpending] at hwords
  rw [List.filter_append, filter_spaces isWord_space hblank, List.append_nil]
  exact (List.append_nil _).symm.trans hwords

/-- A formatter that has not spoken yet and suppresses one term. -/
def shyFormatter : SpokenFormatter :=
  ⟨⟨shortLimits, none, []⟩,
    ⟨"Code.".toList, "Table.".toList, true, ["nods".toList]⟩, .fresh⟩

theorem not_hasLink {text : Text} (h : ¬[']', '('] <:+: text) : ¬HasLink text := by
  rintro ⟨a, label, target, b, rfl, -⟩
  exact h ⟨a ++ '[' :: label, target ++ ')' :: b, by simp⟩

theorem words_spoken_nested : ∃ next emitted,
    shyFormatter.run (response 7 ["She (and".toList, " [he] so] they) smi".toList, "led.".toList]) =
        .ok (next, emitted) ∧
      emitted.flatten.filter isWord =
        ["She (and".toList, " [he] so] they) smi".toList, "led.".toList].flatten.filter isWord :=
  words_spoken (by decide) (by decide) ⟨List.all_iff_forall_prop.mp (by decide),
    not_hasLink (by decide), by decide, by decide⟩ (by decide)

/-- The target of a link is not spoken. -/
theorem words_dropped :
    (∀ term ∈ shyFormatter.config.suppressedParentheticalTerms, ¬term <:+: "[a](b)".toList) ∧
      ∃ next, shyFormatter.run (response 7 ["[a](b)".toList]) = .ok (next, ["a".toList]) ∧
        ["a".toList].flatten.filter isWord ≠ ["[a](b)".toList].flatten.filter isWord := by
  refine ⟨by decide, ?_⟩
  have hnew : shyFormatter.formatter.activeSequence ≠ some 7 := by decide
  obtain ⟨next, hrun⟩ := SpokenFormatter.run_response hnew ["[a](b)".toList]
  have hemitted : (emitChunks shyFormatter.config Format.fresh
      (shyFormatter.formatter.limits.cut ["[a](b)".toList])).2 = ["a".toList] := by decide +kernel
  rw [hemitted] at hrun
  exact ⟨next, hrun, by decide⟩

end Muxiva.Speech
