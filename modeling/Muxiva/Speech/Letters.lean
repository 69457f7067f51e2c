import Muxiva.Speech.Format

/-! Formatting looks at characters only: letters that carry more go the same way. -/
set_option linter.all false
namespace Muxiva.Speech

open Letter

variable {α : Type} [Letter α]

/-- The state with the letters it holds reduced to characters. -/
def Format.plain (s : Format α) : Format Char :=
  { s with pendingParenthetical := chars s.pendingParenthetical }

theorem Format.plain_inTable (s : Format α) : s.plain.inTable = s.inTable := rfl

theorem Format.plain_inBareUrl (s : Format α) : s.plain.inBareUrl = s.inBareUrl := rfl

theorem Format.plain_inFencedCode (s : Format α) : s.plain.inFencedCode = s.inFencedCode := rfl

@[simp] theorem char_inserted' (c : Char) : char (inserted c : α) = c := char_inserted c

@[simp] theorem char_self (c : Char) : char c = c := rfl

@[simp] theorem inserted_self (c : Char) : (inserted c : Char) = c := rfl

theorem chars_self (text : Text) : chars text = text := List.map_id text

theorem map_chars_self (texts : List Text) : texts.map chars = texts := by
  rw [List.map_congr_left fun text _ => chars_self text, List.map_id']

@[simp] theorem chars_nil : chars ([] : List α) = [] := rfl

@[simp] theorem chars_cons (x : α) (text : List α) : chars (x :: text) = char x :: chars text := rfl

@[simp] theorem chars_append (a b : List α) : chars (a ++ b) = chars a ++ chars b :=
  List.map_append

@[simp] theorem chars_length (text : List α) : (chars text).length = text.length :=
  List.length_map _

@[simp] theorem chars_drop (n : ℕ) (text : List α) : chars (text.drop n) = (chars text).drop n :=
  List.map_drop

@[simp] theorem chars_take (n : ℕ) (text : List α) : chars (text.take n) = (chars text).take n :=
  List.map_take

@[simp] theorem chars_reverse (text : List α) : chars text.reverse = (chars text).reverse :=
  List.map_reverse

@[simp] theorem chars_chars (text : List α) : chars (chars text) = chars text := by
  simp [chars, Function.comp_def]

@[simp] theorem chars_insertedText (text : Text) : chars (insertedText text : List α) = text := by
  simp [chars, insertedText, Function.comp_def]

@[simp] theorem insertedText_self (text : Text) : (insertedText text : List Char) = text := by
  simp [insertedText, inserted]

theorem isSpace_char (x : α) : isSpace (char x) = isSpace x := rfl

theorem isChar_char (c : Char) (x : α) : isChar c (char x) = isChar c x := rfl

@[simp] theorem chars_isEmpty (text : List α) : (chars text).isEmpty = text.isEmpty := by
  cases text <;> rfl

@[simp] theorem chars_dropWhile (p : Char → Bool) (text : List α) :
    chars (text.dropWhile fun x => p (char x)) = (chars text).dropWhile p := by
  simp only [chars, List.dropWhile_map]
  rfl

@[simp] theorem chars_takeWhile (p : Char → Bool) (text : List α) :
    chars (text.takeWhile fun x => p (char x)) = (chars text).takeWhile p := by
  simp only [chars, List.takeWhile_map]
  rfl

@[simp] theorem chars_filter (p : Char → Bool) (text : List α) :
    chars (text.filter fun x => p (char x)) = (chars text).filter p := by
  simp only [chars, List.filter_map]
  rfl

@[simp] theorem chars_trimStart (text : List α) : chars (trimStart text) = trimStart (chars text) :=
  chars_dropWhile isWhitespace text

@[simp] theorem chars_trimEnd (text : List α) : chars (trimEnd text) = trimEnd (chars text) := by
  have h := chars_dropWhile isWhitespace text.reverse
  rw [chars_reverse] at h
  change chars (text.reverse.dropWhile isSpace).reverse =
    ((chars text).reverse.dropWhile isSpace).reverse
  rw [chars_reverse]
  exact congrArg List.reverse h

theorem head_space (text : List α) : (chars text).head?.any isSpace = text.head?.any isSpace := by
  cases text <;> rfl

theorem last_any (p : Char → Bool) (text : List α) :
    (chars text).getLast?.any p = text.getLast?.any fun x => p (char x) := by
  rw [chars, List.getLast?_map, Option.any_map]

theorem last_space (text : List α) :
    (chars text).getLast?.any isSpace = text.getLast?.any isSpace :=
  last_any isWhitespace text

theorem chars_appendPhrase (output phrase : List α) :
    chars (appendPhrase output phrase) = appendPhrase (chars output) (chars phrase) := by
  simp only [appendPhrase, chars_isEmpty, last_space]
  split_ifs <;> simp

theorem chars_stripTwo (a b : Char) (text : List α) :
    stripTwo a b (chars text) = (stripTwo a b text).map chars := by
  match text with
  | [] => rfl
  | [x] => rfl
  | x :: y :: rest =>
    simp only [stripTwo, chars_cons, char_self]
    split_ifs <;> rfl

theorem chars_stripMarker (line : List α) : chars (stripMarker line) = stripMarker (chars line) := by
  have hdigits : ((chars line).takeWhile isDigitLetter).length =
      (line.takeWhile isDigitLetter).length := by
    have h := congrArg List.length (chars_takeWhile Char.isDigit line)
    rw [chars_length] at h
    exact h.symm
  simp only [stripMarker, chars_stripTwo, hdigits, ← chars_drop, Option.isSome_map]
  cases stripTwo '-' ' ' line <;> cases stripTwo '+' ' ' line <;> cases stripTwo '*' ' ' line <;>
    simp only [Option.map_none, Option.map_some, Option.none_or, Option.some_or]
  split_ifs <;> simp

theorem chars_stripMarkdownPrefix (line : List α) :
    chars (stripMarkdownPrefix line) = stripMarkdownPrefix (chars line) := by
  have hhash (text : List α) : chars (text.dropWhile (isChar '#')) =
      (chars text).dropWhile (isChar '#') := chars_dropWhile (fun c => decide (c = '#')) text
  have hquote (text : List α) : chars (text.dropWhile (isChar '>')) =
      (chars text).dropWhile (isChar '>') := chars_dropWhile (fun c => decide (c = '>')) text
  simp only [stripMarkdownPrefix, chars_stripMarker, chars_trimStart, hhash, hquote]

theorem chars_looksLikeMarkdownTable (line : List α) :
    looksLikeMarkdownTable (chars line) = looksLikeMarkdownTable line := by
  simp only [looksLikeMarkdownTable, chars, List.countP_map, List.all_map]
  rfl

theorem chars_splitAtChar (c : Char) (text : List α) :
    splitAtChar c (chars text) = (splitAtChar c text).map fun p => (chars p.1, chars p.2) := by
  induction text with
  | nil => rfl
  | cons x rest ih =>
    simp only [splitAtChar, chars_cons, char_self]
    split_ifs
    · rfl
    · rw [ih]
      cases splitAtChar c rest <;> rfl

theorem chars_stripBang (text : List α) : chars (stripBang text) = stripBang (chars text) := by
  have h := last_any (fun c => decide (c = '!')) text
  change (chars text).getLast?.any (isChar '!') = text.getLast?.any (isChar '!') at h
  simp only [stripBang, h]
  split_ifs
  · simp [chars, List.map_dropLast]
  · rfl

theorem chars_replaceLinks (fuel : ℕ) (text : List α) :
    chars (replaceLinks fuel text) = replaceLinks fuel (chars text) := by
  induction fuel generalizing text with
  | zero => rfl
  | succ fuel ih =>
    simp only [replaceLinks, chars_splitAtChar]
    cases hopen : splitAtChar '[' text with
    | none => rfl
    | some p =>
      obtain ⟨before, tail⟩ := p
      simp only [Option.map_some, chars_splitAtChar]
      cases hclose : splitAtChar ']' tail with
      | none => rfl
      | some q =>
        obtain ⟨label, afterLabel⟩ := q
        cases afterLabel with
        | nil => rfl
        | cons x target =>
          simp only [Option.map_some, chars_cons, char_self, chars_length]
          split_ifs
          · simp [ih]
          · rw [chars_splitAtChar]
            cases splitAtChar ')' target with
            | none => rfl
            | some r => simp [chars_stripBang, ih]

theorem chars_replaceMarkdownLinks (text : List α) :
    chars (replaceMarkdownLinks text) = replaceMarkdownLinks (chars text) := by
  rw [replaceMarkdownLinks, replaceMarkdownLinks, chars_length]
  exact chars_replaceLinks _ _

@[simp] theorem chars_startsUrl (text : List α) : startsUrl (chars text) = startsUrl text := by
  simp [startsUrl]

theorem chars_findUrl (text : List α) : findUrl (chars text) = findUrl text := by
  simp only [findUrl, chars_length, ← chars_drop, chars_startsUrl]

theorem chars_findDelimiter (start : ℕ) (text : List α) :
    findDelimiter start (chars text) = findDelimiter start text := by
  have hat (i : ℕ) : ((chars text)[i]?.any fun x => isUrlDelimiter (char x)) =
      text[i]?.any fun x => isUrlDelimiter (char x) := by
    rw [chars, List.getElem?_map, Option.any_map]
    rfl
  simp only [findDelimiter, chars_length, hat]

theorem chars_removeUrls (fuel : ℕ) (inBareUrl : Bool) (text : List α) :
    removeUrls fuel inBareUrl (chars text) =
      ((removeUrls fuel inBareUrl text).1, chars (removeUrls fuel inBareUrl text).2) := by
  induction fuel generalizing inBareUrl text with
  | zero => rfl
  | succ fuel ih =>
    simp only [removeUrls, chars_findDelimiter]
    have hresumed : (if inBareUrl = true then (findDelimiter 0 text).map (chars text).drop
        else some (chars text)) = (if inBareUrl = true then (findDelimiter 0 text).map text.drop
        else some text).map chars := by
      split_ifs
      · cases findDelimiter 0 text <;> simp
      · rfl
    rw [hresumed]
    cases (if inBareUrl = true then (findDelimiter 0 text).map text.drop else some text) with
    | none => rfl
    | some rest =>
      simp only [Option.map_some, chars_findUrl]
      cases findUrl rest with
      | none => rfl
      | some start =>
        simp only [← chars_drop, chars_findDelimiter]
        cases findDelimiter 1 (rest.drop start) with
        | none => simp
        | some stop =>
          dsimp only
          rw [ih]
          simp

theorem chars_removeBareUrls (inBareUrl : Bool) (text : List α) :
    removeBareUrls inBareUrl (chars text) =
      ((removeBareUrls inBareUrl text).1, chars (removeBareUrls inBareUrl text).2) := by
  rw [removeBareUrls, removeBareUrls, chars_length]
  exact chars_removeUrls _ _ _

/-- State and output with the letters reduced to characters. -/
def plainState (state : Format α × List α) : Format Char × Text := (state.1.plain, chars state.2)

theorem chars_plainLine (config : FormatterConfig) (inBareUrl : Bool) (text : List α) :
    plainLine config inBareUrl (chars text) =
      ((plainLine config inBareUrl text).1, chars (plainLine config inBareUrl text).2) := by
  simp only [plainLine, ← chars_stripMarkdownPrefix, ← chars_replaceMarkdownLinks]
  generalize replaceMarkdownLinks (stripMarkdownPrefix text) = linked
  by_cases hstrip : config.stripUrls = true
  · simp only [hstrip, if_true, chars_removeBareUrls]
    rw [Prod.mk.injEq]
    exact ⟨rfl, (chars_filter (fun c => !isFormatting c) _).symm⟩
  · simp only [hstrip, Bool.false_eq_true, if_false]
    rw [Prod.mk.injEq]
    exact ⟨rfl, (chars_filter (fun c => !isFormatting c) _).symm⟩

theorem plain_enterLine (s : Format α) (line : List α) :
    s.plain.enterLine (chars line) = (s.enterLine line).plain := by
  simp only [Format.enterLine, head_space]
  split_ifs <;> rfl

theorem chars_appendLine (config : FormatterConfig) (state : Format α × List α) (line : List α) :
    appendLine config (plainState state) (chars line) = plainState (appendLine config state line) := by
  obtain ⟨s, output⟩ := state
  have htrim : trimEnd (trimStart (chars line)) = chars (trimEnd (trimStart line)) := by simp
  have hphrase := chars_appendPhrase output (insertedText config.tableMessage)
  rw [chars_insertedText] at hphrase
  simp only [appendLine, plainState, htrim, chars_isEmpty, chars_looksLikeMarkdownTable,
    plain_enterLine, last_space, chars_plainLine, insertedText_self, Format.plain_inTable,
    Format.plain_inBareUrl]
  have hplain := chars_appendPhrase output (trimEnd (trimStart
    (plainLine config (s.enterLine line).inBareUrl (trimEnd (trimStart line))).2))
  rw [chars_trimEnd, chars_trimStart] at hplain
  split_ifs
  · rfl
  · rfl
  · exact Prod.ext rfl hphrase.symm
  · exact Prod.ext rfl hplain.symm
  · exact Prod.ext rfl hplain.symm

theorem chars_splitInclusive (text : List α) :
    splitInclusive (chars text) = (splitInclusive text).map chars := by
  induction text with
  | nil => rfl
  | cons x rest ih =>
    simp only [splitInclusive, chars_cons, char_self, ih]
    split_ifs
    · rfl
    · cases splitInclusive rest <;> rfl

theorem chars_appendMarkdownText (config : FormatterConfig) (state : Format α × List α)
    (input : List α) : appendMarkdownText config (plainState state) (chars input) =
      plainState (appendMarkdownText config state input) := by
  simp only [appendMarkdownText, chars_splitInclusive]
  induction splitInclusive input generalizing state with
  | nil => rfl
  | cons line lines ih =>
    rw [List.map_cons, List.foldl_cons, List.foldl_cons, chars_appendLine, ih]

theorem chars_toggleFence (config : FormatterConfig) (state : Format α × List α) :
    toggleFence config (plainState state) = plainState (toggleFence config state) := by
  have hphrase := chars_appendPhrase state.2 (insertedText config.codeBlockMessage)
  rw [chars_insertedText] at hphrase
  simp only [toggleFence, plainState, Format.plain_inFencedCode, insertedText_self, ← hphrase]
  split_ifs <;> rfl

theorem chars_formatSegments (config : FormatterConfig) (fuel : ℕ) (state : Format α × List α)
    (rest : List α) : formatSegments config fuel (plainState state) (chars rest) =
      plainState (formatSegments config fuel state rest) := by
  induction fuel generalizing state rest with
  | zero => rfl
  | succ fuel ih =>
    have htext : (chars rest).takeWhile (!isChar '`' ·) = chars (rest.takeWhile (!isChar '`' ·)) :=
      (chars_takeWhile (fun c => !decide (c = '`')) rest).symm
    have hmarked : (chars rest).dropWhile (!isChar '`' ·) = chars (rest.dropWhile (!isChar '`' ·)) :=
      (chars_dropWhile (fun c => !decide (c = '`')) rest).symm
    have hrun (text : List α) : ((chars text).takeWhile (isChar '`')).length =
        (text.takeWhile (isChar '`')).length := by
      have h := congrArg List.length (chars_takeWhile (fun c => decide (c = '`')) text)
      rw [chars_length] at h
      exact h.symm
    simp only [formatSegments, chars_isEmpty, htext, hmarked, hrun, ← chars_drop]
    have happended : (if (plainState state).1.inFencedCode = true then plainState state
          else appendMarkdownText config (plainState state)
            (chars (rest.takeWhile (!isChar '`' ·)))) =
        plainState (if state.1.inFencedCode = true then state
          else appendMarkdownText config state (rest.takeWhile (!isChar '`' ·))) := by
      rw [chars_appendMarkdownText, plainState, Format.plain_inFencedCode]
      split_ifs <;> rfl
    rw [happended]
    generalize (if state.1.inFencedCode = true then state
      else appendMarkdownText config state (rest.takeWhile (!isChar '`' ·))) = behind
    rw [chars_toggleFence]
    split_ifs
    · rfl
    · rfl
    · exact ih _ _
    · exact ih _ _

theorem chars_collapse (text : List α) (state : List α × Bool) :
    (chars text).foldl collapseCharacter (chars state.1, state.2) =
      (chars (text.foldl collapseCharacter state).1, (text.foldl collapseCharacter state).2) := by
  induction text generalizing state with
  | nil => rfl
  | cons x rest ih =>
    have hone : collapseCharacter (chars state.1, state.2) (char x) =
        (chars (collapseCharacter state x).1, (collapseCharacter state x).2) := by
      simp only [collapseCharacter, isSpace_char, chars_isEmpty, char_self]
      split_ifs <;> simp
    rw [chars_cons, List.foldl_cons, List.foldl_cons, hone, ih]

theorem chars_collapseSpokenWhitespace (text : List α) :
    chars (collapseSpokenWhitespace text) = collapseSpokenWhitespace (chars text) := by
  have h := congrArg Prod.fst (chars_collapse text ([], false))
  simp only [collapseSpokenWhitespace, chars_trimEnd, chars_trimStart]
  exact congrArg (fun output => trimEnd (trimStart output)) h.symm

theorem chars_trailingBackticks (text : List α) :
    trailingBackticks (chars text) = trailingBackticks text := by
  have h := congrArg List.length (chars_takeWhile (fun c => decide (c = '`')) text.reverse)
  rw [chars_length, chars_reverse] at h
  exact h.symm

theorem chars_filterCharacter (terms : List Text) (s : Format α) (x : α) :
    filterCharacter terms s.plain (char x) = plainState (filterCharacter terms s x) := by
  have hpending : s.plain.pendingParenthetical ++ [char x] =
      chars (s.pendingParenthetical ++ [x]) := by simp [Format.plain]
  simp only [filterCharacter, hpending, chars_chars, char_self, chars_length]
  have hclosing : s.plain.parentheticalClosing = s.parentheticalClosing := rfl
  rw [hclosing]
  cases s.parentheticalClosing with
  | some closing =>
    dsimp only
    split_ifs <;> rfl
  | none =>
    dsimp only
    cases closingOf (char x) <;> rfl

theorem chars_filterCharacters (terms : List Text) (s : Format α) (input : List α) :
    filterCharacters terms s.plain (chars input) = plainState (filterCharacters terms s input) := by
  induction input generalizing s with
  | nil => rfl
  | cons x rest ih =>
    simp only [filterCharacters, chars_cons, chars_filterCharacter, plainState, ih, chars_append]

theorem chars_filterParenthetical (terms : List Text) (s : Format α) (input : List α) :
    filterParenthetical terms s.plain (chars input) =
      plainState (filterParenthetical terms s input) := by
  rw [filterParenthetical, filterParenthetical, chars_filterCharacters]
  split_ifs <;> rfl

theorem chars_formatChunk (config : FormatterConfig) (s : Format α) (input : List α) :
    formatChunk config s.plain (chars input) = plainState (formatChunk config s input) := by
  simp only [formatChunk, chars_filterParenthetical, plainState]
  generalize filterParenthetical config.suppressedParentheticalTerms s input = filtered
  have hcombined : List.replicate filtered.1.plain.pendingBackticks (inserted '`') ++
      chars filtered.2 = chars (List.replicate filtered.1.pendingBackticks (inserted '`') ++
        filtered.2) := by
    simp [chars, Format.plain]
  rw [hcombined]
  generalize List.replicate filtered.1.pendingBackticks (inserted '`') ++ filtered.2 = combined
  rw [chars_trailingBackticks, chars_length, ← chars_take, chars_length]
  generalize (if trailingBackticks combined < 3 then trailingBackticks combined else 0) = retained
  have hsegments := chars_formatSegments config (combined.take (combined.length - retained)).length
    ({ filtered.1 with pendingBackticks := retained }, []) (combined.take (combined.length - retained))
  have hstate := congrArg Prod.fst hsegments
  have houtput := congrArg (fun state => collapseSpokenWhitespace state.2) hsegments
  refine Prod.ext hstate ?_
  dsimp only
  rw [chars_collapseSpokenWhitespace]
  exact houtput

theorem chars_emitChunks (config : FormatterConfig) (s : Format α) (chunks : List (List α)) :
    emitChunks config s.plain (chunks.map chars) =
      ((emitChunks config s chunks).1.plain, (emitChunks config s chunks).2.map chars) := by
  induction chunks generalizing s with
  | nil => rfl
  | cons chunk chunks ih =>
    simp only [emitChunks, List.map_cons, chars_formatChunk, plainState, ih, chars_isEmpty]
    split_ifs <;> rfl

end Muxiva.Speech
