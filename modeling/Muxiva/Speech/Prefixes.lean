import Mathlib.Data.Bool.AllAny
import Muxiva.Speech.Letters
import Muxiva.Speech.Plain
import Muxiva.Speech.Speaking
import Muxiva.Speech.Tokens

/-! Markdown prefixes. The code strips one off every chunk, so text is kept whole just when no chunk
happens to start like a list item, a heading or a quotation. -/
set_option linter.all false
namespace Muxiva.Speech

open Letter

/-- One line of text without backticks, pipes and brackets, and without URLs where these are
stripped. -/
structure SingleLine (config : FormatterConfig) (text : Text) : Prop where
  plain : ∀ c ∈ text, ['\n', '`', '|', '(', ')', '[', ']'].contains c = false
  noUrl : config.stripUrls = true → ∀ start ∈ urlPrefixes, ¬start <:+: text

/-- A heading, a quotation, a list item or an ordinal. The third list marker is no matter, for the
stars are taken out anyway. -/
def MarkdownPrefix (line : Text) : Prop :=
  (∃ c ∈ line.head?, c = '#' ∨ c = '>') ∨ ['-', ' '] <+: line ∨ ['+', ' '] <+: line ∨
    ∃ digits : List Char,
      digits ≠ [] ∧ (∀ c ∈ digits, c.isDigit = true) ∧ digits ++ ['.', ' '] <+: line

/-- White space and formatting characters apart. -/
def isSpoken (c : Char) : Bool := !isWhitespace c && !(['*', '_', '~', '{', '}'].contains c)

/-- A chunk starts like a Markdown line. -/
def LooksLikeItem (chunk : Text) : Prop := MarkdownPrefix (trim chunk)

theorem trimStart_cons {c : Char} (h : isWhitespace c = false) (rest : Text) :
    trimStart (c :: rest) = c :: rest := by
  have hno : ¬isSpace c = true := by
    rw [isSpace, char_self, h]
    decide
  exact List.dropWhile_cons_of_neg hno

theorem isSpoken_digit {c : Char} (h : c.isDigit = true) : isSpoken c = true := by
  by_contra hno
  simp only [isSpoken, Bool.and_eq_true, Bool.not_eq_true', not_and, Bool.not_eq_false] at hno
  cases hspace : isWhitespace c with
  | true =>
    have hletter := isWhitespace_alnum hspace
    rw [Char.isAlphanum, h, Bool.or_true] at hletter
    exact absurd hletter.1 (by decide)
  | false =>
    have hmem := hno hspace
    simp only [List.contains_eq_mem, List.mem_cons, List.not_mem_nil, or_false,
      decide_eq_true_eq] at hmem
    rcases hmem with rfl | rfl | rfl | rfl | rfl <;> simp at h

/-- A test misses what is stripped if it sees the first letter of it. -/
theorem filter_stripped {c : Char} {rest text : Text} (h : text <:+ rest) (hc : isSpoken c = true) :
    text.filter isSpoken ≠ (c :: rest).filter isSpoken := by
  intro heq
  have hlength := congrArg List.length heq
  have hle := (h.sublist.filter isSpoken).length_le
  rw [List.filter_cons_of_pos hc, List.length_cons] at hlength
  omega

theorem stripTwo_self (a b : Char) (rest : Text) : stripTwo a b (a :: b :: rest) = some rest :=
  if_pos ⟨rfl, rfl⟩

theorem stripTwo_eq_none {a b : Char} {text : Text} (h : stripTwo a b text = none) :
    ¬[a, b] <+: text := by
  rintro ⟨rest, rfl⟩
  rw [show [a, b] ++ rest = a :: b :: rest from rfl, stripTwo_self] at h
  cases h

/-- The digits that a text starts with. -/
theorem digits_eq {digits : Text} (rest : Text) (hdigits : ∀ c ∈ digits, c.isDigit = true)
    (hrest : ∀ c ∈ rest.head?, c.isDigit = false) :
    (digits ++ rest).takeWhile isDigitLetter = digits := by
  induction digits with
  | nil =>
    cases rest with
    | nil => rfl
    | cons c rest => exact List.takeWhile_cons_of_neg (by simpa [isDigitLetter] using hrest c rfl)
  | cons c digits ih =>
    have hc : isDigitLetter c = true := hdigits c (by simp)
    rw [List.cons_append, List.takeWhile_cons_of_pos hc, ih fun d hd => hdigits d (by simp [hd])]

/-- A list item or an ordinal. -/
def Marker (line : Text) : Prop :=
  ['-', ' '] <+: line ∨ ['+', ' '] <+: line ∨
    ∃ digits : List Char,
      digits ≠ [] ∧ (∀ c ∈ digits, c.isDigit = true) ∧ digits ++ ['.', ' '] <+: line

theorem Marker.ordinal {line : Text} (hminus : ¬['-', ' '] <+: line) (hplus : ¬['+', ' '] <+: line)
    (hparen : ')' ∉ line) :
    Marker line ↔ 0 < (line.takeWhile isDigitLetter).length ∧
      ((stripTwo '.' ' ' (line.drop (line.takeWhile isDigitLetter).length)).isSome ∨
        (stripTwo ')' ' ' (line.drop (line.takeWhile isDigitLetter).length)).isSome) := by
  constructor
  · rintro (h | h | ⟨digits, hne, hdigits, rest, hline⟩)
    · exact absurd h hminus
    · exact absurd h hplus
    · rw [List.append_assoc] at hline
      have htake := digits_eq ('.' :: ' ' :: rest) hdigits (by simp)
      rw [← hline]
      change 0 < ((digits ++ '.' :: ' ' :: rest).takeWhile isDigitLetter).length ∧
        ((stripTwo '.' ' ' ((digits ++ '.' :: ' ' :: rest).drop
          ((digits ++ '.' :: ' ' :: rest).takeWhile isDigitLetter).length)).isSome ∨ _)
      rw [htake, List.drop_left]
      exact ⟨List.length_pos_iff.mpr hne, Or.inl rfl⟩
  · obtain ⟨digits, behind, hline, htake, -, hdigits, -⟩ := split_while isDigitLetter line
    rw [htake, show line.drop digits.length = behind by rw [hline, List.drop_left]]
    rintro ⟨hpos, hdot⟩
    refine Or.inr (Or.inr ⟨digits, List.length_pos_iff.mp hpos, hdigits, ?_⟩)
    rcases hdot with h | h
    · obtain ⟨rest, hrest⟩ := Option.isSome_iff_exists.mp h
      obtain ⟨x, y, rfl, hx, hy⟩ := stripTwo_eq hrest
      obtain rfl : x = '.' := hx
      obtain rfl : y = ' ' := hy
      exact ⟨rest, by rw [hline, List.append_assoc]; rfl⟩
    · obtain ⟨rest, hrest⟩ := Option.isSome_iff_exists.mp h
      obtain ⟨x, y, rfl, hx, hy⟩ := stripTwo_eq hrest
      obtain rfl : x = ')' := hx
      exact absurd (by rw [hline]; simp) hparen

theorem stripMarker_seen {line : Text} (hparen : ')' ∉ line) :
    (stripMarker line).filter isSpoken = line.filter isSpoken ↔ ¬Marker line := by
  unfold stripMarker
  cases hminus : stripTwo '-' ' ' line with
  | some rest =>
    obtain ⟨x, y, rfl, hx, hy⟩ := stripTwo_eq hminus
    obtain rfl : x = '-' := hx
    obtain rfl : y = ' ' := hy
    have hmarker : Marker ('-' :: ' ' :: rest) := Or.inl ⟨rest, rfl⟩
    have hlost := filter_stripped (c := '-') (List.suffix_cons ' ' rest) (by decide)
    exact ⟨fun heq => absurd heq hlost, fun hno => absurd hmarker hno⟩
  | none =>
    cases hplus : stripTwo '+' ' ' line with
    | some rest =>
      obtain ⟨x, y, rfl, hx, hy⟩ := stripTwo_eq hplus
      obtain rfl : x = '+' := hx
      obtain rfl : y = ' ' := hy
      have hmarker : Marker ('+' :: ' ' :: rest) := Or.inr (Or.inl ⟨rest, rfl⟩)
      have hlost := filter_stripped (c := '+') (List.suffix_cons ' ' rest) (by decide)
      exact ⟨fun heq => absurd heq hlost, fun hno => absurd hmarker hno⟩
    | none =>
      have hordinal := Marker.ordinal (stripTwo_eq_none hminus) (stripTwo_eq_none hplus) hparen
      cases hstar : stripTwo '*' ' ' line with
      | some rest =>
        -- the star and the space behind it are not spoken
        obtain ⟨x, y, rfl, hx, hy⟩ := stripTwo_eq hstar
        obtain rfl : x = '*' := hx
        obtain rfl : y = ' ' := hy
        have hnone : ¬Marker ('*' :: ' ' :: rest) := by
          rw [hordinal]
          rintro ⟨hpos, -⟩
          have hzero : ('*' :: ' ' :: rest).takeWhile isDigitLetter = [] := rfl
          rw [hzero] at hpos
          exact absurd hpos (Nat.lt_irrefl 0)
        exact ⟨fun _ => hnone, fun _ => rfl⟩
      | none =>
        rw [hordinal]
        dsimp only [Option.none_or]
        split_ifs with hdigits
        · refine ⟨fun heq => ?_, fun hno => absurd hdigits hno⟩
          cases line with
          | nil => exact absurd hdigits.1 (Nat.lt_irrefl 0)
          | cons d rest =>
            by_cases hd : isDigitLetter d = true
            · refine absurd heq (filter_stripped ?_ (isSpoken_digit hd))
              exact List.drop_suffix (((d :: rest).takeWhile isDigitLetter).length + 1) rest
            · rw [List.takeWhile_cons_of_neg hd] at hdigits
              exact absurd hdigits.1 (Nat.lt_irrefl 0)
        · exact ⟨fun _ => hdigits, fun _ => rfl⟩

/-- What is stripped off a trimmed line is heard of, unless it is a star. -/
theorem stripMarkdownPrefix_seen {line : Text} (htrim : trimStart line = line)
    (hparen : ')' ∉ line) :
    (stripMarkdownPrefix line).filter isSpoken = line.filter isSpoken ↔ ¬MarkdownPrefix line := by
  by_cases hhead : ∃ c ∈ line.head?, c = '#' ∨ c = '>'
  · refine ⟨fun heq => ?_, fun hno => absurd (Or.inl hhead) hno⟩
    obtain ⟨c, hc, hmark⟩ := hhead
    cases line with
    | nil => cases hc
    | cons d rest =>
      obtain rfl : d = c := Option.some.inj hc
      have hspoken : isSpoken d = true := by
        rcases hmark with rfl | rfl <;> decide
      refine absurd heq (filter_stripped ?_ hspoken)
      unfold stripMarkdownPrefix
      dsimp only
      rw [htrim]
      refine (stripMarker_suffix _).trans ((trimStart_suffix _).trans ?_)
      rcases hmark with rfl | rfl
      · rw [List.dropWhile_cons_of_pos (by decide)]
        exact (List.dropWhile_suffix _).trans <| (trimStart_suffix _).trans <|
          List.dropWhile_suffix _
      · rw [List.dropWhile_cons_of_neg (by decide), htrim, List.dropWhile_cons_of_pos (by decide)]
        exact List.dropWhile_suffix _
  · have hkept (mark : Char) (hmark : mark = '#' ∨ mark = '>') :
        line.dropWhile (isChar mark) = line := by
      cases line with
      | nil => rfl
      | cons d rest =>
        refine List.dropWhile_cons_of_neg fun hd => hhead ⟨d, rfl, ?_⟩
        have hdmark : d = mark := by simpa [isChar] using hd
        rwa [hdmark]
    have hstart : stripMarkdownPrefix line = stripMarker line := by
      unfold stripMarkdownPrefix
      dsimp only
      rw [htrim, hkept '#' (Or.inl rfl), htrim, hkept '>' (Or.inr rfl), htrim]
    rw [hstart, stripMarker_seen hparen]
    exact not_congr ⟨Or.inr, fun h => h.resolve_left hhead⟩

/-- Outside of fences and URLs. -/
structure Format.Plain (s : Format Char) : Prop where
  outside : s.Outside
  noUrl : s.inBareUrl = false

theorem SingleLine.of_part {config : FormatterConfig} {text part : Text}
    (h : SingleLine config text) (hpart : part <:+: text) : SingleLine config part :=
  ⟨fun c hc => h.plain c (hpart.subset hc),
    fun hstrip start hstart hwithin => h.noUrl hstrip start hstart (hwithin.trans hpart)⟩

theorem splitInclusive_single {text : Text} (hne : text ≠ []) (h : ∀ c ∈ text, c ≠ '\n') :
    splitInclusive text = [text] := by
  induction text with
  | nil => exact absurd rfl hne
  | cons c rest ih =>
    have hc : ¬char c = '\n' := h c (by simp)
    unfold splitInclusive
    rw [if_neg hc]
    cases rest with
    | nil => rfl
    | cons d rest => rw [ih (by simp) fun e he => h e (by simp [he])]

theorem SingleLine.not_mem {config : FormatterConfig} {text : Text} (h : SingleLine config text)
    {c d : Char} (hc : c ∈ text) (hd : ['\n', '`', '|', '(', ')', '[', ']'].contains d = true) :
    c ≠ d := by
  rintro rfl
  rw [h.plain c hc] at hd
  cases hd

theorem filter_isSpoken {config : FormatterConfig} {text : Text} (h : SingleLine config text) :
    (text.filter fun c => !isFormatting c).filter (!isWhitespace ·) = text.filter isSpoken := by
  rw [List.filter_filter]
  refine List.filter_congr fun c hc => ?_
  have hplain := h.plain c hc
  simp only [List.contains_eq_mem, List.mem_cons, List.not_mem_nil, or_false, not_or,
    decide_eq_false_iff_not] at hplain
  simp only [isSpoken, isFormatting, List.contains_eq_mem, List.mem_cons, List.not_mem_nil,
    or_false]
  simp [hplain]

/-- One chunk of a single line: what is stripped off it is all that goes missing. -/
theorem formatChunk_single {config : FormatterConfig}
    (hterms : config.suppressedParentheticalTerms = []) {s : Format Char} (hs : s.Plain)
    {chunk : Text} (hchunk : SingleLine config chunk) :
    (formatChunk config s chunk).1.Plain ∧
      (formatChunk config s chunk).2.filter (!isWhitespace ·) =
        (stripMarkdownPrefix (trim chunk)).filter isSpoken := by
  have hspace : ∀ x : Char, isSpace x = true → (!isWhitespace x) = false := by
    intro x hx
    rw [show isWhitespace x = true from hx]
    rfl
  rw [formatChunk_outside config (filterParenthetical_nil hterms s chunk) hs.outside
    fun c hc => hchunk.not_mem hc (by decide)]
  dsimp only
  rw [filter_collapse hspace]
  by_cases hempty : chunk = []
  · subst hempty
    exact ⟨hs, rfl⟩
  have hone : appendMarkdownText config (s, []) chunk = appendLine config (s, []) chunk := by
    rw [appendMarkdownText, splitInclusive_single hempty fun c hc => hchunk.not_mem hc (by decide)]
    rfl
  rw [hone]
  have hpart : stripMarkdownPrefix (trim chunk) <:+: chunk :=
    (stripMarkdownPrefix_suffix _).isInfix.trans <|
      (trimEnd_start _).isInfix.trans (trimStart_suffix chunk).isInfix
  have hstripped := hchunk.of_part hpart
  have hlinks : replaceMarkdownLinks (stripMarkdownPrefix (trim chunk)) =
      stripMarkdownPrefix (trim chunk) :=
    replaceLinks_eq_self _ fun c hc => hstripped.not_mem hc (by decide)
  have hsame := appendLine_sameFence config (s, []) chunk
  obtain ⟨hurl, hseen⟩ := appendLine_seen hspace config (s, []) hs.noUrl
    (fun c hc => hchunk.not_mem hc (by decide)) fun hstrip start hstart => by
      change ¬start <:+: chars (replaceMarkdownLinks (stripMarkdownPrefix (trim chunk)))
      rw [hlinks, chars_self]
      exact hstripped.noUrl hstrip start hstart
  refine ⟨⟨⟨hsame.inFencedCode.trans hs.outside.unfenced,
    hsame.pendingBackticks.trans hs.outside.pending⟩, hurl⟩, hseen.trans ?_⟩
  change [] ++ ((replaceMarkdownLinks (stripMarkdownPrefix (trim chunk))).filter
    fun c => !isFormatting c).filter _ = _
  rw [hlinks, List.nil_append, filter_isSpoken hstripped]

theorem emitChunks_single {config : FormatterConfig}
    (hterms : config.suppressedParentheticalTerms = []) {s : Format Char} (hs : s.Plain)
    {chunks : List Text} (hchunks : ∀ chunk ∈ chunks, SingleLine config chunk) :
    (emitChunks config s chunks).2.flatten.filter (!isWhitespace ·) =
      chunks.flatMap fun chunk => (stripMarkdownPrefix (trim chunk)).filter isSpoken := by
  induction chunks generalizing s with
  | nil => rfl
  | cons chunk chunks ih =>
    obtain ⟨hnext, hone⟩ := formatChunk_single hterms hs (hchunks chunk (by simp))
    have hrest := ih hnext fun c hc => hchunks c (by simp [hc])
    rw [List.flatMap_cons, ← hone, ← hrest, emitChunks_flatten, List.filter_append]

theorem flatMap_sublist {β : Type} {f g : Text → List β} {chunks : List Text}
    (h : ∀ chunk ∈ chunks, (f chunk).Sublist (g chunk)) :
    (chunks.flatMap f).Sublist (chunks.flatMap g) := by
  induction chunks with
  | nil => exact List.Sublist.refl _
  | cons chunk chunks ih =>
    rw [List.flatMap_cons, List.flatMap_cons]
    exact (h chunk (by simp)).append (ih fun c hc => h c (List.mem_cons_of_mem chunk hc))

/-- Of lists that are shortened one by one, the whole is kept just when each of them is. -/
theorem flatMap_eq_iff {β : Type} {f g : Text → List β} {chunks : List Text}
    (h : ∀ chunk ∈ chunks, (f chunk).Sublist (g chunk)) :
    chunks.flatMap f = chunks.flatMap g ↔ ∀ chunk ∈ chunks, f chunk = g chunk := by
  induction chunks with
  | nil => simp
  | cons chunk chunks ih =>
    have hone := h chunk (by simp)
    have hrest := fun c hc => h c (List.mem_cons_of_mem chunk hc)
    rw [List.flatMap_cons, List.flatMap_cons, List.forall_mem_cons, ← ih hrest]
    constructor
    · intro heq
      have hle := hone.length_le
      have hle' := (flatMap_sublist hrest).length_le
      have hlength := congrArg List.length heq
      rw [List.length_append, List.length_append] at hlength
      exact List.append_inj heq (by omega)
    · rintro ⟨hchunk, hchunks⟩
      rw [hchunk, hchunks]

/-- A response on one line is spoken whole just when no chunk of it starts like a list item, a
heading or a quotation. -/
theorem prefixes_kept {self : SpokenFormatter} {sequence : ℕ}
    (hnew : self.formatter.activeSequence ≠ some sequence)
    (hterms : self.config.suppressedParentheticalTerms = []) {fragments : List Text}
    (htext : SingleLine self.config fragments.flatten) :
    ∃ next emitted, self.run (response sequence fragments) = .ok (next, emitted) ∧
      (emitted.flatten.filter (!isWhitespace ·) = fragments.flatten.filter isSpoken ↔
        ∀ chunk ∈ self.formatter.limits.cut fragments, ¬LooksLikeItem chunk) := by
  obtain ⟨next, hrun⟩ := self.run_response hnew fragments
  refine ⟨next, _, hrun, ?_⟩
  obtain ⟨⟨dropped, hblank, hcut⟩, -⟩ := self.formatter.limits.cutFrom_spec fragments []
  rw [List.nil_append] at hcut
  change (self.formatter.limits.cut fragments).flatten ++ dropped = fragments.flatten at hcut
  generalize self.formatter.limits.cut fragments = chunks at hcut ⊢
  have hchunks : ∀ chunk ∈ chunks, SingleLine self.config chunk := fun chunk hchunk =>
    htext.of_part ((List.infix_of_mem_flatten hchunk).trans ⟨[], dropped, hcut⟩)
  have hspace : ∀ x : Char, isSpace x = true → isSpoken x = false := by
    intro x hx
    rw [isSpoken, show isWhitespace x = true from hx]
    rfl
  have hwhole : fragments.flatten.filter isSpoken =
      chunks.flatMap fun chunk => (trim chunk).filter isSpoken := by
    rw [← hcut, List.filter_append, filter_spaces hspace hblank, List.append_nil,
      List.filter_flatten, List.flatMap]
    refine congrArg List.flatten (List.map_congr_left fun chunk _ => ?_)
    exact (filter_trim hspace chunk).symm
  rw [emitChunks_single hterms ⟨⟨rfl, rfl⟩, rfl⟩ hchunks, hwhole, flatMap_eq_iff fun chunk _ =>
    (stripMarkdownPrefix_suffix (trim chunk)).sublist.filter isSpoken]
  refine forall₂_congr fun chunk hchunk => stripMarkdownPrefix_seen (trimStart_trim chunk) ?_
  intro hparen
  exact (hchunks chunk hchunk).not_mem ((trim_sublist chunk).mem hparen) (by decide) rfl

/-- A formatter that has not spoken yet, with chunks of up to eighty characters. -/
def quietFormatter : SpokenFormatter :=
  ⟨⟨shortLimits, none, []⟩, ⟨"Code.".toList, "Table.".toList, true, []⟩, .fresh⟩

theorem prefixes_kept_minus : ∃ next emitted,
    quietFormatter.run (response 7 ["It is -5".toList, " - or *less*.".toList]) = .ok (next, emitted) ∧
      (emitted.flatten.filter (!isWhitespace ·) =
          ["It is -5".toList, " - or *less*.".toList].flatten.filter isSpoken ↔
        ∀ chunk ∈ quietFormatter.formatter.limits.cut
          ["It is -5".toList, " - or *less*.".toList], ¬LooksLikeItem chunk) :=
  prefixes_kept (by decide) rfl ⟨List.all_iff_forall_prop.mp (by decide), by decide⟩

/-- A dash behind a sentence is taken for a list marker. -/
theorem prefixes_lost : SingleLine quietFormatter.config ["Ready? - Yes.".toList].flatten ∧
    ¬MarkdownPrefix (trim ["Ready? - Yes.".toList].flatten) ∧
    ∃ next, quietFormatter.run (response 7 ["Ready? - Yes.".toList]) =
        .ok (next, ["Ready?".toList, "Yes.".toList]) ∧
      ["Ready?".toList, "Yes.".toList].flatten.filter (!isWhitespace ·) ≠
        ["Ready? - Yes.".toList].flatten.filter isSpoken := by
  refine ⟨⟨List.all_iff_forall_prop.mp (by decide), by decide⟩, ?_, ?_⟩
  · have hkept : (stripMarkdownPrefix (trim "Ready? - Yes.".toList)).filter isSpoken =
        (trim "Ready? - Yes.".toList).filter isSpoken := by decide +kernel
    exact (stripMarkdownPrefix_seen (by decide +kernel) (by decide +kernel)).mp hkept
  · have hnew : quietFormatter.formatter.activeSequence ≠ some 7 := by decide
    obtain ⟨next, hrun⟩ := SpokenFormatter.run_response hnew ["Ready? - Yes.".toList]
    have hemitted : (emitChunks quietFormatter.config Format.fresh
        (quietFormatter.formatter.limits.cut ["Ready? - Yes.".toList])).2 =
        ["Ready?".toList, "Yes.".toList] := by decide +kernel
    rw [hemitted] at hrun
    exact ⟨next, hrun, by decide⟩

end Muxiva.Speech
