import Mathlib.Data.List.Infix
import Muxiva.Speech.Formatter

/-! `format_chunk`: what `SpeechFormatter` makes of the chunks it cuts. The functions work on letters
that may carry more than their character, so that a letter of the output can be traced back. -/
set_option linter.all false
namespace Muxiva.Speech

/-- A letter has a character, and the formatter can insert letters of its own. -/
class Letter (α : Type) where
  char : α → Char
  inserted : Char → α
  char_inserted : ∀ c, char (inserted c) = c

instance : Letter Char := ⟨id, id, fun _ => rfl⟩

/-- A character with a mark; what the formatter inserts is not marked. -/
instance : Letter (Char × Bool) := ⟨Prod.fst, (·, false), fun _ => rfl⟩

/-- What `create` takes from the configuration, the chunk limits apart. -/
structure FormatterConfig where
  codeBlockMessage : Text
  tableMessage : Text
  stripUrls : Bool
  suppressedParentheticalTerms : List Text

/-- What `format_chunk` keeps from one chunk to the next. -/
structure Format (α : Type) where
  inFencedCode : Bool
  inTable : Bool
  pendingBackticks : ℕ
  inBareUrl : Bool
  pendingParenthetical : List α
  parentheticalClosing : Option Char

/-- As `begin_sequence` leaves it. -/
def Format.fresh {α : Type} : Format α := ⟨false, false, 0, false, [], none⟩

section Functions

open Letter
variable {α : Type} [Letter α]

def chars (text : List α) : Text := text.map char

def isChar (c : Char) (x : α) : Bool := char x = c

def isSpace (x : α) : Bool := isWhitespace (char x)

def trimStart (text : List α) : List α := text.dropWhile isSpace

def trimEnd (text : List α) : List α := (text.reverse.dropWhile isSpace).reverse

def insertedText (text : Text) : List α := text.map inserted

def closingOf (c : Char) : Option Char :=
  if c = '（' then some '）' else if c = '(' then some ')' else if c = '【' then some '】'
  else if c = '[' then some ']' else none

/-- One turn of the loop of `filter_parenthetical`. -/
def filterCharacter (terms : List Text) (s : Format α) (x : α) : Format α × List α :=
  let pending := s.pendingParenthetical ++ [x]
  match s.parentheticalClosing with
  | some closing =>
    let released := { s with pendingParenthetical := [], parentheticalClosing := none }
    if char x = closing then
      let suppress := terms.any fun term => decide (term <:+: chars pending)
      (released, if suppress then [] else pending)
    else if 120 < pending.length then (released, pending)
    else ({ s with pendingParenthetical := pending }, [])
  | none =>
    match closingOf (char x) with
    | some closing =>
      ({ s with pendingParenthetical := pending, parentheticalClosing := some closing }, [])
    | none => (s, [x])

def filterCharacters (terms : List Text) (s : Format α) : List α → Format α × List α
  | [] => (s, [])
  | x :: rest =>
    let (s, output) := filterCharacter terms s x
    let (s, behind) := filterCharacters terms s rest
    (s, output ++ behind)

def filterParenthetical (terms : List Text) (s : Format α) (input : List α) :
    Format α × List α :=
  if terms.isEmpty then (s, input) else filterCharacters terms s input

def appendPhrase (output phrase : List α) : List α :=
  if phrase.isEmpty then output
  else if !output.isEmpty && !(output.getLast?.any isSpace) then
    output ++ inserted ' ' :: phrase
  else output ++ phrase

/-- `str::strip_prefix` for a prefix of two characters. -/
def stripTwo (a b : Char) (text : List α) : Option (List α) :=
  match text with
  | x :: y :: rest => if char x = a ∧ char y = b then some rest else none
  | _ => none

def isDigitLetter (x : α) : Bool := (char x).isDigit

/-- `strip_markdown_prefix` on a list item or an ordinal. -/
def stripMarker (line : List α) : List α :=
  match (stripTwo '-' ' ' line).or ((stripTwo '+' ' ' line).or (stripTwo '*' ' ' line)) with
  | some rest => rest
  | none =>
    let digits := (line.takeWhile isDigitLetter).length
    let rest := line.drop digits
    if 0 < digits ∧ ((stripTwo '.' ' ' rest).isSome ∨ (stripTwo ')' ' ' rest).isSome) then
      line.drop (digits + 2)
    else line

def stripMarkdownPrefix (line : List α) : List α :=
  let line := trimStart line
  let line := trimStart (line.dropWhile (isChar '#'))
  let line := trimStart (line.dropWhile (isChar '>'))
  stripMarker line

def looksLikeMarkdownTable (line : List α) : Bool :=
  let pipes := line.countP (isChar '|')
  2 ≤ pipes || 1 ≤ pipes && line.all fun x => ['|', '-', ':', ' ', '\t'].contains (char x)

/-- `str::find` for a character: the text before it and behind it. -/
def splitAtChar (c : Char) : List α → Option (List α × List α)
  | [] => none
  | x :: rest =>
    if char x = c then some ([], rest)
    else (splitAtChar c rest).map fun p => (x :: p.1, p.2)

/-- `strip_suffix('!').unwrap_or`. -/
def stripBang (text : List α) : List α :=
  if text.getLast?.any (isChar '!') then text.dropLast else text

/-- The loop of `replace_markdown_links`; a turn takes the bracket at least. -/
def replaceLinks : ℕ → List α → List α
  | 0, rest => rest
  | fuel + 1, rest =>
    match splitAtChar '[' rest with
    | none => rest
    | some (before, tail) =>
      match splitAtChar ']' tail with
      | none => rest
      | some (label, afterLabel) =>
        match afterLabel with
        | [] => rest
        | x :: target =>
          if char x ≠ '(' then
            rest.take (before.length + 1 + label.length + 1) ++ replaceLinks fuel afterLabel
          else
            match splitAtChar ')' target with
            | none => rest
            | some (_, behind) => stripBang before ++ label ++ replaceLinks fuel behind

def replaceMarkdownLinks (input : List α) : List α := replaceLinks input.length input

def isUrlDelimiter (c : Char) : Bool :=
  isWhitespace c ||
    [',', '!', '?', ';', ')', ']', '}', '，', '。', '！', '？', '；', '、'].contains c

def urlPrefixes : List Text :=
  [['h', 't', 't', 'p', 's', ':', '/', '/'], ['h', 't', 't', 'p', ':', '/', '/'],
    ['w', 'w', 'w', '.']]

/-- A URL starts here. -/
def startsUrl (text : List α) : Bool := urlPrefixes.any fun start => start.isPrefixOf (chars text)

/-- The least position at which one of the prefixes is found. -/
def findUrl (text : List α) : Option ℕ :=
  (List.range text.length).find? fun start => startsUrl (text.drop start)

/-- The position of the first delimiter from `start` on. -/
def findDelimiter (start : ℕ) (text : List α) : Option ℕ :=
  ((List.range text.length).filter (start ≤ ·)).find? fun i =>
    text[i]?.any fun x => isUrlDelimiter (char x)

/-- The loop of `remove_bare_urls`, with the output of the turns to come. -/
def removeUrls : ℕ → Bool → List α → Bool × List α
  | 0, inBareUrl, _ => (inBareUrl, [])
  | fuel + 1, inBareUrl, rest =>
    let resumed := if inBareUrl then (findDelimiter 0 rest).map rest.drop else some rest
    match resumed with
    | none => (true, [])
    | some rest =>
      match findUrl rest with
      | none => (false, rest)
      | some start =>
        let url := rest.drop start
        match findDelimiter 1 url with
        | none => (true, rest.take start)
        | some stop =>
          let (inBareUrl, behind) := removeUrls fuel false (url.drop stop)
          (inBareUrl, rest.take start ++ behind)

def removeBareUrls (inBareUrl : Bool) (input : List α) : Bool × List α :=
  removeUrls (input.length + 1) inBareUrl input

def isFormatting (c : Char) : Bool :=
  ['*', '_', '~', '`', '[', ']', '(', ')', '{', '}'].contains c

/-- Links, URLs and formatting taken out of a line, and whether it ends inside a URL. -/
def plainLine (config : FormatterConfig) (inBareUrl : Bool) (trimmed : List α) : Bool × List α :=
  let linked := replaceMarkdownLinks (stripMarkdownPrefix trimmed)
  let (inBareUrl, withoutUrls) :=
    if config.stripUrls then removeBareUrls inBareUrl linked else (inBareUrl, linked)
  (inBareUrl, withoutUrls.filter fun x => !isFormatting (char x))

/-- White space at the start of a line ends a URL. -/
def Format.enterLine (s : Format α) (line : List α) : Format α :=
  if line.head?.any isSpace then { s with inBareUrl := false } else s

/-- One turn of the loop of `append_markdown_text`. -/
def appendLine (config : FormatterConfig) (state : Format α × List α) (line : List α) :
    Format α × List α :=
  let (s, output) := state
  let s := s.enterLine line
  let trimmed := trimEnd (trimStart line)
  if trimmed.isEmpty then ({ s with inTable := false }, output)
  else if looksLikeMarkdownTable trimmed then
    ({ s with inTable := true },
      if s.inTable then output else appendPhrase output (insertedText config.tableMessage))
  else
    let (inBareUrl, plain) := plainLine config s.inBareUrl trimmed
    ({ s with
        inTable := false
        inBareUrl := if line.getLast?.any isSpace then false else inBareUrl },
      appendPhrase output (trimEnd (trimStart plain)))

/-- `split_inclusive('\\n')`. -/
def splitInclusive : List α → List (List α)
  | [] => []
  | x :: rest =>
    if char x = '\n' then [x] :: splitInclusive rest
    else
      match splitInclusive rest with
      | [] => [[x]]
      | line :: lines => (x :: line) :: lines

def appendMarkdownText (config : FormatterConfig) (state : Format α × List α)
    (input : List α) : Format α × List α :=
  (splitInclusive input).foldl (appendLine config) state

/-- What a run of three backticks or more does. -/
def toggleFence (config : FormatterConfig) (state : Format α × List α) : Format α × List α :=
  let (s, output) := state
  ({ s with inFencedCode := !s.inFencedCode, inTable := false },
    if s.inFencedCode then output else appendPhrase output (insertedText config.codeBlockMessage))

/-- The turns of the loop of `format_chunk`; each takes a letter at least. -/
def formatSegments (config : FormatterConfig) : ℕ → Format α × List α → List α →
    Format α × List α
  | 0, state, _ => state
  | fuel + 1, state, rest =>
    if rest.isEmpty then state
    else
      let text := rest.takeWhile (!isChar '`' ·)
      let marked := rest.dropWhile (!isChar '`' ·)
      let state := if state.1.inFencedCode then state else appendMarkdownText config state text
      if marked.isEmpty then state
      else
        let run := (marked.takeWhile (isChar '`')).length
        let state := if 3 ≤ run then toggleFence config state else state
        formatSegments config fuel state (marked.drop run)

def isClosePunctuation (c : Char) : Bool :=
  [',', '.', '!', '?', ':', ';', '，', '。', '！', '？', '：', '；'].contains c

/-- One turn of the loop of `collapse_spoken_whitespace`: the output and `whitespace`. -/
def collapseCharacter (state : List α × Bool) (x : α) : List α × Bool :=
  let (output, whitespace) := state
  if isSpace x then (output, !output.isEmpty)
  else
    let output :=
      if whitespace && !isClosePunctuation (char x) then output ++ [inserted ' '] else output
    (output ++ [x], false)

def collapseSpokenWhitespace (input : List α) : List α :=
  trimEnd (trimStart (input.foldl collapseCharacter ([], false)).1)

/-- The backticks that end a text. -/
def trailingBackticks (text : List α) : ℕ := (text.reverse.takeWhile (isChar '`')).length

def formatChunk (config : FormatterConfig) (s : Format α) (input : List α) :
    Format α × List α :=
  let (s, filtered) := filterParenthetical config.suppressedParentheticalTerms s input
  let combined := List.replicate s.pendingBackticks (inserted '`') ++ filtered
  let trailing := trailingBackticks combined
  let retained := if trailing < 3 then trailing else 0
  let combined := combined.take (combined.length - retained)
  let s := { s with pendingBackticks := retained }
  let (s, output) := formatSegments config combined.length (s, []) combined
  (s, collapseSpokenWhitespace output)

/-- `emit_chunks`: the texts emitted. -/
def emitChunks (config : FormatterConfig) (s : Format α) : List (List α) → Format α × List (List α)
  | [] => (s, [])
  | chunk :: chunks =>
    let (s, spoken) := formatChunk config s chunk
    let (s, emitted) := emitChunks config s chunks
    (s, if spoken.isEmpty then emitted else spoken :: emitted)

end Functions

end Muxiva.Speech
