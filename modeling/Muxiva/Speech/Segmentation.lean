import Mathlib.Tactic.Linarith
import Muxiva.Lib.Text

/-! `drain_presentable_text`: streamed text cut into chunks that can be spoken. -/
set_option linter.all false
namespace Muxiva.Speech

def isSentenceEnd (c : Char) : Bool := ['。', '！', '？', '!', '?', '\n'].contains c

/-- Punctuation and closing quotes that stay with their sentence. -/
def isClosing (c : Char) : Bool :=
  ['。', '！', '？', '!', '?', '.', '…', '”', '’', '"', '\'', ')', '）', ']', '】'].contains c

/-- `speech_sentence_boundary`. -/
def speechSentenceBoundary (characters : Text) (offset : ℕ) (flush : Bool) : Bool :=
  match characters[offset]? with
  | none => false
  | some character =>
    if isSentenceEnd character then true
    else if character ≠ '.' then false
    else
      let previous := if offset = 0 then none else characters[offset - 1]?
      match characters[offset + 1]? with
      | none => flush
      | some next =>
        if next = '.' || next.isDigit then false
        else !(previous.any Char.isAlphanum && next.isAlphanum)

/-- `speech_clause_boundary`. -/
def speechClauseBoundary (characters : Text) (offset : ℕ) : Bool :=
  match characters[offset]? with
  | none => false
  | some character =>
    if ['，', '；', '：', '、', ';'].contains character then true
    else if character = ',' then
      let previous := if offset = 0 then none else characters[offset - 1]?
      !(previous.any Char.isDigit && characters[offset + 1]?.all Char.isDigit)
    else false

/-- `speech_ascii_token_character`. -/
def speechAsciiTokenCharacter (c : Char) : Bool :=
  c.isAlphanum || ['.', ',', ':', '/', '-', '+', '_', '\'', '%', '°', '℃', '℉'].contains c

/-- How many of the next characters, `budget` at most, stay with the sentence before them. A dot may
start a fraction, even one whose digits are in the next fragment. -/
def keptClosing (flush : Bool) : ℕ → Text → ℕ
  | 0, _ => 0
  | _, [] => 0
  | budget + 1, c :: rest =>
    if !isClosing c then 0
    else if c = '.' && rest.head?.elim (!flush) Char.isDigit then 0
    else 1 + keptClosing flush budget rest

/-- The end of the first sentence. -/
def sentenceEnd (minimum limit : ℕ) (flush : Bool) (remaining : Text) : Option ℕ :=
  ((List.range limit).find? fun offset =>
    minimum ≤ offset + 1 && speechSentenceBoundary remaining offset flush).map fun offset =>
      offset + 1 + keptClosing flush (limit - (offset + 1)) (remaining.drop (offset + 1))

/-- The end of a chunk without a sentence end: after a clause, else after a space, else outside a
token, else at the cap. -/
def fallbackEnd (limit : ℕ) (remaining : Text) : ℕ :=
  let offsets := (List.range limit).reverse
  (((offsets.find? (speechClauseBoundary remaining)).map (· + 1)).or
    (((offsets.find? fun offset => remaining[offset]?.any isWhitespace).map (· + 1)).or
      ((offsets.map (· + 1)).find? fun stop =>
        remaining[stop - 1]?.any (!speechAsciiTokenCharacter ·) ||
          remaining[stop]?.any (!speechAsciiTokenCharacter ·)))).getD limit

/-- The end of the next chunk, if there is one yet. -/
def chunkEnd (minimum maximum : ℕ) (flush : Bool) (remaining : Text) : Option ℕ :=
  let limit := min maximum remaining.length
  (sentenceEnd minimum limit flush remaining).or <|
    if remaining.length < maximum then (if flush then some remaining.length else none)
    else some (fallbackEnd limit remaining)

/-- The loop of `drain_presentable_text` over what is left of the buffer: the chunks it cuts and the
text it leaves, unless it runs out of fuel. -/
def drainLoop (minimum maximum : ℕ) (flush : Bool) : ℕ → Text → Option (List Text × Text)
  | 0, _ => none
  | fuel + 1, remaining =>
    if remaining = [] then some ([], [])
    else
      match chunkEnd minimum maximum flush remaining with
      | none => some ([], remaining)
      | some stop => do
        let chunk := remaining.take stop
        let (chunks, rest) ← drainLoop minimum maximum flush fuel (remaining.drop stop)
        if flush && remaining.length ≤ stop && trim chunk = [] then return (chunks, rest)
        return (chunk :: chunks, rest)

/-- `drain_presentable_text`; every chunk takes a character. -/
def drainPresentableText (minimum maximum : ℕ) (flush : Bool) (buffer : Text) :
    Option (List Text × Text) :=
  drainLoop minimum maximum flush (buffer.length + 1) buffer

theorem keptClosing_le (flush : Bool) (budget : ℕ) (rest : Text) :
    keptClosing flush budget rest ≤ budget := by
  induction budget generalizing rest with
  | zero => simp [keptClosing]
  | succ budget ih =>
    cases rest with
    | nil => simp [keptClosing]
    | cons c rest =>
      unfold keptClosing
      have := ih rest
      split_ifs <;> omega

theorem sentenceEnd_bounds {minimum limit stop : ℕ} {flush : Bool} {remaining : Text}
    (h : sentenceEnd minimum limit flush remaining = some stop) : 1 ≤ stop ∧ stop ≤ limit := by
  unfold sentenceEnd at h
  obtain ⟨offset, hfind, rfl⟩ := Option.map_eq_some_iff.mp h
  have hlt := List.mem_range.mp (List.mem_of_find?_eq_some hfind)
  have hkept := keptClosing_le flush (limit - (offset + 1)) (remaining.drop (offset + 1))
  omega

theorem fallbackEnd_bounds {limit : ℕ} (hlimit : 1 ≤ limit) (remaining : Text) :
    1 ≤ fallbackEnd limit remaining ∧ fallbackEnd limit remaining ≤ limit := by
  have hoffset {p : ℕ → Bool} {stop : ℕ}
      (h : ((List.range limit).reverse.find? p).map (· + 1) = some stop) :
      1 ≤ stop ∧ stop ≤ limit := by
    obtain ⟨offset, hfind, rfl⟩ := Option.map_eq_some_iff.mp h
    have hlt := List.mem_range.mp (List.mem_reverse.mp (List.mem_of_find?_eq_some hfind))
    omega
  have hstop {p : ℕ → Bool} {stop : ℕ}
      (h : ((List.range limit).reverse.map (· + 1)).find? p = some stop) :
      1 ≤ stop ∧ stop ≤ limit := by
    obtain ⟨offset, hmem, rfl⟩ := List.mem_map.mp (List.mem_of_find?_eq_some h)
    have hlt := List.mem_range.mp (List.mem_reverse.mp hmem)
    omega
  unfold fallbackEnd
  simp only
  cases hclause : ((List.range limit).reverse.find? (speechClauseBoundary remaining)).map (· + 1) with
  | some stop => simpa using hoffset hclause
  | none =>
    rw [Option.none_or]
    cases hspace : ((List.range limit).reverse.find? fun offset =>
        remaining[offset]?.any isWhitespace).map (· + 1) with
    | some stop => simpa using hoffset hspace
    | none =>
      rw [Option.none_or]
      cases htoken : ((List.range limit).reverse.map (· + 1)).find? fun stop =>
          remaining[stop - 1]?.any (!speechAsciiTokenCharacter ·) ||
            remaining[stop]?.any (!speechAsciiTokenCharacter ·) with
      | some stop => simpa using hstop htoken
      | none => simpa using hlimit

section Drain

variable {minimum maximum : ℕ} {flush : Bool} {remaining : Text}

/-- A chunk takes at least one character and at most the maximum. -/
theorem chunkEnd_bounds (hmax : 1 ≤ maximum) (hne : remaining ≠ []) {stop : ℕ}
    (h : chunkEnd minimum maximum flush remaining = some stop) :
    1 ≤ stop ∧ stop ≤ maximum ∧ stop ≤ remaining.length := by
  have hpos := List.length_pos_iff.mpr hne
  unfold chunkEnd at h
  simp only [Option.or_eq_some_iff] at h
  rcases h with h | ⟨-, h⟩
  · have := sentenceEnd_bounds h
    omega
  · split_ifs at h with hshort hflush
    · cases h
      omega
    · cases h
      have := fallbackEnd_bounds (show 1 ≤ min maximum remaining.length by omega) remaining
      omega

/-- There is no chunk yet only while the text is short and more may come. -/
theorem chunkEnd_eq_none (h : chunkEnd minimum maximum flush remaining = none) :
    flush = false ∧ remaining.length < maximum := by
  unfold chunkEnd at h
  simp only [Option.or_eq_none_iff] at h
  obtain ⟨-, h⟩ := h
  split_ifs at h with hshort hflush
  exact ⟨by simpa using hflush, hshort⟩

/-- What a drain does to the text. -/
structure Drained (maximum : ℕ) (flush : Bool) (text : Text) (chunks : List Text) (rest : Text) :
    Prop where
  lossless : ∃ dropped, Blank dropped ∧ (flush = false → dropped = []) ∧
    chunks.flatten ++ dropped ++ rest = text
  bounded : ∀ chunk ∈ chunks, chunk ≠ [] ∧ chunk.length ≤ maximum
  left : rest.length < maximum
  flushed : flush = true → rest = []

/-- With as much fuel as there are characters the loop ends. -/
theorem drainLoop_spec (hmax : 1 ≤ maximum) {fuel : ℕ} (hfuel : remaining.length < fuel) :
    ∃ chunks rest, drainLoop minimum maximum flush fuel remaining = some (chunks, rest) ∧
      Drained maximum flush remaining chunks rest := by
  induction fuel generalizing remaining with
  | zero => omega
  | succ fuel ih =>
    unfold drainLoop
    by_cases hne : remaining = []
    · subst hne
      rw [if_pos rfl]
      exact ⟨[], [], rfl, ⟨[], by simp [Blank], by simp, rfl⟩, by simp, hmax, fun _ => rfl⟩
    rw [if_neg hne]
    cases hend : chunkEnd minimum maximum flush remaining with
    | none =>
      obtain ⟨rfl, hshort⟩ := chunkEnd_eq_none hend
      exact ⟨[], remaining, rfl, ⟨[], by simp [Blank], by simp, rfl⟩, by simp, hshort, nofun⟩
    | some stop =>
      obtain ⟨hone, hcap, hlength⟩ := chunkEnd_bounds hmax hne hend
      have hdrop : (remaining.drop stop).length < fuel := by
        rw [List.length_drop]
        omega
      obtain ⟨chunks, rest, hloop, ⟨dropped, hblank, hkept, htext⟩, hbounded, hleft, hflushed⟩ :=
        ih hdrop
      simp only [hloop, Option.bind_eq_bind, Option.bind_some]
      by_cases hlast : (flush && remaining.length ≤ stop && trim (remaining.take stop) = []) = true
      · -- the text ends in white space, which is not spoken
        rw [if_pos hlast]
        simp only [Bool.and_eq_true, decide_eq_true_eq] at hlast
        obtain ⟨⟨rfl, hwhole⟩, htrim⟩ := hlast
        rw [List.take_of_length_le hwhole] at htrim
        rw [List.drop_of_length_le hwhole] at htext
        have hnil : chunks.flatten = [] ∧ rest = [] := by
          have := List.append_eq_nil_iff.mp htext
          exact ⟨(List.append_eq_nil_iff.mp this.1).1, this.2⟩
        refine ⟨chunks, rest, rfl, ⟨remaining, trim_eq_nil.mp htrim, nofun, ?_⟩, hbounded, hleft,
          hflushed⟩
        rw [hnil.1, hnil.2]
        simp
      · rw [if_neg hlast]
        refine ⟨remaining.take stop :: chunks, rest, rfl, ⟨dropped, hblank, hkept, ?_⟩, ?_, hleft,
          hflushed⟩
        · rw [List.flatten_cons, List.append_assoc, List.append_assoc, ← List.append_assoc chunks.flatten,
            htext, List.take_append_drop]
        · intro chunk hchunk
          rcases List.mem_cons.mp hchunk with rfl | hchunk
          · constructor
            · rw [ne_eq, List.take_eq_nil_iff]
              rintro (hzero | hnil)
              · omega
              · exact hne hnil
            · rw [List.length_take]
              omega
          · exact hbounded chunk hchunk

theorem drainPresentableText_spec (minimum : ℕ) (hmax : 1 ≤ maximum) (flush : Bool) (buffer : Text) :
    ∃ chunks rest, drainPresentableText minimum maximum flush buffer = some (chunks, rest) ∧
      Drained maximum flush buffer chunks rest :=
  drainLoop_spec hmax (Nat.lt_succ_self _)

end Drain

/-- One fragment more: the chunks so far and the pending text. -/
def feed (minimum maximum : ℕ) (state : List Text × Text) (fragment : Text) :
    Option (List Text × Text) := do
  let (chunks, rest) ← drainPresentableText minimum maximum false (state.2 ++ fragment)
  return (state.1 ++ chunks, rest)

def feedAll (minimum maximum : ℕ) (fragments : List Text) : Option (List Text × Text) :=
  fragments.foldlM (feed minimum maximum) ([], [])

section Stream

variable {minimum maximum : ℕ}

theorem feed_spec (minimum : ℕ) (hmax : 1 ≤ maximum) (chunks : List Text) (rest fragment : Text)
    (hbounded : ∀ chunk ∈ chunks, chunk ≠ [] ∧ chunk.length ≤ maximum) :
    ∃ chunks' rest', feed minimum maximum (chunks, rest) fragment = some (chunks', rest') ∧
      chunks'.flatten ++ rest' = chunks.flatten ++ rest ++ fragment ∧ rest'.length < maximum ∧
      ∀ chunk ∈ chunks', chunk ≠ [] ∧ chunk.length ≤ maximum := by
  obtain ⟨cut, rest', hdrain, ⟨dropped, -, hkept, htext⟩, hcut, hleft, -⟩ :=
    drainPresentableText_spec minimum hmax false (rest ++ fragment)
  rw [hkept rfl, List.append_nil] at htext
  refine ⟨chunks ++ cut, rest', ?_, ?_, hleft, ?_⟩
  · simp [feed, hdrain]
  · rw [List.flatten_append, List.append_assoc, htext, List.append_assoc]
  · intro chunk hchunk
    rcases List.mem_append.mp hchunk with hchunk | hchunk
    · exact hbounded chunk hchunk
    · exact hcut chunk hchunk

theorem feedAll_spec (minimum : ℕ) (hmax : 1 ≤ maximum) (fragments : List Text)
    (chunks : List Text) (rest : Text)
    (hleft : rest.length < maximum)
    (hbounded : ∀ chunk ∈ chunks, chunk ≠ [] ∧ chunk.length ≤ maximum) :
    ∃ chunks' rest', fragments.foldlM (feed minimum maximum) (chunks, rest) =
        some (chunks', rest') ∧
      chunks'.flatten ++ rest' = chunks.flatten ++ rest ++ fragments.flatten ∧
      rest'.length < maximum ∧ ∀ chunk ∈ chunks', chunk ≠ [] ∧ chunk.length ≤ maximum := by
  induction fragments generalizing chunks rest with
  | nil => exact ⟨chunks, rest, rfl, by simp, hleft, hbounded⟩
  | cons fragment fragments ih =>
    obtain ⟨chunks₁, rest₁, hfeed, htext, hleft₁, hbounded₁⟩ :=
      feed_spec minimum hmax chunks rest fragment hbounded
    obtain ⟨chunks₂, rest₂, hfold, htext₂, hleft₂, hbounded₂⟩ := ih chunks₁ rest₁ hleft₁ hbounded₁
    refine ⟨chunks₂, rest₂, ?_, ?_, hleft₂, hbounded₂⟩
    · rw [List.foldlM_cons, hfeed, Option.bind_eq_bind, Option.bind_some, hfold]
    · rw [htext₂, htext, List.flatten_cons]
      simp only [List.append_assoc]

/-- Streamed in any fragments and flushed once, text is cut without loss into non-empty chunks of at
most the maximum; only white space at the very end may go unspoken. -/
theorem segmentation (hmin : 1 ≤ minimum) (hmax : minimum ≤ maximum) (fragments : List Text) :
    ∃ chunks rest, feedAll minimum maximum fragments = some (chunks, rest) ∧
      chunks.flatten ++ rest = fragments.flatten ∧ rest.length < maximum ∧
      (∀ chunk ∈ chunks, chunk ≠ [] ∧ chunk.length ≤ maximum) ∧
      ∃ last dropped, drainPresentableText minimum maximum true rest = some (last, []) ∧
        (∀ chunk ∈ last, chunk ≠ [] ∧ chunk.length ≤ maximum) ∧ Blank dropped ∧
        chunks.flatten ++ last.flatten ++ dropped = fragments.flatten := by
  have hone : 1 ≤ maximum := hmin.trans hmax
  obtain ⟨chunks, rest, hfeed, htext, hleft, hbounded⟩ :=
    feedAll_spec minimum hone fragments [] [] hone (by simp)
  obtain ⟨last, rest', hdrain, ⟨dropped, hblank, -, hlast⟩, hcut, -, hflushed⟩ :=
    drainPresentableText_spec minimum hone true rest
  obtain rfl := hflushed rfl
  rw [List.append_nil] at hlast
  refine ⟨chunks, rest, hfeed, by simpa using htext, hleft, hbounded, last, dropped, hdrain, hcut,
    hblank, ?_⟩
  rw [List.append_assoc, hlast]
  simpa using htext

theorem segmentation_fraction :
    ∃ chunks rest, feedAll 1 80 ["It is 26.".toList, "25 now. ".toList] = some (chunks, rest) ∧
      chunks.flatten ++ rest = ["It is 26.".toList, "25 now. ".toList].flatten ∧ rest.length < 80 ∧
      (∀ chunk ∈ chunks, chunk ≠ [] ∧ chunk.length ≤ 80) ∧
      ∃ last dropped, drainPresentableText 1 80 true rest = some (last, []) ∧
        (∀ chunk ∈ last, chunk ≠ [] ∧ chunk.length ≤ 80) ∧ Blank dropped ∧
        chunks.flatten ++ last.flatten ++ dropped =
          ["It is 26.".toList, "25 now. ".toList].flatten :=
  segmentation (by decide) (by decide) _

end Stream

end Muxiva.Speech
