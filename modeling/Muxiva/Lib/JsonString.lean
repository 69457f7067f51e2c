import Muxiva.Lib.Text

/-! Texts as JSON string literals: the shortest escapes are written, and all are read, with surrogate
pairs. What is relied on of a codec is a structure of its own. -/
set_option linter.all false
namespace JsonString

open Muxiva (Text)

/-- `quote` writes a text as a literal on one line, `parse` reads a whole text that is one. -/
structure Codec where
  quote : Text → Text
  parse : Text → Option Text
  quoted : ∀ t, ∃ body, quote t = '"' :: body ++ ['"']
  oneLine : ∀ t, '\n' ∉ quote t ∧ '\r' ∉ quote t
  parse_quote : ∀ t, parse (quote t) = some t

/-- A lower-case digit. -/
def hexDigit (n : ℕ) : Char :=
  if n < 10 then Char.ofNat (48 + n) else Char.ofNat (87 + n)

def digitValue (c : Char) : Option ℕ :=
  let n := c.toNat
  if 48 ≤ n ∧ n ≤ 57 then some (n - 48)
  else if 97 ≤ n ∧ n ≤ 102 then some (n - 87)
  else if 65 ≤ n ∧ n ≤ 70 then some (n - 55)
  else none

theorem digitValue_hexDigit : ∀ n < 16, digitValue (hexDigit n) = some n := by decide

/-- Four digits. -/
def hex4 : Text → Option (ℕ × Text)
  | a :: b :: c :: d :: rest =>
    match digitValue a, digitValue b, digitValue c, digitValue d with
    | some a, some b, some c, some d => some (((a * 16 + b) * 16 + c) * 16 + d, rest)
    | _, _, _, _ => none
  | _ => none

/-- The escapes written with one letter. -/
def shortEscape (c : Char) : Option Char :=
  if c = '"' then some '"'
  else if c = '\\' then some '\\'
  else if c.toNat = 8 then some 'b'
  else if c = '\t' then some 't'
  else if c = '\n' then some 'n'
  else if c.toNat = 12 then some 'f'
  else if c = '\r' then some 'r'
  else none

def escapeChar (c : Char) : Text :=
  match shortEscape c with
  | some letter => ['\\', letter]
  | none =>
    if c.toNat < 32 then
      ['\\', 'u', '0', '0', hexDigit (c.toNat / 16), hexDigit (c.toNat % 16)]
    else [c]

def quote (t : Text) : Text := '"' :: t.flatMap escapeChar ++ ['"']

/-- The character of a one-letter escape. -/
def unescape (letter : Char) : Option Char :=
  if letter = '"' then some '"'
  else if letter = '\\' then some '\\'
  else if letter = '/' then some '/'
  else if letter = 'b' then some (Char.ofNat 8)
  else if letter = 't' then some '\t'
  else if letter = 'n' then some '\n'
  else if letter = 'f' then some (Char.ofNat 12)
  else if letter = 'r' then some '\r'
  else none

/-- The character behind `\u`, where a high surrogate takes a second escape. -/
def unicodeEscape (t : Text) : Option (Char × Text) :=
  match hex4 t with
  | none => none
  | some (n, rest) =>
    if 0xD800 ≤ n ∧ n ≤ 0xDBFF then
      match rest with
      | '\\' :: 'u' :: rest =>
        match hex4 rest with
        | some (m, rest) =>
          if 0xDC00 ≤ m ∧ m ≤ 0xDFFF then
            some (Char.ofNat (0x10000 + (n - 0xD800) * 0x400 + (m - 0xDC00)), rest)
          else none
        | none => none
      | _ => none
    else if 0xDC00 ≤ n ∧ n ≤ 0xDFFF then none
    else some (Char.ofNat n, rest)

/-- The characters up to the closing quote, and what follows it; `fuel` is the length of the text. -/
def parseBody : ℕ → Text → Option (Text × Text)
  | 0, _ => none
  | _ + 1, [] => none
  | fuel + 1, c :: rest =>
    if c = '"' then some ([], rest)
    else if c = '\\' then
      match rest with
      | 'u' :: rest =>
        (unicodeEscape rest).bind fun (c, rest) =>
          (parseBody fuel rest).map fun (t, rest) => (c :: t, rest)
      | letter :: rest =>
        (unescape letter).bind fun c => (parseBody fuel rest).map fun (t, rest) => (c :: t, rest)
      | [] => none
    else if c.toNat < 32 then none
    else (parseBody fuel rest).map fun (t, rest) => (c :: t, rest)

/-- JSON white space. -/
def isSpace (c : Char) : Bool := c = ' ' || c = '\n' || c = '\t' || c = '\r'

def parse (t : Text) : Option Text :=
  match t.dropWhile isSpace with
  | '"' :: rest =>
    match parseBody rest.length rest with
    | some (value, rest) => if rest.all isSpace then some value else none
    | none => none
  | _ => none

theorem shortEscape_cases {c letter : Char} (h : shortEscape c = some letter) :
    c = '"' ∧ letter = '"' ∨ c = '\\' ∧ letter = '\\' ∨ c.toNat = 8 ∧ letter = 'b' ∨
    c = '\t' ∧ letter = 't' ∨ c = '\n' ∧ letter = 'n' ∨ c.toNat = 12 ∧ letter = 'f' ∨
    c = '\r' ∧ letter = 'r' := by
  unfold shortEscape at h
  simp only [ite_eq_iff, Option.some.injEq, reduceCtorEq, and_false, or_false] at h
  obtain h | ⟨-, h | ⟨-, h | ⟨-, h | ⟨-, h | ⟨-, h | ⟨-, h⟩⟩⟩⟩⟩⟩ := h
  · exact .inl ⟨h.1, h.2.symm⟩
  · exact .inr (.inl ⟨h.1, h.2.symm⟩)
  · exact .inr (.inr (.inl ⟨h.1, h.2.symm⟩))
  · exact .inr (.inr (.inr (.inl ⟨h.1, h.2.symm⟩)))
  · exact .inr (.inr (.inr (.inr (.inl ⟨h.1, h.2.symm⟩))))
  · exact .inr (.inr (.inr (.inr (.inr (.inl ⟨h.1, h.2.symm⟩)))))
  · exact .inr (.inr (.inr (.inr (.inr (.inr ⟨h.1, h.2.symm⟩)))))

theorem unescape_shortEscape {c letter : Char} (h : shortEscape c = some letter) :
    letter ≠ 'u' ∧ unescape letter = some c := by
  have hchar : ∀ n, c.toNat = n → c = Char.ofNat n := by
    rintro n rfl
    exact (Char.ofNat_toNat c).symm
  obtain ⟨rfl, rfl⟩ | ⟨rfl, rfl⟩ | ⟨h8, rfl⟩ | ⟨rfl, rfl⟩ | ⟨rfl, rfl⟩ | ⟨h12, rfl⟩ | ⟨rfl, rfl⟩ :=
    shortEscape_cases h
  · decide
  · decide
  · exact ⟨by decide, by rw [hchar 8 h8]; decide⟩
  · decide
  · decide
  · exact ⟨by decide, by rw [hchar 12 h12]; decide⟩
  · decide

theorem unicodeEscape_control {c : Char} (h : c.toNat < 32) (rest : Text) :
    unicodeEscape ('0' :: '0' :: hexDigit (c.toNat / 16) :: hexDigit (c.toNat % 16) :: rest) =
      some (c, rest) := by
  have hhigh := digitValue_hexDigit (c.toNat / 16) (by omega)
  have hlow := digitValue_hexDigit (c.toNat % 16) (by omega)
  have hzero : digitValue '0' = some 0 := by decide
  have hvalue : ((0 * 16 + 0) * 16 + c.toNat / 16) * 16 + c.toNat % 16 = c.toNat := by omega
  unfold unicodeEscape hex4
  simp only [hzero, hhigh, hlow, hvalue]
  rw [if_neg (by omega), if_neg (by omega), Char.ofNat_toNat]

/-- One escaped character is read back. -/
theorem parseBody_escapeChar {fuel : ℕ} (c : Char) (rest : Text) :
    parseBody (fuel + 1) (escapeChar c ++ rest) =
      (parseBody fuel rest).map fun (t, rest) => (c :: t, rest) := by
  unfold escapeChar
  cases hshort : shortEscape c with
  | some letter =>
    obtain ⟨hu, hletter⟩ := unescape_shortEscape hshort
    simp only [List.cons_append, List.nil_append]
    rw [parseBody.eq_def]
    simp only [show '\\' ≠ '"' by decide, if_false, if_true]
    rw [hletter]
    rfl
  | none =>
    simp only
    split_ifs with hcontrol
    · simp only [List.cons_append, List.nil_append]
      rw [parseBody, if_neg (by decide), if_pos rfl]
      simp only [unicodeEscape_control hcontrol, Option.bind_some]
    · have hquote : c ≠ '"' := by
        rintro rfl
        cases hshort
      have hslash : c ≠ '\\' := by
        rintro rfl
        cases hshort
      simp only [List.cons_append, List.nil_append]
      rw [parseBody.eq_def]
      simp only [hquote, hslash, hcontrol, if_false]

theorem parseBody_escaped {fuel : ℕ} (t : Text) (h : t.length < fuel) :
    parseBody fuel (t.flatMap escapeChar ++ ['"']) = some (t, []) := by
  induction t generalizing fuel with
  | nil =>
    cases fuel with
    | zero => cases h
    | succ fuel => simp [parseBody]
  | cons c t ih =>
    cases fuel with
    | zero => cases h
    | succ fuel =>
      have hrest : parseBody fuel (t.flatMap escapeChar ++ ['"']) = some (t, []) :=
        ih (by simpa using h)
      rw [List.flatMap_cons, List.append_assoc, parseBody_escapeChar, hrest]
      rfl

theorem length_le_escaped (t : Text) : t.length ≤ (t.flatMap escapeChar).length := by
  induction t with
  | nil => exact Nat.le_refl _
  | cons c t ih =>
    have hone : 1 ≤ (escapeChar c).length := by
      unfold escapeChar
      split
      · simp
      · split_ifs <;> simp
    simp only [List.flatMap_cons, List.length_append, List.length_cons]
    omega

theorem parse_quote (t : Text) : parse (quote t) = some t := by
  have hlength := length_le_escaped t
  have hbody : parseBody (t.flatMap escapeChar ++ ['"']).length (t.flatMap escapeChar ++ ['"']) =
      some (t, []) := by
    apply parseBody_escaped
    simp only [List.length_append, List.length_singleton]
    omega
  unfold parse quote
  simp only [List.cons_append]
  rw [List.dropWhile_cons_of_neg (by decide)]
  simp only [hbody, List.all_nil, if_true]

theorem hexDigit_not_control : ∀ n < 16, 32 ≤ (hexDigit n).toNat := by decide

/-- No control character is left in a literal. -/
theorem control_free {t : Text} {c : Char} (h : c ∈ quote t) : 32 ≤ c.toNat := by
  unfold quote at h
  simp only [List.cons_append, List.mem_cons, List.mem_append, List.not_mem_nil, or_false,
    List.mem_flatMap] at h
  rcases h with rfl | ⟨d, -, hd⟩ | rfl
  · decide
  · unfold escapeChar at hd
    split at hd
    · next letter hshort =>
      have hletter : 32 ≤ letter.toNat := by
        obtain ⟨-, rfl⟩ | ⟨-, rfl⟩ | ⟨-, rfl⟩ | ⟨-, rfl⟩ | ⟨-, rfl⟩ | ⟨-, rfl⟩ | ⟨-, rfl⟩ :=
          shortEscape_cases hshort <;> decide
      simp only [List.mem_cons, List.not_mem_nil, or_false] at hd
      rcases hd with rfl | rfl
      · decide
      · exact hletter
    · split_ifs at hd with hcontrol
      · simp only [List.mem_cons, List.not_mem_nil, or_false] at hd
        rcases hd with rfl | rfl | rfl | rfl | rfl | rfl
        · decide
        · decide
        · decide
        · decide
        · exact hexDigit_not_control _ (by omega)
        · exact hexDigit_not_control _ (by omega)
      · rw [List.mem_singleton.mp hd]
        omega
  · decide

/-- The literals of the standard. -/
def standard : Codec where
  quote := quote
  parse := parse
  quoted t := ⟨t.flatMap escapeChar, rfl⟩
  oneLine t := ⟨fun h => absurd (control_free h) (by decide),
    fun h => absurd (control_free h) (by decide)⟩
  parse_quote := parse_quote

end JsonString
