import Mathlib.Data.List.Lex
import Mathlib.Data.Char
import Muxiva.Lib.JsonString
import Muxiva.Lib.Lines
import Muxiva.Lib.SortedMap

/-! The `.env` file of a project: `read_dotenv` reads back what `write_dotenv` has written. Keys are
checked, values are JSON strings. -/
set_option linter.all false
namespace Muxiva.Studio

open JsonString (Codec)

abbrev Environment := SortedMap Text Text

/-- An ASCII capital letter, a digit or an underscore. -/
def isKeyChar (c : Char) : Bool := c.isUpper || c.isDigit || c = '_'

/-- What an environment variable is named. -/
def validKey (key : Text) : Bool := !key.isEmpty && key.all isKeyChar

/-- The place of an error in the file. -/
def lineError (path : Text) (index : ℕ) (message : String) : Text :=
  path ++ ":".toList ++ (toString (index + 1)).toList ++ message.toList

/-- The loop of `read_dotenv`. -/
def readLines (J : Codec) (path : Text) : ℕ → List Text → Environment → Except Text Environment
  | _, [], values => .ok values
  | index, line :: rest, values =>
    let line := trim line
    if line = [] ∨ line.head? = some '#' then readLines J path (index + 1) rest values
    else
      match splitOnce '=' line with
      | none => .error (lineError path index " must use KEY=value")
      | some (key, raw) =>
        let key := trim key
        let raw := trim raw
        if validKey key then
          if raw.head? = some '"' then
            match J.parse raw with
            | some value => readLines J path (index + 1) rest (values.insert key value)
            | none => .error (lineError path index " has an invalid quoted value")
          else readLines J path (index + 1) rest (values.insert key raw)
        else .error (lineError path index " has an invalid key")

/-- What `read_to_string` finds. -/
inductive FileRead where
  | content (text : Text)
  | notFound
  | failed (error : Text)

def readDotenv (J : Codec) (path : Text) : FileRead → Except Text Environment
  | .content text => readLines J path 0 (lines text) .empty
  | .notFound => .ok .empty
  | .failed error => .error ("failed to read ".toList ++ path ++ ": ".toList ++ error)

def dotenvHeader : Text := "# Local Muxiva provider credentials. Never commit this file.".toList

def dotenvLine (J : Codec) (entry : Text × Text) : Text :=
  entry.1 ++ '=' :: J.quote entry.2

/-- What `write_dotenv` writes. -/
def renderDotenv (J : Codec) (values : Environment) : Text :=
  dotenvHeader ++ '\n' :: values.entries.flatMap fun entry => dotenvLine J entry ++ ['\n']

theorem keyChar_plain {c : Char} (h : isKeyChar c = true) :
    isWhitespace c = false ∧ c ≠ '\n' ∧ c ≠ '\r' ∧ c ≠ '=' ∧ c ≠ '#' ∧ c ≠ '"' := by
  have hcode : 48 ≤ c.toNat ∧ c.toNat ≤ 57 ∨ 65 ≤ c.toNat ∧ c.toNat ≤ 90 ∨ c.toNat = 95 := by
    unfold isKeyChar Char.isUpper Char.isDigit at h
    simp only [Bool.or_eq_true, Bool.and_eq_true, decide_eq_true_eq, ge_iff_le,
      UInt32.le_iff_toNat_le] at h
    have hval : c.val.toNat = c.toNat := rfl
    rw [hval] at h
    rcases h with (h | h) | rfl
    · exact .inr (.inl h)
    · exact .inl h
    · exact .inr (.inr rfl)
  have hne : ∀ d : Char, (d.toNat < 48 ∨ 57 < d.toNat) → d.toNat < 65 → c ≠ d := by
    rintro d hd hlow rfl
    omega
  refine ⟨?_, hne _ (by decide) (by decide), hne _ (by decide) (by decide),
    hne _ (by decide) (by decide), hne _ (by decide) (by decide), hne _ (by decide) (by decide)⟩
  unfold isWhitespace
  simp only [Bool.or_eq_false_iff, Bool.and_eq_false_iff, decide_eq_false_iff_not]
  omega

theorem validKey_cases {key : Text} (h : validKey key = true) :
    (∃ c rest, key = c :: rest) ∧ ∀ c ∈ key, isKeyChar c = true := by
  unfold validKey at h
  rw [Bool.and_eq_true, List.all_eq_true] at h
  cases key with
  | nil => simp at h
  | cons c rest => exact ⟨⟨c, rest, rfl⟩, h.2⟩

section RoundTrip

variable (J : Codec) (path : Text)

theorem trim_key {key : Text} (h : validKey key = true) : trim key = key := by
  obtain ⟨⟨c, rest, hkey⟩, hall⟩ := validKey_cases h
  have hne : key ≠ [] := by simp [hkey]
  have hfirst := (keyChar_plain (hall c (by simp [hkey]))).1
  have hlast := (keyChar_plain (hall _ (List.getLast_mem hne))).1
  apply trim_eq_self hfirst hlast (by rw [hkey]; rfl)
  exact (List.dropLast_append_getLast hne).symm

theorem quote_cases (value : Text) :
    (J.quote value).head? = some '"' ∧ trim (J.quote value) = J.quote value := by
  obtain ⟨body, hbody⟩ := J.quoted value
  have hhead : (J.quote value).head? = some '"' := by rw [hbody]; rfl
  exact ⟨hhead, trim_eq_self (by decide) (by decide) hhead hbody⟩

/-- The line of an entry begins with the key and ends with a quote. -/
theorem trim_dotenvLine {key : Text} (h : validKey key = true) (value : Text) :
    trim (dotenvLine J (key, value)) = dotenvLine J (key, value) := by
  obtain ⟨⟨c, rest, rfl⟩, hall⟩ := validKey_cases h
  obtain ⟨body, hbody⟩ := J.quoted value
  have hfirst := (keyChar_plain (hall c List.mem_cons_self)).1
  have hend : dotenvLine J (c :: rest, value) = (c :: rest ++ '=' :: '"' :: body) ++ ['"'] := by
    simp only [dotenvLine, hbody, List.append_assoc, List.cons_append]
  exact trim_eq_self hfirst (by decide) rfl hend

theorem readLines_entry {key : Text} (h : validKey key = true) (value : Text) (index : ℕ)
    (rest : List Text) (values : Environment) :
    readLines J path index (dotenvLine J (key, value) :: rest) values =
      readLines J path (index + 1) rest (values.insert key value) := by
  obtain ⟨⟨c, key', hkey⟩, hall⟩ := validKey_cases h
  have hplain := keyChar_plain (hall c (by simp [hkey]))
  have hline : dotenvLine J (key, value) = c :: (key' ++ '=' :: J.quote value) := by
    simp [dotenvLine, hkey]
  have hskip : ¬(dotenvLine J (key, value) = [] ∨
      (dotenvLine J (key, value)).head? = some '#') := by
    simp [hline, hplain.2.2.2.2.1]
  have heq : '=' ∉ key := fun hmem => (keyChar_plain (hall _ hmem)).2.2.2.1 rfl
  have hsplit : splitOnce '=' (dotenvLine J (key, value)) = some (key, J.quote value) :=
    splitOnce_append heq _
  obtain ⟨hhead, htrim⟩ := quote_cases J value
  simp only [readLines, trim_dotenvLine J h, if_neg hskip, hsplit, trim_key h, htrim, h, hhead,
    if_true, J.parse_quote]

theorem readLines_entries (entries : List (Text × Text))
    (h : ∀ e ∈ entries, validKey e.1 = true) (index : ℕ) (values : Environment) :
    readLines J path index (entries.map (dotenvLine J)) values =
      .ok (entries.foldl (fun m e => m.insert e.1 e.2) values) := by
  induction entries generalizing index values with
  | nil => rfl
  | cons e entries ih =>
    obtain ⟨key, value⟩ := e
    have hkey : validKey key = true := h _ List.mem_cons_self
    rw [List.map_cons, readLines_entry J path hkey, List.foldl_cons]
    exact ih (fun e he => h e (List.mem_cons_of_mem _ he)) _ _

theorem dotenvLine_oneLine {key : Text} (h : validKey key = true) (value : Text) :
    '\n' ∉ dotenvLine J (key, value) ∧ '\r' ∉ dotenvLine J (key, value) := by
  obtain ⟨-, hall⟩ := validKey_cases h
  obtain ⟨hn, hr⟩ := J.oneLine value
  have hkey : '\n' ∉ key ∧ '\r' ∉ key :=
    ⟨fun hmem => (keyChar_plain (hall _ hmem)).2.1 rfl,
      fun hmem => (keyChar_plain (hall _ hmem)).2.2.1 rfl⟩
  simp [dotenvLine, hn, hr, hkey]

/-- The keys of a map can be written. -/
def KeysValid (values : Environment) : Prop := ∀ e ∈ values.entries, validKey e.1 = true

/-- `read_dotenv` reads what `write_dotenv` has written. -/
theorem readDotenv_render {values : Environment} (h : KeysValid values) :
    readDotenv J path (.content (renderDotenv J values)) = .ok values := by
  have hheader : '\n' ∉ dotenvHeader ∧ '\r' ∉ dotenvHeader := by decide
  have hlines : lines (renderDotenv J values) =
      dotenvHeader :: values.entries.map (dotenvLine J) := by
    unfold renderDotenv
    rw [lines_append hheader.1 hheader.2, lines_flatMap]
    exact fun e he => dotenvLine_oneLine J (h e he) e.2
  have hskip : trim dotenvHeader = [] ∨ (trim dotenvHeader).head? = some '#' := .inr (by decide)
  unfold readDotenv
  simp only [hlines, readLines, if_pos hskip]
  rw [readLines_entries J path _ h, SortedMap.foldl_insert_entries]

end RoundTrip

/-- The keys read from a file are valid. -/
theorem readLines_valid {J : Codec} {path : Text} {ls : List Text} {index : ℕ}
    {values values' : Environment} (hvalid : KeysValid values)
    (h : readLines J path index ls values = .ok values') : KeysValid values' := by
  have hinsert : ∀ {values : Environment} {key value : Text}, KeysValid values →
      validKey key = true → KeysValid (values.insert key value) := by
    intro values key value hvalid hkey e he
    rcases SortedMap.mem_insertEntry he with rfl | he
    · exact hkey
    · exact hvalid e he
  induction ls generalizing index values with
  | nil =>
    cases h
    exact hvalid
  | cons line ls ih =>
    simp only [readLines] at h
    split_ifs at h with hskip
    · exact ih hvalid h
    · split at h
      · cases h
      · split_ifs at h with hkey hquote
        · split at h
          · exact ih (hinsert hvalid hkey) h
          · cases h
        · exact ih (hinsert hvalid hkey) h

theorem readDotenv_valid {J : Codec} {path : Text} {file : FileRead} {values : Environment}
    (h : readDotenv J path file = .ok values) : KeysValid values := by
  have hempty : KeysValid .empty := fun e he => by simp at he
  cases file with
  | content text => exact readLines_valid hempty h
  | notFound =>
    cases h
    exact hempty
  | failed error => cases h

end Muxiva.Studio
