import Mathlib.Data.List.Basic
import Muxiva.Speech.Segmentation

/-! Where chunks end: never inside an ASCII word or number that fits into a chunk, however the text
arrives. -/
set_option linter.all false
namespace Muxiva.Speech

/-- How the end of `chunk` lies, where `next` is all text behind it. -/
inductive CutPlaced (maximum : ℕ) : Text → Text → Prop where
  | last (chunk : Text) : CutPlaced maximum chunk []
  | outside {chunk next : Text} {c : Char} (hnext : next.head? = some c)
    (hc : speechAsciiTokenCharacter c = false) : CutPlaced maximum chunk next
  | soft {init next : Text} {a : Char} (halnum : a.isAlphanum = false)
    (hdot : a = '.' → next.head?.any Char.isDigit = false)
    (hcomma : a = ',' → init = [] ∨
      (init.getLast?.any Char.isDigit && next.head?.any Char.isDigit) = false) :
    CutPlaced maximum (init ++ [a]) next
  | hard {chunk : Text} (next : Text) (hlength : chunk.length = maximum)
    (htoken : ∀ c ∈ chunk, speechAsciiTokenCharacter c = true) : CutPlaced maximum chunk next

/-- The chunks are cut off a text one after the other, `tail` is what is left. -/
inductive Cuts (maximum : ℕ) : List Text → Text → Prop where
  | nil (tail : Text) : Cuts maximum [] tail
  | cons {chunk : Text} {chunks : List Text} {tail : Text} (hne : chunk ≠ [])
    (hcut : CutPlaced maximum chunk (chunks.flatten ++ tail)) (hrest : Cuts maximum chunks tail) :
    Cuts maximum (chunk :: chunks) tail

section Ends

variable {maximum : ℕ} {flush : Bool} {remaining ext : Text}

/-- A soft cut behind the character at `offset`. -/
theorem CutPlaced.behind {offset : ℕ} {a : Char} (ha : remaining[offset]? = some a)
    (halnum : a.isAlphanum = false)
    (hdot : a = '.' → (remaining[offset + 1]?.or ext.head?).any Char.isDigit = false)
    (hcomma : a = ',' → offset = 0 ∨ (remaining[offset - 1]?.any Char.isDigit &&
      (remaining[offset + 1]?.or ext.head?).any Char.isDigit) = false) :
    CutPlaced maximum (remaining.take (offset + 1)) (remaining.drop (offset + 1) ++ ext) := by
  have hhead : (remaining.drop (offset + 1) ++ ext).head? = remaining[offset + 1]?.or ext.head? := by
    rw [List.head?_append, List.head?_drop]
  have hlt : offset < remaining.length := (List.getElem?_eq_some_iff.mp ha).1
  rw [List.take_add_one, ha]
  apply CutPlaced.soft halnum
  · rw [hhead]
    exact hdot
  · intro hc
    rcases hcomma hc with hzero | hdigits
    · exact .inl (by rw [hzero, List.take_zero])
    · by_cases hzero : offset = 0
      · exact .inl (by rw [hzero, List.take_zero])
      · have hprevious : remaining[offset - 1]? = some remaining[offset - 1] :=
          List.getElem?_eq_getElem (by omega)
        right
        rw [hhead, List.getLast?_take, if_neg hzero, hprevious, Option.some_or, ← hprevious]
        exact hdigits

/-- A cut behind a character that no token has inside. -/
theorem CutPlaced.plain {offset : ℕ} {a : Char} (ha : remaining[offset]? = some a)
    (hplain : a.isAlphanum = false ∧ a ≠ ',' ∧ a ≠ '.') :
    CutPlaced maximum (remaining.take (offset + 1)) (remaining.drop (offset + 1) ++ ext) :=
  .behind ha hplain.1 (fun h => absurd h hplain.2.2) fun h => absurd h hplain.2.1

theorem keptClosing_spec {budget n : ℕ} {rest : Text}
    (h : keptClosing flush budget rest = n + 1) : ∃ c, rest[n]? = some c ∧ isClosing c = true ∧
      (c = '.' → rest[n + 1]?.elim flush fun d => !d.isDigit) := by
  induction budget generalizing n rest with
  | zero => simp [keptClosing] at h
  | succ budget ih =>
    cases rest with
    | nil => simp [keptClosing] at h
    | cons c rest =>
      simp only [keptClosing] at h
      split_ifs at h with hclosing hdot
      have hn : keptClosing flush budget rest = n := by omega
      cases n with
      | zero =>
        refine ⟨c, rfl, by simpa using hclosing, fun hc => ?_⟩
        subst hc
        cases rest with
        | nil => simpa using hdot
        | cons d rest => simpa using hdot
      | succ n =>
        obtain ⟨d, hd, hspec⟩ := ih hn
        exact ⟨d, hd, hspec⟩

theorem isClosing_alnum {c : Char} (h : isClosing c = true) : c.isAlphanum = false ∧ c ≠ ',' := by
  simp only [isClosing, List.contains_eq_mem, List.mem_cons, List.not_mem_nil, or_false,
    decide_eq_true_eq] at h
  rcases h with h | h | h | h | h | h | h | h | h | h | h | h | h | h | h <;> subst h <;> decide

theorem isSentenceEnd_alnum {c : Char} (h : isSentenceEnd c = true) :
    c.isAlphanum = false ∧ c ≠ ',' ∧ c ≠ '.' := by
  simp only [isSentenceEnd, List.contains_eq_mem, List.mem_cons, List.not_mem_nil, or_false,
    decide_eq_true_eq] at h
  rcases h with h | h | h | h | h | h <;> subst h <;> decide

/-- A dot ends a sentence only if no digit follows. -/
theorem no_digit_behind {offset : ℕ} (hflush : flush = true → ext = [])
    (h : remaining[offset]?.elim flush fun d => !d.isDigit) :
    (remaining[offset]?.or ext.head?).any Char.isDigit = false := by
  cases hd : remaining[offset]? with
  | none =>
    rw [hd] at h
    rw [hflush h]
    rfl
  | some d =>
    rw [hd] at h
    simpa using h

theorem sentenceEnd_placed {minimum limit stop : ℕ} (hflush : flush = true → ext = [])
    (h : sentenceEnd minimum limit flush remaining = some stop) :
    CutPlaced maximum (remaining.take stop) (remaining.drop stop ++ ext) := by
  unfold sentenceEnd at h
  obtain ⟨offset, hfind, rfl⟩ := Option.map_eq_some_iff.mp h
  have hboundary : speechSentenceBoundary remaining offset flush = true := by
    have := List.find?_some hfind
    simp only [Bool.and_eq_true] at this
    exact this.2
  cases hkept : keptClosing flush (limit - (offset + 1)) (remaining.drop (offset + 1)) with
  | zero =>
    unfold speechSentenceBoundary at hboundary
    cases hc : remaining[offset]? with
    | none => simp [hc] at hboundary
    | some c =>
      simp only [hc] at hboundary
      by_cases hend : isSentenceEnd c
      · exact .plain hc (isSentenceEnd_alnum hend)
      · have hdot : c = '.' := by
          by_contra hne
          simp [hend, hne] at hboundary
        subst hdot
        refine .behind hc (by decide) (fun _ => no_digit_behind hflush ?_) nofun
        cases hnext : remaining[offset + 1]? with
        | none => simpa [hnext, isSentenceEnd] using hboundary
        | some d =>
          by_contra hd
          simp only [Option.elim_some, Bool.not_eq_true', Bool.not_eq_false] at hd
          simp [hnext, hd, isSentenceEnd] at hboundary
  | succ n =>
    obtain ⟨c, hc, hclosing, hdot⟩ := keptClosing_spec hkept
    obtain ⟨halnum, hcomma⟩ := isClosing_alnum hclosing
    rw [List.getElem?_drop] at hc
    have hstop : offset + 1 + (n + 1) = (offset + 1 + n) + 1 := by omega
    rw [hstop]
    refine .behind hc halnum (fun hc' => no_digit_behind hflush ?_) (fun hc' => absurd hc' hcomma)
    have := hdot hc'
    rw [List.getElem?_drop] at this
    exact this

theorem clause_placed {offset : ℕ} (h : speechClauseBoundary remaining offset = true) :
    CutPlaced maximum (remaining.take (offset + 1)) (remaining.drop (offset + 1) ++ ext) := by
  unfold speechClauseBoundary at h
  cases hc : remaining[offset]? with
  | none => simp [hc] at h
  | some c =>
    by_cases hclause : ['，', '；', '：', '、', ';'].contains c
    · simp only [List.contains_eq_mem, List.mem_cons, List.not_mem_nil, or_false,
        decide_eq_true_eq] at hclause
      apply CutPlaced.plain hc
      rcases hclause with hc' | hc' | hc' | hc' | hc' <;> subst hc' <;> decide
    · have hcomma : c = ',' := by
        by_contra hne
        simp [hc, hne] at h
        simp_all
      subst hcomma
      refine .behind hc (by decide) nofun fun _ => ?_
      by_cases hzero : offset = 0
      · exact .inl hzero
      · right
        by_contra hdigits
        rw [Bool.not_eq_false, Bool.and_eq_true] at hdigits
        obtain ⟨hprevious, hnext⟩ := hdigits
        have hall : remaining[offset + 1]?.all Char.isDigit = true := by
          cases hd : remaining[offset + 1]? with
          | none => rfl
          | some d => simpa [hd] using hnext
        simp [hc, hzero, hprevious, hall] at h

theorem isWhitespace_alnum {c : Char} (h : isWhitespace c = true) :
    c.isAlphanum = false ∧ c ≠ ',' ∧ c ≠ '.' := by
  refine ⟨?_, ?_, ?_⟩
  · by_contra halnum
    have hletter : c.isAlphanum = true := (Bool.not_eq_false _).mp halnum
    have hranges : (decide (65 ≤ c.val ∧ c.val ≤ 90) || (decide (97 ≤ c.val) && decide (c.val ≤ 122)) ||
        (decide (48 ≤ c.val) && decide (c.val ≤ 57))) = true := hletter
    simp only [Bool.or_eq_true, Bool.and_eq_true, decide_eq_true_eq,
      UInt32.le_iff_toNat_le] at hranges
    simp only [isWhitespace, Bool.or_eq_true, Bool.and_eq_true, decide_eq_true_eq] at h
    have hval : c.val.toNat = c.toNat := rfl
    simp at hranges
    omega
  · rintro rfl
    cases h
  · rintro rfl
    cases h

theorem not_token {c : Char} (h : speechAsciiTokenCharacter c = false) :
    c.isAlphanum = false ∧ c ≠ ',' ∧ c ≠ '.' := by
  unfold speechAsciiTokenCharacter at h
  refine ⟨(Bool.or_eq_false_iff.mp h).1, ?_, ?_⟩
  · rintro rfl
    cases h
  · rintro rfl
    cases h

theorem fallbackEnd_placed (hlength : maximum ≤ remaining.length) :
    CutPlaced maximum (remaining.take (fallbackEnd maximum remaining))
      (remaining.drop (fallbackEnd maximum remaining) ++ ext) := by
  unfold fallbackEnd
  simp only
  cases hclause : (List.range maximum).reverse.find? (speechClauseBoundary remaining) with
  | some offset =>
    exact clause_placed (List.find?_some hclause)
  | none =>
    cases hspace : (List.range maximum).reverse.find? fun offset =>
        remaining[offset]?.any isWhitespace with
    | some offset =>
      have hany := List.find?_some hspace
      obtain ⟨c, hc, hwhite⟩ := Option.any_eq_true _ _ |>.mp hany
      exact .plain hc (isWhitespace_alnum hwhite)
    | none =>
      cases htoken : ((List.range maximum).reverse.map (· + 1)).find? fun stop =>
          remaining[stop - 1]?.any (!speechAsciiTokenCharacter ·) ||
            remaining[stop]?.any (!speechAsciiTokenCharacter ·) with
      | some stop =>
        obtain ⟨offset, -, rfl⟩ := List.mem_map.mp (List.mem_of_find?_eq_some htoken)
        have hany := List.find?_some htoken
        simp only [Bool.or_eq_true] at hany
        simp only [Option.map_none, Option.none_or, Option.getD_some]
        rcases hany with hany | hany
        · obtain ⟨c, hc, hout⟩ := (Option.any_eq_true _ _).mp hany
          exact .plain hc (not_token (by simpa using hout))
        · obtain ⟨c, hc, hout⟩ := (Option.any_eq_true _ _).mp hany
          refine .outside (c := c) ?_ (by simpa using hout)
          rw [List.head?_append, List.head?_drop, hc, Option.some_or]
      | none =>
        simp only [Option.map_none, Option.none_or, Option.getD_none]
        refine .hard _ (by rw [List.length_take]; omega) fun c hc => ?_
        obtain ⟨i, hi, rfl⟩ := List.getElem_of_mem hc
        rw [List.length_take] at hi
        have hstop := List.find?_eq_none.mp htoken (i + 1)
          (List.mem_map.mpr ⟨i, by simp; omega, rfl⟩)
        simp only [Bool.or_eq_true, not_or, Nat.add_sub_cancel] at hstop
        have hi' : i < remaining.length := by omega
        rw [List.getElem_take]
        simpa [List.getElem?_eq_getElem hi'] using hstop.1

/-- Every cut of a buffer is well placed in all text that may still come. -/
theorem chunkEnd_placed {minimum stop : ℕ} (hflush : flush = true → ext = [])
    (h : chunkEnd minimum maximum flush remaining = some stop) :
    CutPlaced maximum (remaining.take stop) (remaining.drop stop ++ ext) := by
  unfold chunkEnd at h
  simp only [Option.or_eq_some_iff] at h
  rcases h with h | ⟨-, h⟩
  · exact sentenceEnd_placed hflush h
  · split_ifs at h with hshort hflush'
    · cases h
      rw [hflush hflush', List.append_nil, List.drop_length]
      exact .last _
    · cases h
      rw [Nat.min_eq_left (not_lt.mp hshort)]
      exact fallbackEnd_placed (not_lt.mp hshort)

end Ends

section Chunks

variable {minimum maximum : ℕ} {flush : Bool}

theorem Cuts.append {chunks chunks' : List Text} {tail : Text}
    (h : Cuts maximum chunks (chunks'.flatten ++ tail)) (h' : Cuts maximum chunks' tail) :
    Cuts maximum (chunks ++ chunks') tail := by
  induction chunks with
  | nil => exact h'
  | cons chunk chunks ih =>
    cases h with
    | cons hne hcut hrest =>
      rw [List.cons_append]
      refine .cons hne ?_ (ih hrest)
      rw [List.flatten_append, List.append_assoc]
      exact hcut

theorem Cuts.split (pre : List Text) (chunk : Text) (post : List Text) {tail : Text}
    (h : Cuts maximum (pre ++ chunk :: post) tail) :
    chunk ≠ [] ∧ CutPlaced maximum chunk (post.flatten ++ tail) := by
  induction pre with
  | nil =>
    cases h with
    | cons hne hcut _ => exact ⟨hne, hcut⟩
  | cons first pre ih =>
    cases h with
    | cons _ _ hrest => exact ih hrest

theorem drainLoop_cuts (hmax : 1 ≤ maximum) {fuel : ℕ} {remaining ext : Text} {chunks : List Text}
    {rest : Text} (hflush : flush = true → ext = [])
    (h : drainLoop minimum maximum flush fuel remaining = some (chunks, rest)) :
    ∃ tail, chunks.flatten ++ tail = remaining ++ ext ∧ Cuts maximum chunks tail := by
  induction fuel generalizing remaining chunks rest with
  | zero => cases h
  | succ fuel ih =>
    unfold drainLoop at h
    split_ifs at h with hnil
    · cases h
      exact ⟨ext, by simp [hnil], .nil ext⟩
    · cases hend : chunkEnd minimum maximum flush remaining with
      | none =>
        simp only [hend, Option.some.injEq, Prod.mk.injEq] at h
        obtain ⟨rfl, rfl⟩ := h
        exact ⟨remaining ++ ext, rfl, .nil _⟩
      | some stop =>
        obtain ⟨hone, -, hlength⟩ := chunkEnd_bounds hmax hnil hend
        simp only [hend, Option.bind_eq_bind, Option.bind_eq_some_iff] at h
        obtain ⟨⟨chunks', rest'⟩, hloop, hlast⟩ := h
        obtain ⟨tail, htext, hcuts⟩ := ih hloop
        split_ifs at hlast with hblank
        · -- nothing is behind a blank chunk that is dropped
          simp only [Option.pure_def, Option.some.injEq, Prod.mk.injEq] at hlast
          obtain ⟨rfl, rfl⟩ := hlast
          simp only [Bool.and_eq_true, decide_eq_true_eq] at hblank
          rw [List.drop_of_length_le hblank.1.2, hflush hblank.1.1, List.append_nil] at htext
          have hnone : chunks' = [] := by
            cases hcuts with
            | nil => rfl
            | cons hne _ _ => simp [hne] at htext
          rw [hnone]
          exact ⟨remaining ++ ext, rfl, .nil _⟩
        · cases hlast
          refine ⟨tail, ?_, .cons ?_ ?_ hcuts⟩
          · rw [List.flatten_cons, List.append_assoc, htext, ← List.append_assoc,
              List.take_append_drop]
          · simp only [ne_eq, List.take_eq_nil_iff, not_or]
            exact ⟨by omega, hnil⟩
          · rw [htext]
            exact chunkEnd_placed hflush hend

theorem drainPresentableText_cuts (hmax : 1 ≤ maximum) {buffer rest : Text} {chunks : List Text}
    (h : drainPresentableText minimum maximum flush buffer = some (chunks, rest)) (ext : Text)
    (hflush : flush = true → ext = []) :
    ∃ tail, chunks.flatten ++ tail = buffer ++ ext ∧ Cuts maximum chunks tail :=
  drainLoop_cuts hmax hflush h

/-- The chunks of a stream are well placed in whatever follows. -/
theorem feedAll_cuts (hmax : 1 ≤ maximum) (fragments : List Text) {chunks chunks' : List Text}
    {rest rest' : Text} (hcuts : ∀ ext, Cuts maximum chunks (rest ++ ext))
    (h : fragments.foldlM (feed minimum maximum) (chunks, rest) = some (chunks', rest')) :
    ∀ ext, Cuts maximum chunks' (rest' ++ ext) := by
  induction fragments generalizing chunks rest with
  | nil =>
    simp only [List.foldlM_nil, Option.pure_def, Option.some.injEq, Prod.mk.injEq] at h
    obtain ⟨rfl, rfl⟩ := h
    exact hcuts
  | cons fragment fragments ih =>
    rw [List.foldlM_cons, Option.bind_eq_bind, Option.bind_eq_some_iff] at h
    obtain ⟨⟨chunks₁, rest₁⟩, hfeed, hfold⟩ := h
    refine ih (fun ext => ?_) hfold
    simp only [feed, Option.bind_eq_bind, Option.bind_eq_some_iff, Option.pure_def,
      Option.some.injEq, Prod.mk.injEq, Prod.exists] at hfeed
    obtain ⟨cut, left, hdrain, rfl, rfl⟩ := hfeed
    obtain ⟨tail, htext, hcut⟩ := drainPresentableText_cuts hmax hdrain ext
      (fun hflush => absurd hflush Bool.false_ne_true)
    obtain ⟨cut', left', hdrain', ⟨dropped, -, hkept, hall⟩, -⟩ :=
      drainPresentableText_spec minimum hmax false (rest ++ fragment)
    rw [hdrain] at hdrain'
    simp only [Option.some.injEq, Prod.mk.injEq] at hdrain'
    obtain ⟨rfl, rfl⟩ := hdrain'
    rw [hkept rfl, List.append_nil] at hall
    have htail : tail = left ++ ext := by
      rw [← hall, List.append_assoc] at htext
      exact List.append_cancel_left htext
    subst htail
    refine Cuts.append ?_ hcut
    rw [htext, List.append_assoc]
    exact hcuts (fragment ++ ext)

/-- A boundary at `p` parts two adjacent ASCII letters or digits, or the digits of a number from its
dot or comma. -/
def Splits (text : Text) (p : ℕ) : Prop :=
  (∃ a b, text[p - 1]? = some a ∧ text[p]? = some b ∧ a.isAlphanum ∧ b.isAlphanum) ∨
    ∃ (i : ℕ) (a b c : Char), text[i]? = some a ∧ text[i + 1]? = some b ∧ text[i + 2]? = some c ∧
      a.isDigit ∧ (b = '.' ∨ b = ',') ∧ c.isDigit ∧ (p = i + 1 ∨ p = i + 2)

/-- The run of token characters around `p` is longer than `maximum`. -/
def LongRun (maximum : ℕ) (text : Text) (p : ℕ) : Prop :=
  ∃ before left right behind, text = before ++ left ++ right ++ behind ∧
    (before ++ left).length = p ∧ left ≠ [] ∧ right ≠ [] ∧
    (∀ c ∈ left ++ right, speechAsciiTokenCharacter c = true) ∧ maximum < (left ++ right).length

theorem token_of_alnum {c : Char} (h : c.isAlphanum = true) :
    speechAsciiTokenCharacter c = true := by
  simp [speechAsciiTokenCharacter, h]

theorem alnum_of_digit {c : Char} (h : c.isDigit = true) : c.isAlphanum = true := by
  simp [Char.isAlphanum, h]

/-- A cut between an ASCII letter or digit and a token character is a hard one. -/
theorem CutPlaced.hard_of_alnum {chunk next : Text} {a b : Char}
    (h : CutPlaced maximum chunk next) (ha : chunk.getLast? = some a) (halnum : a.isAlphanum = true)
    (hb : next.head? = some b) (htoken : speechAsciiTokenCharacter b = true) :
    chunk.length = maximum ∧ ∀ c ∈ chunk, speechAsciiTokenCharacter c = true := by
  cases h with
  | last => cases hb
  | outside hnext hc =>
    rw [hb] at hnext
    cases hnext
    rw [htoken] at hc
    cases hc
  | soft hsoft _ _ =>
    simp only [List.getLast?_append, List.getLast?_singleton, Option.some_or,
      Option.some.injEq] at ha
    rw [ha, halnum] at hsoft
    cases hsoft
  | hard _ hlength hall => exact ⟨hlength, hall⟩

/-- A chunk as long as the maximum with another token character behind it is in a long run. -/
theorem longRun_of_hard (before : Text) {chunk next : Text} {b : Char} (hne : chunk ≠ [])
    (hlength : chunk.length = maximum)
    (hall : ∀ c ∈ chunk, speechAsciiTokenCharacter c = true) (hb : next.head? = some b)
    (htoken : speechAsciiTokenCharacter b = true) :
    LongRun maximum (before ++ chunk ++ next) (before ++ chunk).length := by
  obtain ⟨behind, rfl⟩ : ∃ behind, next = b :: behind := List.head?_eq_some_iff.mp hb
  refine ⟨before, chunk, [b], behind, by simp, rfl, hne, by simp, ?_, by simp [hlength]⟩
  intro c hc
  rcases List.mem_append.mp hc with hc | hc
  · exact hall c hc
  · rw [List.mem_singleton.mp hc]
    exact htoken

theorem token_of_mark {b : Char} (h : b = '.' ∨ b = ',') : speechAsciiTokenCharacter b = true := by
  rcases h with rfl | rfl <;> decide

/-- A comma that is a chunk of its own behind a digit: the chunk before it was cut hard. -/
theorem Cuts.comma_alone (pre post : List Text) (tail : Text) {d e : Char}
    (h : Cuts maximum (pre ++ [','] :: post) tail) (hd : pre.flatten.getLast? = some d)
    (halnum : d.isAlphanum = true) (he : (post.flatten ++ tail).head? = some e)
    (htoken : speechAsciiTokenCharacter e = true) :
    LongRun maximum (pre.flatten ++ ',' :: (post.flatten ++ tail)) (pre.flatten.length + 1) := by
  have hpre : pre ≠ [] := by
    rintro rfl
    cases hd
  obtain ⟨pre, first, rfl⟩ := (List.eq_nil_or_concat' pre).resolve_left hpre
  obtain ⟨hne, hcut⟩ := Cuts.split pre first ([','] :: post)
    (by simpa using h)
  have hfirst : first.getLast? = some d := by
    obtain ⟨init, a, rfl⟩ := (List.eq_nil_or_concat' first).resolve_left hne
    simpa using hd
  have hhard := hcut.hard_of_alnum (b := ',') hfirst halnum (by simp) (by decide)
  obtain ⟨behind, hbehind⟩ : ∃ behind, post.flatten ++ tail = e :: behind :=
    List.head?_eq_some_iff.mp he
  refine ⟨pre.flatten, first ++ [','], [e], behind, ?_, ?_, by simp, by simp, ?_, ?_⟩
  · simp [hbehind]
  · simp [Nat.add_assoc]
  · intro c hc
    rcases List.mem_append.mp hc with hc | hc
    · rcases List.mem_append.mp hc with hc | hc
      · exact hhard.2 c hc
      · rw [List.mem_singleton.mp hc]
        decide
    · rw [List.mem_singleton.mp hc]
      exact htoken
  · simp only [List.length_append, List.length_singleton, hhard.1]
    omega

theorem Cuts.splits {pre post : List Text} {tail : Text} (h : Cuts maximum (pre ++ post) tail)
    (hpre : pre ≠ []) (hsplits : Splits ((pre ++ post).flatten ++ tail) pre.flatten.length) :
    LongRun maximum ((pre ++ post).flatten ++ tail) pre.flatten.length := by
  obtain ⟨pre, chunk, rfl⟩ := (List.eq_nil_or_concat' pre).resolve_left hpre
  obtain ⟨hne, hcut⟩ := Cuts.split pre chunk post (by simpa using h)
  obtain ⟨init, a, rfl⟩ := (List.eq_nil_or_concat' chunk).resolve_left hne
  generalize hnext : post.flatten ++ tail = next at hcut
  have htext : (pre ++ [init ++ [a]] ++ post).flatten ++ tail =
      (pre.flatten ++ init) ++ a :: next := by
    simp [← hnext]
  have hlength : (pre ++ [init ++ [a]]).flatten.length = (pre.flatten ++ init).length + 1 := by
    simp [Nat.add_assoc]
  have hlong : ∀ b, next.head? = some b → speechAsciiTokenCharacter b = true →
      (init ++ [a]).length = maximum →
      (∀ c ∈ init ++ [a], speechAsciiTokenCharacter c = true) →
      LongRun maximum ((pre.flatten ++ init) ++ a :: next) ((pre.flatten ++ init).length + 1) := by
    intro b hb htoken hmaximum hall
    have hrun := longRun_of_hard pre.flatten hne hmaximum hall hb htoken
    simpa [Nat.add_assoc] using hrun
  rw [htext, hlength] at hsplits ⊢
  generalize hbefore : pre.flatten ++ init = before at hsplits hlong ⊢
  have hlast : (before ++ a :: next)[before.length]? = some a := by simp
  have hhead : (before ++ a :: next)[before.length + 1]? = next.head? := by
    rw [List.getElem?_append_right (by omega), Nat.add_sub_cancel_left, List.getElem?_cons_succ,
      List.head?_eq_getElem?]
  rcases hsplits with ⟨a', b, ha', hb, halnum, hbalnum⟩ |
    ⟨i, d, b, e, hd, hb, he, hddigit, hmark, hedigit, hp | hp⟩
  · -- two letters or digits
    rw [Nat.add_sub_cancel, hlast] at ha'
    obtain rfl := Option.some.inj ha'
    rw [hhead] at hb
    have hhard := hcut.hard_of_alnum (by simp) halnum hb (token_of_alnum hbalnum)
    exact hlong b hb (token_of_alnum hbalnum) hhard.1 hhard.2
  · -- a digit and the mark behind it
    obtain rfl : before.length = i := by omega
    rw [hlast] at hd
    obtain rfl := Option.some.inj hd
    rw [hhead] at hb
    have hhard := hcut.hard_of_alnum (by simp) (alnum_of_digit hddigit) hb (token_of_mark hmark)
    exact hlong b hb (token_of_mark hmark) hhard.1 hhard.2
  · -- the mark and the digit behind it
    have hi : i + 1 = before.length := by omega
    rw [hi, hlast] at hb
    obtain rfl := Option.some.inj hb
    rw [show i + 2 = before.length + 1 by omega, hhead] at he
    have hdlast : before.getLast? = some d := by
      rw [List.getElem?_append_left (by omega)] at hd
      rw [List.getLast?_eq_getElem?, ← hi, Nat.add_sub_cancel]
      exact hd
    have htoken := token_of_alnum (alnum_of_digit hedigit)
    generalize hchunk : init ++ [a] = chunk at hcut hne hlong
    cases hcut with
    | last => cases he
    | outside hnext' hc =>
      rw [he] at hnext'
      cases hnext'
      rw [htoken] at hc
      cases hc
    | @soft init' _ a' halnum hdot hcomma =>
      obtain ⟨rfl, hsame⟩ := List.append_inj' hchunk rfl
      cases hsame
      rcases hmark with rfl | rfl
      · have := hdot rfl
        rw [he] at this
        simp [hedigit] at this
      · by_cases hnil : init = []
        · subst hnil
          rw [List.append_nil] at hbefore
          subst hbefore
          have hcomma := Cuts.comma_alone pre post tail
            (by simpa using h) hdlast (alnum_of_digit hddigit) (by rw [hnext]; exact he) htoken
          rwa [hnext] at hcomma
        · have hinit : init.getLast? = some d := by
            obtain ⟨init, a, rfl⟩ := (List.eq_nil_or_concat' init).resolve_left hnil
            simpa [← hbefore] using hdlast
          have hdigits := (hcomma rfl).resolve_left hnil
          simp [hinit, he, hddigit, hedigit] at hdigits
    | hard _ hmaximum hall => exact hlong e he htoken hmaximum hall

/-- Streamed in any fragments and flushed once, text is not cut inside an ASCII word or number,
unless its token is too long for a chunk. -/
theorem token_safe (hmin : 1 ≤ minimum) (hmax : minimum ≤ maximum) (fragments : List Text) :
    ∃ chunks rest last, feedAll minimum maximum fragments = some (chunks, rest) ∧
      drainPresentableText minimum maximum true rest = some (last, []) ∧
      ∀ pre post, chunks ++ last = pre ++ post → pre ≠ [] →
        Splits fragments.flatten pre.flatten.length →
        LongRun maximum fragments.flatten pre.flatten.length := by
  have hone : 1 ≤ maximum := hmin.trans hmax
  obtain ⟨chunks, rest, hfeed, htext, -, -⟩ :=
    feedAll_spec minimum hone fragments [] [] hone (by simp)
  obtain ⟨last, rest', hdrain, ⟨-, -, -, hflushed⟩⟩ :=
    drainPresentableText_spec minimum hone true rest
  obtain rfl := hflushed rfl
  refine ⟨chunks, rest, last, hfeed, hdrain, fun pre post hall hpre hsplits => ?_⟩
  have hcuts := feedAll_cuts hone fragments (fun ext => .nil _) hfeed
  obtain ⟨tail, hlast, hcut⟩ := drainPresentableText_cuts hone hdrain [] fun _ => rfl
  rw [List.append_nil] at hlast
  have hwhole : Cuts maximum (chunks ++ last) tail := by
    refine Cuts.append ?_ hcut
    rw [hlast]
    simpa using hcuts []
  have hflatten : (pre ++ post).flatten ++ tail = fragments.flatten := by
    rw [← hall, List.flatten_append, List.append_assoc, hlast]
    simpa using htext
  rw [hall] at hwhole
  rw [← hflatten] at hsplits ⊢
  exact hwhole.splits hpre hsplits

theorem token_safe_fraction : ∃ chunks rest last,
    feedAll 1 4 ["It is 26.".toList, "25 now".toList] = some (chunks, rest) ∧
      drainPresentableText 1 4 true rest = some (last, []) ∧
      ∀ pre post, chunks ++ last = pre ++ post → pre ≠ [] →
        Splits ["It is 26.".toList, "25 now".toList].flatten pre.flatten.length →
        LongRun 4 ["It is 26.".toList, "25 now".toList].flatten pre.flatten.length :=
  token_safe (by decide) (by decide) _

end Chunks

end Muxiva.Speech
