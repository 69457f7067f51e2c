import Muxiva.Speech.Letters
import Muxiva.Speech.Origin

/-! Code fences over chunks. The code counts runs of backticks as one scan of the text does, except
that a chunk boundary ends a run that is three long already. -/
set_option linter.all false
namespace Muxiva.Speech

open Letter

/-- Fence runs so far, and the length of the run of backticks that ends here. -/
structure Scan where
  count : ℕ
  run : ℕ

/-- A run counts when it is three long. -/
def Scan.step (s : Scan) (c : Char) : Scan :=
  if c = '`' then ⟨if s.run + 1 = 3 then s.count + 1 else s.count, s.run + 1⟩ else ⟨s.count, 0⟩

def Scan.over (s : Scan) (text : Text) : Scan := text.foldl Scan.step s

def Scan.fenced (s : Scan) : Bool := s.count % 2 = 1

/-- The number of maximal runs of at least three backticks. -/
def fences (text : Text) : ℕ := (Scan.over ⟨0, 0⟩ text).count

/-- The backticks a text starts with. -/
def leading (text : Text) : ℕ := (text.takeWhile (isChar '`')).length

/-- Letters marked where an odd number of fence runs is before them. -/
def markFenced (s : Scan) : Text → List (Char × Bool)
  | [] => []
  | c :: rest => (c, s.fenced) :: markFenced (s.step c) rest

def markChunks (s : Scan) : List Text → List (List (Char × Bool))
  | [] => []
  | chunk :: chunks => markFenced s chunk :: markChunks (s.over chunk) chunks

/-- After each chunk the flag is the parity of the fence runs in the text so far, and nothing from
between an odd fence run and the next one is spoken. -/
structure FencesTracked (config : FormatterConfig) (chunks : List Text) : Prop where
  tracked : ∀ k, (emitChunks config Format.fresh (chunks.take k)).1.inFencedCode =
    decide (fences (chunks.take k).flatten % 2 = 1)
  unspoken : ∀ spoken ∈ (emitChunks config Format.fresh (markChunks ⟨0, 0⟩ chunks)).2,
    ∀ x ∈ spoken, x.2 = false

/-- A boundary with three backticks on each side. -/
def CutsFence (chunks : List Text) : Prop :=
  ∃ before behind, chunks = before ++ behind ∧ ['`', '`', '`'] <:+ before.flatten ∧
    ['`', '`', '`'] <+: behind.flatten

namespace Scan

@[simp] theorem over_nil (s : Scan) : s.over [] = s := rfl

@[simp] theorem over_cons (s : Scan) (c : Char) (text : Text) :
    s.over (c :: text) = (s.step c).over text := rfl

theorem over_append (s : Scan) (a b : Text) : s.over (a ++ b) = (s.over a).over b :=
  List.foldl_append

theorem step_backtick (s : Scan) :
    s.step '`' = ⟨if s.run + 1 = 3 then s.count + 1 else s.count, s.run + 1⟩ := rfl

theorem step_other (s : Scan) {c : Char} (h : c ≠ '`') : s.step c = ⟨s.count, 0⟩ := if_neg h

theorem over_backticks (s : Scan) (text : Text) (h : ∀ c ∈ text, c = '`') :
    s.over text = ⟨if s.run < 3 ∧ 3 ≤ s.run + text.length then s.count + 1 else s.count,
      s.run + text.length⟩ := by
  induction text generalizing s with
  | nil =>
    have hfew : ¬(s.run < 3 ∧ 3 ≤ s.run + 0) := by omega
    rw [over_nil, List.length_nil, if_neg hfew]
    rfl
  | cons c rest ih =>
    obtain rfl := h c (by simp)
    rw [over_cons, ih _ fun d hd => h d (by simp [hd]), step_backtick, List.length_cons]
    congr 1
    · dsimp only
      split_ifs <;> omega
    · dsimp only
      omega

theorem over_others (s : Scan) {text : Text} (h : ∀ c ∈ text, c ≠ '`') :
    s.over text = if text = [] then s else ⟨s.count, 0⟩ := by
  induction text generalizing s with
  | nil => rfl
  | cons c rest ih =>
    rw [over_cons, ih _ fun d hd => h d (by simp [hd]), step_other s (h c (by simp))]
    simp

theorem over_add (d : ℕ) (s : Scan) (text : Text) :
    (⟨d + s.count, s.run⟩ : Scan).over text = ⟨d + (s.over text).count, (s.over text).run⟩ := by
  induction text generalizing s with
  | nil => rfl
  | cons c rest ih =>
    have hstep : (⟨d + s.count, s.run⟩ : Scan).step c =
        ⟨d + (s.step c).count, (s.step c).run⟩ := by
      unfold step
      split_ifs <;> rfl
    rw [over_cons, hstep, ih, over_cons]

theorem fenced_succ (count run : ℕ) :
    (⟨count + 1, run⟩ : Scan).fenced = !(⟨count, run⟩ : Scan).fenced := by
  have hparity : (count + 1) % 2 = 1 ↔ ¬count % 2 = 1 := by omega
  simp only [fenced, hparity, decide_not]

/-- The run at the end is the backticks the text ends with. -/
theorem run_over (s : Scan) (hrun : s.run = 0) (text : Text) :
    (s.over text).run = trailingBackticks text := by
  induction text using List.reverseRecOn with
  | nil => exact hrun
  | append_singleton text c ih =>
    rw [over_append, over_cons, over_nil, trailingBackticks, List.reverse_append]
    by_cases hc : c = '`'
    · subst hc
      rw [step_backtick, ih]
      rfl
    · have hno : ¬isChar '`' c = true := by simpa [isChar] using hc
      rw [step_other _ hc, List.reverse_singleton, List.singleton_append,
        List.takeWhile_cons_of_neg hno]
      rfl

end Scan

/-- Fence runs are counted run by run. -/
theorem fences_run {before behind : Text} (n : ℕ) (hbefore : trailingBackticks before = 0)
    (hbehind : leading behind = 0) :
    fences (before ++ List.replicate n '`' ++ behind) =
      fences before + (if 3 ≤ n then 1 else 0) + fences behind := by
  have hrun : (Scan.over ⟨0, 0⟩ before).run = 0 := (Scan.run_over _ rfl _).trans hbefore
  have hcount (s : Scan) : (s.over behind).count = s.count + fences behind := by
    cases behind with
    | nil => rfl
    | cons c rest =>
      have hc : c ≠ '`' := by
        rintro rfl
        cases hbehind
      have hadd := congrArg Scan.count (Scan.over_add s.count ⟨0, 0⟩ rest)
      rw [fences, Scan.over_cons, Scan.over_cons, Scan.step_other s hc, Scan.step_other _ hc]
      exact hadd
  have hticks := Scan.over_backticks (Scan.over ⟨0, 0⟩ before) (List.replicate n '`')
    fun c hc => List.eq_of_mem_replicate hc
  rw [hrun, List.length_replicate] at hticks
  have hone : fences before = (Scan.over ⟨0, 0⟩ before).count := rfl
  rw [fences, Scan.over_append, hcount, Scan.over_append, hticks, hone]
  dsimp only
  split_ifs <;> omega

example : fences "``` `` ````".toList = 2 := by decide

section Chunk

variable {α : Type} [Letter α]

/-- The letters read outside of fenced code, backticks apart. -/
def unfenced (c : Scan) : List α → List α
  | [] => []
  | x :: rest =>
    if isChar '`' x || c.fenced then unfenced (c.step (char x)) rest
    else x :: unfenced (c.step (char x)) rest

theorem unfenced_append (c : Scan) (a b : List α) :
    unfenced c (a ++ b) = unfenced c a ++ unfenced (c.over (chars a)) b := by
  induction a generalizing c with
  | nil => rfl
  | cons x rest ih =>
    simp only [List.cons_append, unfenced, chars_cons, Scan.over_cons]
    split_ifs
    · exact ih _
    · rw [ih, List.cons_append]

theorem unfenced_others {c : Scan} (hc : c.fenced = false) {text : List α}
    (h : ∀ x ∈ text, char x ≠ '`') : unfenced c text = text := by
  induction text generalizing c with
  | nil => rfl
  | cons x rest ih =>
    have hx := h x (by simp)
    have hstep : (c.step (char x)).fenced = false := by rwa [Scan.step_other c hx]
    have hchar : ¬(isChar '`' x || c.fenced) = true := by simp [isChar, hx, hc]
    rw [unfenced, if_neg hchar, ih hstep fun y hy => h y (by simp [hy])]

variable {P : α → Prop}

/-- The state of the code and the scan that stands for it. -/
structure Follows (s : Format α) (c : Scan) : Prop where
  flag : s.inFencedCode = c.fenced
  pending : s.pendingBackticks = c.run
  few : c.run < 3

/-- The scan as the code goes on with it at the start of a chunk. -/
def Scan.cut (s : Scan) : Scan := if 3 ≤ s.run then ⟨s.count, 0⟩ else s

theorem leading_eq_zero {text : List α} (h : ∀ x ∈ text.head?, isChar '`' x = false) :
    leading (chars text) = 0 := by
  cases text with
  | nil => rfl
  | cons x rest =>
    have hx : isChar '`' x = false := h x rfl
    have hno : ¬isChar '`' (char x) = true := by simpa [isChar] using hx
    rw [chars_cons, leading, List.takeWhile_cons_of_neg hno]
    rfl

theorem Scan.fenced_cut (s : Scan) : s.cut.fenced = s.fenced := by
  unfold Scan.cut
  split_ifs <;> rfl

theorem Scan.count_cut (s : Scan) : s.cut.count = s.count := by
  unfold Scan.cut
  split_ifs <;> rfl

theorem Scan.run_cut (s : Scan) : s.cut.run = if s.run < 3 then s.run else 0 := by
  unfold Scan.cut
  split_ifs with hlong hshort
  · omega
  · rfl
  · rfl
  · omega

theorem Scan.cut_few (s : Scan) : s.cut.run < 3 := by
  rw [Scan.run_cut]
  split_ifs <;> omega

theorem formatSegments_spec (hP : ∀ c, P (inserted c)) (config : FormatterConfig) {fuel : ℕ}
    (state : Format α × List α) {rest : List α} (hfuel : rest.length ≤ fuel) (c : Scan)
    (hstart : c.run = 0 ∨ leading (chars rest) = 0) (hflag : state.1.inFencedCode = c.fenced)
    (houtput : ∀ x ∈ state.2, P x) (hrest : ∀ x ∈ unfenced c rest, P x) :
    (formatSegments config fuel state rest).1.inFencedCode = (c.over (chars rest)).fenced ∧
      (formatSegments config fuel state rest).1.pendingBackticks = state.1.pendingBackticks ∧
      ∀ x ∈ (formatSegments config fuel state rest).2, P x := by
  induction fuel generalizing state rest c with
  | zero =>
    obtain rfl : rest = [] := List.length_eq_zero_iff.mp (by omega)
    exact ⟨hflag, rfl, houtput⟩
  | succ fuel ih =>
    unfold formatSegments
    by_cases hempty : rest.isEmpty = true
    · obtain rfl := List.isEmpty_iff.mp hempty
      exact ⟨hflag, rfl, houtput⟩
    rw [if_neg hempty]
    obtain ⟨text, marked, hsplit, htake, hdrop, htext, hmarked⟩ := split_while (!isChar '`' ·) rest
    rw [htake, hdrop]
    dsimp only
    have hplain : ∀ x ∈ text, char x ≠ '`' := by simpa [isChar] using htext
    have hover : c.over (chars text) = if chars text = [] then c else ⟨c.count, 0⟩ := by
      refine Scan.over_others c fun d hd => ?_
      obtain ⟨x, hx, rfl⟩ := List.mem_map.mp hd
      exact hplain x hx
    have hsame : (c.over (chars text)).fenced = c.fenced := by
      rw [hover]
      split_ifs <;> rfl
    rw [hsplit, unfenced_append] at hrest
    -- the text before the backticks is formatted unless it is fenced
    have hbefore : (if state.1.inFencedCode = true then state
          else appendMarkdownText config state text).1.inFencedCode = c.fenced ∧
        (if state.1.inFencedCode = true then state
          else appendMarkdownText config state text).1.pendingBackticks = state.1.pendingBackticks ∧
        ∀ x ∈ (if state.1.inFencedCode = true then state
          else appendMarkdownText config state text).2, P x := by
      split_ifs with hfenced
      · exact ⟨hflag, rfl, houtput⟩
      · have hkept := appendMarkdownText_sameFence config state text
        refine ⟨hkept.inFencedCode.trans hflag, hkept.pendingBackticks, ?_⟩
        refine all_appendMarkdownText hP config houtput fun x hx => hrest x ?_
        have hopen : c.fenced = false := by rw [← hflag]; simpa using hfenced
        rw [unfenced_others hopen hplain]
        exact List.mem_append_left _ hx
    generalize (if state.1.inFencedCode = true then state
      else appendMarkdownText config state text) = state' at hbefore ⊢
    obtain ⟨hflag', hpending', houtput'⟩ := hbefore
    by_cases hend : marked.isEmpty = true
    · obtain rfl := List.isEmpty_iff.mp hend
      rw [if_pos hend, hsplit, List.append_nil, hsame]
      exact ⟨hflag', hpending', houtput'⟩
    rw [if_neg hend]
    obtain ⟨ticks, behind, hticks, hrun, -, htick, hbehind⟩ := split_while (isChar '`') marked
    have hskip : marked.drop ticks.length = behind := by rw [hticks, List.drop_left]
    rw [hrun, hskip]
    have hfirst : ∃ x rest', marked = x :: rest' ∧ char x = '`' := by
      cases marked with
      | nil => simp at hend
      | cons x rest' => exact ⟨x, rest', rfl, by simpa [isChar] using hmarked x rfl⟩
    have hlong : 1 ≤ ticks.length := by
      obtain ⟨x, rest', rfl, hx⟩ := hfirst
      have hpos : isChar '`' x = true := by simpa [isChar] using hx
      rw [List.takeWhile_cons_of_pos hpos] at hrun
      rw [← hrun, List.length_cons]
      omega
    have hzero : c.over (chars text) = ⟨c.count, 0⟩ := by
      rw [hover]
      split_ifs with hnil
      · obtain rfl : text = [] := List.map_eq_nil_iff.mp hnil
        rcases hstart with hrun0 | hlead
        · rw [← hrun0]
        · obtain ⟨x, rest', rfl, hx⟩ := hfirst
          rw [hsplit, List.nil_append, chars_cons, hx] at hlead
          cases hlead
      · rfl
    have hcount := Scan.over_backticks (c.over (chars text)) (chars ticks) fun d hd => by
      obtain ⟨x, hx, rfl⟩ := List.mem_map.mp hd
      simpa [isChar] using htick x hx
    have hnext : c.over (chars rest) =
        ((c.over (chars text)).over (chars ticks)).over (chars behind) := by
      rw [hsplit, hticks, chars_append, chars_append, Scan.over_append, Scan.over_append]
    rw [hnext]
    have hlength : rest.length = text.length + ticks.length + behind.length := by
      rw [hsplit, hticks, List.length_append, List.length_append, Nat.add_assoc]
    have htoggled : (if 3 ≤ ticks.length then toggleFence config state' else state').1.inFencedCode =
          ((c.over (chars text)).over (chars ticks)).fenced ∧
        (if 3 ≤ ticks.length then toggleFence config state' else state').1.pendingBackticks =
          state.1.pendingBackticks ∧
        ∀ x ∈ (if 3 ≤ ticks.length then toggleFence config state' else state').2, P x := by
      rw [hcount, hzero, chars_length]
      dsimp only
      split_ifs with hfence htwice
      · refine ⟨?_, hpending', all_toggleFence hP config houtput'⟩
        rw [Scan.fenced_succ]
        exact congrArg not hflag'
      · omega
      · omega
      · exact ⟨hflag', hpending', houtput'⟩
    have hbehind' : ∀ x ∈ unfenced ((c.over (chars text)).over (chars ticks)) behind, P x := by
      intro x hx
      refine hrest x (List.mem_append_right _ ?_)
      rw [hticks, unfenced_append]
      exact List.mem_append_right _ hx
    obtain ⟨hflag₂, hpending₂, houtput₂⟩ := ih _ (by omega) _ (Or.inr (leading_eq_zero hbehind)) htoggled.1
      htoggled.2.2 hbehind'
    exact ⟨hflag₂, hpending₂.trans htoggled.2.1, houtput₂⟩

theorem unfenced_backticks (c : Scan) {ticks : List α} (h : ∀ x ∈ ticks, char x = '`')
    (text : List α) : unfenced c (ticks ++ text) = unfenced (c.over (chars ticks)) text := by
  induction ticks generalizing c with
  | nil => rfl
  | cons x rest ih =>
    have hx : (isChar '`' x || c.fenced) = true := by simp [isChar, h x (by simp)]
    rw [List.cons_append, unfenced, if_pos hx, ih _ fun y hy => h y (by simp [hy])]
    rfl

/-- A text without the backticks it ends with. -/
theorem split_trailing (text : List α) :
    ∃ front ticks, text = front ++ ticks ∧ ticks.length = trailingBackticks text ∧
      text.take (text.length - trailingBackticks text) = front ∧ ∀ x ∈ ticks, char x = '`' := by
  obtain ⟨ticks, front, htext, htake, -, hticks, -⟩ := split_while (isChar '`') text.reverse
  have hlength : trailingBackticks text = ticks.length := by rw [trailingBackticks, htake]
  have hsplit : text = front.reverse ++ ticks.reverse := by
    rw [← List.reverse_append, ← htext, List.reverse_reverse]
  refine ⟨front.reverse, ticks.reverse, hsplit, by rw [hlength, List.length_reverse], ?_, ?_⟩
  · rw [hlength]
    conv_lhs => rw [hsplit]
    apply List.take_left'
    simp only [List.length_append, List.length_reverse]
    omega
  · intro x hx
    simpa [isChar] using hticks x (List.mem_reverse.mp hx)

/-- One chunk: the flag and the pending backticks go on as the scan does. -/
theorem formatChunk_spec (hP : ∀ c, P (inserted c)) {config : FormatterConfig}
    (hterms : config.suppressedParentheticalTerms = []) {s : Format α} {c : Scan}
    (hs : Follows s c) {chunk : List α} (hchunk : ∀ x ∈ unfenced c chunk, P x) :
    Follows (formatChunk config s chunk).1 (c.over (chars chunk)).cut ∧
      ∀ x ∈ (formatChunk config s chunk).2, P x := by
  unfold formatChunk
  rw [filterParenthetical_nil hterms]
  dsimp only
  have hpending : ∀ x ∈ List.replicate s.pendingBackticks (inserted '`' : α), char x = '`' := by
    intro x hx
    rw [List.eq_of_mem_replicate hx, char_inserted]
  -- the pending backticks bring a scan with an empty run to where the chunk starts
  have hresume : (⟨c.count, 0⟩ : Scan).over
      (chars (List.replicate s.pendingBackticks (inserted '`' : α))) = c := by
    rw [Scan.over_backticks _ _ fun d hd => ?_]
    · have hfew : ¬((⟨c.count, 0⟩ : Scan).run < 3 ∧ 3 ≤ (⟨c.count, 0⟩ : Scan).run + c.run) := by
        have := hs.few
        dsimp only
        omega
      rw [chars_length, List.length_replicate, hs.pending, if_neg hfew]
      dsimp only
      rw [Nat.zero_add]
    · obtain ⟨x, hx, rfl⟩ := List.mem_map.mp hd
      exact hpending x hx
  have hover : (⟨c.count, 0⟩ : Scan).over
      (chars (List.replicate s.pendingBackticks (inserted '`') ++ chunk)) =
        c.over (chars chunk) := by
    rw [chars_append, Scan.over_append, hresume]
  have hletters := unfenced_backticks ⟨c.count, 0⟩ hpending chunk
  rw [hresume] at hletters
  generalize List.replicate s.pendingBackticks (inserted '`') ++ chunk = combined at hover hletters ⊢
  have hrun : (c.over (chars chunk)).run = trailingBackticks combined := by
    rw [← hover, Scan.run_over _ rfl, chars_trailingBackticks]
  rw [← hletters] at hchunk
  -- what is left to format brings the scan to the same count
  obtain ⟨text, htake, hcount, htext⟩ : ∃ text, combined.take (combined.length -
        (if trailingBackticks combined < 3 then trailingBackticks combined else 0)) = text ∧
      ((⟨c.count, 0⟩ : Scan).over (chars text)).fenced = (c.over (chars chunk)).fenced ∧
      ∀ x ∈ unfenced ⟨c.count, 0⟩ text, P x := by
    refine ⟨_, rfl, ?_⟩
    split_ifs with htrailing
    · obtain ⟨front, ticks, hsplit, hlength, hfront, hticks⟩ := split_trailing combined
      rw [hfront]
      rw [hsplit, unfenced_append] at hchunk
      refine ⟨?_, fun x hx => hchunk x (List.mem_append_left _ hx)⟩
      have hback := Scan.over_backticks ((⟨c.count, 0⟩ : Scan).over (chars front))
        (chars ticks) fun d hd => by
          obtain ⟨x, hx, rfl⟩ := List.mem_map.mp hd
          exact hticks x hx
      rw [← Scan.over_append, ← chars_append, ← hsplit, hover, chars_length] at hback
      have hrun' := congrArg Scan.run hback
      rw [hrun] at hrun'
      have hfew : ¬(((⟨c.count, 0⟩ : Scan).over (chars front)).run < 3 ∧
          3 ≤ ((⟨c.count, 0⟩ : Scan).over (chars front)).run + ticks.length) := by
        dsimp only at hrun'
        omega
      rw [hback, if_neg hfew]
      rfl
    · rw [Nat.sub_zero, List.take_length]
      exact ⟨by rw [hover], hchunk⟩
  rw [htake]
  obtain ⟨hflag, hpend, houtput⟩ := formatSegments_spec hP config
    ({ s with pendingBackticks :=
      if trailingBackticks combined < 3 then trailingBackticks combined else 0 }, [])
    (le_refl text.length) ⟨c.count, 0⟩ (Or.inl rfl) hs.flag (by simp) htext
  refine ⟨⟨?_, ?_, ?_⟩, all_collapseSpokenWhitespace hP houtput⟩
  · rw [hflag, hcount, Scan.fenced_cut]
  · rw [hpend, Scan.run_cut, hrun]
  · exact Scan.cut_few _

/-- The scan as the code goes on with it over chunks. -/
def Scan.overChunks (c : Scan) (chunks : List Text) : Scan :=
  chunks.foldl (fun s chunk => (s.over chunk).cut) c

theorem Scan.overChunks_cons (c : Scan) (chunk : Text) (chunks : List Text) :
    c.overChunks (chunk :: chunks) = (c.over chunk).cut.overChunks chunks := rfl

theorem emitChunks_follows {config : FormatterConfig}
    (hterms : config.suppressedParentheticalTerms = []) {s : Format α} {c : Scan}
    (hs : Follows s c) (chunks : List (List α)) :
    Follows (emitChunks config s chunks).1 (c.overChunks (chunks.map chars)) := by
  induction chunks generalizing s c with
  | nil => exact hs
  | cons chunk chunks ih =>
    have hchunk := formatChunk_spec (P := fun _ => True) (fun _ => trivial) hterms hs
      (fun x (_ : x ∈ unfenced c chunk) => trivial)
    rw [emitChunks_cons, List.map_cons, Scan.overChunks_cons]
    exact ih hchunk.1

end Chunk

/-- The two scans over a text: they are alike, or a boundary has ended a fence run for the code and
the rest of that run is too short to be one. -/
def Agree (c s : Scan) (text : Text) : Prop :=
  c.count = s.count ∧ (c.run = s.run ∨ 3 ≤ s.run ∧ c.run + leading text < 3)

/-- No boundary behind the scan has three backticks on each side. -/
def Kept (s : Scan) : List Text → Prop
  | [] => True
  | chunk :: chunks =>
    (3 ≤ (s.over chunk).run → leading chunks.flatten < 3) ∧ Kept (s.over chunk) chunks

theorem leading_backtick (text : Text) : leading ('`' :: text) = leading text + 1 := rfl

theorem leading_other {c : Char} (h : c ≠ '`') (text : Text) : leading (c :: text) = 0 := by
  have hno : ¬isChar '`' c = true := by simpa [isChar] using h
  rw [leading, List.takeWhile_cons_of_neg hno]
  rfl

theorem Agree.step {c s : Scan} {x : Char} {rest : Text} (h : Agree c s (x :: rest)) :
    Agree (c.step x) (s.step x) rest := by
  obtain ⟨hcount, hrun⟩ := h
  by_cases hx : x = '`'
  · subst hx
    rw [leading_backtick] at hrun
    rw [Scan.step_backtick, Scan.step_backtick]
    rcases hrun with hrun | ⟨hlong, hfew⟩
    · rw [hcount, hrun]
      exact ⟨rfl, Or.inl rfl⟩
    · have hc : ¬c.run + 1 = 3 := by omega
      have hs : ¬s.run + 1 = 3 := by omega
      rw [if_neg hc, if_neg hs]
      refine ⟨hcount, Or.inr ⟨?_, ?_⟩⟩ <;> (dsimp only; omega)
  · rw [Scan.step_other c hx, Scan.step_other s hx]
    exact ⟨hcount, Or.inl rfl⟩

theorem Agree.over {c s : Scan} {text rest : Text} (h : Agree c s (text ++ rest)) :
    Agree (c.over text) (s.over text) rest := by
  induction text generalizing c s with
  | nil => exact h
  | cons x text ih => exact ih h.step

theorem Agree.fenced {c s : Scan} {text : Text} (h : Agree c s text) : c.fenced = s.fenced := by
  rw [Scan.fenced, Scan.fenced, h.1]

theorem Agree.cut {c s : Scan} {text : Text} (h : Agree c s text)
    (hkept : 3 ≤ s.run → leading text < 3) : Agree c.cut s text := by
  obtain ⟨hcount, hrun⟩ := h
  unfold Scan.cut
  split_ifs with hlong
  · refine ⟨hcount, Or.inr ?_⟩
    dsimp only
    omega
  · exact ⟨hcount, hrun⟩

/-- Where the scans agree, what the code reads outside of fenced code is not marked. -/
theorem Agree.unmarked {c s : Scan} {text rest : Text} (h : Agree c s (text ++ rest)) :
    ∀ x ∈ unfenced c (markFenced s text), x.2 = false := by
  induction text generalizing c s with
  | nil => exact fun x hx => nomatch hx
  | cons d text ih =>
    intro x hx
    have hrest := ih h.step
    unfold markFenced unfenced at hx
    split_ifs at hx with hcond
    · exact hrest x hx
    · rcases List.mem_cons.mp hx with rfl | hx
      · simp only [Bool.or_eq_true, not_or, Bool.not_eq_true] at hcond
        rw [← h.fenced]
        exact hcond.2
      · exact hrest x hx

theorem chars_markFenced (s : Scan) (text : Text) : chars (markFenced s text) = text := by
  induction text generalizing s with
  | nil => rfl
  | cons c rest ih =>
    rw [markFenced, chars_cons, ih]
    rfl

theorem chars_markChunks (s : Scan) (chunks : List Text) :
    (markChunks s chunks).map chars = chunks := by
  induction chunks generalizing s with
  | nil => rfl
  | cons chunk chunks ih => rw [markChunks, List.map_cons, ih, chars_markFenced]

/-- Nothing marked is spoken while no boundary cuts a fence run. -/
theorem emitChunks_unspoken {config : FormatterConfig}
    (hterms : config.suppressedParentheticalTerms = []) {s : Format (Char × Bool)} {c t : Scan}
    (hs : Follows s c) {chunks : List Text} (hagree : Agree c t chunks.flatten)
    (hkept : Kept t chunks) :
    ∀ spoken ∈ (emitChunks config s (markChunks t chunks)).2, ∀ x ∈ spoken, x.2 = false := by
  induction chunks generalizing s c t with
  | nil => exact fun spoken h => nomatch h
  | cons chunk chunks ih =>
    rw [List.flatten_cons] at hagree
    obtain ⟨hnext, hletters⟩ := formatChunk_spec (P := fun x : Char × Bool => x.2 = false)
      (fun _ => rfl) hterms hs hagree.unmarked
    rw [chars_markFenced] at hnext
    have hrest := ih hnext (hagree.over.cut hkept.1) hkept.2
    intro spoken hspoken
    rcases mem_emitChunks_cons hspoken with heq | hspoken
    · rw [heq]
      exact hletters
    · exact hrest spoken hspoken

theorem Agree.overChunks {c s : Scan} {chunks : List Text} (h : Agree c s chunks.flatten)
    (hkept : Kept s chunks) (k : ℕ) :
    (c.overChunks (chunks.take k)).fenced = (s.over (chunks.take k).flatten).fenced := by
  induction chunks generalizing c s k with
  | nil => simpa [Scan.overChunks] using h.fenced
  | cons chunk chunks ih =>
    rw [List.flatten_cons] at h
    cases k with
    | zero => exact h.fenced
    | succ k =>
      rw [List.take_succ_cons, List.flatten_cons, Scan.over_append]
      exact ih (h.over.cut hkept.1) hkept.2 k

/-- Two scans of which one is ahead stay so while their runs are counted already or alike. -/
theorem Scan.over_ahead {c s : Scan} (hcount : c.count = s.count + 1)
    (hrun : c.run = s.run ∨ 3 ≤ c.run ∧ 3 ≤ s.run) (text : Text) :
    (c.over text).count = (s.over text).count + 1 := by
  induction text generalizing c s with
  | nil => exact hcount
  | cons x rest ih =>
    rw [Scan.over_cons, Scan.over_cons]
    by_cases hx : x = '`'
    · subst hx
      rw [Scan.step_backtick, Scan.step_backtick]
      refine ih ?_ ?_
      · dsimp only
        split_ifs <;> omega
      · dsimp only
        omega
    · rw [Scan.step_other c hx, Scan.step_other s hx]
      exact ih hcount (Or.inl rfl)

/-- A run that goes on for three backticks behind a boundary counts twice for the code. -/
theorem Scan.over_diverges {c s : Scan} (hcount : c.count = s.count) (hc : c.run < 3)
    (hs : 3 ≤ s.run) {text : Text} (hlead : 3 ≤ c.run + leading text) :
    (c.over text).count = (s.over text).count + 1 := by
  induction text generalizing c s with
  | nil =>
    have hnone : leading ([] : Text) = 0 := rfl
    omega
  | cons x rest ih =>
    rw [Scan.over_cons, Scan.over_cons]
    by_cases hx : x = '`'
    · subst hx
      rw [leading_backtick] at hlead
      rw [Scan.step_backtick, Scan.step_backtick, if_neg (show ¬s.run + 1 = 3 by omega)]
      by_cases hthree : c.run + 1 = 3
      · rw [if_pos hthree]
        refine Scan.over_ahead ?_ (Or.inr ⟨?_, ?_⟩) rest <;> (dsimp only; omega)
      · rw [if_neg hthree]
        refine ih hcount ?_ ?_ ?_ <;> (dsimp only; omega)
    · rw [leading_other hx] at hlead
      omega

theorem leading_append (a b : Text) :
    leading (a ++ b) = if leading a = a.length then a.length + leading b else leading a := by
  induction a with
  | nil => simp [leading]
  | cons c rest ih =>
    by_cases hc : c = '`'
    · subst hc
      rw [List.cons_append, leading_backtick, leading_backtick, ih, List.length_cons]
      split_ifs <;> omega
    · rw [List.cons_append, leading_other hc, leading_other hc, List.length_cons]
      rw [if_neg (by omega)]

theorem run_backticks (s : Scan) {text : Text} (h : leading text = text.length) :
    (s.over text).run = s.run + text.length := by
  have hall : ∀ c ∈ text, c = '`' := by
    have hwhole : text.takeWhile (isChar '`') = text :=
      (List.takeWhile_prefix _).eq_of_length h
    intro c hc
    rw [← hwhole] at hc
    simpa [isChar] using List.mem_takeWhile_imp hc
  rw [Scan.over_backticks s text hall]

theorem kept_of_tracked {c s : Scan} {chunks : List Text} (hcount : c.count = s.count)
    (hfew : c.run < 3) (hrun : c.run = s.run ∨ 3 ≤ s.run)
    (htracked : ∀ k, (c.overChunks (chunks.take k)).fenced =
      (s.over (chunks.take k).flatten).fenced) :
    (c.run = s.run ∨ c.run + leading chunks.flatten < 3) ∧ Kept s chunks := by
  induction chunks generalizing c s with
  | nil => exact ⟨Or.inr hfew, trivial⟩
  | cons chunk chunks ih =>
    have hone := htracked 1
    rw [List.take_succ_cons, List.take_zero, Scan.overChunks_cons, List.flatten_cons,
      List.flatten_nil, List.append_nil] at hone
    have hflag : (c.over chunk).fenced = (s.over chunk).fenced := by
      rw [← hone]
      exact (Scan.fenced_cut _).symm
    have hagree : Agree c s (chunk ++ []) := by
      refine ⟨hcount, ?_⟩
      rw [List.append_nil]
      by_contra hneither
      have hahead := Scan.over_diverges hcount hfew (by omega)
        (show 3 ≤ c.run + leading chunk by omega)
      rw [Scan.fenced, Scan.fenced, hahead] at hflag
      have := decide_eq_decide.mp hflag
      omega
    obtain ⟨hcount', hrun'⟩ := hagree.over
    have hnil : leading ([] : Text) = 0 := rfl
    have hcut := Scan.run_cut (c.over chunk)
    have hrest (k : ℕ) : ((c.over chunk).cut.overChunks (chunks.take k)).fenced =
        ((s.over chunk).over (chunks.take k).flatten).fenced := by
      have hk := htracked (k + 1)
      rwa [List.take_succ_cons, Scan.overChunks_cons, List.flatten_cons, Scan.over_append] at hk
    have hbehind : (c.over chunk).cut.run = (s.over chunk).run ∨ 3 ≤ (s.over chunk).run := by
      split_ifs at hcut <;> omega
    obtain ⟨hlead, hkept⟩ :=
      ih ((Scan.count_cut _).trans hcount') (Scan.cut_few _) hbehind hrest
    have hfew' := Scan.cut_few (c.over chunk)
    refine ⟨?_, by omega, hkept⟩
    rw [List.flatten_cons, leading_append]
    obtain ⟨-, hstart⟩ := hagree
    rw [List.append_nil] at hstart
    split_ifs with hwhole
    · -- the chunk is all backticks, so the boundary behind it is in the same run
      have hcrun := run_backticks c hwhole
      have hsrun := run_backticks s hwhole
      split_ifs at hcut <;> omega
    · omega

theorem le_leading (n : ℕ) (text : Text) :
    n ≤ leading text ↔ List.replicate n '`' <+: text := by
  induction n generalizing text with
  | zero => simp
  | succ n ih =>
    cases text with
    | nil => simp [leading, List.replicate_succ]
    | cons c rest =>
      rw [List.replicate_succ, List.cons_prefix_cons, ← ih rest]
      by_cases hc : c = '`'
      · subst hc
        rw [leading_backtick]
        simp
      · rw [leading_other hc]
        constructor
        · omega
        · rintro ⟨heq, -⟩
          exact absurd heq.symm hc

theorem le_run (text : Text) :
    3 ≤ (Scan.over ⟨0, 0⟩ text).run ↔ ['`', '`', '`'] <:+ text := by
  have hrun : (Scan.over ⟨0, 0⟩ text).run = leading text.reverse := Scan.run_over _ rfl text
  rw [hrun, le_leading, ← List.reverse_suffix, List.reverse_reverse]
  rfl

theorem kept_iff (s : Scan) (chunks : List Text) :
    Kept s chunks ↔ ∀ before behind, chunks = before ++ behind → before ≠ [] →
      3 ≤ (s.over before.flatten).run → leading behind.flatten < 3 := by
  induction chunks generalizing s with
  | nil =>
    refine ⟨fun _ before behind hsplit hne => ?_, fun _ => trivial⟩
    exact absurd (List.append_eq_nil_iff.mp hsplit.symm).1 hne
  | cons chunk chunks ih =>
    constructor
    · rintro ⟨hone, hrest⟩ before behind hsplit hne hrun
      match before with
      | [] => exact absurd rfl hne
      | [a] =>
        obtain ⟨rfl, rfl⟩ := List.cons.inj hsplit
        rw [List.flatten_cons, List.flatten_nil, List.append_nil] at hrun
        exact hone hrun
      | a :: b :: before =>
        obtain ⟨rfl, hbehind⟩ := List.cons.inj hsplit
        rw [List.flatten_cons, Scan.over_append] at hrun
        exact (ih _).mp hrest (b :: before) behind hbehind (by simp) hrun
    · intro h
      refine ⟨fun hrun => h [chunk] chunks rfl (by simp) (by simpa using hrun), ?_⟩
      refine (ih _).mpr fun before behind hsplit hne hrun => ?_
      refine h (chunk :: before) behind (by rw [hsplit]; rfl) (by simp) ?_
      rwa [List.flatten_cons, Scan.over_append]

theorem kept_start (chunks : List Text) : Kept ⟨0, 0⟩ chunks ↔ ¬CutsFence chunks := by
  rw [kept_iff]
  constructor
  · rintro h ⟨before, behind, hsplit, hbefore, hbehind⟩
    have hne : before ≠ [] := by
      rintro rfl
      simp at hbefore
    have hlead := h before behind hsplit hne ((le_run _).mpr hbefore)
    have hthree := (le_leading 3 _).mpr hbehind
    omega
  · intro h before behind hsplit hne hrun
    by_contra hlead
    exact h ⟨before, behind, hsplit, (le_run _).mp hrun, (le_leading 3 _).mp (by omega)⟩

theorem follows_fresh {α : Type} : Follows (Format.fresh : Format α) ⟨0, 0⟩ :=
  ⟨rfl, rfl, by decide⟩

/-- Fences are tracked, whatever the chunks, just when no chunk boundary has three backticks on
each side; the marked letters are those of the text. -/
theorem fences_tracked (config : FormatterConfig)
    (hterms : config.suppressedParentheticalTerms = []) (chunks : List Text) :
    (emitChunks config Format.fresh (markChunks ⟨0, 0⟩ chunks)).2.map chars =
        (emitChunks config Format.fresh chunks).2 ∧
      (FencesTracked config chunks ↔ ¬CutsFence chunks) := by
  have hmarks := chars_emitChunks config Format.fresh (markChunks ⟨0, 0⟩ chunks)
  rw [chars_markChunks] at hmarks
  refine ⟨(congrArg Prod.snd hmarks).symm, ?_⟩
  have hcode (k : ℕ) : (emitChunks config Format.fresh (chunks.take k)).1.inFencedCode =
      (Scan.overChunks ⟨0, 0⟩ (chunks.take k)).fenced := by
    have h := (emitChunks_follows hterms follows_fresh (chunks.take k)).flag
    rwa [map_chars_self] at h
  rw [← kept_start]
  constructor
  · intro h
    refine (kept_of_tracked rfl (by decide) (Or.inl rfl) fun k => ?_).2
    rw [← hcode, h.tracked]
    rfl
  · intro hkept
    have hagree : Agree ⟨0, 0⟩ ⟨0, 0⟩ chunks.flatten := ⟨rfl, Or.inl rfl⟩
    refine ⟨fun k => ?_, emitChunks_unspoken hterms follows_fresh hagree hkept⟩
    rw [hcode, hagree.overChunks hkept]
    rfl

/-- No terms are suppressed. -/
def plainConfig : FormatterConfig := ⟨"Code.".toList, "Table.".toList, true, []⟩

theorem fences_tracked_inline :
    (emitChunks plainConfig Format.fresh
        (markChunks ⟨0, 0⟩ ["a `b``".toList, "`c".toList, "`` d".toList])).2.map chars =
        (emitChunks plainConfig Format.fresh ["a `b``".toList, "`c".toList, "`` d".toList]).2 ∧
      (FencesTracked plainConfig ["a `b``".toList, "`c".toList, "`` d".toList] ↔
        ¬CutsFence ["a `b``".toList, "`c".toList, "`` d".toList]) :=
  fences_tracked plainConfig rfl _

/-- Six backticks cut in the middle by the hard split are two fences, so that the code is spoken. -/
theorem fences_lost :
    drainPresentableText 1 20 false "aaaaaaaaaaaaaaaaa``````let".toList =
        some (["aaaaaaaaaaaaaaaaa```".toList], "```let".toList) ∧
      drainPresentableText 1 20 true "```let".toList = some (["```let".toList], []) ∧
      (emitChunks plainConfig Format.fresh ["aaaaaaaaaaaaaaaaa```".toList, "```let".toList]).2 =
        ["aaaaaaaaaaaaaaaaa Code.".toList, "let".toList] ∧
      ¬FencesTracked plainConfig ["aaaaaaaaaaaaaaaaa```".toList, "```let".toList] := by
  refine ⟨by decide, by decide, by decide +kernel, fun h => ?_⟩
  exact absurd (h.tracked 2) (by decide +kernel)

end Muxiva.Speech
