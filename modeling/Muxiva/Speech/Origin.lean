import Muxiva.Speech.Format

/-! Where the letters of the output come from, and what formatting a line leaves of the state. -/
set_option linter.all false
namespace Muxiva.Speech

open Letter

variable {α : Type} [Letter α]

omit [Letter α] in
/-- A text up to the first letter that fails a test, and from there. -/
theorem split_while (p : α → Bool) (text : List α) :
    ∃ front behind, text = front ++ behind ∧ text.takeWhile p = front ∧
      text.dropWhile p = behind ∧ (∀ x ∈ front, p x = true) ∧
      ∀ x ∈ behind.head?, p x = false := by
  induction text with
  | nil => exact ⟨[], [], rfl, rfl, rfl, by simp, by simp⟩
  | cons x rest ih =>
    by_cases hx : p x = true
    · obtain ⟨front, behind, htext, htake, hdrop, hfront, hbehind⟩ := ih
      refine ⟨x :: front, behind, by rw [htext]; rfl, ?_, ?_, ?_, hbehind⟩
      · rw [List.takeWhile_cons_of_pos hx, htake]
      · rw [List.dropWhile_cons_of_pos hx, hdrop]
      · intro y hy
        rcases List.mem_cons.mp hy with rfl | hy
        · exact hx
        · exact hfront y hy
    · refine ⟨[], x :: rest, rfl, List.takeWhile_cons_of_neg hx, List.dropWhile_cons_of_neg hx,
        by simp, ?_⟩
      simpa using hx

theorem trimStart_suffix (text : List α) : trimStart text <:+ text := List.dropWhile_suffix _

theorem trimEnd_start (text : List α) : trimEnd text <+: text := by
  have h := List.reverse_prefix.mpr (List.dropWhile_suffix isSpace (l := text.reverse))
  rwa [List.reverse_reverse] at h

/-- What is trimmed does not start with white space. -/
theorem trimStart_trim (text : List α) :
    trimStart (trimEnd (trimStart text)) = trimEnd (trimStart text) := by
  obtain ⟨spaces, rest, -, -, hdrop, -, hhead⟩ := split_while isSpace text
  have hopens := trimEnd_start rest
  rw [show trimStart text = rest from hdrop]
  cases htrim : trimEnd rest with
  | nil => rfl
  | cons x behind =>
    obtain ⟨tail, htail⟩ := hopens
    rw [htrim, List.cons_append] at htail
    have hx : isSpace x = false := hhead x (by rw [← htail]; rfl)
    exact List.dropWhile_cons_of_neg (by rw [hx]; decide)

theorem trimEnd_split (text : List α) :
    ∃ spaces, (∀ x ∈ spaces, isSpace x = true) ∧ text = trimEnd text ++ spaces := by
  obtain ⟨spaces, rest, hsplit, -, hdrop, hspaces, -⟩ := split_while isSpace text.reverse
  refine ⟨spaces.reverse, fun x hx => hspaces x (List.mem_reverse.mp hx), ?_⟩
  rw [trimEnd, hdrop, ← List.reverse_append, ← hsplit, List.reverse_reverse]

theorem trim_sublist (text : List α) : (trimEnd (trimStart text)).Sublist text :=
  (trimEnd_start _).sublist.trans (trimStart_suffix _).sublist

theorem stripTwo_eq {a b : Char} {text rest : List α} (h : stripTwo a b text = some rest) :
    ∃ x y, text = x :: y :: rest ∧ char x = a ∧ char y = b := by
  match text with
  | [] => cases h
  | [x] => cases h
  | x :: y :: behind =>
    simp only [stripTwo] at h
    split_ifs at h with hab
    cases h
    exact ⟨x, y, rfl, hab⟩

theorem stripTwo_suffix {a b : Char} {text rest : List α} (h : stripTwo a b text = some rest) :
    rest <:+ text := by
  obtain ⟨x, y, rfl, -⟩ := stripTwo_eq h
  exact (List.suffix_cons y rest).trans (List.suffix_cons x _)

theorem stripMarker_suffix (line : List α) : stripMarker line <:+ line := by
  unfold stripMarker
  cases hbullet : (stripTwo '-' ' ' line).or ((stripTwo '+' ' ' line).or (stripTwo '*' ' ' line)) with
  | some behind =>
    simp only [Option.or_eq_some_iff] at hbullet
    rcases hbullet with h | ⟨-, h | ⟨-, h⟩⟩
    · exact stripTwo_suffix h
    · exact stripTwo_suffix h
    · exact stripTwo_suffix h
  | none =>
    dsimp only
    split_ifs
    · exact List.drop_suffix _ _
    · exact List.suffix_rfl

theorem stripMarkdownPrefix_suffix (line : List α) : stripMarkdownPrefix line <:+ line :=
  (stripMarker_suffix _).trans <| (trimStart_suffix _).trans <| (List.dropWhile_suffix _).trans <|
    (trimStart_suffix _).trans <| (List.dropWhile_suffix _).trans (trimStart_suffix _)

theorem splitAtChar_eq {c : Char} {text before behind : List α}
    (h : splitAtChar c text = some (before, behind)) :
    ∃ x, char x = c ∧ text = before ++ x :: behind ∧ ∀ y ∈ before, char y ≠ c := by
  induction text generalizing before with
  | nil => cases h
  | cons x rest ih =>
    simp only [splitAtChar] at h
    split_ifs at h with hc
    · cases h
      exact ⟨x, hc, rfl, by simp⟩
    · obtain ⟨p, hp, heq⟩ := Option.map_eq_some_iff.mp h
      cases heq
      obtain ⟨y, hy, htext, hbefore⟩ := ih hp
      refine ⟨y, hy, by rw [htext]; rfl, ?_⟩
      intro z hz
      rcases List.mem_cons.mp hz with rfl | hz
      · exact hc
      · exact hbefore z hz

theorem splitAtChar_eq_none {c : Char} {text : List α} (h : ∀ x ∈ text, char x ≠ c) :
    splitAtChar c text = none := by
  induction text with
  | nil => rfl
  | cons x rest ih =>
    rw [splitAtChar, if_neg (h x (by simp)), ih fun y hy => h y (by simp [hy])]
    rfl

theorem stripBang_start (text : List α) : stripBang text <+: text := by
  unfold stripBang
  split_ifs
  · exact List.dropLast_prefix text
  · exact List.prefix_rfl

theorem replaceLinks_sublist (fuel : ℕ) (text : List α) : (replaceLinks fuel text).Sublist text := by
  induction fuel generalizing text with
  | zero => exact List.Sublist.refl _
  | succ fuel ih =>
    unfold replaceLinks
    cases hopen : splitAtChar '[' text with
    | none => exact List.Sublist.refl _
    | some p =>
      obtain ⟨before, tail⟩ := p
      obtain ⟨x, -, rfl, -⟩ := splitAtChar_eq hopen
      dsimp only
      cases hclose : splitAtChar ']' tail with
      | none => exact List.Sublist.refl _
      | some q =>
        obtain ⟨label, afterLabel⟩ := q
        obtain ⟨y, -, rfl, -⟩ := splitAtChar_eq hclose
        match afterLabel with
        | [] => exact List.Sublist.refl _
        | z :: target =>
          dsimp only
          have htake : (before ++ x :: (label ++ y :: z :: target)).take
              (before.length + 1 + label.length + 1) = before ++ x :: (label ++ [y]) := by
            have hsplit : before ++ x :: (label ++ y :: z :: target) =
                (before ++ x :: (label ++ [y])) ++ z :: target := by simp
            rw [hsplit]
            apply List.take_left'
            simp only [List.length_append, List.length_cons, List.length_nil]
            omega
          split_ifs
          · rw [htake]
            have hsplit : before ++ x :: (label ++ y :: z :: target) =
                (before ++ x :: (label ++ [y])) ++ z :: target := by simp
            rw [hsplit]
            exact (List.Sublist.refl _).append (ih _)
          · cases htarget : splitAtChar ')' target with
            | none => exact List.Sublist.refl _
            | some r =>
              obtain ⟨inner, behind⟩ := r
              obtain ⟨w, -, rfl, -⟩ := splitAtChar_eq htarget
              dsimp only
              rw [List.append_assoc]
              refine (stripBang_start before).sublist.append (List.Sublist.cons x ?_)
              refine (List.Sublist.refl label).append ?_
              refine List.Sublist.cons y (List.Sublist.cons z ?_)
              exact ((ih behind).cons w).trans (List.sublist_append_right inner _)

theorem removeUrls_sublist (fuel : ℕ) (inBareUrl : Bool) (text : List α) :
    (removeUrls fuel inBareUrl text).2.Sublist text := by
  induction fuel generalizing inBareUrl text with
  | zero => exact List.nil_sublist _
  | succ fuel ih =>
    unfold removeUrls
    dsimp only
    cases hresumed : (if inBareUrl = true then (findDelimiter 0 text).map text.drop else some text) with
    | none => exact List.nil_sublist _
    | some rest =>
      have hrest : rest.Sublist text := by
        split_ifs at hresumed
        · obtain ⟨stop, -, rfl⟩ := Option.map_eq_some_iff.mp hresumed
          exact List.drop_sublist _ _
        · cases hresumed
          exact List.Sublist.refl _
      dsimp only
      cases findUrl rest with
      | none => exact hrest
      | some start =>
        dsimp only
        cases findDelimiter 1 (rest.drop start) with
        | none => exact (List.take_sublist _ _).trans hrest
        | some stop =>
          dsimp only
          refine List.Sublist.trans ?_ hrest
          conv_rhs => rw [← List.take_append_drop start rest]
          exact (List.Sublist.refl _).append ((ih _ _).trans (List.drop_sublist _ _))

theorem plainLine_sublist (config : FormatterConfig) (inBareUrl : Bool) (text : List α) :
    (plainLine config inBareUrl text).2.Sublist text := by
  unfold plainLine
  dsimp only
  have hlinked : (replaceMarkdownLinks (stripMarkdownPrefix text)).Sublist text :=
    (replaceLinks_sublist _ _).trans (stripMarkdownPrefix_suffix text).sublist
  refine List.filter_sublist.trans (List.Sublist.trans ?_ hlinked)
  split_ifs
  · exact removeUrls_sublist _ _ _
  · exact List.Sublist.refl _

theorem splitInclusive_flatten (text : List α) : (splitInclusive text).flatten = text := by
  induction text with
  | nil => rfl
  | cons x rest ih =>
    unfold splitInclusive
    split_ifs
    · rw [List.flatten_cons, ih]
      rfl
    · cases hlines : splitInclusive rest with
      | nil =>
        rw [hlines] at ih
        rw [← ih]
        rfl
      | cons line lines =>
        rw [hlines] at ih
        rw [← ih]
        rfl

/-- What `append_markdown_text` does not touch. -/
structure Format.SameFence (s s' : Format α) : Prop where
  inFencedCode : s'.inFencedCode = s.inFencedCode
  pendingBackticks : s'.pendingBackticks = s.pendingBackticks
  pendingParenthetical : s'.pendingParenthetical = s.pendingParenthetical
  parentheticalClosing : s'.parentheticalClosing = s.parentheticalClosing

theorem appendLine_sameFence (config : FormatterConfig) (state : Format α × List α)
    (line : List α) : state.1.SameFence (appendLine config state line).1 := by
  unfold appendLine Format.enterLine
  dsimp only
  split_ifs <;> exact ⟨rfl, rfl, rfl, rfl⟩

theorem appendMarkdownText_sameFence (config : FormatterConfig) (state : Format α × List α)
    (input : List α) : state.1.SameFence (appendMarkdownText config state input).1 := by
  unfold appendMarkdownText
  induction splitInclusive input generalizing state with
  | nil => exact ⟨rfl, rfl, rfl, rfl⟩
  | cons line lines ih =>
    have hone := appendLine_sameFence config state line
    have hrest := ih (appendLine config state line)
    exact ⟨hrest.1.trans hone.1, hrest.2.trans hone.2, hrest.3.trans hone.3, hrest.4.trans hone.4⟩

theorem filterParenthetical_nil {terms : List Text} (hterms : terms = []) (s : Format α)
    (chunk : List α) : filterParenthetical terms s chunk = (s, chunk) := by
  rw [filterParenthetical, hterms]
  rfl

theorem emitChunks_cons (config : FormatterConfig) (s : Format α) (chunk : List α)
    (chunks : List (List α)) : (emitChunks config s (chunk :: chunks)).1 =
      (emitChunks config (formatChunk config s chunk).1 chunks).1 := by
  rw [emitChunks]

theorem mem_emitChunks_cons {config : FormatterConfig} {s : Format α} {chunk spoken : List α}
    {chunks : List (List α)} (h : spoken ∈ (emitChunks config s (chunk :: chunks)).2) :
    spoken = (formatChunk config s chunk).2 ∨
      spoken ∈ (emitChunks config (formatChunk config s chunk).1 chunks).2 := by
  rw [emitChunks] at h
  dsimp only at h
  split_ifs at h
  · exact Or.inr h
  · exact List.mem_cons.mp h

theorem emitChunks_flatten (config : FormatterConfig) (s : Format α) (chunk : List α)
    (chunks : List (List α)) : (emitChunks config s (chunk :: chunks)).2.flatten =
      (formatChunk config s chunk).2 ++
        (emitChunks config (formatChunk config s chunk).1 chunks).2.flatten := by
  rw [emitChunks]
  dsimp only
  split_ifs with hempty
  · rw [List.isEmpty_iff.mp hempty, List.nil_append]
  · exact List.flatten_cons

section Closed

-- a property of letters that the inserted ones have
variable {P : α → Prop} (hP : ∀ c, P (inserted c))
include hP

theorem all_appendPhrase {output phrase : List α} (houtput : ∀ x ∈ output, P x)
    (hphrase : ∀ x ∈ phrase, P x) : ∀ x ∈ appendPhrase output phrase, P x := by
  intro x hx
  unfold appendPhrase at hx
  split_ifs at hx
  · exact houtput x hx
  · rcases List.mem_append.mp hx with hx | hx
    · exact houtput x hx
    · rcases List.mem_cons.mp hx with rfl | hx
      · exact hP ' '
      · exact hphrase x hx
  · exact (List.mem_append.mp hx).elim (houtput x) (hphrase x)

theorem all_insertedText (text : Text) : ∀ x ∈ (insertedText text : List α), P x := by
  intro x hx
  obtain ⟨c, -, rfl⟩ := List.mem_map.mp hx
  exact hP c

theorem all_appendLine (config : FormatterConfig) {state : Format α × List α} {line : List α}
    (houtput : ∀ x ∈ state.2, P x) (hline : ∀ x ∈ line, P x) :
    ∀ x ∈ (appendLine config state line).2, P x := by
  unfold appendLine
  dsimp only
  split_ifs
  · exact houtput
  · exact houtput
  · exact all_appendPhrase hP houtput (all_insertedText hP _)
  all_goals
    refine all_appendPhrase hP houtput fun x hx => hline x ?_
    exact (trim_sublist line).mem ((plainLine_sublist config _ _).mem ((trim_sublist _).mem hx))

theorem all_appendMarkdownText (config : FormatterConfig) {state : Format α × List α}
    {input : List α} (houtput : ∀ x ∈ state.2, P x) (hinput : ∀ x ∈ input, P x) :
    ∀ x ∈ (appendMarkdownText config state input).2, P x := by
  have hlines : ∀ line ∈ splitInclusive input, ∀ x ∈ line, P x := by
    intro line hline x hx
    refine hinput x ?_
    rw [← splitInclusive_flatten input]
    exact List.mem_flatten_of_mem hline hx
  unfold appendMarkdownText
  generalize splitInclusive input = lines at hlines ⊢
  induction lines generalizing state with
  | nil => exact houtput
  | cons line lines ih =>
    rw [List.foldl_cons]
    exact ih (all_appendLine hP config houtput (hlines line (by simp)))
      fun l hl => hlines l (by simp [hl])

theorem all_toggleFence (config : FormatterConfig) {state : Format α × List α}
    (houtput : ∀ x ∈ state.2, P x) : ∀ x ∈ (toggleFence config state).2, P x := by
  unfold toggleFence
  dsimp only
  split_ifs
  · exact houtput
  · exact all_appendPhrase hP houtput (all_insertedText hP _)

theorem all_collapseSpokenWhitespace {input : List α} (hinput : ∀ x ∈ input, P x) :
    ∀ x ∈ collapseSpokenWhitespace input, P x := by
  have hfold (state : List α × Bool) (hstate : ∀ x ∈ state.1, P x) :
      ∀ x ∈ (input.foldl collapseCharacter state).1, P x := by
    induction input generalizing state with
    | nil => exact hstate
    | cons y rest ih =>
      rw [List.foldl_cons]
      refine ih (fun x hx => hinput x (by simp [hx])) _ fun x hx => ?_
      have hy := hinput y (by simp)
      unfold collapseCharacter at hx
      dsimp only at hx
      split_ifs at hx
      · exact hstate x hx
      · simp only [List.append_assoc, List.mem_append, List.mem_cons, List.not_mem_nil,
          or_false] at hx
        rcases hx with hx | rfl | rfl
        · exact hstate x hx
        · exact hP ' '
        · exact hy
      · rcases List.mem_append.mp hx with hx | hx
        · exact hstate x hx
        · rwa [List.mem_singleton.mp hx]
  intro x hx
  exact hfold ([], false) (by simp) x ((trim_sublist _).mem hx)

end Closed

end Muxiva.Speech
