import StackWords.Proofs.Atoms
import StackWords.Proofs.Rounds

/-! # Texts joined by commas

Where the brackets of a text are nested, the lookahead from a parenthesis comes to
an end inside the text, and a comma behind the text is no part of it. Hence what
follows behind that comma, whatever it is, does not change how the text is read,
and is itself read as if it stood alone.
-/
namespace StackWords

namespace Token

variable {before before' after closers p q : List Char}

/-- The lookahead ends inside a text that has more closing parentheses than are needed for the
opening ones in it and for those open before. -/
theorem closesLone_append_of_count (ha : isBoundary after) {depth : Nat}
    (h : depth + q.count '(' < q.count ')') :
    closesLone depth before (q ++ after) = closesLone depth before q := by
  induction q generalizing before depth with
  | nil => simp at h
  | cons c q ih =>
    by_cases ho : c = '('
    · subst ho
      rw [List.count_cons_self, List.count_cons_of_ne (by decide)] at h
      exact ih (by omega)
    · rw [List.count_cons_of_ne ho] at h
      by_cases hc : c = ')'
      · subst hc
        rw [List.count_cons_self] at h
        cases depth with
        | zero => exact isLone_append ha before q
        | succ depth => exact ih (by omega)
      · rw [List.count_cons_of_ne hc] at h
        rw [List.cons_append, closesLone_cons_other ho hc, closesLone_cons_other ho hc]
        exact ih h

/-- A text in which each opening parenthesis can have a closing one behind it. -/
def ClosesParens (text : List Char) : Prop :=
  ∀ back, back <:+ text → back.count '(' ≤ back.count ')'

theorem count_of_unwind {missing left : List Char}
    (h : unwind closer? missing (q.filter isBracket) = some left) :
    q.count ')' + left.count ')' = q.count '(' + missing.count ')' := by
  induction q generalizing missing with
  | nil =>
    cases h
    rfl
  | cons c q ih =>
    by_cases hb : isBracket c
    · rw [List.filter_cons_of_pos hb] at h
      cases ho : closer? c with
      | some k =>
        rw [unwind_opener ho] at h
        have hrest := ih h
        rcases closer?_cases ho with ⟨rfl, rfl⟩ | ⟨hopen, hclose, -, hne⟩
        · rw [List.count_cons_self] at hrest
          rw [List.count_cons_self, List.count_cons_of_ne (by decide)]
          omega
        · rw [List.count_cons_of_ne hne] at hrest
          rwa [List.count_cons_of_ne hopen, List.count_cons_of_ne hclose]
      | none =>
        have hopen : c ≠ '(' := by
          rintro rfl
          cases ho
        cases missing with
        | nil => simp [unwind, ho] at h
        | cons k missing =>
          rw [unwind_closer ho] at h
          split at h
          · next hk =>
            subst hk
            have hrest := ih h
            rw [List.count_cons_of_ne hopen, List.count_cons, List.count_cons]
            omega
          · cases h
    · obtain ⟨hopen, hclose⟩ := ne_paren_of_not_isBracket (Bool.eq_false_iff.mpr hb)
      rw [List.filter_cons_of_neg hb] at h
      rw [List.count_cons_of_ne hopen, List.count_cons_of_ne hclose]
      exact ih h

theorem closesParens_of_nested (h : Nested closer? (p.filter isBracket)) : ClosesParens p := by
  rintro back ⟨front, rfl⟩
  have hu := (nested_iff_unwind fun _ _ => closer?_closer).mp h
  rw [List.filter_append] at hu
  obtain ⟨missing, hback⟩ := exists_unwind_of_append hu
  have hcount := count_of_unwind hback
  simp only [List.count_nil] at hcount
  omega

theorem segments_congr (hb : isBoundary before = isBoundary before') (closers text : List Char) :
    segments closers before text = segments closers before' text := by
  induction text generalizing closers before before' with
  | nil => rfl
  | cons c text ih =>
    have hr := reading_congr hb (.refl text) closers c
    have hc := isBoundary_cons_congr hb c
    rw [segments, segments, hr]
    cases reading closers before' c text with
    | separator => simp only [ih hc]
    | part k => simp only [ih hc]
    | stray => rfl

/-- A text with segments is cut in front of a comma as it is alone, and so is the text behind the
comma. -/
theorem segments_append_comma (hp : ClosesParens p) {segs : List (List Char)}
    (h : segments closers before p = .ok segs) (q : List Char) :
    segments closers before (p ++ ',' :: q) = (segments [] [] q).map (segs ++ ·) := by
  induction p generalizing closers before segs with
  | nil =>
    rw [segments] at h
    split at h
    · next hclosers =>
      subst hclosers
      cases h
      have hb : isBoundary (',' :: before) = isBoundary [] := rfl
      rw [List.nil_append, segments, reading_comma, segments_congr hb]
      rfl
    · cases h
  | cons c p ih =>
    have hrest : ClosesParens p := fun back hback => hp back (hback.trans (List.suffix_cons c p))
    have ha : isBoundary (',' :: q) := rfl
    have hread : reading closers before c (p ++ ',' :: q) = reading closers before c p := by
      refine reading_append ha ?_
      rintro rfl - -
      have hcount := hp _ (List.suffix_refl _)
      rw [List.count_cons_self, List.count_cons_of_ne (by decide)] at hcount
      exact closesLone_append_of_count ha (by omega)
    rw [segments] at h
    rw [List.cons_append, segments, hread]
    cases hr : reading closers before c p with
    | separator =>
      simp only [hr] at h
      cases hs : segments closers (c :: before) p with
      | error e => simp [hs, Except.map] at h
      | ok later =>
        rw [hs] at h
        cases h
        simp only [ih hrest hs]
        cases segments [] [] q <;> rfl
    | part k =>
      simp only [hr] at h
      cases hs : segments k (c :: before) p with
      | error e => simp [hs, Except.map] at h
      | ok later =>
        obtain ⟨seg, others, rfl, -⟩ := cut_of_segments hs
        rw [hs] at h
        cases h
        simp only [ih hrest hs]
        cases segments [] [] q <;> rfl
    | stray => simp [hr] at h

theorem splitChars_append_comma (hp : ClosesParens p) {tokens : List (List Char)}
    (h : splitChars p = .ok tokens) (q : List Char) :
    splitChars (p ++ ',' :: q) = (splitChars q).map (tokens ++ ·) := by
  rw [splitChars] at h
  cases hs : segments [] [] p with
  | error e => simp [hs, Except.map] at h
  | ok segs =>
    rw [hs] at h
    cases h
    rw [splitChars, splitChars, segments_append_comma hp hs]
    cases segments [] [] q with
    | error e => rfl
    | ok more => simp only [Except.map, ofSegments_append]

theorem exists_splitChars_of_nested (h : Nested closer? (p.filter isBracket)) :
    ∃ tokens, splitChars p = .ok tokens := by
  have hread : Accepted [] [] (p ++ []) := accepted_nested p h [] [] [] ⟨[[]], rfl⟩
  rw [List.append_nil] at hread
  obtain ⟨segs, hsegs⟩ := hread
  exact ⟨ofSegments segs, by rw [splitChars, hsegs]; rfl⟩

theorem exists_split_of_nested {program : String}
    (h : Nested closer? (program.toList.filter isBracket)) : ∃ tokens, split program = .ok tokens := by
  obtain ⟨tokens, ht⟩ := exists_splitChars_of_nested h
  exact ⟨tokens.map String.ofList, by rw [split, ht]; rfl⟩

theorem split_append_comma {program : String} {tokens : List String}
    (hp : ClosesParens program.toList) (h : split program = .ok tokens) (more : String) :
    split (program ++ "," ++ more) = (split more).map (tokens ++ ·) := by
  have htext : (program ++ "," ++ more).toList = program.toList ++ ',' :: more.toList := by simp
  rw [split, htext, splitChars_append_comma hp (split_eq_ok_iff.mp h), split]
  cases splitChars more.toList with
  | error e => rfl
  | ok later => simp [Except.map]

/-- The tokens of lines joined by commas are the tokens of the lines in order. -/
theorem split_intercalate_lines {lines : List String} {tokens : List (List String)}
    (hp : ∀ line ∈ lines, ClosesParens line.toList)
    (h : List.Forall₂ (fun line ts => split line = .ok ts) lines tokens) :
    split (",".intercalate lines) = .ok tokens.flatten := by
  induction h with
  | nil => rfl
  | @cons line ts lines tokens hline hrest ih =>
    obtain ⟨hfirst, hlater⟩ := List.forall_mem_cons.mp hp
    cases lines with
    | nil =>
      cases hrest
      rw [String.intercalate_singleton, hline]
      simp
    | cons next lines =>
      rw [String.intercalate_cons_cons, split_append_comma hfirst hline, ih hlater]
      rfl

theorem exists_tokens_of_lines {lines : List String}
    (h : ∀ line ∈ lines, ∃ ts, split line = .ok ts) :
    ∃ tokens, List.Forall₂ (fun line ts => split line = .ok ts) lines tokens := by
  induction lines with
  | nil => exact ⟨[], .nil⟩
  | cons line lines ih =>
    obtain ⟨⟨ts, hline⟩, hlater⟩ := List.forall_mem_cons.mp h
    obtain ⟨tokens, htokens⟩ := ih hlater
    exact ⟨ts :: tokens, .cons hline htokens⟩

theorem Laid.append_blanks {tokens : List (List Char)} {text back : List Char}
    (h : Laid tokens text) (hb : ∀ c ∈ back, Text.isBlank c) : Laid tokens (text ++ back) := by
  obtain ⟨segs, htext, rfl⟩ := h
  rcases List.eq_nil_or_concat segs with rfl | ⟨front, last, rfl⟩
  · cases htext
  · refine ⟨front ++ [last ++ back], ?_, ?_⟩
    · rw [← List.cons_append, ← htext, List.concat_eq_append, behind_append, behind_append]
      simp
    · rw [List.concat_eq_append, ofSegments_append, ofSegments_append, ofSegments_cons,
        ofSegments_cons, Text.trim_append_blanks hb]

/-- Blanks around a text are no part of its tokens. -/
theorem splitChars_of_trim {line : List Char} {tokens : List (List Char)}
    (h : splitChars (Text.trim line) = .ok tokens) : splitChars line = .ok tokens := by
  obtain ⟨hcut, hlaid⟩ := splitChars_eq_ok_iff.mp h
  obtain ⟨front, back, hline, hfront, hback⟩ := Text.exists_trim line
  have hgap : IsGap front := fun c hc => Or.inr (hfront c hc)
  have hlaid' := (hlaid.append_gap hgap).append_blanks hback
  rw [← hline] at hlaid'
  exact splitChars_eq_ok_iff.mpr ⟨hcut, hlaid'⟩

/-- Lines can be trimmed, and blank ones left out, before they are joined. -/
theorem split_intercalate_trimmed {lines : List (List Char)}
    (h : ∀ line ∈ lines, Nested closer? (line.filter isBracket)) :
    ∃ tokens, List.Forall₂ (fun line ts => split (String.ofList line) = .ok ts) lines tokens ∧
      split (",".intercalate (((lines.map Text.trim).filter (· ≠ [])).map String.ofList)) =
        .ok tokens.flatten := by
  suffices hkept : ∃ tokens kept : List (List String),
      List.Forall₂ (fun line ts => split (String.ofList line) = .ok ts) lines tokens ∧
      List.Forall₂ (fun line ts => split line = .ok ts)
        (((lines.map Text.trim).filter (· ≠ [])).map String.ofList) kept ∧
      kept.flatten = tokens.flatten by
    obtain ⟨tokens, kept, hlines, htrimmed, hflatten⟩ := hkept
    refine ⟨tokens, hlines, ?_⟩
    rw [← hflatten]
    refine split_intercalate_lines ?_ htrimmed
    intro line hline
    obtain ⟨cs, hcs, rfl⟩ := List.mem_map.mp hline
    obtain ⟨raw, hraw, rfl⟩ := List.mem_map.mp (List.mem_filter.mp hcs).1
    rw [String.toList_ofList]
    apply closesParens_of_nested
    rw [filter_isBracket_trim]
    exact h raw hraw
  induction lines with
  | nil => exact ⟨[], [], .nil, .nil, rfl⟩
  | cons line lines ih =>
    obtain ⟨hline, hlater⟩ := List.forall_mem_cons.mp h
    obtain ⟨tokens, kept, htokens, hkept, hflatten⟩ := ih hlater
    rw [← filter_isBracket_trim] at hline
    obtain ⟨ts, hts⟩ := exists_splitChars_of_nested hline
    have hfull : split (String.ofList line) = .ok (ts.map String.ofList) := by
      rw [split, String.toList_ofList, splitChars_of_trim hts]
      rfl
    refine ⟨ts.map String.ofList :: tokens, ?_⟩
    by_cases hblank : Text.trim line = []
    · -- A blank line is left out, and it has no tokens.
      rw [hblank] at hts
      cases hts
      exact ⟨kept, .cons hfull htokens, by simpa [hblank] using hkept, hflatten⟩
    · have htrim : split (String.ofList (Text.trim line)) = .ok (ts.map String.ofList) := by
        rw [split, String.toList_ofList, hts]
        rfl
      refine ⟨ts.map String.ofList :: kept, .cons hfull htokens, ?_, by simp [hflatten]⟩
      simpa [hblank] using ⟨htrim, by simpa using hkept⟩

end Token

theorem Console.Dialogue.foldl_joined (lines : List String) :
    lines.foldl (fun pending line => some (joined pending line)) none = pendingOf lines := by
  induction lines using List.reverseRecOn with
  | nil => rfl
  | append_singleton lines line ih =>
    rw [List.foldl_append, ih, List.foldl_cons, List.foldl_nil, joined_pendingOf, pendingOf_concat]

open Token

/-- Joining texts by commas joins their tokens. Behind a text with nested brackets and a comma every
other text keeps its tokens, or its error. So lines with nested brackets keep their tokens when they
are joined, be it the lines of an input or those of a file. -/
theorem joined_lines_keep_their_tokens :
    (∀ p q : String, Nested closer? (p.toList.filter isBracket) →
      ∃ tokens, split p = .ok tokens ∧
        (∀ more, split q = .ok more → split (p ++ "," ++ q) = .ok (tokens ++ more)) ∧
        ∀ e, split q = .error e → split (p ++ "," ++ q) = .error e) ∧
    (∀ lines : List String, (∀ line ∈ lines, Nested closer? (line.toList.filter isBracket)) →
      ∃ tokens, List.Forall₂ (fun line ts => split line = .ok ts) lines tokens ∧
        split (",".intercalate lines) = .ok tokens.flatten ∧
        ∀ input, lines.foldl (fun pending line => some (Console.Dialogue.joined pending line)) none =
          some input → split input = .ok tokens.flatten) ∧
    ∀ content : String,
      (∀ line ∈ Text.fields '\n' content.toList, Nested closer? (line.filter isBracket)) →
      ∃ tokens, List.Forall₂ (fun line ts => split (String.ofList line) = .ok ts)
          (Text.fields '\n' content.toList) tokens ∧
        split (Console.programOfFile content) = .ok tokens.flatten := by
  refine ⟨?_, ?_, fun content h => split_intercalate_trimmed h⟩
  · intro p q hp
    obtain ⟨tokens, htokens⟩ := exists_split_of_nested hp
    have hjoin := split_append_comma (closesParens_of_nested hp) htokens q
    refine ⟨tokens, htokens, ?_, ?_⟩
    · intro more hmore
      rw [hjoin, hmore]
      rfl
    · intro e he
      rw [hjoin, he]
      rfl
  · intro lines hlines
    have hparens : ∀ line ∈ lines, ClosesParens line.toList :=
      fun line hline => closesParens_of_nested (hlines line hline)
    obtain ⟨tokens, htokens⟩ := exists_tokens_of_lines fun line hline =>
      exists_split_of_nested (hlines line hline)
    have hjoin := split_intercalate_lines hparens htokens
    refine ⟨tokens, htokens, hjoin, ?_⟩
    intro input hinput
    rw [Console.Dialogue.foldl_joined, Console.Dialogue.pendingOf] at hinput
    split at hinput
    · cases hinput
    · cases hinput
      exact hjoin

theorem failing_line_and_file_behind_nested_lines :
    let p := "(, f(a,),)"
    let content := " a,(b,c) \n\n\t(,:dup,)\r\n"
    Nested closer? (p.toList.filter isBracket) ∧
      split (p ++ "," ++ "b,),]") = .error (Cause.strayCloser ']') ∧
      split (",".intercalate [p, "[,]"]) = .ok ["(", "f(a,)", ")", "[,]"] ∧
      split (Console.programOfFile content) = .ok ["a", "(b,c)", "(", ":dup", ")"] := by
  intro p content
  have hp : Nested closer? (p.toList.filter isBracket) := by decide +kernel
  have hlines : ∀ line ∈ [p, "[,]"], Nested closer? (line.toList.filter isBracket) := by
    decide +kernel
  have hcontent : Text.fields '\n' content.toList =
      [" a,(b,c) ", "", "\t(,:dup,)\r", ""].map String.toList := by decide +kernel
  have hfile : ∀ line ∈ Text.fields '\n' content.toList, Nested closer? (line.filter isBracket) := by
    decide +kernel
  have hfail : split "b,),]" = .error (Cause.strayCloser ']') := by decide +kernel
  refine ⟨hp, ?_, ?_, ?_⟩
  · obtain ⟨tokens, -, -, herror⟩ := joined_lines_keep_their_tokens.1 p "b,),]" hp
    exact herror _ hfail
  · obtain ⟨tokens, htokens, hjoined, -⟩ := joined_lines_keep_their_tokens.2.1 _ hlines
    obtain _ | ⟨hfirst, _ | ⟨hsecond, _ | _⟩⟩ := htokens
    have h₁ : split p = .ok ["(", "f(a,)", ")"] := by decide +kernel
    have h₂ : split "[,]" = .ok ["[,]"] := by decide +kernel
    cases h₁.symm.trans hfirst
    cases h₂.symm.trans hsecond
    exact hjoined
  · obtain ⟨tokens, htokens, hjoined⟩ := joined_lines_keep_their_tokens.2.2 content hfile
    rw [hcontent] at htokens
    obtain _ | ⟨hfirst, _ | ⟨hblank, _ | ⟨hsecond, _ | ⟨hlast, _ | _⟩⟩⟩⟩ := htokens
    have h₁ : split " a,(b,c) " = .ok ["a", "(b,c)"] := by decide +kernel
    have h₂ : split "" = .ok [] := by decide +kernel
    have h₃ : split "\t(,:dup,)\r" = .ok ["(", ":dup", ")"] := by decide +kernel
    rw [String.ofList_toList] at hfirst hblank hsecond hlast
    cases h₁.symm.trans hfirst
    cases h₂.symm.trans hblank
    cases h₃.symm.trans hsecond
    cases h₂.symm.trans hlast
    exact hjoined

end StackWords
