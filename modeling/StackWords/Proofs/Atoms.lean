import StackWords.Proofs.BalancedText
import StackWords.Proofs.Layout

/-! # Tokens on their own

A text is its tokens with gaps around them, so reading it loses nothing. A token
taken out of its text is one token again, and put into another one it is read as
it was, unless it is a list start. Only a lone opening parenthesis could be
read differently there, since the lookahead then ends with the token. But at each
place the lookahead counts no more open parentheses than are open as brackets, so
it has found its parenthesis before the token ends.
-/
namespace StackWords

namespace Text

theorem length_trim_le (cs : List Char) : (trim cs).length ≤ cs.length := by
  obtain ⟨front, back, hcs, -, -⟩ := exists_trim cs
  have hlen := congrArg List.length hcs
  simp only [List.length_append] at hlen
  omega

theorem not_isBlank_head {cs : List Char} (h : trim cs = cs) : ∀ c ∈ cs.head?, ¬isBlank c := by
  intro c hc hblank
  obtain ⟨rest, rfl⟩ := List.head?_eq_some_iff.mp hc
  have hle := length_trim_le rest
  rw [trim_cons_blank hblank] at h
  rw [h, List.length_cons] at hle
  omega

theorem not_isBlank_getLast {cs : List Char} (h : trim cs = cs) :
    ∀ c ∈ cs.getLast?, ¬isBlank c := by
  intro c hc hblank
  obtain ⟨front, rfl⟩ := List.getLast?_eq_some_iff.mp hc
  have hle := length_trim_le front
  rw [trim_append_blanks (List.forall_mem_singleton.mpr hblank)] at h
  rw [h, List.length_append, List.length_singleton] at hle
  omega

end Text

namespace Token

variable {closers before after q k : List Char} {c : Char}

theorem isBoundary_append (ha : isBoundary after) (q : List Char) :
    isBoundary (q ++ after) = isBoundary q := by
  induction q with
  | nil => exact ha
  | cons c q ih => rw [List.cons_append, isBoundary_cons, isBoundary_cons, ih]

theorem isLone_append (ha : isBoundary after) (before q : List Char) :
    isLone before (q ++ after) = isLone before q := by
  rw [isLone, isLone, isBoundary_append ha]

/-- In front of a boundary a character is read as at the end of a text, if the lookahead from a
lone opening parenthesis comes to the same there. -/
theorem reading_append (ha : isBoundary after)
    (hlook : c = '(' → closers = [] → isLone before q →
      closesLone 0 ('(' :: before) (q ++ after) = closesLone 0 ('(' :: before) q) :
    reading closers before c (q ++ after) = reading closers before c q := by
  have hlone := isLone_append ha before q
  have hstart : (c = '(' ∧ closers = [] ∧ startsList before (q ++ after)) ↔
      (c = '(' ∧ closers = [] ∧ startsList before q) := by
    refine and_congr_right fun hc => and_congr_right fun hk => ?_
    rw [startsList, startsList, hlone]
    by_cases hl : isLone before q
    · rw [hlook hc hk hl]
    · simp only [hl, Bool.false_and]
  simp only [reading, hlone, hstart]

/-- The lookahead ends inside a part of a text behind which no bracket is open, if it counts at
most as many open parentheses as are open as brackets. -/
theorem closesLone_append (ha : isBoundary after) {depth : Nat}
    (h : closersBehind closers before q after = some []) (hdepth : depth < closers.count ')') :
    closesLone depth before (q ++ after) = closesLone depth before q := by
  -- Every character keeps the bound: an opening parenthesis raises both sides, and a closing one
  -- always lowers the count of the lookahead but not always that of the brackets.
  induction q generalizing closers before depth with
  | nil =>
    cases h
    simp at hdepth
  | cons c q ih =>
    obtain ⟨k, hr, hk⟩ := closersBehind_cons_eq_some.mp h
    have hclose : c = ')' → depth < k.count ')' + 1 →
        closesLone depth before (c :: q ++ after) = closesLone depth before (c :: q) := by
      rintro rfl hcount
      cases depth with
      | zero => exact isLone_append ha before q
      | succ depth => exact ih hk (by omega)
    have hpass : c ≠ '(' → c ≠ ')' → depth < k.count ')' →
        closesLone depth before (c :: q ++ after) = closesLone depth before (c :: q) := by
      intro ho hc hcount
      rw [List.cons_append, closesLone_cons_other ho hc, closesLone_cons_other ho hc]
      exact ih hk hcount
    rcases reading_cases hr with ⟨hplain, rfl⟩ | ⟨closer, ho, rfl⟩ | ⟨-, rfl, -, -⟩ |
      ⟨ho, -, rfl⟩ | ⟨rfl, -, -, rfl⟩
    · obtain ⟨hopen, hc⟩ := ne_paren_of_not_isBracket hplain
      exact hpass hopen hc hdepth
    · rcases closer?_cases ho with ⟨rfl, rfl⟩ | ⟨hopen, hc, -, hne⟩
      · have hdeeper : depth + 1 < (')' :: closers).count ')' := by
          rw [List.count_cons_self]
          exact Nat.succ_lt_succ hdepth
        exact ih hk hdeeper
      · rw [List.count_cons_of_ne hne] at hpass
        exact hpass hopen hc hdepth
    · simp at hdepth
    · by_cases hc : c = ')'
      · subst hc
        rw [List.count_cons_self] at hdepth
        exact hclose rfl hdepth
      · have hopen : c ≠ '(' := by
          rintro rfl
          cases ho
        rw [List.count_cons_of_ne hc] at hdepth
        exact hpass hopen hc hdepth
    · exact hclose rfl (by omega)

theorem closesLone_blanks (h : ∀ c ∈ q, Text.isBlank c) (depth : Nat) (before : List Char) :
    closesLone depth before q := by
  have hlook := (LooksLike.blanks h []).closesLone_eq depth before
  rw [List.append_nil] at hlook
  rw [hlook, closesLone]

/-- A part of a text that ends at a boundary, with no bracket open, is read alike where the text
ends with it. -/
theorem closersBehind_alone (ha : isBoundary after)
    (h : closersBehind closers before q after = some []) :
    closersBehind closers before q [] = some [] := by
  induction q generalizing closers before with
  | nil => exact h
  | cons c q ih =>
    obtain ⟨k, hr, hk⟩ := closersBehind_cons_eq_some.mp h
    have hsame : reading closers before c (q ++ after) = reading closers before c q := by
      refine reading_append ha ?_
      -- A list start has only blanks behind it. Any other parenthesis that opens here is
      -- closed before the part ends.
      rintro rfl rfl hlone
      rw [reading_opener rfl] at hr
      split at hr
      · next hstart =>
        cases hr
        rw [startsList, Bool.and_eq_true] at hstart
        have hblank : ∀ d ∈ q, Text.isBlank d := by
          rw [← isLone_append ha, isLone, Bool.and_eq_true] at hlone
          exact blank_of_boundary_after hk hlone.2
        rw [hstart.2.2.2, closesLone_blanks hblank]
      · cases hr
        exact closesLone_append ha hk (by simp)
    rw [hr] at hsame
    rw [closersBehind_cons_eq_some, List.append_nil]
    exact ⟨k, hsame.symm, ih hk⟩

theorem closesLone_append_of_false (ha : isBoundary after) {depth : Nat}
    (h : closesLone depth before q = false) : closesLone depth before (q ++ after) = false := by
  induction q generalizing depth before with
  | nil => simp [closesLone] at h
  | cons c q ih =>
    by_cases ho : c = '('
    · subst ho
      exact ih h
    · by_cases hc : c = ')'
      · subst hc
        cases depth with
        | zero => exact (isLone_append ha before q).trans h
        | succ depth => exact ih h
      · rw [closesLone_cons_other ho hc] at h
        rw [List.cons_append, closesLone_cons_other ho hc]
        exact ih h

/-- A token other than a list start is read in every text as it is read alone. -/
theorem closersBehind_in_text {t : List Char} (ht : Text.trim t = t) (hstart : t ≠ ['('])
    (ha : isBoundary after) (h : closersBehind [] [] t [] = some []) :
    closersBehind [] [] t after = some [] := by
  suffices hrest : ∀ p closers q, t = p ++ q → closersBehind [] [] p q = some closers →
      closersBehind closers p.reverse q [] = some [] →
      closersBehind closers p.reverse q after = some [] from hrest [] [] t rfl rfl h
  -- What was read of the token is kept as `p`, since a list start in the middle is excluded only
  -- by the token as a whole.
  intro p closers q
  induction q generalizing p closers with
  | nil => exact fun _ _ hq => hq
  | cons c q ih =>
    intro htext hp hq
    obtain ⟨k, hr, hk⟩ := closersBehind_cons_eq_some.mp hq
    rw [List.append_nil] at hr
    have hsame : reading closers p.reverse c (q ++ after) = reading closers p.reverse c q := by
      refine reading_append ha ?_
      rintro rfl rfl hlone
      rw [reading_opener rfl] at hr
      split at hr
      · cases hr
        rw [← List.append_nil q] at hp hlone
        exact absurd (eq_singleton_of_lone ht htext rfl hp hk hlone) hstart
      · next hopen =>
        have hfalse : closesLone 0 ('(' :: p.reverse) q = false := by
          simpa [startsList, hlone] using hopen
        rw [hfalse, closesLone_append_of_false ha hfalse]
    rw [closersBehind_cons_eq_some]
    refine ⟨k, hsame.trans hr, ?_⟩
    have hnext := ih (p ++ [c]) k (by simpa using htext) (closersBehind_concat hp hr)
    simpa using hnext (by simpa using hk)

theorem Cut.alone {tokens : List (List Char)} (h : Cut tokens) :
    ∀ t ∈ tokens, closersBehind [] [] t [] = some [] := by
  induction tokens with
  | nil => exact List.forall_mem_nil _
  | cons t tokens ih =>
    obtain ⟨ht, hrest⟩ := h
    exact List.forall_mem_cons.mpr
      ⟨closersBehind_alone (isBoundary_behind tokens) ht, ih hrest⟩

/-- A comma in a token stands between brackets of the token. -/
theorem comma_between_brackets {t p : List Char} (h : closersBehind [] [] t [] = some [])
    (htext : t = p ++ ',' :: q) :
    ∃ due, closersBehind [] [] p (',' :: q) = some due ∧ due ≠ [] := by
  subst htext
  rw [closersBehind_append, List.append_nil] at h
  obtain ⟨k, hp, hq⟩ := Option.bind_eq_some_iff.mp h
  refine ⟨k, hp, ?_⟩
  rintro rfl
  obtain ⟨inner, hr, -⟩ := closersBehind_cons_eq_some.mp hq
  rw [reading_comma] at hr
  cases hr

/-- Gaps around tokens that make up a text with them, a first one and one behind each token. -/
structure Spaced (tokens : List (List Char)) (first : List Char) (gaps : List (List Char))
    (text : List Char) : Prop where
  length_eq : gaps.length = tokens.length
  isGap : ∀ gap ∈ first :: gaps, IsGap gap
  comma : ∀ gap ∈ gaps.dropLast, ',' ∈ gap
  text_eq : text = first ++ (List.zipWith (· ++ ·) tokens gaps).flatten

namespace Spaced

variable {tokens gaps : List (List Char)} {first text : List Char}

theorem nil : Spaced [] [] [] [] := ⟨rfl, by simp [IsGap], by simp, rfl⟩

theorem append_gap (h : Spaced tokens first gaps text) {gap : List Char} (hg : IsGap gap) :
    Spaced tokens (gap ++ first) gaps (gap ++ text) := by
  obtain ⟨hfirst, hgaps⟩ := List.forall_mem_cons.mp h.isGap
  refine ⟨h.length_eq, ?_, h.comma, ?_⟩
  · refine List.forall_mem_cons.mpr ⟨?_, hgaps⟩
    intro c hc
    exact (List.mem_append.mp hc).elim (hg c) (hfirst c)
  · rw [h.text_eq, List.append_assoc]

theorem cons_token (h : Spaced tokens first gaps text) (hcomma : tokens ≠ [] → ',' ∈ first)
    (t : List Char) : Spaced (t :: tokens) [] (first :: gaps) (t ++ text) := by
  refine ⟨?_, ?_, ?_, ?_⟩
  · rw [List.length_cons, List.length_cons, h.length_eq]
  · exact List.forall_mem_cons.mpr ⟨List.forall_mem_nil _, h.isGap⟩
  · cases gaps with
    | nil => exact List.forall_mem_nil _
    | cons gap gaps =>
      have htokens : tokens ≠ [] := by
        rintro rfl
        cases h.length_eq
      exact List.forall_mem_cons.mpr ⟨hcomma htokens, h.comma⟩
  · rw [h.text_eq]
    simp

theorem cons_segment {segs : List (List Char)} (h : Spaced (ofSegments segs) first gaps text)
    (hcomma : ofSegments segs ≠ [] → ',' ∈ first) (seg : List Char) :
    ∃ first gaps, Spaced (ofSegments (seg :: segs)) first gaps (seg ++ text) := by
  obtain ⟨front, back, hseg, hfront, hback⟩ := Text.exists_trim seg
  have hgap : ∀ {blanks : List Char}, (∀ c ∈ blanks, Text.isBlank c) → IsGap blanks :=
    fun hb c hc => Or.inr (hb c hc)
  have hrest := h.append_gap (hgap hback)
  rw [ofSegments_cons]
  split
  · next hblank =>
    rw [hblank, List.append_nil] at hseg
    refine ⟨front ++ (back ++ first), gaps, ?_⟩
    rw [hseg, List.append_assoc]
    exact hrest.append_gap (hgap hfront)
  · have hcomma' : ofSegments segs ≠ [] → ',' ∈ back ++ first :=
      fun hne => List.mem_append_right _ (hcomma hne)
    have htoken := (hrest.cons_token hcomma' (Text.trim seg)).append_gap (hgap hfront)
    refine ⟨front ++ [], (back ++ first) :: gaps, ?_⟩
    rwa [← List.append_assoc, ← List.append_assoc, ← hseg] at htoken

end Spaced

theorem Laid.exists_spaced {tokens : List (List Char)} {text : List Char} (h : Laid tokens text) :
    ∃ first gaps, Spaced tokens first gaps text := by
  obtain ⟨segs, htext, rfl⟩ := h
  cases segs with
  | nil => cases htext
  | cons seg segs =>
    rw [behind_cons, List.cons.injEq] at htext
    rw [← htext.2]
    clear htext
    induction segs generalizing seg with
    | nil =>
      have hnone : Spaced (ofSegments []) [] [] [] := Spaced.nil
      exact hnone.cons_segment (fun hne => absurd rfl hne) seg
    | cons next segs ih =>
      obtain ⟨first, gaps, hrest⟩ := ih next
      have hcomma : IsGap [','] := List.forall_mem_singleton.mpr (Or.inl rfl)
      rw [behind_cons]
      exact (hrest.append_gap hcomma).cons_segment (fun _ => List.mem_cons_self) seg

/-- Reading a text loses nothing: it is made of its tokens with gaps of commas and blanks around
them, and between two tokens there is a comma. The tokens are not empty and have no blanks at
their ends. Each of them alone is read as that one token, and where it has a comma, a bracket is
open in it. -/
theorem tokens_make_up_text_and_are_atomic {program : String} {tokens : List String}
    (h : split program = .ok tokens) :
    (∃ (first : String) (gaps : List String), gaps.length = tokens.length ∧
      (∀ gap ∈ first :: gaps, ∀ c ∈ gap.toList, c = ',' ∨ Text.isBlank c) ∧
      (∀ gap ∈ gaps.dropLast, ',' ∈ gap.toList) ∧
      program = first ++ String.join (List.zipWith (· ++ ·) tokens gaps)) ∧
    ∀ t ∈ tokens, t ≠ "" ∧
      (∀ c ∈ t.toList.head?, ¬Text.isBlank c) ∧ (∀ c ∈ t.toList.getLast?, ¬Text.isBlank c) ∧
      split t = .ok [t] ∧
      ∀ p q, t.toList = p ++ ',' :: q →
        ∃ due, closersBehind [] [] p (',' :: q) = some due ∧ due ≠ [] := by
  obtain ⟨hcut, hlaid⟩ := splitChars_eq_ok_iff.mp (split_eq_ok_iff.mp h)
  constructor
  · obtain ⟨first, gaps, hspaced⟩ := hlaid.exists_spaced
    refine ⟨String.ofList first, gaps.map String.ofList, ?_, ?_, ?_, ?_⟩
    · simpa using hspaced.length_eq
    · simpa [IsGap] using hspaced.isGap
    · intro gap hgap
      rw [← List.map_dropLast] at hgap
      obtain ⟨cs, hcs, rfl⟩ := List.mem_map.mp hgap
      simpa using hspaced.comma cs hcs
    · apply String.toList_injective
      rw [String.toList_append, toList_join_zipWith, hspaced.text_eq]
      simp
  · intro t ht
    have hmem : t.toList ∈ tokens.map String.toList := List.mem_map_of_mem ht
    obtain ⟨hne, htrim⟩ := hlaid.trimmed t.toList hmem
    have halone := hcut.alone t.toList hmem
    refine ⟨?_, Text.not_isBlank_head htrim, Text.not_isBlank_getLast htrim, ?_, ?_⟩
    · rintro rfl
      exact hne rfl
    · have hlaid' := laid_last hne htrim (List.forall_mem_nil _ : IsGap [])
      rw [List.append_nil] at hlaid'
      exact split_eq_ok_iff.mpr (splitChars_eq_ok_iff.mpr ⟨⟨halone, trivial⟩, hlaid'⟩)
    · exact fun p q htext => comma_between_brackets halone htext

theorem bracket_around_lone_parens_is_atomic :
    let program := " (,a(,), (,[,(,),x,],b) ,,\t[,),x] \n,)"
    let tokens := ["(", "a(,)", "(,[,(,),x,],b)", "[,),x]", ")"]
    split program = .ok tokens ∧ split "(,[,(,),x,],b)" = .ok ["(,[,(,),x,],b)"] ∧
      split "[,),x]" = .ok ["[,),x]"] ∧
      ∃ first gaps, program = first ++ String.join (List.zipWith (· ++ ·) tokens gaps) := by
  intro program tokens
  have h : split program = .ok tokens := by decide +kernel
  obtain ⟨⟨first, gaps, -, -, -, htext⟩, hatomic⟩ := tokens_make_up_text_and_are_atomic h
  obtain ⟨-, -, -, hbracket, -⟩ := hatomic "(,[,(,),x,],b)" (by simp [tokens])
  obtain ⟨-, -, -, hstray, -⟩ := hatomic "[,),x]" (by simp [tokens])
  exact ⟨h, hbracket, hstray, first, gaps, htext⟩

end Token

end StackWords
