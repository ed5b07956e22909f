import Mathlib.Data.List.Infix
import StackWords.Proofs.BalancedText

/-! # Texts without lone parentheses

Where no parenthesis is alone between commas every bracket counts, and what is
read can be told from the brackets alone. A text is accepted just if they are
nested. Otherwise the first bracket that closes nothing is reported, or, if there
is none, that brackets are left open.
-/
namespace StackWords.Token

variable {text before after closers : List Char} {c : Char}

def NoLoneParens (text : List Char) : Prop :=
  ∀ n (h : n < text.length), text[n] = '(' ∨ text[n] = ')' →
    isLone (text.take n).reverse (text.drop (n + 1)) = false

instance (text : List Char) : Decidable (NoLoneParens text) :=
  inferInstanceAs (Decidable (∀ n (_ : n < text.length), _ → _ = false))

theorem NoLoneParens.isLone_eq_false (h : NoLoneParens text) {front back : List Char}
    (htext : text = front ++ c :: back) (hc : c = '(' ∨ c = ')') :
    isLone front.reverse back = false := by
  subst htext
  have hn := h front.length (by simp) (by simpa using hc)
  simpa using hn

/-- How many more brackets a text opens than it closes. -/
def rise (text : List Char) : Int :=
  text.countP (fun c => (closer? c).isSome) - text.countP isCloser

/-- The pieces of a text between the commas that no bracket encloses, if `depth` brackets enclose
the text. -/
def pieces (depth : Int) (text : List Char) : List (List Char) :=
  ((text.zip (text.inits.map fun front => depth + rise front)).splitOn (',', 0)).map (·.map Prod.fst)

theorem rise_cons (c : Char) (text : List Char) : rise (c :: text) = rise [c] + rise text := by
  simp only [rise, List.countP_cons, List.countP_nil]
  omega

theorem pieces_cons (depth : Int) (c : Char) (text : List Char) :
    pieces depth (c :: text) =
      if c = ',' ∧ depth = 0 then [] :: pieces (depth + rise [c]) text
      else Text.extendFirst c (pieces (depth + rise [c]) text) := by
  have hdepth : (fun front => depth + rise front) ∘ (c :: ·) =
      fun front => depth + rise [c] + rise front := by
    funext front
    rw [Function.comp_apply, rise_cons, Int.add_assoc]
  have hfirst : depth + rise [] = depth := Int.add_zero depth
  rw [pieces, List.inits_cons, List.map_cons, List.map_map, hdepth, hfirst, List.zip_cons_cons,
    List.splitOn, List.splitOnP_cons_eq_if_modifyHead, pieces, List.splitOn]
  simp only [beq_iff_eq, Prod.mk.injEq]
  split
  · rfl
  · obtain ⟨seg, segs, hsegs⟩ := List.exists_cons_of_ne_nil (List.splitOnP_ne_nil
      (fun x => x == (',', 0)) (text.zip (text.inits.map fun front => depth + rise [c] + rise front)))
    rw [hsegs]
    rfl

theorem not_isCloser_of_opener {o k : Char} (h : closer? o = some k) : isCloser o = false := by
  unfold closer? at h
  split at h <;> cases h <;> rfl

theorem length_of_unwind {left : List Char}
    (h : unwind closer? closers ([c].filter isBracket) = some left) :
    (left.length : Int) = closers.length + rise [c] := by
  by_cases hb : isBracket c
  · rw [List.filter_cons_of_pos hb, List.filter_nil] at h
    cases ho : closer? c with
    | some k =>
      rw [unwind_opener ho] at h
      cases h
      have hrise : rise [c] = 1 := by simp [rise, ho, not_isCloser_of_opener ho]
      rw [hrise, List.length_cons]
      omega
    | none =>
      have hc : isCloser c := by simpa [isBracket, ho] using hb
      cases closers with
      | nil => simp [unwind, ho] at h
      | cons k closers =>
        rw [unwind_closer ho] at h
        split at h <;> cases h
        have hrise : rise [c] = -1 := by simp [rise, ho, hc]
        rw [hrise, List.length_cons]
        omega
  · obtain ⟨ho, hc⟩ := isBracket_eq_false.mp (Bool.eq_false_iff.mpr hb)
    rw [List.filter_cons_of_neg hb] at h
    cases h
    have hrise : rise [c] = 0 := by simp [rise, ho, hc]
    rw [hrise]
    omega

/-- A character that is no lone parenthesis is read as the brackets in front of it say. -/
theorem reading_eq_unwind (hlone : c = '(' ∨ c = ')' → isLone before after = false) :
    reading closers before c after =
      match unwind closer? closers ([c].filter isBracket) with
      | none => .stray
      | some left => if c = ',' ∧ closers = [] then .separator else .part left := by
  by_cases hb : isBracket c
  · have hcomma : ¬(c = ',' ∧ closers = []) := by
      rintro ⟨rfl, -⟩
      cases hb
    rw [List.filter_cons_of_pos hb, List.filter_nil]
    cases ho : closer? c with
    | some k =>
      have hstart : ¬(c = '(' ∧ closers = [] ∧ startsList before after) := by
        rintro ⟨rfl, -, hs⟩
        rw [startsList, hlone (Or.inl rfl)] at hs
        cases hs
      rw [reading_opener ho, if_neg hstart, unwind_opener ho]
      exact (if_neg hcomma).symm
    | none =>
      have hc : isCloser c := by simpa [isBracket, ho] using hb
      have hplain : ¬(c = ')' ∧ closers.head? ≠ some ')' ∧ isLone before after) := by
        rintro ⟨rfl, -, hl⟩
        rw [hlone (Or.inr rfl)] at hl
        cases hl
      simp only [reading, ho, hc, hplain, ↓reduceIte]
      cases closers with
      | nil => simp [unwind, ho]
      | cons k closers =>
        rw [unwind_closer ho]
        by_cases hk : c = k
        · subst hk
          simp [unwind]
        · simp [hk, Ne.symm hk]
  · have hplain := Bool.eq_false_iff.mpr hb
    rw [List.filter_cons_of_neg hb, List.filter_nil]
    by_cases hs : c = ',' ∧ closers = []
    · obtain ⟨rfl, rfl⟩ := hs
      rfl
    · rw [reading_plain hplain hs]
      exact (if_neg hs).symm

theorem unwind_filter_cons (closers : List Char) (c : Char) (rest : List Char) :
    unwind closer? closers ((c :: rest).filter isBracket) =
      (unwind closer? closers ([c].filter isBracket)).bind fun left =>
        unwind closer? left (rest.filter isBracket) := by
  rw [← unwind_append, ← List.filter_append, List.singleton_append]

theorem segments_cons {inner : List Char}
    (hlone : c = '(' ∨ c = ')' → isLone before after = false)
    (h : unwind closer? closers ([c].filter isBracket) = some inner) :
    segments closers before (c :: after) =
      (segments inner (c :: before) after).map fun segs =>
        if c = ',' ∧ closers = [] then [] :: segs else Text.extendFirst c segs := by
  rw [segments, reading_eq_unwind hlone, h]
  by_cases hs : c = ',' ∧ closers = []
  · obtain ⟨rfl, rfl⟩ := hs
    cases h
    rfl
  · simp only [hs, ↓reduceIte]

/-- A text in which every closing bracket is due is cut into its pieces, if none is left open. -/
theorem segments_of_unwind (h : NoLoneParens text) {rest : List Char} :
    ∀ front closers left, text = front ++ rest →
      unwind closer? closers (rest.filter isBracket) = some left →
      segments closers front.reverse rest =
        if left = [] then .ok (pieces closers.length rest) else .error Cause.openBracket := by
  -- `front` is read already. It is kept because whether a parenthesis is lone depends on it.
  induction rest with
  | nil =>
    intro front closers left _ hu
    cases hu
    rw [segments]
    split
    · next hclosers =>
      subst hclosers
      rfl
    · rfl
  | cons c rest ih =>
    intro front closers left htext hu
    rw [unwind_filter_cons] at hu
    obtain ⟨inner, hinner, hrest⟩ := Option.bind_eq_some_iff.mp hu
    have hsegs := ih (front ++ [c]) inner left (by simpa using htext) hrest
    have hlength := length_of_unwind hinner
    rw [List.reverse_append, List.reverse_singleton, List.singleton_append] at hsegs
    rw [segments_cons (h.isLone_eq_false htext) hinner, hsegs, pieces_cons, ← hlength]
    simp only [Int.natCast_eq_zero, List.length_eq_zero_iff]
    cases left with
    | nil => rfl
    | cons k left => rfl

/-- Otherwise the first closing bracket that is not due is reported. -/
theorem exists_stray_of_unwind (h : NoLoneParens text) {rest : List Char} :
    ∀ front closers, text = front ++ rest →
      unwind closer? closers (rest.filter isBracket) = none →
      ∃ part c back left, rest = part ++ c :: back ∧
        unwind closer? closers (part.filter isBracket) = some left ∧
        unwind closer? closers ((part ++ [c]).filter isBracket) = none ∧
        segments closers front.reverse rest = .error (Cause.strayCloser c) := by
  induction rest with
  | nil =>
    intro front closers _ hu
    cases hu
  | cons c rest ih =>
    intro front closers htext hu
    have hlone := h.isLone_eq_false htext
    rw [unwind_filter_cons] at hu
    cases hc : unwind closer? closers ([c].filter isBracket) with
    | none =>
      refine ⟨[], c, rest, closers, rfl, rfl, hc, ?_⟩
      rw [segments, reading_eq_unwind hlone, hc]
    | some inner =>
      rw [hc, Option.bind_some] at hu
      obtain ⟨part, d, back, left, rfl, hpart, hstray, hsegs⟩ :=
        ih (front ++ [c]) inner (by simpa using htext) hu
      rw [List.reverse_append, List.reverse_singleton, List.singleton_append] at hsegs
      refine ⟨c :: part, d, back, left, rfl, ?_, ?_, ?_⟩
      · rw [unwind_filter_cons, hc, Option.bind_some, hpart]
      · rw [List.cons_append, unwind_filter_cons, hc, Option.bind_some, hstray]
      · rw [segments_cons hlone hc, hsegs]
        rfl

theorem extendable_brackets {brackets : List Char} :
    Extendable closer? brackets ↔ ∃ left, unwind closer? [] brackets = some left :=
  extendable_iff_unwind fun _ _ => closer?_closer

instance (brackets : List Char) : Decidable (Extendable closer? brackets) :=
  decidable_of_iff (unwind closer? [] brackets).isSome
    (Option.isSome_iff_exists.trans extendable_brackets.symm)

theorem splitChars_of_unwind (h : NoLoneParens text) {left : List Char}
    (hu : unwind closer? [] (text.filter isBracket) = some left) :
    splitChars text =
      if left = [] then .ok (ofSegments (pieces 0 text)) else .error Cause.openBracket := by
  have hsegs := segments_of_unwind h [] [] left rfl hu
  rw [List.reverse_nil] at hsegs
  rw [splitChars, hsegs]
  cases left with
  | nil => rfl
  | cons k left => rfl

theorem exists_stray_of_not_extendable (h : NoLoneParens text)
    (hstray : ¬ Extendable closer? (text.filter isBracket)) :
    ∃ front c, front ++ [c] <+: text ∧ Extendable closer? (front.filter isBracket) ∧
      ¬ Extendable closer? ((front ++ [c]).filter isBracket) ∧
      splitChars text = .error (Cause.strayCloser c) := by
  have hu : unwind closer? [] (text.filter isBracket) = none := by
    rw [extendable_brackets, ← Option.isSome_iff_exists, Option.not_isSome_iff_eq_none] at hstray
    exact hstray
  obtain ⟨front, c, back, left, htext, hfront, hc, hsegs⟩ := exists_stray_of_unwind h [] [] rfl hu
  rw [List.reverse_nil] at hsegs
  refine ⟨front, c, ⟨back, ?_⟩, extendable_brackets.mpr ⟨left, hfront⟩, ?_, ?_⟩
  · rw [List.append_assoc, List.singleton_append, htext]
  · rw [extendable_brackets, hc]
    simp
  · rw [splitChars, hsegs]
    rfl

/-- Outside of lone parentheses the texts that have tokens are those with nested brackets, and the
tokens are the pieces between the commas that no bracket encloses. Of other texts the first bracket
is reported behind which no further text can make the brackets nested, or else that a bracket is
open. -/
theorem split_reports_first_violation {program : String} (h : NoLoneParens program.toList) :
    let text := program.toList
    let brackets := fun part : List Char => part.filter isBracket
    (∀ tokens, split program = .ok tokens ↔ Nested closer? (brackets text) ∧
      tokens = (((pieces 0 text).map Text.trim).filter (· ≠ [])).map String.ofList) ∧
    ((∃ part, part <+: text ∧ ¬ Extendable closer? (brackets part)) →
      ∃ front c, front ++ [c] <+: text ∧
        (∀ part, part <+: front → Extendable closer? (brackets part)) ∧
        ¬ Extendable closer? (brackets (front ++ [c])) ∧
        split program = .error (Cause.strayCloser c) ∧
        Error.message (Cause.strayCloser c) =
          "unmatched closing character '" ++ String.singleton c ++ "'") ∧
    ((∀ part, part <+: text → Extendable closer? (brackets part)) →
      ¬ Nested closer? (brackets text) →
      split program = .error Cause.openBracket ∧
        Error.message Cause.openBracket = "unmatched opening character") := by
  intro text brackets
  have hnested : Nested closer? (brackets text) ↔ unwind closer? [] (brackets text) = some [] :=
    nested_iff_unwind fun _ _ => closer?_closer
  refine ⟨?_, ?_, ?_⟩
  · intro tokens
    rw [split]
    by_cases hextend : Extendable closer? (brackets text)
    · obtain ⟨left, hu⟩ := extendable_brackets.mp hextend
      rw [splitChars_of_unwind h hu, hnested, hu]
      cases left with
      | nil =>
        exact ⟨fun ht => ⟨rfl, (Except.ok.inj ht).symm⟩, fun ht => congrArg Except.ok ht.2.symm⟩
      | cons k left => simp [Except.map]
    · obtain ⟨front, c, -, -, -, herror⟩ := exists_stray_of_not_extendable h hextend
      rw [herror]
      refine iff_of_false (by simp [Except.map]) fun hn => hextend ⟨[], ?_⟩
      rw [List.append_nil]
      exact hn.1
  · rintro ⟨part, hpart, hstray⟩
    have hextend : ¬ Extendable closer? (brackets text) :=
      fun hall => hstray (hall.mono (hpart.filter isBracket))
    obtain ⟨front, c, hstart, hfront, hc, herror⟩ := exists_stray_of_not_extendable h hextend
    -- No shorter text is stuck, as a part of an extendable one is extendable.
    refine ⟨front, c, hstart, fun part hp => hfront.mono (hp.filter isBracket), hc, ?_, rfl⟩
    rw [split, herror]
    rfl
  · intro hall hopen
    obtain ⟨left, hu⟩ := extendable_brackets.mp (hall text (List.prefix_refl text))
    have hleft : left ≠ [] := by
      rintro rfl
      exact hopen (hnested.mpr hu)
    rw [split, splitChars_of_unwind h hu, if_neg hleft]
    exact ⟨rfl, rfl⟩

theorem stray_bracket_reported_in_front_of_open_ones :
    let nested := " f(x, [y,\x7bz,\x7d]) ,, [u] v,( w)"
    let broken := "a, f(x,[y\x7d,)),(z"
    let unfinished := "a,(b,[c, d],"
    split nested = .ok ["f(x, [y,\x7bz,\x7d])", "[u] v", "( w)"] ∧
      (∃ front, front ++ ['\x7d'] <+: broken.toList ∧
        ¬ Extendable closer? ((front ++ ['\x7d']).filter isBracket) ∧
        split broken = .error (Cause.strayCloser '\x7d')) ∧
      split unfinished = .error Cause.openBracket := by
  intro nested broken unfinished
  have hn : NoLoneParens nested.toList := by decide +kernel
  have hb : NoLoneParens broken.toList := by decide +kernel
  have hu : NoLoneParens unfinished.toList := by decide +kernel
  have hstray : split broken = .error (Cause.strayCloser '\x7d') := by decide +kernel
  have hopen : Extendable closer? (unfinished.toList.filter isBracket) := by decide +kernel
  refine ⟨?_, ?_, ?_⟩
  · exact ((split_reports_first_violation hn).1 _).mpr ⟨by decide +kernel, by decide +kernel⟩
  · obtain ⟨front, c, hstart, -, hc, herror, -⟩ := (split_reports_first_violation hb).2.1
      ⟨broken.toList, List.prefix_refl _, by decide +kernel⟩
    cases hstray.symm.trans herror
    exact ⟨front, hstart, hc, herror⟩
  · exact ((split_reports_first_violation hu).2.2
      (fun part hp => hopen.mono (hp.filter isBracket)) (by decide +kernel)).1

end StackWords.Token
