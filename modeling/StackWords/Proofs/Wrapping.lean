import StackWords.Proofs.Atoms

/-! # Texts between list marks

A list start is told from a bracket by a lookahead that counts parentheses and
nothing else. A lone parenthesis among other brackets closes none of them, yet the
lookahead counts it. So list marks around a text quote its tokens if the first
parenthesis that the lookahead finds too many in the text is lone. Otherwise they
are brackets around the text, and the whole is one token.
-/
namespace StackWords.Token

variable {before after after' closers outer : List Char}

/-- Behind `depth` open parentheses a text leaves none open and closes no others. -/
def Balances (depth : Nat) (text : List Char) : Prop :=
  (∀ part, part <+: text → part.count ')' ≤ depth + part.count '(') ∧
    text.count ')' = depth + text.count '('

/-- A closing parenthesis of a text for which balanced text in front leaves no opening one is alone
between commas. -/
def SurplusIsLone (text : List Char) : Prop :=
  ∀ front back, text = front ++ ')' :: back → Balances 0 front → isLone front.reverse back

theorem balances_nil {depth : Nat} : Balances depth [] ↔ depth = 0 := by
  simp [Balances, eq_comm]

theorem balances_cons {depth : Nat} {c : Char} {text : List Char} :
    Balances depth (c :: text) ↔
      (∀ part, part <+: text → (c :: part).count ')' ≤ depth + (c :: part).count '(') ∧
        (c :: text).count ')' = depth + (c :: text).count '(' := by
  refine and_congr_left fun _ => ?_
  constructor
  · intro h part hpart
    exact h (c :: part) (List.cons_prefix_cons.mpr ⟨rfl, hpart⟩)
  · intro h part hpart
    rcases List.prefix_cons_iff.mp hpart with rfl | ⟨inner, rfl, hinner⟩
    · simp
    · exact h inner hinner

theorem balances_open {depth : Nat} {text : List Char} :
    Balances depth ('(' :: text) ↔ Balances (depth + 1) text := by
  have hclose : ∀ part : List Char, ('(' :: part).count ')' = part.count ')' :=
    fun part => List.count_cons_of_ne (by decide)
  rw [balances_cons]
  simp only [hclose, List.count_cons_self, Balances, Nat.add_right_comm depth 1, Nat.add_assoc]

theorem balances_close {depth : Nat} {text : List Char} :
    Balances (depth + 1) (')' :: text) ↔ Balances depth text := by
  have hopen : ∀ part : List Char, (')' :: part).count '(' = part.count '(' :=
    fun part => List.count_cons_of_ne (by decide)
  rw [balances_cons]
  simp only [hopen, List.count_cons_self, Balances, Nat.add_right_comm depth 1,
    Nat.add_le_add_iff_right, Nat.add_right_cancel_iff]

theorem not_balances_close {text : List Char} : ¬ Balances 0 (')' :: text) := by
  rintro ⟨hparts, -⟩
  have hfirst := hparts [')'] (List.cons_prefix_cons.mpr ⟨rfl, List.nil_prefix⟩)
  simp at hfirst

theorem balances_other {depth : Nat} {c : Char} {text : List Char} (ho : c ≠ '(') (hc : c ≠ ')') :
    Balances depth (c :: text) ↔ Balances depth text := by
  rw [balances_cons]
  simp only [List.count_cons_of_ne ho, List.count_cons_of_ne hc, Balances]

/-- The lookahead stops at the first closing parenthesis behind balanced text. -/
theorem closesLone_iff {depth : Nat} {text : List Char} :
    closesLone depth before text ↔ ∀ front back, text = front ++ ')' :: back →
      Balances depth front → isLone (front.reverse ++ before) back := by
  induction text generalizing depth before with
  | nil => simp [closesLone]
  | cons c text ih =>
    -- In front of all but the parenthesis looked for, the balanced text starts with `c`.
    have hstep : ∀ deeper, (c = ')' → depth ≠ 0) →
        (∀ front, Balances depth (c :: front) ↔ Balances deeper front) →
        (closesLone deeper (c :: before) text ↔ ∀ front back, c :: text = front ++ ')' :: back →
          Balances depth front → isLone (front.reverse ++ before) back) := by
      intro deeper hdepth hbalances
      rw [ih]
      constructor
      · intro h front back htext hfront
        cases front with
        | nil =>
          cases htext
          exact absurd (balances_nil.mp hfront) (hdepth rfl)
        | cons d front =>
          cases htext
          have hlone := h front back rfl ((hbalances front).mp hfront)
          simpa using hlone
      · rintro h front back rfl hfront
        have hlone := h (c :: front) back rfl ((hbalances front).mpr hfront)
        simpa using hlone
    by_cases ho : c = '('
    · subst ho
      exact hstep (depth + 1) (fun h => absurd h (by decide)) fun _ => balances_open
    · by_cases hc : c = ')'
      · subst hc
        cases depth with
        | zero =>
          constructor
          · intro h front back htext hfront
            cases front with
            | nil =>
              cases htext
              exact h
            | cons d front =>
              cases htext
              exact absurd hfront not_balances_close
          · intro h
            exact h [] text rfl (balances_nil.mpr rfl)
        | succ depth => exact hstep depth (fun _ => Nat.succ_ne_zero depth) fun _ => balances_close
      · rw [closesLone_cons_other ho hc]
        exact hstep depth (fun h => absurd h hc) fun _ => balances_other ho hc

theorem closesLone_iff_surplusIsLone {text : List Char} :
    closesLone 0 [] text ↔ SurplusIsLone text := by
  simp only [closesLone_iff, SurplusIsLone, List.append_nil]

theorem surplusIsLone_of_nested {text : List Char} (h : Nested closer? (text.filter isBracket)) :
    SurplusIsLone text := by
  have hlook := closesLone_nested text h 0 [] []
  rw [List.append_nil, List.append_nil] at hlook
  rw [← closesLone_iff_surplusIsLone, hlook, closesLone]

/-- From the front a list end behind a text cannot be seen. -/
theorem LooksLike.listEnd (text : List Char) : LooksLike (text ++ [',', ')']) text := by
  have hend : LooksLike [',', ')'] [] := by
    refine ⟨rfl, fun depth before => ?_⟩
    cases depth <;> rfl
  simpa using hend.append text

theorem cut_append_listEnd (segs : List (List Char)) : Cut (segs ++ [[')']]) ↔ Cut segs := by
  induction segs with
  | nil => exact iff_of_true ⟨rfl, trivial⟩ trivial
  | cons seg segs ih =>
    have hlook : LooksLike (behind (segs ++ [[')']])) (behind segs) := by
      rw [behind_append]
      exact .listEnd _
    rw [List.cons_append, Cut, Cut, ih, closersBehind_congr rfl hlook]

theorem startsList_between (text : List Char) :
    startsList [] (',' :: (text ++ [',', ')'])) = closesLone 0 [] text := by
  have hb : isBoundary [',', '('] = isBoundary [] := rfl
  have hlone : isLone [] (',' :: (text ++ [',', ')'])) = true := rfl
  rw [startsList, hlone, Bool.true_and, closesLone_cons_other (by decide) (by decide),
    closesLone_congr hb, (LooksLike.listEnd text).closesLone_eq]

/-- A text between two parentheses that stand alone. -/
def between (text : List Char) : List Char := '(' :: ',' :: (text ++ [',', ')'])

/-- Parentheses around a text that are list marks leave its tokens as they are. -/
theorem splitChars_between {text : List Char} {tokens : List (List Char)}
    (h : splitChars text = .ok tokens) (hlook : closesLone 0 [] text) :
    splitChars (between text) = .ok (['('] :: tokens ++ [[')']]) := by
  obtain ⟨hcut, segs, htext, rfl⟩ := splitChars_eq_ok_iff.mp h
  have hbehind : behind (segs ++ [[')']]) = ',' :: (text ++ [',', ')']) := by
    rw [behind_append, htext]
    rfl
  have hstart : closersBehind [] [] ['('] (behind (segs ++ [[')']])) = some [] := by
    rw [closersBehind_cons_eq_some]
    refine ⟨[], ?_, rfl⟩
    rw [List.nil_append, hbehind, reading_opener rfl, startsList_between, if_pos ⟨rfl, rfl, hlook⟩]
  have hsegs : segments [] [] (between text) = .ok (['('] :: (segs ++ [[')']])) := by
    refine segments_eq_ok_iff.mpr ⟨?_, hstart, ?_⟩
    · rw [behind_cons, hbehind]
      rfl
    · exact (cut_append_listEnd segs).mpr ((cut_ofSegments segs).mp hcut)
  rw [splitChars, hsegs]
  simp only [Except.map, ofSegments_cons, ofSegments_append]
  rfl

theorem exists_opener {c : Char} (h : isCloser c) : ∃ o, closer? o = some c := by
  simp only [isCloser, Bool.or_eq_true, beq_iff_eq] at h
  rcases h with (rfl | rfl) | rfl
  · exact ⟨'(', rfl⟩
  · exact ⟨'[', rfl⟩
  · exact ⟨'\x7b', rfl⟩

/-- Between brackets a token other than a list mark is read as it is outside of them. -/
theorem closersBehind_between {t : List Char} (ht : Text.trim t = t) (hstart : t ≠ ['('])
    (hend : t ≠ [')']) (h : closersBehind [] [] t after = some []) (ha : isBoundary after)
    (ha' : isBoundary after') (hb : isBoundary before) (houter : outer ≠ []) :
    closersBehind outer before t after' = some outer := by
  suffices hrest : ∀ p closers q, t = p ++ q → closersBehind [] [] p (q ++ after) = some closers →
      closersBehind closers p.reverse q after = some [] →
      closersBehind (closers ++ outer) (p.reverse ++ before) q after' = some outer from
    hrest [] [] t rfl rfl h
  intro p closers q
  induction q generalizing p closers with
  | nil =>
    intro _ _ hq
    cases hq
    rfl
  | cons c q ih =>
    intro htext hp hq
    obtain ⟨k, hr, hk⟩ := closersBehind_cons_eq_some.mp hq
    have hnext := ih (p ++ [c]) k (by simpa using htext) (closersBehind_concat hp hr)
      (by simpa using hk)
    have hne : closers ++ outer ≠ [] := by simp [houter]
    have hsame : reading (closers ++ outer) (p.reverse ++ before) c (q ++ after') =
        .part (k ++ outer) := by
      rcases reading_in_token ht hstart hend htext hp hr hk with ⟨hplain, rfl⟩ |
        ⟨closer, ho, rfl⟩ | ⟨-, hc, rfl⟩ | ⟨rfl, rfl, hlone, due, rest, rfl, hdue⟩
      · exact reading_plain hplain (fun hs => hne hs.2) _ _
      · rw [reading_opener ho, if_neg fun hs => hne hs.2.1]
        rfl
      · obtain ⟨o, ho⟩ := exists_opener hc
        exact reading_due ho _ _ _
      · refine reading_lone (fun h => hdue (Option.some.inj h)) ?_
        rw [isLone_append ha, isLone] at hlone
        rw [isLone_append ha', isLone, isBoundary_append hb]
        exact hlone
    rw [closersBehind_cons_eq_some]
    exact ⟨k ++ outer, hsame, by simpa using hnext⟩

/-- Between brackets a comma is a part of the text, and the segment behind it is read first. -/
theorem closersBehind_behind_cons {seg : List Char} {segs : List (List Char)}
    (houter : outer ≠ [])
    (h : closersBehind outer (',' :: before) (Text.trim seg) (behind segs ++ after) =
      some closers) :
    closersBehind outer before (behind (seg :: segs)) after =
      closersBehind closers (seg.reverse ++ ',' :: before) (behind segs) after := by
  have hcomma : ∀ rest, reading outer before ',' rest = .part outer :=
    reading_plain rfl (fun hs => houter hs.2) before
  rw [← closersBehind_trim _ _ seg (.refl _)] at h
  rw [behind_cons, closersBehind]
  simp only [hcomma, closersBehind_append, h, Option.bind_some]

/-- Between parentheses a list start opens one and a list end closes one. Other tokens leave them
as they are. -/
theorem closersBehind_token {t rest : List Char} (ht : Text.trim t = t)
    (h : closersBehind [] [] t rest = some []) (hrest : isBoundary rest) {lists : Nat}
    {marks : List String}
    (hmarks : unwind listEnd? (List.replicate lists ")")
      ([String.ofList t].filter isListMark ++ marks) = some []) :
    ∃ inner, unwind listEnd? (List.replicate inner ")") marks = some [] ∧
      ∀ before after, isBoundary before → isBoundary after →
        closersBehind (List.replicate (lists + 1) ')') before t after =
          some (List.replicate (inner + 1) ')') := by
  have houter : List.replicate (lists + 1) ')' ≠ [] := by simp
  by_cases hs : t = ['(']
  · subst hs
    refine ⟨lists + 1, hmarks, fun before after _ _ => ?_⟩
    rw [closersBehind_cons_eq_some]
    refine ⟨_, ?_, rfl⟩
    rw [reading_opener rfl, if_neg fun hs => houter hs.2.1]
    rfl
  · by_cases he : t = [')']
    · subst he
      cases lists with
      | zero => cases hmarks
      | succ inner =>
        refine ⟨inner, hmarks, fun before after _ _ => ?_⟩
        have hopen : closer? '(' = some ')' := rfl
        exact closersBehind_cons_eq_some.mpr ⟨_, reading_due hopen _ _ _, rfl⟩
    · have hmark : isListMark (String.ofList t) = false := by
        have hs' : String.ofList t ≠ "(" := fun h => hs (String.ofList_inj.mp h)
        have he' : String.ofList t ≠ ")" := fun h => he (String.ofList_inj.mp h)
        simp [isListMark, hs', he']
      rw [List.filter_cons_of_neg (Bool.eq_false_iff.mp hmark)] at hmarks
      refine ⟨lists, hmarks, fun before after hb ha => ?_⟩
      exact closersBehind_between ht hs he h hrest ha hb houter

theorem filter_isListMark_ofSegments_cons (seg : List Char) (segs : List (List Char)) :
    ((ofSegments (seg :: segs)).map String.ofList).filter isListMark =
      [String.ofList (Text.trim seg)].filter isListMark ++
        ((ofSegments segs).map String.ofList).filter isListMark := by
  rw [ofSegments_cons, ← List.filter_append]
  split
  · next hblank =>
    rw [hblank]
    rfl
  · rfl

/-- Behind an open parenthesis the list marks among the segments of a text are brackets. -/
theorem closersBehind_behind {segs : List (List Char)} (hcut : Cut segs) (ha : isBoundary after)
    (lists : Nat)
    (h : unwind listEnd? (List.replicate lists ")")
      (((ofSegments segs).map String.ofList).filter isListMark) = some [])
    (before : List Char) :
    closersBehind (List.replicate (lists + 1) ')') before (behind segs) after = some [')'] := by
  induction segs generalizing lists before with
  | nil =>
    cases lists with
    | zero => rfl
    | succ n => cases h
  | cons seg segs ih =>
    obtain ⟨hseg, hrest⟩ := hcut
    rw [closersBehind_trim [] [] seg (.refl _)] at hseg
    rw [filter_isListMark_ofSegments_cons] at h
    obtain ⟨inner, hmarks, htoken⟩ :=
      closersBehind_token (Text.trim_trim seg) hseg (isBoundary_behind segs) h
    have houter : List.replicate (lists + 1) ')' ≠ [] := by simp
    have hrest' : isBoundary (behind segs ++ after) := by
      rw [isBoundary_append ha]
      exact isBoundary_behind segs
    rw [closersBehind_behind_cons houter (htoken _ _ rfl hrest')]
    exact ih hrest inner hmarks _

theorem trim_between (text : List Char) : Text.trim (between text) = between text := by
  have hopen : Text.isBlank '(' = false := rfl
  have hclose : Text.isBlank ')' = false := rfl
  simp [between, Text.trim, Text.trimStart, Text.trimEnd, hopen, hclose]

theorem listEnd?_listEnd (o k : String) (h : listEnd? o = some k) : listEnd? k = none := by
  obtain ⟨-, rfl⟩ := listEnd?_eq_some h
  rfl

/-- Parentheses around a text that are brackets make it one token. -/
theorem splitChars_bracketed {text : List Char} {tokens : List (List Char)}
    (h : splitChars text = .ok tokens)
    (hmarks : Nested listEnd? ((tokens.map String.ofList).filter isListMark))
    (hlook : closesLone 0 [] text = false) :
    splitChars (between text) = .ok [between text] := by
  obtain ⟨hcut, segs, htext, rfl⟩ := splitChars_eq_ok_iff.mp h
  have hbehind : ',' :: (text ++ [',', ')']) = behind segs ++ [',', ')'] := by
    rw [htext]
    rfl
  have hopen : reading [] [] '(' (',' :: (text ++ [',', ')']) ++ []) = .part [')'] := by
    rw [List.append_nil, reading_opener rfl, startsList_between, hlook]
    rfl
  have hinner : closersBehind [')'] ['('] (behind segs) ([',', ')'] ++ []) = some [')'] :=
    closersBehind_behind ((cut_ofSegments segs).mp hcut) rfl 0
      ((nested_iff_unwind listEnd?_listEnd).mp hmarks) ['(']
  have hend : ∀ before, closersBehind [')'] before [',', ')'] [] = some [] := fun _ => rfl
  refine splitChars_eq_ok_iff.mpr ⟨⟨?_, trivial⟩, ?_⟩
  · rw [behind_nil, between, closersBehind_cons_eq_some]
    refine ⟨_, hopen, ?_⟩
    rw [hbehind, closersBehind_append, hinner, Option.bind_some, hend]
  · have hgap : IsGap [] := List.forall_mem_nil _
    have hlaid := laid_last (List.cons_ne_nil _ _) (trim_between text) hgap
    rwa [List.append_nil] at hlaid

theorem toList_between (program : String) :
    ("(," ++ program ++ ",)").toList = between program.toList := by
  simp [between]

/-- List marks around a text with nested list marks quote its tokens just if its first surplus
parenthesis is lone, which is so if its brackets are nested. Otherwise the whole is one token. -/
theorem wrapping_quotes_tokens_or_text {program : String} {tokens : List String}
    (h : split program = .ok tokens) (hmarks : Nested listEnd? (tokens.filter isListMark)) :
    (split ("(," ++ program ++ ",)") = .ok (["("] ++ tokens ++ [")"]) ↔
      SurplusIsLone program.toList) ∧
    (¬ SurplusIsLone program.toList →
      split ("(," ++ program ++ ",)") = .ok ["(," ++ program ++ ",)"]) ∧
    (Nested closer? (program.toList.filter isBracket) → SurplusIsLone program.toList) := by
  have hchars := split_eq_ok_iff.mp h
  have hquoted : SurplusIsLone program.toList →
      split ("(," ++ program ++ ",)") = .ok (["("] ++ tokens ++ [")"]) := by
    intro hlone
    have hbetween := splitChars_between hchars (closesLone_iff_surplusIsLone.mpr hlone)
    rw [split_eq_ok_iff, toList_between, hbetween]
    simp
  have hwhole : ¬ SurplusIsLone program.toList →
      split ("(," ++ program ++ ",)") = .ok ["(," ++ program ++ ",)"] := by
    intro hlone
    rw [← closesLone_iff_surplusIsLone, Bool.not_eq_true] at hlone
    have hmarks' : Nested listEnd?
        (((tokens.map String.toList).map String.ofList).filter isListMark) := by
      simpa using hmarks
    rw [split_eq_ok_iff, List.map_singleton, toList_between]
    exact splitChars_bracketed hchars hmarks' hlone
  refine ⟨⟨fun hsplit => ?_, hquoted⟩, hwhole, surplusIsLone_of_nested⟩
  by_contra hlone
  have hone := (hwhole hlone).symm.trans hsplit
  have hlength := congrArg List.length (Except.ok.inj hone)
  simp at hlength

theorem wrapping_of_lone_parenthesis_in_brackets :
    split ("(," ++ "(,a,),[,),]" ++ ",)") = .ok ["(", "(", "a", ")", "[,),]", ")"] ∧
      split ("(," ++ "b,([,),])" ++ ",)") = .ok ["(,b,([,),]),)"] := by
  have hlone : SurplusIsLone "(,a,),[,),]".toList :=
    closesLone_iff_surplusIsLone.mp (by decide +kernel)
  have hclosed : ¬ SurplusIsLone "b,([,),])".toList :=
    closesLone_iff_surplusIsLone.not.mp (by decide +kernel)
  have htokens : split "(,a,),[,),]" = .ok ["(", "a", ")", "[,),]"] := by decide +kernel
  have htokens' : split "b,([,),])" = .ok ["b", "([,),])"] := by decide +kernel
  have hmarks : Nested listEnd? (["(", "a", ")", "[,),]"].filter isListMark) :=
    (nested_iff_unwind listEnd?_listEnd).mpr (by decide +kernel)
  have hmarks' : Nested listEnd? (["b", "([,),])"].filter isListMark) :=
    (nested_iff_unwind listEnd?_listEnd).mpr (by decide +kernel)
  exact ⟨(wrapping_quotes_tokens_or_text htokens hmarks).1.mpr hlone,
    (wrapping_quotes_tokens_or_text htokens' hmarks').2.1 hclosed⟩

/-- The parenthesis in square brackets closes nothing, but the lookahead counts it. -/
theorem wrapping_does_not_always_quote :
    ¬ ∀ (program : String) (tokens : List String), split program = .ok tokens →
      Nested listEnd? (tokens.filter isListMark) →
      split ("(," ++ program ++ ",)") = .ok (["("] ++ tokens ++ [")"]) := by
  intro h
  have htokens : split "([,),])" = .ok ["([,),])"] := by decide +kernel
  have hmarks : Nested listEnd? (["([,),])"].filter isListMark) :=
    (nested_iff_unwind listEnd?_listEnd).mpr (by decide +kernel)
  have hwhole : split ("(," ++ "([,),])" ++ ",)") = .ok ["(,([,),]),)"] := by decide +kernel
  have hsame := Except.ok.inj (hwhole.symm.trans (h _ _ htokens hmarks))
  exact absurd hsame (by decide +kernel)

end StackWords.Token
