import Mathlib.Data.List.Induction
import StackWords.Proofs.Cutting
import StackWords.Proofs.Nesting

/-! # Texts with nested brackets

The tokenizer looks ahead over parentheses alone and takes lone ones out of the
brackets. Where the brackets of a text are nested both views agree: the lookahead
finds the parenthesis that belongs to the first one, so list starts and list ends
come in pairs around nested text, and nothing is stray or left open.
-/
namespace StackWords.Token

variable {before after closers : List Char}

theorem closer?_cases {o k : Char} (h : closer? o = some k) :
    (o = '(' ∧ k = ')') ∨ o ≠ '(' ∧ o ≠ ')' ∧ k ≠ '(' ∧ k ≠ ')' := by
  unfold closer? at h
  split at h <;> cases h <;> simp

theorem closer?_closer {o k : Char} (h : closer? o = some k) : closer? k = none := by
  unfold closer? at h
  split at h <;> cases h <;> rfl

instance (brackets : List Char) : Decidable (Nested closer? brackets) :=
  decidable_of_iff _ (nested_iff_unwind fun _ _ => closer?_closer).symm

theorem isCloser_closer {o k : Char} (h : closer? o = some k) : isCloser k := by
  unfold closer? at h
  split at h <;> cases h <;> rfl

/-- The lookahead over parentheses passes over nested text. -/
theorem closesLone_nested (text : List Char) (h : Nested closer? (text.filter isBracket)) :
    ∀ depth before after, closesLone depth before (text ++ after) =
      closesLone depth (text.reverse ++ before) after := by
  refine Nested.filter_induction ?nil ?other ?pair text h
  case nil => exact fun _ _ _ => rfl
  case other =>
    intro c text hc ih depth before after
    obtain ⟨ho, hk⟩ := ne_paren_of_not_isBracket hc
    rw [List.cons_append, closesLone_cons_other ho hk, ih]
    simp
  case pair =>
    intro o k inner rest hk _ ihi ihr depth before after
    rw [List.cons_append, List.append_assoc, List.cons_append]
    rcases closer?_cases hk with ⟨rfl, rfl⟩ | ⟨ho, ho', hk, hk'⟩
    · have hclose : ∀ before after,
          closesLone (depth + 1) before (')' :: after) = closesLone depth (')' :: before) after :=
        fun _ _ => rfl
      have hopen : closesLone depth before ('(' :: (inner ++ ')' :: (rest ++ after))) =
          closesLone (depth + 1) ('(' :: before) (inner ++ ')' :: (rest ++ after)) := rfl
      rw [hopen, ihi, hclose, ihr]
      simp
    · rw [closesLone_cons_other ho ho', ihi, closesLone_cons_other hk hk', ihr]
      simp

theorem reading_opener {o k : Char} (h : closer? o = some k) (closers before after : List Char) :
    reading closers before o after =
      if o = '(' ∧ closers = [] ∧ startsList before after then .part closers
      else .part (k :: closers) := by
  simp only [reading, h]

theorem reading_due {o k : Char} (h : closer? o = some k) (closers before after : List Char) :
    reading (k :: closers) before k after = .part closers := by
  have hlone : ¬(k = ')' ∧ some k ≠ some ')' ∧ isLone before after) := by
    rintro ⟨rfl, hne, -⟩
    exact hne rfl
  simp only [reading, closer?_closer h, isCloser_closer h, hlone, ↓reduceIte, List.head?_cons,
    List.tail_cons]

theorem reading_lone (hhead : closers.head? ≠ some ')') (h : isLone before after) :
    reading closers before ')' after = .part closers := by
  simp [reading, closer?, isCloser, hhead, h]

def Accepted (closers before text : List Char) : Prop :=
  ∃ segs, segments closers before text = .ok segs

theorem Accepted.cons_part {c : Char} {k : List Char} (h : Accepted k (c :: before) after)
    (hr : reading closers before c after = .part k) : Accepted closers before (c :: after) := by
  obtain ⟨segs, hs⟩ := h
  exact ⟨Text.extendFirst c segs, by rw [segments, hr]; simp only [hs, Except.map]⟩

theorem Accepted.cons_separator {c : Char} (h : Accepted closers (c :: before) after)
    (hr : reading closers before c after = .separator) : Accepted closers before (c :: after) := by
  obtain ⟨segs, hs⟩ := h
  exact ⟨[] :: segs, by rw [segments, hr]; simp only [hs, Except.map]⟩

/-- Nested text is read to its end and leaves the open brackets as they were. -/
theorem accepted_nested (text : List Char) (h : Nested closer? (text.filter isBracket)) :
    ∀ closers before after, Accepted closers (text.reverse ++ before) after →
      Accepted closers before (text ++ after) := by
  refine Nested.filter_induction ?nil ?other ?pair text h
  case nil => exact fun _ _ _ h => h
  case other =>
    intro c text hc ih closers before after hafter
    have hrest := ih closers (c :: before) after (by simpa using hafter)
    by_cases hs : c = ',' ∧ closers = []
    · obtain ⟨rfl, rfl⟩ := hs
      exact hrest.cons_separator (reading_comma _ _)
    · exact hrest.cons_part (reading_plain hc hs _ _)
  case pair =>
    intro o k inner rest hk hinner ihi ihr closers before after hafter
    rw [List.cons_append, List.append_assoc, List.cons_append]
    have hrest : Accepted closers (k :: (inner.reverse ++ o :: before)) (rest ++ after) :=
      ihr _ _ _ (by simpa using hafter)
    have hopen := reading_opener hk closers before (inner ++ k :: (rest ++ after))
    split at hopen
    · next hstart =>
      -- The lookahead has found the parenthesis that closes this one, and it is lone.
      obtain ⟨rfl, rfl, hlist⟩ := hstart
      cases hk
      rw [startsList, Bool.and_eq_true] at hlist
      have hlone : isLone (inner.reverse ++ '(' :: before) (rest ++ after) := by
        have hlook := hlist.2
        rwa [closesLone_nested inner hinner] at hlook
      exact (ihi _ _ _ (hrest.cons_part (reading_lone (by simp) hlone))).cons_part hopen
    · exact (ihi _ _ _ (hrest.cons_part (reading_due hk _ _ _))).cons_part hopen

theorem blank_of_boundary_before {p rest : List Char} (h : closersBehind [] [] p rest = some [])
    (hb : isBoundary p.reverse) : ∀ c ∈ p, Text.isBlank c := by
  induction p using List.reverseRecOn generalizing rest with
  | nil => exact List.forall_mem_nil _
  | append_singleton p d ih =>
    rw [closersBehind_append] at h
    obtain ⟨k, hp, hd⟩ := Option.bind_eq_some_iff.mp h
    obtain ⟨inner, hr, hinner⟩ := closersBehind_cons_eq_some.mp hd
    cases hinner
    rw [List.reverse_append, List.reverse_singleton, List.singleton_append, isBoundary_cons] at hb
    split at hb
    · next hblank =>
      rw [reading_blank hblank] at hr
      cases hr
      simpa [or_imp, forall_and, hblank] using ih hp hb
    · have hcomma : d = ',' := by simpa using hb
      subst hcomma
      -- A comma outside all brackets separates, and one inside leaves brackets open.
      by_cases hk : k = []
      · subst hk
        cases hr
      · rw [reading_plain rfl (fun hs => hk hs.2)] at hr
        cases hr
        exact absurd rfl hk

theorem blank_of_boundary_after {q k : List Char} (h : closersBehind [] before q after = some k)
    (hb : isBoundary (q ++ after)) : ∀ c ∈ q, Text.isBlank c := by
  induction q generalizing before with
  | nil => exact List.forall_mem_nil _
  | cons d q ih =>
    obtain ⟨inner, hr, hinner⟩ := closersBehind_cons_eq_some.mp h
    rw [List.cons_append, isBoundary_cons] at hb
    split at hb
    · next hblank =>
      rw [reading_blank hblank] at hr
      cases hr
      exact List.forall_mem_cons.mpr ⟨hblank, ih hinner hb⟩
    · have hcomma : d = ',' := by simpa using hb
      subst hcomma
      cases hr

/-- A lone character outside all brackets is a token of its own. -/
theorem eq_singleton_of_lone {t p q k : List Char} {c : Char} (ht : Text.trim t = t)
    (htext : t = p ++ c :: q) (hc : Text.isBlank c = false)
    (hp : closersBehind [] [] p (c :: q ++ after) = some [])
    (hq : closersBehind [] (c :: p.reverse) q after = some k)
    (hlone : isLone p.reverse (q ++ after)) : t = [c] := by
  rw [isLone, Bool.and_eq_true] at hlone
  have hpblank := blank_of_boundary_before hp hlone.1
  have hqblank := blank_of_boundary_after hq hlone.2
  have htrim := Text.trim_append hpblank hqblank [c]
  rw [List.append_assoc, List.singleton_append, ← htext, ht] at htrim
  rw [htrim]
  simp [Text.trim, Text.trimStart, Text.trimEnd, hc]

theorem closersBehind_concat {p rest k : List Char} {c : Char}
    (hp : closersBehind [] [] p (c :: rest) = some closers)
    (hr : reading closers p.reverse c rest = .part k) :
    closersBehind [] [] (p ++ [c]) rest = some k := by
  have hc : closersBehind closers (p.reverse ++ []) [c] rest = some k := by
    rw [List.append_nil, closersBehind_cons_eq_some]
    exact ⟨k, hr, rfl⟩
  rw [closersBehind_append, List.singleton_append, hp, Option.bind_some, hc]

/-- What a part of a token is that is no list start and no list end: the parentheses of lists are
excluded by the token as a whole. -/
theorem reading_in_token {t p q k : List Char} {c : Char} (ht : Text.trim t = t)
    (hstart : t ≠ ['(']) (hend : t ≠ [')']) (htext : t = p ++ c :: q)
    (hp : closersBehind [] [] p (c :: q ++ after) = some closers)
    (hr : reading closers p.reverse c (q ++ after) = .part k)
    (hk : closersBehind k (c :: p.reverse) q after = some []) :
    (isBracket c = false ∧ k = closers) ∨
    (∃ closer, closer? c = some closer ∧ k = closer :: closers) ∨
    (closer? c = none ∧ isCloser c ∧ closers = c :: k) ∨
    (c = ')' ∧ k = closers ∧ isLone p.reverse (q ++ after) ∧
      ∃ due rest, closers = due :: rest ∧ due ≠ ')') := by
  rcases reading_cases hr with hplain | hopen | ⟨rfl, rfl, hlone, rfl⟩ | hdue |
    ⟨rfl, hhead, hlone, rfl⟩
  · exact Or.inl hplain
  · exact Or.inr (Or.inl hopen)
  · exact absurd (eq_singleton_of_lone ht htext rfl hp hk hlone) hstart
  · exact Or.inr (Or.inr (Or.inl hdue))
  · cases k with
    | nil => exact absurd (eq_singleton_of_lone ht htext rfl hp hk hlone) hend
    | cons due rest =>
      have hne : due ≠ ')' := fun h => hhead (congrArg some h)
      exact Or.inr (Or.inr (Or.inr ⟨rfl, rfl, hlone, due, rest, rfl, hne⟩))

/-- A token that is no list start and no list end opens and closes brackets of its own only, if
all brackets are nested. -/
theorem unwind_token {t : List Char} (ht : Text.trim t = t) (hstart : t ≠ ['('])
    (hend : t ≠ [')']) {missing rest left : List Char} (q : List Char) :
    ∀ p closers, t = p ++ q → closersBehind [] [] p (q ++ after) = some closers →
      closersBehind closers p.reverse q after = some [] →
      unwind closer? (closers ++ missing) (q.filter isBracket ++ rest) = some left →
      unwind closer? missing rest = some left := by
  -- The part `p` of the token is read and `q` is to come. The closers due in the token lie on top
  -- of those missing around it.
  induction q with
  | nil =>
    intro p closers _ _ hq hu
    cases hq
    exact hu
  | cons c q ih =>
    intro p closers htext hp hq hu
    obtain ⟨k, hr, hk⟩ := closersBehind_cons_eq_some.mp hq
    have hnext := closersBehind_concat hp hr
    have hdone := ih (p ++ [c]) k (by simpa using htext) hnext (by simpa using hk)
    rcases reading_in_token ht hstart hend htext hp hr hk with ⟨hplain, rfl⟩ | ⟨closer, ho, rfl⟩ |
      ⟨ho, hc, rfl⟩ | ⟨rfl, rfl, -, due, rest, rfl, hdue⟩
    · rw [List.filter_cons_of_neg (Bool.eq_false_iff.mp hplain)] at hu
      exact hdone hu
    · have hb : isBracket c := by simp [isBracket, ho]
      rw [List.filter_cons_of_pos hb, List.cons_append, unwind_opener ho] at hu
      exact hdone hu
    · have hb : isBracket c := by simp [isBracket, hc]
      rw [List.filter_cons_of_pos hb, List.cons_append, List.cons_append, unwind_closer ho,
        if_pos rfl] at hu
      exact hdone hu
    · -- A lone parenthesis among other brackets is not nested.
      have hb : isBracket ')' := rfl
      rw [List.filter_cons_of_pos hb, List.cons_append, List.cons_append, unwind_closer rfl,
        if_neg hdue.symm] at hu
      cases hu

theorem filter_isBracket_blanks {blanks : List Char} (h : ∀ c ∈ blanks, Text.isBlank c) :
    blanks.filter isBracket = [] := by
  refine List.filter_eq_nil_iff.mpr fun c hc => ?_
  simp [not_isBracket_of_isBlank (h c hc)]

theorem filter_isBracket_trim (seg : List Char) :
    (Text.trim seg).filter isBracket = seg.filter isBracket := by
  obtain ⟨front, back, hseg, hfront, hback⟩ := Text.exists_trim seg
  have hf := filter_isBracket_blanks hfront
  have hb := filter_isBracket_blanks hback
  conv_rhs => rw [hseg]
  rw [List.filter_append, List.filter_append, hf, hb, List.nil_append, List.append_nil]

/-- All brackets of a text stand in its tokens. -/
theorem Laid.filter_isBracket {tokens : List (List Char)} {text : List Char}
    (h : Laid tokens text) : text.filter isBracket = tokens.flatten.filter isBracket := by
  obtain ⟨segs, htext, rfl⟩ := h
  have hcomma : (',' :: text).filter isBracket = text.filter isBracket := rfl
  rw [← hcomma, ← htext]
  clear hcomma htext
  induction segs with
  | nil => rfl
  | cons seg segs ih =>
    have hseg : (behind (seg :: segs)).filter isBracket =
        (Text.trim seg).filter isBracket ++ (ofSegments segs).flatten.filter isBracket := by
      rw [behind_cons, filter_isBracket_trim, ← ih, ← List.filter_append]
      rfl
    rw [hseg, ofSegments_cons]
    split
    · next hblank => rw [hblank]; rfl
    · rw [List.flatten_cons, List.filter_append]

def listEnd? (t : String) : Option String := if t = "(" then some ")" else none

theorem listEnd?_eq_some {o k : String} (h : listEnd? o = some k) : o = "(" ∧ k = ")" := by
  rw [listEnd?] at h
  split at h
  · next ho =>
    cases h
    exact ⟨ho, rfl⟩
  · cases h

def isListMark (t : String) : Bool := t = "(" || t = ")"

/-- The list marks among tokens are nested as far as the brackets are: each of them is the only
bracket of its token, and the brackets of the other tokens are nested in themselves. -/
theorem unwind_listMarks {tokens : List String} (hcut : Cut (tokens.map String.toList))
    (htrim : ∀ t ∈ tokens, Text.trim t.toList = t.toList) (lists : Nat)
    (h : unwind closer? (List.replicate lists ')')
      ((tokens.map String.toList).flatten.filter isBracket) = some []) :
    unwind listEnd? (List.replicate lists ")") (tokens.filter isListMark) = some [] := by
  induction tokens generalizing lists with
  | nil =>
    cases lists with
    | zero => rfl
    | succ n => cases h
  | cons t tokens ih =>
    obtain ⟨ht, hrest⟩ := hcut
    have htrim' := List.forall_mem_cons.mp htrim
    rw [List.map_cons, List.flatten_cons, List.filter_append] at h
    by_cases hs : t = "("
    · subst hs
      have hopen : listEnd? "(" = some ")" := rfl
      rw [List.filter_cons_of_pos rfl, unwind_opener hopen]
      exact ih hrest htrim'.2 (lists + 1) h
    · by_cases he : t = ")"
      · subst he
        cases lists with
        | zero => cases h
        | succ n =>
          rw [List.filter_cons_of_pos rfl, List.replicate_succ, unwind_closer rfl, if_pos rfl]
          exact ih hrest htrim'.2 n h
      · rw [List.filter_cons_of_neg (by simp [isListMark, hs, he])]
        refine ih hrest htrim'.2 lists ?_
        have hstart : t.toList ≠ ['('] := fun h => hs (String.toList_injective h)
        have hend : t.toList ≠ [')'] := fun h => he (String.toList_injective h)
        exact unwind_token htrim'.1 hstart hend t.toList [] [] rfl rfl ht h

theorem count_of_nested {marks : List String} (h : Nested listEnd? marks) :
    marks.count "(" = marks.count ")" := by
  induction h with
  | nil => rfl
  | @pair o k inner rest hk _ _ ihi ihr =>
    obtain ⟨rfl, rfl⟩ := listEnd?_eq_some hk
    rw [List.count_cons_self, List.count_append, List.count_cons_of_ne (by decide),
      List.count_cons_of_ne (by decide), List.count_append, List.count_cons_self, ihi, ihr]
    omega

theorem listDepth_of_nested {tokens : List String}
    (h : Nested listEnd? (tokens.filter isListMark)) : listDepth tokens = 0 := by
  have hcount := count_of_nested h
  rw [List.count_filter rfl, List.count_filter rfl] at hcount
  rw [listDepth, hcount]
  omega

/-- A text whose brackets are nested has tokens, the list starts and list ends among them are
nested, and it is complete. -/
theorem split_of_nested_brackets (program : String)
    (h : Nested closer? (program.toList.filter isBracket)) :
    ∃ tokens, split program = .ok tokens ∧ Nested listEnd? (tokens.filter isListMark) ∧
      isComplete program := by
  have hread : Accepted [] [] (program.toList ++ []) :=
    accepted_nested program.toList h [] [] [] ⟨[[]], rfl⟩
  rw [List.append_nil] at hread
  obtain ⟨segs, hsegs⟩ := hread
  obtain ⟨tokens, htokens⟩ : ∃ tokens : List String, tokens.map String.toList = ofSegments segs :=
    ⟨(ofSegments segs).map String.ofList, by simp⟩
  have hsplit : split program = .ok tokens := by
    rw [split_eq_ok_iff, splitChars, hsegs, htokens]
    rfl
  obtain ⟨hcut, hlaid⟩ := splitChars_eq_ok_iff.mp (split_eq_ok_iff.mp hsplit)
  have htrim : ∀ t ∈ tokens, Text.trim t.toList = t.toList := fun t ht =>
    (hlaid.trimmed t.toList (List.mem_map_of_mem ht)).2
  have hmarks : Nested listEnd? (tokens.filter isListMark) := by
    rw [hlaid.filter_isBracket] at h
    exact supplies_of_unwind
      (unwind_listMarks hcut htrim 0 ((nested_iff_unwind fun _ _ => closer?_closer).mp h))
  refine ⟨tokens, hsplit, hmarks, ?_⟩
  simp only [isComplete, hsplit, listDepth_of_nested hmarks]
  rfl

theorem split_of_brackets_around_lone_parens :
    let program := "f(a, (,b),[,\x7b,\x7d,]) , (, d,(x,), ( ,),)"
    let tokens := ["f(a, (,b),[,\x7b,\x7d,])", "(", "d", "(x,)", "(", ")", ")"]
    split program = .ok tokens ∧ Nested listEnd? (tokens.filter isListMark) ∧
      isComplete program := by
  intro program tokens
  have hnested : Nested closer? (program.toList.filter isBracket) := by decide +kernel
  have htokens : split program = .ok tokens := by decide +kernel
  obtain ⟨_, hsplit, hmarks, hcomplete⟩ := split_of_nested_brackets program hnested
  cases htokens.symm.trans hsplit
  exact ⟨htokens, hmarks, hcomplete⟩

end StackWords.Token
