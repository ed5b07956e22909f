import Mathlib.Data.List.Count
import Mathlib.Data.List.Infix
import StackWords.Proofs.Inlining
import StackWords.Proofs.Sequencing

/-! # Unfinished inputs

An input counts as complete if its list starts do not outnumber its list ends. A
program is read list by list instead: each list start looks for an end of its own.
Both agree as long as no list end comes too early. Behind one that does, further
list starts make up for it in the count, but not for the program.
-/
namespace StackWords

namespace Instruction

/-- Reads tokens as far as they go: the instructions, and the error that stops the reading. -/
def readAll : List Value → List Instruction × Option Error
  | [] => ([], none)
  | t :: ts =>
    match _h : read t ts with
    | .error e => ([], some e)
    | .ok (i, rest) => (readAll rest).map (i :: ·) id
termination_by tokens => tokens.length
decreasing_by exact Nat.lt_succ_of_le (length_read_le ‹_›)

@[simp] theorem readAll_nil : readAll [] = ([], none) := by
  rw [readAll]

theorem readAll_of_error {t : Value} {ts : List Value} {e : Error} (h : read t ts = .error e) :
    readAll (t :: ts) = ([], some e) := by
  rw [readAll]
  split
  · next e' h' =>
    cases h.symm.trans h'
    rfl
  · next h' => cases h.symm.trans h'

theorem readAll_of_ok {t : Value} {ts rest : List Value} {i : Instruction}
    (h : read t ts = .ok (i, rest)) :
    readAll (t :: ts) = (i :: (readAll rest).1, (readAll rest).2) := by
  rw [readAll]
  split
  · next h' => cases h.symm.trans h'
  · next h' =>
    cases h.symm.trans h'
    rfl

end Instruction

open Instruction

/-- A program runs the instructions that are read off its tokens, and then fails if the reading was
stopped. -/
theorem Dictionary.execute_eq_readAll (d : Dictionary) (r : Runner) (tokens : List Value)
    (c : Context) :
    d.execute r tokens c =
      (readAll tokens).1.foldlM (fun c i => d.perform r i c) c >>= fun c =>
        (readAll tokens).2.elim (.ok c) .error := by
  induction tokens using read_induction generalizing c with
  | nil => simp
  | cons t ts ih =>
    rw [execute_cons]
    cases hi : read t ts with
    | error e =>
      rw [readAll_of_error hi]
      rfl
    | ok step =>
      obtain ⟨i, rest⟩ := step
      rw [readAll_of_ok hi]
      simp only [Outcome.ofExcept, Outcome.ok_bind, List.foldlM_cons, bind_assoc]
      simp only [ih i rest hi]

theorem Dictionary.endsWith_listEnd (d : Dictionary) (ts : List Value) (c : Context)
    (unfreeze : Bool) (result : Except Error Context) :
    d.EndsWith (.listEnd :: ts) c unfreeze result ↔ result = .error Cause.strayListEnd := by
  have hfail : d.EndsWith (.listEnd :: ts) c unfreeze (.error Cause.strayListEnd) :=
    endsWith_error_iff.mpr (d.endsWith_unread (read_listEnd ts) c)
  constructor
  · exact fun h => h.unique hfail
  · rintro rfl
    exact hfail

namespace Value

theorem unwind_start (missing ts : List Value) :
    unwind endOfList? missing ((listStart :: ts).filter isListMark) =
      unwind endOfList? (listEnd :: missing) (ts.filter isListMark) := by
  have hopen : endOfList? listStart = some listEnd := by decide
  rw [List.filter_cons_of_pos (by decide), unwind_opener hopen]

theorem unwind_end (missing ts : List Value) :
    unwind endOfList? (listEnd :: missing) ((listEnd :: ts).filter isListMark) =
      unwind endOfList? missing (ts.filter isListMark) := by
  rw [List.filter_cons_of_pos (by decide), unwind_closer (by decide), if_pos rfl]

theorem unwind_other {t : Value} (hs : t ≠ listStart) (he : t ≠ listEnd) (missing ts : List Value) :
    unwind endOfList? missing ((t :: ts).filter isListMark) =
      unwind endOfList? missing (ts.filter isListMark) := by
  rw [List.filter_cons_of_neg (by simp [isListMark, hs, he])]

theorem endOfList?_listEnd (o k : Value) (h : o.endOfList? = some k) : k.endOfList? = none := by
  obtain ⟨-, rfl⟩ := endOfList?_eq_some h
  decide

theorem balanced_iff_unwind {ts : List Value} :
    Balanced ts ↔ unwind endOfList? [] (ts.filter isListMark) = some [] :=
  nested_iff_unwind endOfList?_listEnd

/-- If at no place more lists have ended than were open, then those that started more than ended are
open at the end. -/
theorem unwind_of_count {lists : Nat} {ts : List Value}
    (h : ∀ front, front <+: ts → front.count listEnd ≤ lists + front.count listStart) :
    unwind endOfList? (List.replicate lists listEnd) (ts.filter isListMark) =
      some (List.replicate (lists + ts.count listStart - ts.count listEnd) listEnd) := by
  induction ts generalizing lists with
  | nil => rfl
  | cons t ts ih =>
    have hrest : ∀ front, front <+: ts →
        (t :: front).count listEnd ≤ lists + (t :: front).count listStart :=
      fun front hf => h (t :: front) (List.cons_prefix_cons.mpr ⟨rfl, hf⟩)
    by_cases hs : t = listStart
    · subst hs
      have hne : listStart ≠ listEnd := by decide
      simp only [List.count_cons_self, List.count_cons_of_ne hne] at hrest ⊢
      have hdeeper : ∀ front, front <+: ts →
          front.count listEnd ≤ lists + 1 + front.count listStart := by
        intro front hf
        have hle := hrest front hf
        omega
      rw [unwind_start, ← List.replicate_succ, ih hdeeper]
      congr 2
      omega
    · by_cases he : t = listEnd
      · subst he
        simp only [List.count_cons_self, List.count_cons_of_ne hs] at hrest ⊢
        obtain _ | lists := lists
        · have hfirst := hrest [] List.nil_prefix
          simp at hfirst
        · have hlower : ∀ front, front <+: ts →
              front.count listEnd ≤ lists + front.count listStart := by
            intro front hf
            have hle := hrest front hf
            omega
          rw [List.replicate_succ, unwind_end, ih hlower]
          congr 2
          omega
      · simp only [List.count_cons_of_ne hs, List.count_cons_of_ne he] at hrest ⊢
        rw [unwind_other hs he, ih hrest]

/-- If at some place more lists have ended than were open, then the first list end for which none is
open stands behind balanced tokens. -/
theorem exists_stray_of_count {lists : Nat} {ts : List Value}
    (h : ∃ front, front <+: ts ∧ lists + front.count listStart < front.count listEnd) :
    ∃ part rest, ts = part ++ listEnd :: rest ∧
      unwind endOfList? (List.replicate lists listEnd) (part.filter isListMark) = some [] ∧
      part.count listEnd = lists + part.count listStart := by
  induction ts using List.reverseRecOn with
  | nil =>
    obtain ⟨front, hfront, hcount⟩ := h
    cases List.prefix_nil.mp hfront
    simp at hcount
  | append_singleton ts t ih =>
    by_cases hearly : ∃ front, front <+: ts ∧ lists + front.count listStart < front.count listEnd
    · obtain ⟨part, rest, rfl, hpart⟩ := ih hearly
      exact ⟨part, rest ++ [t], by simp, hpart⟩
    · -- The last token is the first at which ends prevail, so it is an end, and all that were open
      -- in front of it are used up.
      have hfront : ∀ front, front <+: ts →
          front.count listEnd ≤ lists + front.count listStart :=
        fun front hf => Nat.not_lt.mp fun hlt => hearly ⟨front, hf, hlt⟩
      obtain ⟨front, hf, hcount⟩ := h
      obtain rfl : front = ts ++ [t] :=
        (List.prefix_concat_iff.mp hf).resolve_right fun hs => hearly ⟨front, hs, hcount⟩
      have hle := hfront ts (List.prefix_refl ts)
      rw [List.count_append, List.count_append] at hcount
      have hlast : t = listEnd := by
        by_contra hne
        have hnone : [t].count listEnd = 0 := List.count_eq_zero.mpr (by simpa using Ne.symm hne)
        omega
      subst hlast
      rw [List.count_singleton_self] at hcount
      have hused : lists + ts.count listStart - ts.count listEnd = 0 := by omega
      refine ⟨ts, [], rfl, ?_, by omega⟩
      rw [unwind_of_count hfront, hused]
      rfl

end Value

namespace Instruction

open Value

theorem unwind_of_capture {depth : Nat} {ts items rest : List Value}
    (h : capture depth ts = some (items, rest)) :
    unwind endOfList? (List.replicate depth listEnd) (items.filter isListMark) = some [] := by
  fun_induction capture depth ts generalizing items with
  | case1 depth => cases h
  | case2 depth ts ih =>
    obtain ⟨⟨taken, after⟩, hc, hp⟩ := Option.map_eq_some_iff.mp h
    obtain ⟨rfl, rfl⟩ := Prod.mk.inj hp
    rw [unwind_start]
    exact ih hc
  | case3 ts _ =>
    cases h
    rfl
  | case4 ts depth _ ih =>
    obtain ⟨⟨taken, after⟩, hc, hp⟩ := Option.map_eq_some_iff.mp h
    obtain ⟨rfl, rfl⟩ := Prod.mk.inj hp
    rw [List.replicate_succ, unwind_end]
    exact ih hc
  | case5 depth t ts hs he ih =>
    obtain ⟨⟨taken, after⟩, hc, hp⟩ := Option.map_eq_some_iff.mp h
    obtain ⟨rfl, rfl⟩ := Prod.mk.inj hp
    rw [unwind_other hs he]
    exact ih hc

/-- A list start takes the balanced tokens up to a list end. -/
theorem capture_eq_some_iff {ts items rest : List Value} :
    capture 0 ts = some (items, rest) ↔ ts = items ++ listEnd :: rest ∧ Value.Balanced items := by
  constructor
  · intro h
    exact ⟨(capture_eq_some h).1, balanced_iff_unwind.mpr (unwind_of_capture h)⟩
  · rintro ⟨rfl, hitems⟩
    exact capture_quoted hitems rest

theorem capture_of_unwind {ts : List Value}
    (h : unwind endOfList? [listEnd] (ts.filter isListMark) = some []) :
    ∃ items rest, capture 0 ts = some (items, rest) := by
  obtain ⟨inner, after, hmarks, hinner, -⟩ := supplies_of_unwind h
  -- The marks are split at the end that is due; what stands there among all tokens may have some
  -- that are no marks in front of it.
  obtain ⟨front, back, rfl, hfront, hback⟩ := List.filter_eq_append_iff.mp hmarks
  obtain ⟨passed, rest, rfl, hpassed, -, -⟩ := List.filter_eq_cons_iff.mp hback
  have hnone : passed.filter isListMark = [] := List.filter_eq_nil_iff.mpr hpassed
  refine ⟨front ++ passed, rest, capture_eq_some_iff.mpr ⟨by simp, ?_⟩⟩
  rw [Value.Balanced, List.filter_append, hfront, hnone, List.append_nil]
  exact hinner

/-- Where no list end comes too early the reading stops only at a list that is left open. -/
theorem readAll_of_unwind {ts left : List Value}
    (h : unwind endOfList? [] (ts.filter isListMark) = some left) :
    (readAll ts).2 = if left = [] then none else some (Cause.openList : Error) := by
  induction ts using read_induction with
  | nil =>
    cases h
    simp
  | cons t ts ih =>
    by_cases hs : t = listStart
    · subst hs
      rw [unwind_start] at h
      cases hc : capture 0 ts with
      | none =>
        have hleft : left ≠ [] := by
          rintro rfl
          obtain ⟨items, rest, hsome⟩ := capture_of_unwind h
          cases hc.symm.trans hsome
        rw [readAll_of_error (read_openList hc), if_neg hleft]
      | some list =>
        -- What is captured is balanced, so behind its end no list is open and the reading goes on
        -- as from the start.
        obtain ⟨items, rest⟩ := list
        obtain ⟨rfl, hitems⟩ := capture_eq_some_iff.mp hc
        have hread := read_quoted hitems rest
        rw [List.filter_append, unwind_nested_append endOfList?_listEnd hitems, unwind_end] at h
        rw [readAll_of_ok hread]
        exact ih _ rest hread h
    · by_cases he : t = listEnd
      · -- An end with no list open would come too early.
        subst he
        rw [List.filter_cons_of_pos (by decide)] at h
        cases h
      · have hmark : t.isListMark = false := by simp [isListMark, hs, he]
        obtain ⟨i, hread⟩ := read_unmarked hmark
        rw [unwind_other hs he] at h
        rw [readAll_of_ok (hread ts)]
        exact ih i ts (hread ts) h

end Instruction

theorem count_literals (text : String) (tokens : List String) :
    (tokens.map Value.literal).count (.literal text) = tokens.count text :=
  List.count_map_of_injective tokens Value.literal (fun _ _ h => Value.literal.inj h) text

theorem eq_error_of_map {α β : Type} {x : Except Error α} {f : α → β} {e : Error}
    (h : x.map f = .error e) : x = .error e := by
  cases x with
  | ok a => cases h
  | error e' =>
    cases h
    rfl

namespace Token

theorem segments_eq_error {closers before text : List Char} {e : Error}
    (h : segments closers before text = .error e) :
    e = Cause.openBracket ∨ ∃ c, e = Cause.strayCloser c := by
  induction text generalizing closers before with
  | nil =>
    rw [segments] at h
    split at h <;> cases h
    exact Or.inl rfl
  | cons c text ih =>
    rw [segments] at h
    split at h
    · exact ih (eq_error_of_map h)
    · exact ih (eq_error_of_map h)
    · cases h
      exact Or.inr ⟨c, rfl⟩

theorem split_eq_error {program : String} {e : Error} (h : split program = .error e) :
    e = Cause.openBracket ∨ ∃ c, e = Cause.strayCloser c :=
  segments_eq_error (eq_error_of_map (eq_error_of_map h))

theorem message_strayCloser_ne (c : Char) :
    Error.message (Cause.strayCloser c) ≠ "unmatched opening character" := by
  have hmessage : Error.message (Cause.strayCloser c) =
      "unmatched closing character '" ++ String.singleton c ++ "'" := rfl
  rw [hmessage]
  intro h
  have hlength := congrArg String.length h
  rw [String.length_append, String.length_append, String.length_singleton] at hlength
  exact absurd hlength (by decide)

theorem isComplete_of_split {input : String} {tokens : List String} (h : split input = .ok tokens) :
    isComplete input = decide (tokens.count "(" ≤ tokens.count ")") := by
  have hdepth : listDepth tokens ≤ 0 ↔ tokens.count "(" ≤ tokens.count ")" := by
    rw [listDepth]
    omega
  simp only [isComplete, h, hdepth]

/-- An input is complete just if no list is left open where a program reads it, as long as no list
end comes too early. An input without tokens is complete unless a bracket is open. -/
theorem isComplete_agrees_with_reading (input : String) :
    (∀ tokens, split input = .ok tokens →
      (∀ front, front <+: tokens → front.count ")" ≤ front.count "(") →
      let program := tokens.map Value.literal
      (isComplete input = false ↔
        ∃ e, (readAll program).2 = some e ∧ e.message = "unmatched opening parenthesis") ∧
      ∀ (d : Dictionary) (r : Runner) (c : Context),
        d.execute r program c =
          (readAll program).1.foldlM (fun c i => d.perform r i c) c >>= fun c =>
            (readAll program).2.elim (.ok c) .error) ∧
    ∀ e, split input = .error e →
      (isComplete input = false ↔ e.message = "unmatched opening character") := by
  constructor
  · intro tokens htokens hfront program
    refine ⟨?_, fun d r c => d.execute_eq_readAll r program c⟩
    have hprogram : ∀ front, front <+: program →
        front.count Value.listEnd ≤ 0 + front.count Value.listStart := by
      intro front hf
      obtain ⟨part, hpart, rfl⟩ := List.prefix_map_iff.mp hf
      have hcount := hfront part hpart
      rw [Value.listEnd, Value.listStart, count_literals, count_literals]
      omega
    have hread := readAll_of_unwind (Value.unwind_of_count hprogram)
    rw [Value.listEnd, Value.listStart, count_literals, count_literals] at hread
    rw [hread, isComplete_of_split htokens, decide_eq_false_iff_not]
    by_cases hclosed : tokens.count "(" ≤ tokens.count ")"
    · have hnone : 0 + tokens.count "(" - tokens.count ")" = 0 := by omega
      rw [hnone]
      refine iff_of_false (fun hopen => hopen hclosed) ?_
      rintro ⟨e, he, -⟩
      cases he
    · have hsome : ¬ 0 + tokens.count "(" - tokens.count ")" = 0 := by omega
      rw [if_neg (mt (List.replicate_eq_nil_iff _).mp hsome)]
      exact iff_of_true hclosed ⟨_, rfl, rfl⟩
  · intro e he
    simp only [isComplete, he]
    rcases split_eq_error he with rfl | ⟨c, rfl⟩
    · exact iff_of_true rfl rfl
    · exact iff_of_false (by simp) (message_strayCloser_ne c)

theorem list_left_open_behind_nested_lists_is_incomplete :
    let input := "a,(,b,(,(c),),),(,:d,(,)"
    let tokens := ["a", "(", "b", "(", "(c)", ")", ")", "(", ":d", "(", ")"]
    isComplete input = false ∧
      (∃ e, (readAll (tokens.map .literal)).2 = some e ∧
        e.message = "unmatched opening parenthesis") ∧
      isComplete "(,a,),f(b" = false ∧ isComplete "(,a,),(b]" = true := by
  intro input tokens
  have htokens : split input = .ok tokens := by decide +kernel
  have hfronts : ∀ front ∈ tokens.inits, front.count ")" ≤ front.count "(" := by decide +kernel
  have hincomplete : isComplete input = false := by decide +kernel
  have hopen : split "(,a,),f(b" = .error Cause.openBracket := by decide +kernel
  have hstray : split "(,a,),(b]" = .error (Cause.strayCloser ']') := by decide +kernel
  refine ⟨hincomplete, ?_, ?_, ?_⟩
  · have hagrees := (isComplete_agrees_with_reading input).1 tokens htokens
      fun front hfront => hfronts front ((List.mem_inits _ _).mpr hfront)
    exact hagrees.1.mp hincomplete
  · exact ((isComplete_agrees_with_reading _).2 _ hopen).mpr rfl
  · have hagrees := (isComplete_agrees_with_reading _).2 _ hstray
    rw [← Bool.not_eq_false]
    exact fun hfalse => message_strayCloser_ne ']' (hagrees.mp hfalse)

/-- Behind a list end that comes too early no tokens can mend a program: it fails there, if it comes
so far. But the input is taken as complete only if at most one more list starts than ends behind
that list end. -/
theorem stray_list_end_fails_and_is_outnumbered {input : String} {tokens : List String}
    (h : split input = .ok tokens)
    (hstray : ∃ front, front <+: tokens ∧ front.count "(" < front.count ")") :
    ∃ front rest, tokens = front ++ ")" :: rest ∧ Value.Balanced (front.map .literal) ∧
      (isComplete input ↔ rest.count "(" ≤ rest.count ")" + 1) ∧
      ∀ (d : Dictionary) (c : Context) (more : List Value) (unfreeze : Bool)
        (result : Except Error Context),
        d.EndsWith (tokens.map .literal ++ more) c unfreeze result ↔
          (∃ next, d.EndsWith (front.map .literal) c false (.ok next) ∧
            result = .error Cause.strayListEnd) ∨
          ∃ e, d.EndsWith (front.map .literal) c false (.error e) ∧ result = .error e := by
  obtain ⟨early, hstart, hearly⟩ := hstray
  have hvalues : 0 + (early.map Value.literal).count Value.listStart <
      (early.map Value.literal).count Value.listEnd := by
    rw [Value.listEnd, Value.listStart, count_literals, count_literals]
    omega
  obtain ⟨part, back, hsplit, hpart, hcount⟩ :=
    Value.exists_stray_of_count ⟨_, hstart.map Value.literal, hvalues⟩
  obtain ⟨front, rest, rfl, rfl, hrest⟩ := List.map_eq_append_iff.mp hsplit
  obtain ⟨text, rest, rfl, htext, -⟩ := List.map_eq_cons_iff.mp hrest
  cases htext
  have hbalanced : Value.Balanced (front.map .literal) := Value.balanced_iff_unwind.mpr hpart
  refine ⟨front, rest, rfl, hbalanced, ?_, ?_⟩
  · rw [Value.listEnd, Value.listStart, count_literals, count_literals] at hcount
    rw [isComplete_of_split h, decide_eq_true_iff, List.count_append, List.count_append,
      List.count_cons_self, List.count_cons_of_ne (by decide)]
    omega
  · intro d c more unfreeze result
    have hprogram : (front ++ ")" :: rest).map Value.literal ++ more =
        front.map .literal ++ .listEnd :: (rest.map .literal ++ more) := by
      rw [List.map_append, List.append_assoc]
      rfl
    rw [hprogram, Dictionary.endsWith_balanced_append hbalanced]
    simp only [Results.bind, Dictionary.endsWith_listEnd]

theorem program_with_stray_list_end_is_incomplete :
    let input := "(,a,),),b,(,:dup,("
    let tokens := ["(", "a", ")", ")", "b", "(", ":dup", "("]
    split input = .ok tokens ∧ (∃ front, front <+: tokens ∧ front.count "(" < front.count ")") ∧
      isComplete input = false ∧
      ∀ (d : Dictionary) (c next : Context) (more : List Value) (unfreeze : Bool),
        ¬ d.EndsWith (tokens.map .literal ++ more) c unfreeze (.ok next) := by
  intro input tokens
  have htokens : split input = .ok tokens := by decide +kernel
  have hstray : ∃ front, front <+: tokens ∧ front.count "(" < front.count ")" :=
    ⟨["(", "a", ")", ")"], by decide, by decide⟩
  refine ⟨htokens, hstray, by decide +kernel, ?_⟩
  intro d c next more unfreeze hrun
  obtain ⟨front, rest, -, -, -, hruns⟩ := stray_list_end_fails_and_is_outnumbered htokens hstray
  rcases (hruns d c more unfreeze _).mp hrun with ⟨_, -, hresult⟩ | ⟨_, -, hresult⟩
  · cases hresult
  · cases hresult

/-- Two list starts behind a list end that closes nothing outnumber it. -/
theorem stray_list_end_is_not_always_complete :
    ¬ ∀ (input : String) (tokens : List String), split input = .ok tokens →
      (∃ front, front <+: tokens ∧ front.count "(" < front.count ")") → isComplete input := by
  intro h
  have htokens : split "),(,(" = .ok [")", "(", "("] := by decide +kernel
  have hincomplete : isComplete "),(,(" = false := by decide +kernel
  have hcomplete := h _ _ htokens ⟨[")"], by decide, by decide⟩
  rw [hincomplete] at hcomplete
  cases hcomplete

end Token

end StackWords
