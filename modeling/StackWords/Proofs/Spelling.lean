import StackWords.Proofs.Atoms
import StackWords.Proofs.Ending
import StackWords.Proofs.Reading

/-! # Lists written out and read back

The text of a list is a program: run in any context it pushes one list. Lists in
it come back as the tokens that spell them, so a list made of tokens comes back as
it is. What it takes is that every literal is a token of its own and keeps its
brackets to itself.
-/
namespace StackWords

namespace Value

mutual

/-- The tokens that spell a value: those of the items of a list stand between a list start and a
list end. -/
def spelled : Value → List String
  | .literal text => [text]
  | .list items => "(" :: (spelledItems items ++ [")"])
  | .object item => [item.rendering]

def spelledItems : List Value → List String
  | [] => []
  | v :: vs => v.spelled ++ spelledItems vs

end

/-- The values built of lists, to any depth, and of literals with a property. -/
inductive BuiltFrom (P : String → Prop) : Value → Prop where
  | literal {text : String} : P text → BuiltFrom P (.literal text)
  | list {items : List Value} : (∀ v ∈ items, BuiltFrom P v) → BuiltFrom P (.list items)

theorem renderItems_append (vs ws : List Value) :
    renderItems (vs ++ ws) = renderItems vs ++ renderItems ws := by
  induction vs with
  | nil => simp [renderItems]
  | cons v vs ih => simp only [List.cons_append, renderItems, ih, String.append_assoc]

mutual

/-- A value and the tokens that spell it have one text. -/
theorem renderItems_spelled (v : Value) :
    renderItems (v.spelled.map .literal) = "," ++ v.render :=
  match v with
  | .literal text => by simp [spelled, renderItems]
  | .list items => by
    have hitems := renderItems_spelledItems items
    have hend : renderItems ([")"].map .literal) = ",)" := by decide
    rw [spelled, List.map_cons, List.map_append, renderItems, renderItems_append, hitems, hend,
      render_list, render_literal]
    simp only [String.append_assoc]
  | .object item => by simp [spelled, renderItems, render]

theorem renderItems_spelledItems (vs : List Value) :
    renderItems ((spelledItems vs).map .literal) = renderItems vs :=
  match vs with
  | [] => rfl
  | v :: vs => by
    have hv := renderItems_spelled v
    have hvs := renderItems_spelledItems vs
    rw [spelledItems, List.map_append, renderItems_append, hv, hvs, renderItems]

end

theorem render_spelledItems (items : List Value) :
    (list ((spelledItems items).map .literal)).render = (list items).render := by
  rw [render_list, render_list, renderItems_spelledItems]

end Value

namespace Token

/-- A literal that keeps its brackets to itself and is a token of its own. -/
def IsPlain (text : String) : Prop :=
  Nested closer? (text.toList.filter isBracket) ∧ split text = .ok [text]

instance (text : String) : Decidable (IsPlain text) := inferInstanceAs (Decidable (_ ∧ _))

theorem IsPlain.isListMark_eq_false {text : String} (h : IsPlain text) :
    isListMark text = false := by
  rw [Bool.eq_false_iff]
  intro hmark
  have hcases : text = "(" ∨ text = ")" := by simpa [isListMark] using hmark
  rcases hcases with rfl | rfl
  · exact absurd h.1 (by decide)
  · exact absurd h.1 (by decide)

/-- Tokens that are list marks, nested among each other, or plain. -/
structure Flat (texts : List String) : Prop where
  plain : ∀ t ∈ texts, isListMark t = false → IsPlain t
  nested : Nested listEnd? (texts.filter isListMark)

namespace Flat

theorem nil : Flat [] := ⟨List.forall_mem_nil _, .nil⟩

theorem singleton {t : String} (h : IsPlain t) : Flat [t] := by
  refine ⟨List.forall_mem_singleton.mpr fun _ => h, ?_⟩
  rw [List.filter_cons_of_neg (by simp [h.isListMark_eq_false])]
  exact .nil

theorem append {ts us : List String} (ht : Flat ts) (hu : Flat us) : Flat (ts ++ us) := by
  refine ⟨List.forall_mem_append.mpr ⟨ht.plain, hu.plain⟩, ?_⟩
  rw [List.filter_append]
  exact ht.nested.append hu.nested

theorem between_marks {ts : List String} (h : Flat ts) : Flat ("(" :: (ts ++ [")"])) := by
  constructor
  · intro t ht hmark
    simp only [List.mem_cons, List.mem_append, List.not_mem_nil, or_false] at ht
    rcases ht with rfl | ht | rfl
    · cases hmark
    · exact h.plain t ht hmark
    · cases hmark
  · have hmarks : ("(" :: (ts ++ [")"])).filter isListMark =
        "(" :: (ts.filter isListMark ++ [")"]) := by
      rw [List.filter_cons_of_pos rfl, List.filter_append]
      rfl
    rw [hmarks]
    exact .pair rfl h.nested .nil

theorem spelledItems {vs : List Value} (h : ∀ v ∈ vs, Flat v.spelled) :
    Flat (Value.spelledItems vs) := by
  induction vs with
  | nil => exact .nil
  | cons v vs ih =>
    obtain ⟨hv, hvs⟩ := List.forall_mem_cons.mp h
    exact hv.append (ih hvs)

/-- A value built of plain literals is spelled by list marks and plain tokens. -/
theorem spelled {v : Value} (h : v.BuiltFrom IsPlain) : Flat v.spelled := by
  induction h with
  | literal ht => exact .singleton ht
  | list _ ih => exact (spelledItems ih).between_marks

end Flat

theorem Flat.nested_brackets {texts : List String} (h : Flat texts) :
    Nested closer? ((behind (texts.map String.toList)).filter isBracket) := by
  obtain ⟨hplain, hnested⟩ := h
  revert hplain
  refine Nested.filter_induction ?nil ?other ?pair texts hnested
  case nil => exact fun _ => .nil
  case other =>
    intro t texts ht ih hplain
    obtain ⟨hp, hrest⟩ := List.forall_mem_cons.mp hplain
    rw [List.map_cons, behind_cons, List.filter_cons_of_neg (by decide), List.filter_append]
    exact (hp ht).1.append (ih hrest)
  case pair =>
    intro o k inner rest hk _ ihi ihr hplain
    obtain ⟨rfl, rfl⟩ := listEnd?_eq_some hk
    obtain ⟨-, hplain⟩ := List.forall_mem_cons.mp hplain
    obtain ⟨hi, hr⟩ := List.forall_mem_append.mp hplain
    obtain ⟨-, hr⟩ := List.forall_mem_cons.mp hr
    have hpair := Nested.pair (show closer? '(' = some ')' from rfl) (ihi hi) (ihr hr)
    simpa [behind_append, isBracket, closer?, isCloser] using hpair

/-- Where a list starts, the lookahead passes over the list and finds its end alone. -/
theorem startsList_flat {texts : List String} (h : Flat texts) (more : List (List Char)) :
    startsList [] (behind (texts.map String.toList ++ [')'] :: more)) := by
  rw [startsList, Bool.and_eq_true]
  constructor
  · exact isBoundary_behind _
  · have hlook := closesLone_nested (behind (texts.map String.toList)) h.nested_brackets 0 ['(']
      (behind ([')'] :: more))
    rw [behind_append, hlook, behind_cons, closesLone_cons_other (by decide) (by decide)]
    exact isBoundary_behind more

theorem Flat.cut {texts : List String} (h : Flat texts) (more : List (List Char))
    (hmore : Cut more) : Cut (texts.map String.toList ++ more) := by
  obtain ⟨hplain, hnested⟩ := h
  revert hplain more
  refine Nested.filter_induction ?nil ?other ?pair texts hnested
  case nil => exact fun more hmore _ => hmore
  case other =>
    intro t texts ht ih more hmore hplain
    obtain ⟨hp, hrest⟩ := List.forall_mem_cons.mp hplain
    obtain ⟨hcut, hlaid⟩ := splitChars_eq_ok_iff.mp (split_eq_ok_iff.mp (hp ht).2)
    have htrim := (hlaid.trimmed t.toList List.mem_cons_self).2
    have hstart : t.toList ≠ ['('] := by
      intro heq
      cases (String.toList_injective heq : t = "(")
      cases ht
    -- Alone the token was read in front of the end of a text, here it is in front of a comma.
    refine ⟨?_, ih more hmore hrest⟩
    exact closersBehind_in_text htrim hstart (isBoundary_behind _) hcut.1
  case pair =>
    intro o k inner rest hk hinner ihi ihr more hmore hplain
    -- The tokens are put together from the back: each needs those behind it for its lookahead.
    obtain ⟨rfl, rfl⟩ := listEnd?_eq_some hk
    obtain ⟨-, hplain⟩ := List.forall_mem_cons.mp hplain
    obtain ⟨hi, hr⟩ := List.forall_mem_append.mp hplain
    obtain ⟨-, hr⟩ := List.forall_mem_cons.mp hr
    have hend : Cut ([')'] :: (rest.map String.toList ++ more)) := by
      refine ⟨?_, ihr more hmore hr⟩
      have hlone : isLone [] (behind (rest.map String.toList ++ more)) := isBoundary_behind _
      exact closersBehind_cons_eq_some.mpr ⟨[], reading_lone (by simp) hlone, rfl⟩
    have hopen := startsList_flat ⟨hi, hinner⟩ (rest.map String.toList ++ more)
    have hcut := ihi _ hend hi
    rw [List.map_cons, List.map_append, List.map_cons, List.cons_append, List.append_assoc]
    refine ⟨?_, hcut⟩
    refine closersBehind_cons_eq_some.mpr ⟨[], ?_, rfl⟩
    rw [List.nil_append, reading_opener rfl]
    exact if_pos ⟨rfl, rfl, hopen⟩

theorem toList_renderItems (texts : List String) :
    (Value.renderItems (texts.map .literal)).toList = behind (texts.map String.toList) := by
  induction texts with
  | nil => rfl
  | cons t texts ih => simp [Value.renderItems, ih]

/-- The text of a flat list is read as its tokens between a list start and a list end. -/
theorem split_render {texts : List String} (h : Flat texts) :
    split (Value.list (texts.map .literal)).render = .ok ("(" :: (texts ++ [")"])) := by
  have hflat := h.between_marks
  have hcut := hflat.cut [] trivial
  rw [List.append_nil] at hcut
  have htext : (Value.list (texts.map .literal)).render.toList =
      [','].intercalate (("(" :: (texts ++ [")"])).map String.toList) := by
    rw [List.map_cons, intercalate_eq_behind, List.map_append, behind_append,
      ← toList_renderItems, Value.render_list]
    simp
  have htrimmed : ∀ t ∈ ("(" :: (texts ++ [")"])).map String.toList, t ≠ [] ∧ Text.trim t = t := by
    intro t ht
    obtain ⟨s, hs, rfl⟩ := List.mem_map.mp ht
    by_cases hmark : isListMark s
    · have hcases : s = "(" ∨ s = ")" := by simpa [isListMark] using hmark
      rcases hcases with rfl | rfl <;> decide
    · have hplain := hflat.plain s hs (Bool.eq_false_iff.mpr hmark)
      obtain ⟨-, hlaid⟩ := splitChars_eq_ok_iff.mp (split_eq_ok_iff.mp hplain.2)
      exact hlaid.trimmed s.toList List.mem_cons_self
  rw [split_eq_ok_iff, htext]
  exact splitChars_eq_ok_iff.mpr ⟨hcut, laid_intercalate htrimmed⟩

end Token

def Value.endOfList? (v : Value) : Option Value := if v = .listStart then some .listEnd else none

theorem Value.endOfList?_eq_some {o k : Value} (h : o.endOfList? = some k) :
    o = .listStart ∧ k = .listEnd := by
  rw [endOfList?] at h
  split at h
  · next ho =>
    cases h
    exact ⟨ho, rfl⟩
  · cases h

def Value.isListMark (v : Value) : Bool := v = .listStart || v = .listEnd

theorem Value.nested_literals {texts : List String}
    (h : Nested Token.listEnd? (texts.filter Token.isListMark)) :
    Nested endOfList? ((texts.map .literal).filter isListMark) := by
  have hmark : isListMark ∘ literal = Token.isListMark := by
    funext t
    simp [isListMark, Token.isListMark, listStart, listEnd]
  rw [List.filter_map, hmark]
  refine h.map ?_
  intro o k hk
  obtain ⟨rfl, rfl⟩ := Token.listEnd?_eq_some hk
  rfl

/-- A capture passes over values with nested list marks. -/
theorem Instruction.capture_nested {vs : List Value}
    (h : Nested Value.endOfList? (vs.filter Value.isListMark)) :
    ∀ depth ts, capture depth (vs ++ ts) =
      (capture depth ts).map (Prod.map (vs ++ ·) id) := by
  -- For every depth, since the values of an inner list are captured one deeper.
  refine Nested.filter_induction ?nil ?other ?pair vs h
  case nil =>
    intro depth ts
    simp only [List.nil_append]
    cases capture depth ts <;> rfl
  case other =>
    intro v vs hv ih depth ts
    obtain ⟨hs, he⟩ : v ≠ .listStart ∧ v ≠ .listEnd := by simpa [Value.isListMark] using hv
    rw [List.cons_append, capture_other hs he, ih]
    cases capture depth ts <;> rfl
  case pair =>
    intro o k inner rest hk _ ihi ihr depth ts
    obtain ⟨rfl, rfl⟩ := Value.endOfList?_eq_some hk
    rw [List.cons_append, List.append_assoc, List.cons_append, capture_start, ihi, capture_end, ihr]
    cases capture depth ts with
    | none => rfl
    | some result =>
      obtain ⟨items, after⟩ := result
      simp

theorem Instruction.capture_quoted {vs : List Value}
    (h : Nested Value.endOfList? (vs.filter Value.isListMark)) (more : List Value) :
    capture 0 (vs ++ .listEnd :: more) = some (vs, more) := by
  rw [capture_nested h, capture_zero_end]
  simp

/-- A list start, values with nested list marks and a list end are read as one list of these values,
whatever stands behind them. -/
theorem Instruction.read_quoted {vs : List Value}
    (h : Nested Value.endOfList? (vs.filter Value.isListMark)) (more : List Value) :
    read .listStart (vs ++ .listEnd :: more) = .ok (.push (.list vs), more) := by
  simp only [read, ↓reduceIte, capture_quoted h]

theorem Dictionary.endsWith_quoted {vs : List Value}
    (h : Nested Value.endOfList? (vs.filter Value.isListMark)) (d : Dictionary) (c : Context) :
    d.EndsWith (.listStart :: (vs ++ [.listEnd])) c false (.ok (c.push (.list vs))) := by
  refine ⟨1, ?_⟩
  rw [run_succ_false, execute_cons, Instruction.read_quoted h []]
  simp only [Outcome.ofExcept, Outcome.ok_bind, perform, execute_nil]

/-- The text of a list of list marks and plain tokens is a program that pushes this list. -/
theorem Token.Flat.reads_back {texts : List String} (h : Flat texts) :
    ∃ tokens, Token.read (Value.list (texts.map .literal)).render = .ok tokens ∧
      ∀ (d : Dictionary) (c : Context), d.EndsWith tokens c false
        (.ok { c with stack := .list (texts.map .literal) :: c.stack }) := by
  refine ⟨("(" :: (texts ++ [")"])).map .literal, ?_, ?_⟩
  · rw [Token.read, split_render h]
    rfl
  · intro d c
    have hrun := d.endsWith_quoted (Value.nested_literals h.nested) c
    rw [List.map_cons, List.map_append]
    exact hrun

/-- The text of a list is read back. A list built of lists and plain literals, to any depth, is
written as a program that pushes one list and changes nothing else, in every context and whatever
the words are. In the list that comes back the lists inside are spelled out, and it has the same
text. A list of plain literals and nested list marks comes back as it is. -/
theorem rendered_list_reads_back :
    (∀ items : List Value, (Value.list items).BuiltFrom Token.IsPlain →
      let flat := Value.list ((Value.spelledItems items).map .literal)
      flat.render = (Value.list items).render ∧
      ∃ tokens, Token.read (Value.list items).render = .ok tokens ∧
        ∀ (d : Dictionary) (c : Context),
          d.EndsWith tokens c false (.ok { c with stack := flat :: c.stack })) ∧
    ∀ texts : List String, (∀ t ∈ texts, Token.IsPlain t ∨ t = "(" ∨ t = ")") →
      Nested Token.listEnd? (texts.filter Token.isListMark) →
      let flat := Value.list (texts.map .literal)
      ∃ tokens, Token.read flat.render = .ok tokens ∧
        ∀ (d : Dictionary) (c : Context),
          d.EndsWith tokens c false (.ok { c with stack := flat :: c.stack }) := by
  constructor
  · intro items h
    have hflat : Token.Flat (Value.spelledItems items) := by
      cases h with
      | list hitems => exact .spelledItems fun v hv => .spelled (hitems v hv)
    have htext := Value.render_spelledItems items
    refine ⟨htext, ?_⟩
    rw [← htext]
    exact hflat.reads_back
  · intro texts hplain hnested
    refine Token.Flat.reads_back ⟨?_, hnested⟩
    intro t ht hmark
    rcases hplain t ht with hp | rfl | rfl
    · exact hp
    · cases hmark
    · cases hmark

theorem list_with_lone_parens_in_literal_reads_back :
    let items := [.literal "f[a,b]", .list [.list [], .literal "(,a)"], .literal ":swap"]
    let texts := ["f[a,b]", "(", "(", ")", "(,a)", ")", ":swap"]
    let flat := Value.list (texts.map .literal)
    let program := "(,f[a,b],(,(,),(,a),),:swap,)"
    (Value.list items).render = program ∧ flat.render = program ∧
      ∃ tokens, Token.read program = .ok tokens ∧
        ∀ (d : Dictionary) (c : Context),
          d.EndsWith tokens c false (.ok { c with stack := flat :: c.stack }) := by
  intro items texts flat program
  have hplain : ∀ t ∈ texts, Token.IsPlain t ∨ t = "(" ∨ t = ")" := by decide +kernel
  have hmarks : unwind Token.listEnd? [] (texts.filter Token.isListMark) = some [] := by decide
  have hnested : Nested Token.listEnd? (texts.filter Token.isListMark) := supplies_of_unwind hmarks
  have hinner : (Value.list [.list [], .literal "(,a)"]).BuiltFrom Token.IsPlain := by
    refine .list (List.forall_mem_cons.mpr ⟨.list (List.forall_mem_nil _), ?_⟩)
    exact List.forall_mem_singleton.mpr (.literal (by decide +kernel))
  have hitems : (Value.list items).BuiltFrom Token.IsPlain := by
    refine .list (List.forall_mem_cons.mpr ⟨.literal (by decide +kernel), ?_⟩)
    refine List.forall_mem_cons.mpr ⟨hinner, ?_⟩
    exact List.forall_mem_singleton.mpr (.literal (by decide +kernel))
  have hrender : (Value.list items).render = program := by decide +kernel
  obtain ⟨htext, -⟩ := rendered_list_reads_back.1 items hitems
  exact ⟨hrender, htext.trans hrender, rendered_list_reads_back.2 texts hplain hnested⟩

end StackWords
