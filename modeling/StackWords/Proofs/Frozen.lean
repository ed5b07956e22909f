import StackWords.Proofs.Coupled
import StackWords.Proofs.Sequencing

/-! # Values set aside

Programs over the standard words, macros and words that change the stack only
put values on top of those set aside before and never look at the latter. Hence
setting the stack aside between two programs keeps them apart: the second one
runs as it would from the start, and the first one's values end up below.
-/
namespace StackWords

def Context.underlay (c : Context) (below : Stack) : Context :=
  { c with frozen := c.frozen ++ below }

/-- Two contexts of a run with given initial variables and feature level, the second with further
values set aside below. -/
def Underlaid (below : Stack) (initial : Variables) (features : Features) (c c' : Context) : Prop :=
  c' = c.underlay below ∧ c.initial = initial ∧ c.features = features

/-- The values set aside since some earlier context do not show what lies below. The two lengths
grow alike, so their difference is the same. -/
theorem take_fresh_underlay (c a : Context) (below : Stack) :
    (a.underlay below).frozen.take
        ((a.underlay below).frozen.length - (c.underlay below).frozen.length) =
      a.frozen.take (a.frozen.length - c.frozen.length) := by
  have hlen : (a.frozen ++ below).length - (c.frozen ++ below).length =
      a.frozen.length - c.frozen.length := by
    simp only [List.length_append]
    omega
  have hle : a.frozen.length - c.frozen.length ≤ a.frozen.length := by omega
  simp only [Context.underlay, hlen]
  exact List.take_append_of_le_length hle

theorem coupling_underlaid (below : Stack) (initial : Variables) (features : Features) :
    Coupling (Underlaid below initial features) (.related Eq) where
  stack_eq := by
    rintro c _ ⟨rfl, -, -⟩
    rfl
  vars_eq := by
    rintro c _ ⟨rfl, -, -⟩
    rfl
  update := by
    rintro c _ ⟨rfl, hi, hf⟩ stack vars
    exact ⟨rfl, hi, hf⟩
  freeze := by
    rintro c _ ⟨rfl, hi, hf⟩
    refine ⟨?_, hi, hf⟩
    simp only [Context.freeze, Context.underlay, List.append_assoc]
  fresh_eq := by
    rintro c _ a _ ⟨rfl, -, -⟩ ⟨rfl, -, -⟩
    exact take_fresh_underlay c a below
  userError := fun _ => rfl
  inFrame := by
    rintro e _ rfl frame
    rfl

namespace Standard

variable {extra : List Word} {tokens : List Value} {c : Context}

theorem run_underlay (hx : ∀ w ∈ extra, w.IsMacro ∨ w.isSimple) (depth : Nat)
    (tokens : List Value) (c : Context) (below : Stack) :
    ((extendedBy extra).run depth tokens c false).FollowedBy
      (Underlaid below c.initial c.features) (.related Eq)
      ((extendedBy extra).run depth tokens (c.underlay below) false) := by
  have hC := coupling_underlaid below c.initial c.features
  refine run_followedBy hC ?_ hx depth tokens c _ ⟨rfl, rfl, rfl⟩
  rintro a _ ⟨rfl, -, -⟩
  rfl

theorem endsWith_underlay (hx : ∀ w ∈ extra, w.IsMacro ∨ w.isSimple) (below : Stack)
    {after : Context} (h : (extendedBy extra).EndsWith tokens c false (.ok after)) :
    (extendedBy extra).EndsWith tokens (c.underlay below) false (.ok (after.underlay below)) ∧
      after.initial = c.initial ∧ after.features = c.features := by
  obtain ⟨depth, hd⟩ := h
  have hrun := run_underlay hx depth tokens c below
  rw [hd] at hrun
  obtain ⟨after', hok, rfl, hi, hf⟩ := hrun
  exact ⟨⟨depth, hok⟩, hi, hf⟩

theorem endsWith_underlay_error (hx : ∀ w ∈ extra, w.IsMacro ∨ w.isSimple) (below : Stack)
    {e : Error} (h : (extendedBy extra).EndsWith tokens c false (.error e)) :
    (extendedBy extra).EndsWith tokens (c.underlay below) false (.error e) := by
  obtain ⟨depth, hd⟩ := h
  have hrun := run_underlay hx depth tokens c below
  rw [hd] at hrun
  obtain ⟨e', herr, rfl⟩ := hrun
  exact ⟨depth, herr⟩

/-- Values set aside are out of reach of a program: with more of them below it ends with the same
values on top of them or with the same error. It also keeps the initial variables and the feature
level. -/
theorem frozen_values_out_of_reach (hx : ∀ w ∈ extra, w.IsMacro ∨ w.isSimple)
    (tokens : List Value) (c : Context) (below : Stack) :
    (∀ after, (extendedBy extra).EndsWith tokens c false (.ok after) →
      (extendedBy extra).EndsWith tokens { c with frozen := c.frozen ++ below } false
        (.ok { after with frozen := after.frozen ++ below }) ∧
      after.initial = c.initial ∧ after.features = c.features) ∧
    ∀ e, (extendedBy extra).EndsWith tokens c false (.error e) →
      (extendedBy extra).EndsWith tokens { c with frozen := c.frozen ++ below } false
        (.error e) :=
  ⟨fun _ h => endsWith_underlay hx below h, fun _ h => endsWith_underlay_error hx below h⟩

theorem frozen_values_out_of_reach_of_map :
    let stash : Macro := ⟨"stash", [.literal "x", .literal ":freeze"]⟩
    let extra := [stash.toWord, simple "void" "*" anyStack list []]
    let tokens := [":stash", ":list", "(", "a", ")", "(", ":freeze", "b", ")", ":map"]
    (extendedBy extra).EndsWith (tokens.map .literal)
      { stack := [.literal "s"], frozen := [.literal "f", .literal "g"] } false
      (.ok { stack := [.list [.literal "a", .literal "b"], .list []]
             frozen := [.literal "x", .literal "s", .literal "f", .literal "g"] }) := by
  intro stash extra tokens
  have hx : ∀ w ∈ extra, w.IsMacro ∨ w.isSimple := by
    intro w hw
    simp only [extra, List.mem_cons, List.not_mem_nil, or_false] at hw
    rcases hw with rfl | rfl
    · exact Or.inl ⟨stash, true, [], rfl⟩
    · exact Or.inr rfl
  have hrun : (extendedBy extra).EndsWith (tokens.map .literal)
      { stack := [.literal "s"], frozen := [.literal "f"] } false
      (.ok { stack := [.list [.literal "a", .literal "b"], .list []]
             frozen := [.literal "x", .literal "s", .literal "f"] }) :=
    ⟨3, by decide +kernel⟩
  exact ((frozen_values_out_of_reach hx _ _ [.literal "g"]).1 _ hrun).1

theorem execute_freeze (extra : List Word) (r : Runner) (c : Context) :
    (extendedBy extra).execute r [.literal ":freeze"] c = .ok c.freeze := by
  have hlead : Leads "freeze" anyStack (.onContext fun c => pure c.freeze) :=
    ⟨_, _, rfl, rfl, rfl, rfl⟩
  obtain ⟨w, hsel, haction⟩ := select_extendedBy hlead extra (c := c) rfl
  have hread : Instruction.read (.literal ":freeze") [] = .ok (.invoke "freeze", []) :=
    Instruction.read_word "freeze" []
  rw [Dictionary.execute_cons, hread]
  simp only [Outcome.ofExcept, Outcome.ok_bind, Dictionary.perform_invoke, hsel,
    Dictionary.execute_nil, Word.apply, haction]
  rfl

theorem endsWith_freeze (extra : List Word) (c : Context) :
    (extendedBy extra).EndsWith [.literal ":freeze"] c false (.ok c.freeze) := by
  refine ⟨1, ?_⟩
  rw [Dictionary.run_succ_false, execute_freeze]
  rfl

theorem freeze_eq_start_underlay {v : Variables} {features : Features} (hi : c.initial = v)
    (hf : c.features = features) :
    c.freeze = (Context.start [] v features).underlay c.unfreeze.stack := by
  subst hi hf
  rfl

/-- A program that ends well, then a new start over its values: the second program goes on as from
the start, with the values of the first one below those that it sets aside. -/
theorem endsWith_append_freeze (hx : ∀ w ∈ extra, w.IsMacro ∨ w.isSimple) {t₁ t₂ : List Value}
    {v : Variables} {features : Features} {a : Context} {result : Except Error Context}
    (h₁ : (extendedBy extra).EndsWith t₁ (.start [] v features) false (.ok a))
    (h₂ : (extendedBy extra).EndsWith t₂ (.start [] v features) false result) :
    (extendedBy extra).EndsWith (t₁ ++ [.literal ":freeze"] ++ t₂) (.start [] v features) false
      (result.map fun b => b.underlay a.unfreeze.stack) := by
  obtain ⟨-, hi, hf⟩ := endsWith_underlay hx [] h₁
  refine (h₁.append (endsWith_freeze extra a)).append ?_
  rw [freeze_eq_start_underlay hi hf]
  cases result with
  | ok b => exact (endsWith_underlay hx a.unfreeze.stack h₂).1
  | error e => exact endsWith_underlay_error hx a.unfreeze.stack h₂

/-- Setting the stack aside between two programs keeps them apart: the second one ends as it does
alone, with the values of the first one below its own. -/
theorem freeze_isolates_programs (hx : ∀ w ∈ extra, w.IsMacro ∨ w.isSimple)
    (t₁ t₂ : List Value) (v : Variables) (features : Features) {c₁ : Context}
    (h₁ : (extendedBy extra).EndsWith t₁ (.start [] v features) true (.ok c₁)) :
    (∀ c₂, (extendedBy extra).EndsWith t₂ (.start [] v features) true (.ok c₂) →
      (extendedBy extra).EndsWith (t₁ ++ [.literal ":freeze"] ++ t₂) (.start [] v features) true
        (.ok { c₂ with stack := c₂.stack ++ c₁.stack, frozen := [] })) ∧
    ∀ e, (extendedBy extra).EndsWith t₂ (.start [] v features) true (.error e) →
      (extendedBy extra).EndsWith (t₁ ++ [.literal ":freeze"] ++ t₂) (.start [] v features) true
        (.error e) := by
  obtain ⟨r₁, hr₁, he₁⟩ := Dictionary.endsWith_true_iff.mp h₁
  cases r₁ with
  | error e => cases he₁
  | ok a =>
    cases he₁
    constructor
    · intro c₂ h₂
      obtain ⟨r₂, hr₂, he₂⟩ := Dictionary.endsWith_true_iff.mp h₂
      cases r₂ with
      | error e => cases he₂
      | ok b =>
        cases he₂
        refine Dictionary.endsWith_true_iff.mpr ⟨_, endsWith_append_freeze hx hr₁ hr₂, ?_⟩
        simp [Except.map, Context.unfreeze, Context.underlay]
    · intro e h₂
      obtain ⟨r₂, hr₂, he₂⟩ := Dictionary.endsWith_true_iff.mp h₂
      cases r₂ with
      | ok b => cases he₂
      | error e' =>
        cases he₂
        exact Dictionary.endsWith_true_iff.mpr ⟨_, endsWith_append_freeze hx hr₁ hr₂, rfl⟩

theorem freeze_isolates_bound_name :
    let stash : Macro := ⟨"stash", [.literal "x", .literal ":freeze"]⟩
    let v : Variables := .ofList [("init", .literal "1")]
    let first := ["a", ":freeze", "b", "k", "w", ":set"]
    let second := ["c", ":stash", "init", ":get"]
    (extendedBy [stash.toWord]).EndsWith
        (first.map .literal ++ [.literal ":freeze"] ++ second.map .literal) (.start [] v .stable)
        true (.ok { stack := ["1", "x", "c", "b", "a"].map .literal, vars := v, initial := v }) ∧
      (extendedBy [stash.toWord]).EndsWith
        (first.map .literal ++ [.literal ":freeze"] ++ ["k", ":get"].map .literal)
        (.start [] v .stable) true (.error (Cause.unknownVariable "k")) := by
  intro stash v first second
  have hx : ∀ w ∈ [stash.toWord], w.IsMacro ∨ w.isSimple := by
    intro w hw
    cases List.mem_singleton.mp hw
    exact Or.inl ⟨stash, true, [], rfl⟩
  have h₁ : (extendedBy [stash.toWord]).EndsWith (first.map .literal) (.start [] v .stable) true
      (.ok { stack := ["b", "a"].map .literal, vars := v.insert "k" (.literal "w"),
             initial := v }) :=
    ⟨2, by decide +kernel⟩
  have h₂ : (extendedBy [stash.toWord]).EndsWith (second.map .literal) (.start [] v .stable) true
      (.ok { stack := ["1", "x", "c"].map .literal, vars := v, initial := v }) :=
    ⟨2, by decide +kernel⟩
  have h₃ : (extendedBy [stash.toWord]).EndsWith (["k", ":get"].map .literal)
      (.start [] v .stable) true (.error (Cause.unknownVariable "k")) :=
    ⟨2, by decide +kernel⟩
  exact ⟨(freeze_isolates_programs hx _ _ v .stable h₁).1 _ h₂,
    (freeze_isolates_programs hx _ _ v .stable h₁).2 _ h₃⟩

end Standard

end StackWords
