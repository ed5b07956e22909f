import StackWords.Proofs.Mapping
import StackWords.Proofs.Turning

/-! # Collecting values and spreading them again

A stack has its top first and a list its top last, so the words that collect values
into a list reverse them, and running an empty list for each item puts them back. On
the way the values are data only: a value that would be a word or a list mark in a
program is not looked at.
-/
namespace StackWords

variable {items : List Value} {below stack : Stack} {n : Nat}

namespace Dictionary

theorem yields_foldlM_nothing (d : Dictionary) (items : List Value) (c : Context) :
    d.Yields (items.foldlM (fun c item => .body [] (c.push item)) c) =
      fun result => result = .ok { c with stack := items.reverse ++ c.stack } := by
  induction items generalizing c with
  | nil => exact d.yields_done (.ok c)
  | cons item items ih =>
    rw [List.foldlM_cons, yields_bind, yields_body, endsWith_nil, Results.value_bind, ih,
      List.reverse_cons, List.append_assoc]
    rfl

/-- An empty list leaves just its item, for nothing is set aside that was not there before. -/
theorem yields_mapItem_nothing (d : Dictionary) (c : Context) (vars : Variables) (item : Value) :
    d.Yields (Standard.mapItem c [] vars item) = fun result => result = .ok (vars, [item]) := by
  rw [Standard.mapItem, yields_bind_pure, yields_body, endsWith_nil, Results.value_map]
  simp only [Nat.sub_self, List.take_zero, List.append_nil]

theorem yields_mapItems_nothing (d : Dictionary) (c : Context) (items : List Value)
    (vars : Variables) (collected : Stack) :
    d.Yields (Standard.mapItems c [] items vars collected) =
      fun result => result = .ok (vars, items.reverse ++ collected) := by
  induction items generalizing collected with
  | nil => exact d.yields_done (.ok (vars, collected))
  | cons item items ih =>
    rw [Standard.mapItems, yields_bind, yields_mapItem_nothing, Results.value_bind]
    simp only [ih, List.reverse_cons, List.append_assoc]

end Dictionary

namespace Standard

theorem leads_clear : Leads "clear" anyStack (.onStack fun _ => .ok []) :=
  ⟨_, _, rfl, rfl, rfl, rfl⟩

theorem leads_depth : Leads "depth" anyStack (.onStack depth) := ⟨_, _, rfl, rfl, rfl, rfl⟩

theorem leads_drop : Leads "drop" (atLeast 1) (.onStack drop) := ⟨_, _, rfl, rfl, rfl, rfl⟩

theorem leads_dropMany : Leads "ndrop" topIsCount (.onStack dropMany) :=
  ⟨_, _, rfl, rfl, rfl, rfl⟩

theorem leads_list : Leads "list" anyStack (.onStack list) := ⟨_, _, rfl, rfl, rfl, rfl⟩

theorem leads_listMany : Leads "nlist" topIsCount (.onStack listMany) :=
  ⟨_, _, rfl, rfl, rfl, rfl⟩

theorem topIsCount_numeral (hn : Text.IsWord n) (stack : Stack) :
    topIsCount (.numeral n :: stack) :=
  topIsCount_iff.mpr ⟨_, n, stack, rfl, Value.count?_numeral hn⟩

theorem dropMany_numeral (hn : Text.IsWord n) (stack : Stack) :
    dropMany (.numeral n :: stack) = .ok (stack.drop n) := by
  rw [dropMany, popCount_cons (Value.count?_numeral hn)]
  rfl

theorem listMany_numeral (hn : Text.IsWord n) (stack : Stack) :
    listMany (.numeral n :: stack) = .ok (.list (stack.take n).reverse :: stack.drop n) := by
  rw [listMany, popCount_cons (Value.count?_numeral hn)]
  rfl

section Turning

variable (extra : List Word)

theorem turns_dropMany (hn : Text.IsWord n) (stack : Stack) :
    (extendedBy extra).Turns [.literal ":ndrop"] (.numeral n :: stack) (stack.drop n) :=
  turns_simple leads_dropMany extra (topIsCount_numeral hn stack) (dropMany_numeral hn stack)

theorem turns_listMany (hn : Text.IsWord n) (stack : Stack) :
    (extendedBy extra).Turns [.literal ":nlist"] (.numeral n :: stack)
      (.list (stack.take n).reverse :: stack.drop n) :=
  turns_simple leads_listMany extra (topIsCount_numeral hn stack) (listMany_numeral hn stack)

theorem turns_each_nothing (items : List Value) (below : Stack) :
    (extendedBy extra).Turns [.literal ":each"] (.list [] :: .list items :: below)
      (items.reverse ++ below) := by
  refine turns_word leads_each extra (topAreLists_iff.mpr ⟨[], items, below, rfl⟩) ?_
  intro c hstack
  simp only [Action.apply, each, hstack, Dictionary.yields_foldlM_nothing]

theorem turns_map_nothing (items : List Value) (below : Stack) :
    (extendedBy extra).Turns [.literal ":map"] (.list [] :: .list items :: below)
      (.list items :: below) := by
  refine turns_word leads_map extra (topAreLists_iff.mpr ⟨[], items, below, rfl⟩) ?_
  intro c hstack
  simp only [Action.apply, map, hstack, Dictionary.yields_bind_pure,
    Dictionary.yields_mapItems_nothing, Results.value_map, List.append_nil, List.reverse_reverse]

/-- A list on top is spread over the stack, its last item on top. -/
theorem turns_spread (items : List Value) (below : Stack) :
    (extendedBy extra).Turns [.listStart, .listEnd, .literal ":each"] (.list items :: below)
      (items.reverse ++ below) :=
  (Dictionary.turns_emptyList _ _).append (turns_each_nothing extra items below)

end Turning

/-- Collecting the values of a stack, all or as many as a number says, and spreading the list again
restores the stack, whatever the values are. Collecting as many values as there are is collecting
all, and dropping a list of values is dropping the values. Mapping an empty list over a list gives
the same list. -/
theorem collecting_and_spreading_are_inverse (extra : List Word) (c : Context)
    (hfit : Text.IsWord c.stack.length) :
    let d := extendedBy extra
    let spread := [Value.listStart, Value.listEnd, Value.literal ":each"]
    let collected := { c with stack := [Value.list c.stack.reverse] }
    let dropped := fun n => { c with stack := c.stack.drop n }
    d.EndsWith ([Value.literal ":list"] ++ spread) c false (.ok c) ∧
    (∀ n : Nat, Text.IsWord n →
      d.EndsWith ([Value.numeral n, Value.literal ":nlist"] ++ spread) c false (.ok c) ∧
      d.EndsWith [Value.numeral n, Value.literal ":nlist", Value.literal ":drop"] c false
        (.ok (dropped n)) ∧
      d.EndsWith [Value.numeral n, Value.literal ":ndrop"] c false (.ok (dropped n))) ∧
    d.EndsWith [Value.literal ":depth", Value.literal ":nlist"] c false (.ok collected) ∧
    d.EndsWith [Value.literal ":list"] c false (.ok collected) ∧
    d.EndsWith [Value.literal ":depth", Value.literal ":ndrop"] c false
      (.ok { c with stack := [] }) ∧
    d.EndsWith [Value.literal ":clear"] c false (.ok { c with stack := [] }) ∧
    ∀ items below, c.stack = .list items :: below →
      d.EndsWith [Value.listStart, Value.listEnd, Value.literal ":map"] c false (.ok c) := by
  intro d spread collected dropped
  have hlist : d.Turns [.literal ":list"] c.stack [.list c.stack.reverse] :=
    turns_simple leads_list extra rfl rfl
  have hclear : d.Turns [.literal ":clear"] c.stack [] := turns_simple leads_clear extra rfl rfl
  have hdepth : d.Turns [.literal ":depth"] c.stack (.numeral c.stack.length :: c.stack) :=
    turns_simple leads_depth extra rfl rfl
  have hnumeral := fun n => Dictionary.turns_numeral d n c.stack
  refine ⟨?_, ?_, ?_, hlist.endsWith, ?_, hclear.endsWith, ?_⟩
  · have hboth := hlist.append (turns_spread extra c.stack.reverse [])
    rw [List.reverse_reverse, List.append_nil] at hboth
    exact hboth.endsWith
  · intro n hn
    have hcollect := (hnumeral n).cons (turns_listMany extra hn c.stack)
    have hdrop : d.Turns [.literal ":drop"] (.list (c.stack.take n).reverse :: c.stack.drop n)
        (c.stack.drop n) :=
      turns_simple leads_drop extra (atLeast_one_iff.mpr ⟨_, _, rfl⟩) rfl
    have hboth := hcollect.append (turns_spread extra (c.stack.take n).reverse (c.stack.drop n))
    rw [List.reverse_reverse, List.take_append_drop] at hboth
    exact ⟨hboth.endsWith, (hcollect.append hdrop).endsWith,
      ((hnumeral n).cons (turns_dropMany extra hn c.stack)).endsWith⟩
  · have hboth := hdepth.cons (turns_listMany extra hfit c.stack)
    rw [List.take_length, List.drop_length] at hboth
    exact hboth.endsWith
  · have hboth := hdepth.cons (turns_dropMany extra hfit c.stack)
    rw [List.drop_length] at hboth
    exact hboth.endsWith
  · intro items below hstack
    have hboth := (Dictionary.turns_emptyList d (.list items :: below)).append
      (turns_map_nothing extra items below)
    rw [← hstack] at hboth
    exact hboth.endsWith

theorem words_and_list_marks_are_spread_as_data :
    let each : Macro := ⟨"each", [.literal ":clear"]⟩
    let d := extendedBy [each.toWord]
    let items := [.literal ":drop", .listStart]
    let c : Context := { stack := [.list items, .literal ":clear", .listEnd,
                                   .object ⟨1, "Series", "cpu"⟩],
                         vars := .ofList [("k", .literal "v")], frozen := [.literal "f"] }
    Text.IsWord c.stack.length ∧ Text.IsWord 3 ∧ Text.IsWord 9 ∧
      c.stack = .list items :: c.stack.tail ∧
      d.EndsWith ([":list", "(", ")", ":each"].map .literal) c false (.ok c) ∧
      d.EndsWith (["9", ":nlist", "(", ")", ":each"].map .literal) c false (.ok c) ∧
      d.EndsWith (["3", ":nlist", ":drop"].map .literal) c false
        (.ok { c with stack := [.object ⟨1, "Series", "cpu"⟩] }) ∧
      d.EndsWith (["(", ")", ":map"].map .literal) c false (.ok c) := by
  intro each d items c
  have hfit : Text.IsWord c.stack.length := by decide
  have hthree : Text.IsWord (3 : Nat) := by decide
  have hnine : Text.IsWord (9 : Nat) := by decide
  obtain ⟨hall, hmany, -, -, -, -, hmap⟩ :=
    collecting_and_spreading_are_inverse [each.toWord] c hfit
  exact ⟨hfit, hthree, hnine, rfl, hall, (hmany 9 hnine).1, (hmany 3 hthree).2.1,
    hmap items c.stack.tail rfl⟩

end Standard

end StackWords
