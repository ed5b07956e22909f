/-! # Nested pairs

A sequence of opening and closing letters is nested if every opening letter has
its own closing letter behind it and pairs do not overlap. A stack of the closers
still missing recognises these sequences from left to right. In a longer sequence
only some letters count, and the others may stand anywhere between them.
-/
namespace StackWords

variable {α : Type} {closer? : α → Option α}

/-- The sequences of nested pairs; an opening letter comes with the letter that closes it. -/
inductive Nested (closer? : α → Option α) : List α → Prop where
  | nil : Nested closer? []
  | pair {o k : α} {inner rest : List α} (h : closer? o = some k) :
    Nested closer? inner → Nested closer? rest → Nested closer? (o :: (inner ++ k :: rest))

namespace Nested

theorem append {u v : List α} (hu : Nested closer? u) (hv : Nested closer? v) :
    Nested closer? (u ++ v) := by
  induction hu with
  | nil => exact hv
  | pair h hi _ _ ihr =>
    rw [List.cons_append, List.append_assoc, List.cons_append]
    exact .pair h hi ihr

theorem map {β : Type} {closer'? : β → Option β} {f : α → β}
    (hf : ∀ o k, closer? o = some k → closer'? (f o) = some (f k)) {w : List α}
    (h : Nested closer? w) : Nested closer'? (w.map f) := by
  induction h with
  | nil => exact .nil
  | pair hk _ _ ihi ihr =>
    rw [List.map_cons, List.map_append, List.map_cons]
    exact .pair (hf _ _ hk) ihi ihr

/-- Induction along a sequence in which the letters that count are nested: the others are passed
over one by one, and a pair is taken with all that stands in it. -/
@[elab_as_elim]
theorem filter_induction {counts : α → Bool} {P : List α → Prop} (nil : P [])
    (other : ∀ a rest, counts a = false → P rest → P (a :: rest))
    (pair : ∀ o k inner rest, closer? o = some k → Nested closer? (inner.filter counts) →
      P inner → P rest → P (o :: (inner ++ k :: rest)))
    (w : List α) (h : Nested closer? (w.filter counts)) : P w := by
  induction hn : w.length using Nat.strongRecOn generalizing w with
  | ind n ih =>
    cases w with
    | nil => exact nil
    | cons a w =>
      simp only [List.length_cons] at hn
      by_cases ha : counts a = true
      · rw [List.filter_cons_of_pos ha] at h
        generalize hf : w.filter counts = letters at h
        cases h with
        | @pair _ k inner rest hk hi hr =>
          obtain ⟨front, back, rfl, hfront, hback⟩ := List.filter_eq_append_iff.mp hf
          obtain ⟨passed, after, rfl, hpassed, -, hafter⟩ := List.filter_eq_cons_iff.mp hback
          have hnone : passed.filter counts = [] := List.filter_eq_nil_iff.mpr hpassed
          have hinner : Nested closer? ((front ++ passed).filter counts) := by
            rw [List.filter_append, hfront, hnone, List.append_nil]
            exact hi
          have hrest : Nested closer? (after.filter counts) := by
            rw [hafter]
            exact hr
          simp only [List.length_append, List.length_cons] at hn
          have hP := pair a k (front ++ passed) after hk hinner
            (ih _ (by simp only [List.length_append]; omega) _ hinner rfl)
            (ih _ (by omega) _ hrest rfl)
          rwa [List.append_assoc] at hP
      · rw [List.filter_cons_of_neg ha] at h
        exact other a w (Bool.eq_false_iff.mpr ha) (ih _ (by omega) w h rfl)

end Nested

/-- A sequence that gives the missing closers one after the other, with nested pairs before each
of them and behind the last. -/
def Supplies (closer? : α → Option α) : List α → List α → Prop
  | [], w => Nested closer? w
  | k :: missing, w =>
    ∃ inner rest, w = inner ++ k :: rest ∧ Nested closer? inner ∧ Supplies closer? missing rest

theorem Supplies.nested_append {missing u w : List α} (hu : Nested closer? u)
    (h : Supplies closer? missing w) : Supplies closer? missing (u ++ w) := by
  cases missing with
  | nil => exact hu.append h
  | cons k missing =>
    obtain ⟨inner, rest, rfl, hi, hr⟩ := h
    exact ⟨u ++ inner, rest, (List.append_assoc _ _ _).symm, hu.append hi, hr⟩

variable [DecidableEq α]

/-- The closers still missing behind some letters, the next one first, or nothing if a letter
neither opens a pair nor is the next closer. -/
def unwind (closer? : α → Option α) : List α → List α → Option (List α)
  | missing, [] => some missing
  | missing, a :: rest =>
    match closer? a, missing with
    | some k, missing => unwind closer? (k :: missing) rest
    | none, [] => none
    | none, k :: missing => if a = k then unwind closer? missing rest else none

theorem unwind_opener {a k : α} (h : closer? a = some k) (missing rest : List α) :
    unwind closer? missing (a :: rest) = unwind closer? (k :: missing) rest := by
  rw [unwind.eq_def]
  simp only [h]

theorem unwind_closer {a : α} (h : closer? a = none) (k : α) (missing rest : List α) :
    unwind closer? (k :: missing) (a :: rest) =
      if a = k then unwind closer? missing rest else none := by
  rw [unwind.eq_def]
  simp only [h]

/-- A sequence is unwound part by part. -/
theorem unwind_append (missing u w : List α) :
    unwind closer? missing (u ++ w) =
      (unwind closer? missing u).bind fun left => unwind closer? left w := by
  induction u generalizing missing with
  | nil => rfl
  | cons a u ih =>
    rw [List.cons_append]
    cases hk : closer? a with
    | some k => rw [unwind_opener hk, unwind_opener hk, ih]
    | none =>
      cases missing with
      | nil => simp [unwind, hk]
      | cons k missing =>
        rw [unwind_closer hk, unwind_closer hk]
        split
        · exact ih missing
        · rfl

/-- The letters at the end of a sequence supply closers that the letters in front leave missing. -/
theorem exists_unwind_of_append {missing u w left : List α}
    (h : unwind closer? missing (u ++ w) = some left) :
    ∃ missing', unwind closer? missing' w = some left := by
  rw [unwind_append] at h
  obtain ⟨missing', -, hw⟩ := Option.bind_eq_some_iff.mp h
  exact ⟨missing', hw⟩

theorem supplies_of_unwind {missing w : List α} (h : unwind closer? missing w = some []) :
    Supplies closer? missing w := by
  fun_induction unwind closer? missing w with
  | case1 missing =>
    cases h
    exact Nested.nil
  | case2 a rest k missing hk ih =>
    obtain ⟨inner, after, rfl, hi, hr⟩ := ih h
    have hpair : Nested closer? (a :: (inner ++ [k])) := .pair hk hi .nil
    have hs := Supplies.nested_append hpair hr
    simpa using hs
  | case3 => cases h
  | case4 rest k missing hk ih => exact ⟨[], rest, rfl, .nil, ih h⟩
  | case5 => cases h

/-- Nested pairs leave the missing closers as they are. -/
theorem unwind_nested_append (hclosers : ∀ o k, closer? o = some k → closer? k = none)
    {u : List α} (hu : Nested closer? u) (missing w : List α) :
    unwind closer? missing (u ++ w) = unwind closer? missing w := by
  induction hu generalizing missing w with
  | nil => rfl
  | @pair o k inner rest hk _ _ ihi ihr =>
    rw [List.cons_append, List.append_assoc, List.cons_append, unwind_opener hk, ihi,
      unwind_closer (hclosers o k hk), if_pos rfl, ihr]

theorem nested_iff_unwind (hclosers : ∀ o k, closer? o = some k → closer? k = none)
    {w : List α} : Nested closer? w ↔ unwind closer? [] w = some [] := by
  constructor
  · intro h
    have hu := unwind_nested_append hclosers h [] []
    rwa [List.append_nil] at hu
  · exact fun h => supplies_of_unwind h

/-- Letters that further ones make up to nested pairs. -/
def Extendable (closer? : α → Option α) (w : List α) : Prop :=
  ∃ more, Nested closer? (w ++ more)

omit [DecidableEq α] in
theorem Extendable.mono {u w : List α} (h : Extendable closer? w) (hu : u <+: w) :
    Extendable closer? u := by
  obtain ⟨rest, rfl⟩ := hu
  obtain ⟨more, hmore⟩ := h
  exact ⟨rest ++ more, by rwa [← List.append_assoc]⟩

theorem unwind_self {missing : List α} (h : ∀ k ∈ missing, closer? k = none) :
    unwind closer? missing missing = some [] := by
  induction missing with
  | nil => rfl
  | cons k missing ih =>
    obtain ⟨hk, hrest⟩ := List.forall_mem_cons.mp h
    rw [unwind_closer hk, if_pos rfl]
    exact ih hrest

theorem closers_of_unwind (hclosers : ∀ o k, closer? o = some k → closer? k = none)
    {missing w left : List α} (hm : ∀ k ∈ missing, closer? k = none)
    (h : unwind closer? missing w = some left) : ∀ k ∈ left, closer? k = none := by
  fun_induction unwind closer? missing w with
  | case1 missing =>
    cases h
    exact hm
  | case2 a rest k missing hk ih =>
    exact ih (List.forall_mem_cons.mpr ⟨hclosers a k hk, hm⟩) h
  | case3 => cases h
  | case4 rest k missing hk ih => exact ih (List.forall_mem_cons.mp hm).2 h
  | case5 => cases h

/-- A sequence can be extended to nested pairs until some letter of it closes nothing. -/
theorem extendable_iff_unwind (hclosers : ∀ o k, closer? o = some k → closer? k = none)
    {w : List α} : Extendable closer? w ↔ ∃ left, unwind closer? [] w = some left := by
  constructor
  · rintro ⟨more, hmore⟩
    have hu := (nested_iff_unwind hclosers).mp hmore
    rw [unwind_append] at hu
    obtain ⟨left, hleft, -⟩ := Option.bind_eq_some_iff.mp hu
    exact ⟨left, hleft⟩
  · rintro ⟨left, hleft⟩
    have hnone := closers_of_unwind hclosers (List.forall_mem_nil _) hleft
    refine ⟨left, (nested_iff_unwind hclosers).mpr ?_⟩
    rw [unwind_append, hleft, Option.bind_some, unwind_self hnone]

end StackWords
