import StackWords.Dictionary

/-! # How names stand for words

A dictionary made of a list of words answers a name with the words of the list
that have it, in the order of the list. The first of them that accepts the stack
is selected, and every refusal is the fault of the program.
-/
namespace StackWords.Dictionary

theorem lookup_enter (w : Word) (name : String) (groups : List (String × List Word)) :
    ((enter w groups).lookup name).getD [] =
      (groups.lookup name).getD [] ++ if name = w.name then [w] else [] := by
  fun_induction enter w groups with
  | case1 =>
    rw [Bindings.lookup_entry]
    split <;> simp
  | case2 words rest =>
    rw [Bindings.lookup_entry, Bindings.lookup_entry]
    split <;> simp
  | case3 key words rest hne ih =>
    rw [Bindings.lookup_entry, Bindings.lookup_entry]
    split
    · next h =>
      subst h
      simp [hne]
    · exact ih

theorem lookup_foldl_enter (words : List Word) (name : String)
    (groups : List (String × List Word)) :
    ((words.foldl (fun groups w => enter w groups) groups).lookup name).getD [] =
      (groups.lookup name).getD [] ++ words.filter fun w => name = w.name := by
  induction words generalizing groups with
  | nil => simp
  | cons w words ih =>
    rw [List.foldl_cons, ih, lookup_enter, List.append_assoc, List.filter_cons]
    congr 1
    split <;> simp_all

/-- The words of a name are those of the list with that name, in order. -/
theorem candidates_ofWords (words : List Word) (name : String) :
    (ofWords words).candidates name = words.filter fun w => name = w.name := by
  have h := lookup_foldl_enter words name []
  rw [List.lookup_nil, Option.getD_none, List.nil_append] at h
  exact h

variable {d : Dictionary} {name : String} {c : Context} {w : Word}

theorem select_eq_ok_iff :
    d.select name c = .ok w ↔
      (d.candidates name).find? (·.accepts c.stack) = some w ∧ c.features.allows w.stable := by
  unfold select
  simp only
  split
  · next hempty =>
    rw [List.isEmpty_iff.mp hempty]
    simp
  · cases (d.candidates name).find? (·.accepts c.stack) with
    | none => simp
    | some w' =>
      by_cases hallow : c.features.allows w'.stable
      · simp only [hallow, ↓reduceIte, Except.ok.injEq, Option.some.injEq]
        constructor
        · rintro rfl
          exact ⟨rfl, hallow⟩
        · exact And.left
      · simp only [hallow, Bool.false_eq_true, ↓reduceIte, reduceCtorEq, Option.some.injEq,
          false_iff, not_and]
        rintro rfl
        exact hallow

theorem accepts_of_select (h : d.select name c = .ok w) : w.accepts c.stack := by
  have hw := (select_eq_ok_iff.mp h).1
  simpa using List.find?_some hw

theorem mem_candidates_of_select (h : d.select name c = .ok w) : w ∈ d.candidates name :=
  List.mem_of_find?_eq_some (select_eq_ok_iff.mp h).1

theorem mem_of_select_ofWords {words : List Word} (h : (ofWords words).select name c = .ok w) :
    w ∈ words := by
  have hw := mem_candidates_of_select h
  rw [candidates_ofWords] at hw
  exact (List.mem_filter.mp hw).1

theorem isUserError_of_select {e : Error} (h : d.select name c = .error e) : e.isUserError := by
  unfold select at h
  simp only at h
  split at h
  · cases h
    rfl
  · split at h
    · cases h
      rfl
    · split at h <;> cases h
      rfl

theorem select_congr {c' : Context} (hs : c'.stack = c.stack) (hf : c'.features = c.features) :
    d.select name c' = d.select name c := by
  simp only [select, hs, hf]

end StackWords.Dictionary
