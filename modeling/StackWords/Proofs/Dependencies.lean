import Mathlib.Data.List.Nodup
import StackWords.Proofs.Dispatch

/-! # Each dependency listed once

The vocabularies that a vocabulary builds on are collected level by level, and every
level leaves out those whose name it has already. What one level leaves out the next
one would leave out as well, so leaving them out once, at the end, gives the same
list.
-/
namespace StackWords.Vocabulary

variable {v d : Vocabulary} {known added before after : List Vocabulary} {n : String}

/-- The vocabularies of a list, those left out whose name stands earlier in the list. -/
def firstOfEachName (vs : List Vocabulary) : List Vocabulary :=
  vs.eraseDupsBy fun a b => a.name == b.name

theorem merge_append (known first second : List Vocabulary) :
    merge known (first ++ second) = merge (merge known first) second :=
  List.foldl_append

theorem any_name_iff : (known.any fun k => k.name == n) = true ↔ n ∈ known.map name := by
  simp [List.any_eq_true, List.mem_map]

theorem merge_cons_of_mem (h : v.name ∈ known.map name) (added : List Vocabulary) :
    merge known (v :: added) = merge known added := by
  rw [merge, List.foldl_cons, if_pos (any_name_iff.mpr h)]
  rfl

theorem merge_cons_of_notMem (h : v.name ∉ known.map name) (added : List Vocabulary) :
    merge known (v :: added) = merge (known ++ [v]) added := by
  rw [merge, List.foldl_cons, if_neg (mt any_name_iff.mp h)]
  rfl

theorem mem_names_merge :
    n ∈ (merge known added).map name ↔ n ∈ known.map name ∨ n ∈ added.map name := by
  induction added generalizing known with
  | nil => simp [merge]
  | cons v added ih =>
    rw [List.map_cons, List.mem_cons]
    by_cases hmem : v.name ∈ known.map name
    · rw [merge_cons_of_mem hmem, ih]
      constructor
      · exact Or.imp_right Or.inr
      · rintro (hn | rfl | hn)
        · exact Or.inl hn
        · exact Or.inl hmem
        · exact Or.inr hn
    · rw [merge_cons_of_notMem hmem, ih, List.map_append, List.mem_append, List.map_singleton,
        List.mem_singleton, or_assoc]

theorem nodup_names_merge (h : (known.map name).Nodup) (added : List Vocabulary) :
    ((merge known added).map name).Nodup := by
  induction added generalizing known with
  | nil => exact h
  | cons v added ih =>
    by_cases hmem : v.name ∈ known.map name
    · rw [merge_cons_of_mem hmem]
      exact ih h
    · rw [merge_cons_of_notMem hmem]
      apply ih
      rw [List.map_append, List.map_singleton, ← List.concat_eq_append]
      exact h.concat hmem

/-- Merging two lists first makes no difference: what is left out then is left out anyway. -/
theorem merge_merge (known middle added : List Vocabulary) :
    merge known (merge middle added) = merge (merge known middle) added := by
  induction added generalizing middle with
  | nil => rfl
  | cons v added ih =>
    by_cases hmem : v.name ∈ middle.map name
    · have hmem' : v.name ∈ (merge known middle).map name := mem_names_merge.mpr (Or.inr hmem)
      rw [merge_cons_of_mem hmem, merge_cons_of_mem hmem', ih]
    · rw [merge_cons_of_notMem hmem, ih, merge_append, ← merge_append, List.singleton_append]

theorem merge_eq_append (known added : List Vocabulary) :
    merge known added =
      known ++ firstOfEachName (added.filter fun v => v.name ∉ known.map name) := by
  induction added generalizing known with
  | nil => simp [merge, firstOfEachName]
  | cons v added ih =>
    by_cases hmem : v.name ∈ known.map name
    · rw [merge_cons_of_mem hmem, ih, List.filter_cons_of_neg (by simpa using hmem)]
    · have hfilter : (added.filter fun w => w.name ∉ (known ++ [v]).map name) =
          (added.filter fun w => w.name ∉ known.map name).filter
            fun w => (w.name == v.name) = false := by
        rw [List.filter_filter]
        apply List.filter_congr
        intro w _
        rw [List.map_append, List.map_singleton, Bool.eq_iff_iff]
        simp [and_comm]
      rw [merge_cons_of_notMem hmem, ih, hfilter, List.filter_cons_of_pos (by simpa using hmem),
        firstOfEachName, firstOfEachName, List.eraseDupsBy_cons, List.append_assoc,
        List.singleton_append]

theorem merge_nil (added : List Vocabulary) : merge [] added = firstOfEachName added := by
  rw [merge_eq_append, List.filter_eq_self.mpr (by simp), List.nil_append]

mutual

theorem allDependencies_eq_merge (v : Vocabulary) : v.allDependencies = merge [] v.beneath := by
  cases v with
  | mk name dependencies words =>
    rw [allDependencies, beneath, collect_eq_merge]

theorem collect_eq_merge (known vs : List Vocabulary) :
    collect known vs = merge known (beneathAll vs) := by
  cases vs with
  | nil => rfl
  | cons v vs =>
    rw [collect, beneathAll, allDependencies_eq_merge v, collect_eq_merge, merge_append known,
      merge_merge, ← merge_append, ← merge_append]
    simp [merge]

end

mutual

/-- Where a vocabulary is listed in post-order, all those below it stand right in front of it. -/
theorem beneath_eq_append {front back : List Vocabulary} (v : Vocabulary)
    (h : v.beneath = front ++ d :: back) : ∃ others, front = others ++ d.beneath := by
  cases v with
  | mk name dependencies words =>
    rw [beneath] at h
    exact beneathAll_eq_append dependencies h

theorem beneathAll_eq_append {front back : List Vocabulary} (vs : List Vocabulary)
    (h : beneathAll vs = front ++ d :: back) : ∃ others, front = others ++ d.beneath := by
  cases vs with
  | nil => simp [beneathAll] at h
  | cons v vs =>
    rw [beneathAll] at h
    rcases List.append_eq_append_iff.mp h with ⟨inner, rfl, hinner⟩ | ⟨inner, hinner, hback⟩
    · cases inner with
      | nil =>
        cases hinner
        exact ⟨[], by simp⟩
      | cons w inner =>
        obtain ⟨rfl, hrest⟩ := List.cons.inj hinner
        obtain ⟨others, rfl⟩ := beneathAll_eq_append vs hrest
        exact ⟨v.beneath ++ v :: others, by simp⟩
    · cases inner with
      | nil =>
        cases hback
        exact ⟨[], by simpa using hinner.symm⟩
      | cons w inner =>
        obtain ⟨rfl, -⟩ := List.cons.inj hback
        exact beneath_eq_append v hinner

end

/-- A vocabulary that a merged list has stands in the list that was merged, and those in front of
it are the merged ones of those in front of it there. -/
theorem merge_nil_eq_append (h : merge [] added = before ++ d :: after) :
    ∃ front back, added = front ++ d :: back ∧ before = merge [] front := by
  -- Lists are merged from the left, so the induction takes off the last vocabulary.
  induction added using List.reverseRecOn generalizing after with
  | nil => simp [merge] at h
  | append_singleton added v ih =>
    rw [merge_append] at h
    by_cases hmem : v.name ∈ (merge [] added).map name
    · rw [merge_cons_of_mem hmem] at h
      obtain ⟨front, back, rfl, hbefore⟩ := ih h
      exact ⟨front, back ++ [v], by simp, hbefore⟩
    · rw [merge_cons_of_notMem hmem] at h
      change merge [] added ++ [v] = _ at h
      rcases List.eq_nil_or_concat after with rfl | ⟨after, last, rfl⟩
      · obtain ⟨hbefore, hd⟩ := List.append_inj' h rfl
        cases hd
        exact ⟨added, [], rfl, hbefore.symm⟩
      · have hinit : merge [] added ++ [v] = (before ++ d :: after) ++ [last] := by
          simpa using h
        obtain ⟨front, back, rfl, hbefore⟩ := ih (List.append_inj' hinit rfl).1
        exact ⟨front, back ++ [v], by simp, hbefore⟩

/-- The dependencies of a vocabulary are those below it in post-order, each name once. Every
vocabulary below is there by its name, and behind all that it builds on. -/
theorem dependencies_in_order_each_name_once (v : Vocabulary) :
    v.allDependencies = firstOfEachName v.beneath ∧
    (v.allDependencies.map name).Nodup ∧
    (∀ below ∈ v.beneath, ∃ d ∈ v.allDependencies, d.name = below.name) ∧
    ∀ before d after, v.allDependencies = before ++ d :: after →
      ∀ below ∈ d.allDependencies, ∃ earlier ∈ before, earlier.name = below.name := by
  have hnone : (([] : List Vocabulary).map name).Nodup := List.nodup_nil
  rw [allDependencies_eq_merge]
  refine ⟨merge_nil _, nodup_names_merge hnone _, ?_, ?_⟩
  · intro below hbelow
    have hname : below.name ∈ (merge [] v.beneath).map name :=
      mem_names_merge.mpr (Or.inr (List.mem_map_of_mem hbelow))
    exact List.mem_map.mp hname
  · intro before d after hlisted below hbelow
    obtain ⟨front, back, hfront, rfl⟩ := merge_nil_eq_append hlisted
    obtain ⟨others, rfl⟩ := beneath_eq_append v hfront
    have hname : below.name ∈ (merge [] d.beneath).map name := by
      rw [← allDependencies_eq_merge]
      exact List.mem_map_of_mem hbelow
    have hfirst : below.name ∈ d.beneath.map name :=
      (mem_names_merge.mp hname).resolve_left (by simp)
    have hearlier : below.name ∈ (merge [] (others ++ d.beneath)).map name := by
      refine mem_names_merge.mpr (Or.inr ?_)
      rw [List.map_append]
      exact List.mem_append_right _ hfirst
    exact List.mem_map.mp hearlier

theorem dependencies_of_namesakes_in_a_diamond :
    let base : Vocabulary := { name := "base" }
    let deep : Vocabulary := { name := "deep" }
    let style : Vocabulary := { name := "style", dependencies := [base] }
    let namesake : Vocabulary := { name := "base", dependencies := [deep, base] }
    let math : Vocabulary := { name := "math", dependencies := [style, namesake] }
    let top : Vocabulary := { name := "top", dependencies := [style, math] }
    top.beneath = [base, style, base, style, deep, base, namesake, math] ∧
      top.allDependencies = [base, style, deep] ++ math :: [] ∧
      math.allDependencies = [base, style, deep] ∧
      ∃ earlier ∈ [base, style, deep], earlier.name = deep.name := by
  intro base deep style namesake math top
  have hmath : math.allDependencies = [base, style, deep] := by
    simp [allDependencies, collect, merge, math, style, namesake, base, deep]
  have htop : top.allDependencies = [base, style, deep] ++ math :: [] := by
    simp [allDependencies, collect, merge, top, math, style, namesake, base, deep]
  have hdeep : deep ∈ math.allDependencies := by
    rw [hmath]
    simp
  have hearlier := (dependencies_in_order_each_name_once top).2.2.2 _ _ _ htop deep hdeep
  exact ⟨rfl, htop, hmath, hearlier⟩

end StackWords.Vocabulary
