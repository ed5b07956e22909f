import Mathlib.Data.List.Induction
import StackWords.Proofs.Results
import StackWords.Proofs.Selection

/-! # Dispatch as a plain scan

A dictionary keeps words in groups. What a name stands for can be told without
them: the words of a vocabulary make one list, those of the vocabularies below it
first, and a scan of this list finds the word that the dictionary selects, or
nothing, for the same reason.
-/
namespace StackWords

namespace Vocabulary

mutual

/-- The vocabularies strictly below a vocabulary, each behind those below it. One that several
others build on is listed for each of them. -/
def beneath : Vocabulary → List Vocabulary
  | ⟨_, dependencies, _⟩ => beneathAll dependencies

def beneathAll : List Vocabulary → List Vocabulary
  | [] => []
  | v :: vs => v.beneath ++ v :: beneathAll vs

end

mutual

theorem allWords_eq_beneath (v : Vocabulary) :
    v.allWords = (v.beneath ++ [v]).flatMap Vocabulary.words := by
  cases v with
  | mk name dependencies words =>
    rw [allWords, beneath, allWordsOf_eq_beneathAll dependencies, List.flatMap_append,
      List.flatMap_singleton]

theorem allWordsOf_eq_beneathAll (vs : List Vocabulary) :
    allWordsOf vs = (beneathAll vs).flatMap Vocabulary.words := by
  cases vs with
  | nil => rfl
  | cons v vs =>
    rw [allWordsOf, beneathAll, allWords_eq_beneath v, allWordsOf_eq_beneathAll vs]
    simp

end

end Vocabulary

namespace Dictionary

theorem map_fst_enter (w : Word) (groups : List (String × List Word)) :
    (enter w groups).map Prod.fst =
      groups.map Prod.fst ++ if w.name ∈ groups.map Prod.fst then [] else [w.name] := by
  fun_induction enter w groups with
  | case1 => simp
  | case2 words rest => simp
  | case3 name words rest hne ih =>
    have hmem : w.name ∈ name :: rest.map Prod.fst ↔ w.name ∈ rest.map Prod.fst := by
      rw [List.mem_cons, or_iff_right (Ne.symm hne)]
    simp only [List.map_cons, ih, List.cons_append, hmem]

/-- The names of a dictionary are those of its words, each at its first occurrence. -/
theorem names_ofWords (words : List Word) :
    (ofWords words).names = (words.map Word.name).eraseDups := by
  -- Words are entered from the left, so the induction takes off the last one.
  induction words using List.reverseRecOn with
  | nil => rfl
  | append_singleton words w ih =>
    have hlast : (ofWords (words ++ [w])).names =
        (ofWords words).names ++ if w.name ∈ (ofWords words).names then [] else [w.name] := by
      rw [names, ofWords, List.foldl_append]
      exact map_fst_enter w _
    rw [hlast, ih, List.map_append, List.map_singleton, List.eraseDups_append, List.removeAll]
    congr 1
    by_cases hmem : w.name ∈ words.map Word.name
    · rw [if_pos (List.mem_eraseDups.mpr hmem), List.filter_cons_of_neg (by simpa using hmem)]
      rfl
    · rw [if_neg (mt List.mem_eraseDups.mp hmem), List.filter_cons_of_pos (by simpa using hmem)]
      rfl

/-- What a name comes to in a context when the words of a list are tried one after the other. -/
def scan (words : List Word) (name : String) (c : Context) (runner : Runner) : Outcome Context :=
  if ∀ w ∈ words, w.name ≠ name then .error (Cause.unknownWord name)
  else match words.find? fun w => w.name = name ∧ w.accepts c.stack with
    | none =>
      .error (Cause.noMatch name (Stack.summary c.stack)
        ((words.filter fun w => w.name = name).map Word.signature))
    | some w =>
      if w.stable = false ∧ c.features ≠ .unstable then .error (Cause.unstableWord name)
      else (w.apply c).eval runner

theorem candidates_eq_filter (words : List Word) (name : String) :
    (ofWords words).candidates name = words.filter fun w => w.name = name := by
  rw [candidates_ofWords]
  simp only [eq_comm]

theorem perform_invoke_ofWords (words : List Word) (name : String) (c : Context)
    (runner : Runner) :
    (ofWords words).perform runner (.invoke name) c = scan words name c runner := by
  rw [perform_invoke, select, candidates_eq_filter, scan]
  by_cases hnone : ∀ w ∈ words, w.name ≠ name
  · have hempty : (words.filter fun w => w.name = name) = [] := by simpa using hnone
    rw [if_pos hnone, hempty]
    rfl
  · have hsome : (words.filter fun w => w.name = name).isEmpty = false := by simpa using hnone
    rw [if_neg hnone, hsome, List.find?_filter]
    simp only [Bool.false_eq_true, ↓reduceIte, decide_eq_true_eq]
    cases words.find? fun w => w.name = name ∧ w.accepts c.stack with
    | none => rfl
    | some w =>
      simp only [Features.allows]
      cases w.stable <;> cases c.features <;> rfl

theorem execute_word (d : Dictionary) (runner : Runner) (name : String) (c : Context) :
    d.execute runner [.literal (":" ++ name)] c = d.perform runner (.invoke name) c := by
  rw [execute_cons, Instruction.read_word]
  simp only [Outcome.ofExcept, Outcome.ok_bind, execute_nil]
  cases d.perform runner (.invoke name) c <;> rfl

/-- Names are looked up in the groups of a dictionary as in the plain list of all words of its
vocabulary. -/
theorem dispatch_is_plain_scan (v : Vocabulary) (name : String) (c : Context) :
    let words := v.allWords
    let d := ofVocabulary v
    let token := Value.literal (":" ++ name)
    words = (v.beneath ++ [v]).flatMap Vocabulary.words ∧
    d.candidates name = (words.filter fun w => w.name = name) ∧
    d.names = (words.map Word.name).eraseDups ∧
    (∀ runner, d.execute runner [token] c = scan words name c runner) ∧
    ∀ result, d.EndsWith [token] c false result ↔
      ∃ depth, scan words name c (d.run depth) = .ofExcept result := by
  intro words d token
  have hscan : ∀ runner, d.execute runner [token] c = scan words name c runner := by
    intro runner
    rw [execute_word, ← perform_invoke_ofWords]
    rfl
  refine ⟨v.allWords_eq_beneath, candidates_eq_filter words name, names_ofWords words, hscan, ?_⟩
  intro result
  have hlimits := Results.ofLimits_succ (d.settles_run [token] c false)
  simp only [run_succ_false, hscan] at hlimits
  exact iff_of_eq (congrFun hlimits.symm result)

example :
    let word := fun name signature : String =>
      ({ name, signature, accepts := fun _ => true, action := .onStack .ok } : Word)
    let base : Vocabulary := { name := "base", words := [word "x" "1"] }
    let middle : Vocabulary := ⟨"middle", [base], [word "y" "2", word "x" "3"]⟩
    let top : Vocabulary := ⟨"top", [middle, base], [word "z" "4", word "y" "5"]⟩
    (ofVocabulary top).names = ["x", "y", "z"] ∧
      ((ofVocabulary top).candidates "x").map Word.signature = ["1", "3", "1"] := by
  decide

end Dictionary

end StackWords
