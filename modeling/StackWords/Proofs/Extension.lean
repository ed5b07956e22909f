import StackWords.Proofs.Coupled

/-! # Larger dictionaries

Words behind those of a dictionary are tried last, so a name that stands for a
word goes on standing for it. The programs that macros and lists run look their
names up in the larger dictionary too, and find the same words at every depth.
What can change is only how a program fails.
-/
namespace StackWords

theorem Coupling.eq_ignored : Coupling Eq .ignored :=
  eq (fun _ => trivial) fun _ _ => trivial

namespace Dictionary

theorem select_append {ws : List Word} {name : String} {c : Context} {w : Word}
    (h : (ofWords ws).select name c = .ok w) (extra : List Word) :
    (ofWords (ws ++ extra)).select name c = .ok w := by
  obtain ⟨hfind, hallow⟩ := select_eq_ok_iff.mp h
  rw [candidates_ofWords] at hfind
  refine select_eq_ok_iff.mpr ⟨?_, hallow⟩
  rw [candidates_ofWords, List.filter_append, List.find?_append, hfind]
  rfl

theorem ofWords_append_followedBy {ws : List Word} (hw : ∀ w ∈ ws, w.IsOrdinary)
    (extra : List Word) : (ofWords ws).FollowedBy Eq .ignored (ofWords (ws ++ extra)) := by
  rintro c _ name rfl
  cases hs : (ofWords ws).select name c with
  | error e => trivial
  | ok w =>
    have hmem : w ∈ ws := mem_of_select_ofWords hs
    rw [select_append hs extra]
    exact .ok ((hw w hmem).followedBy Coupling.eq_ignored fun _ => trivial)

theorem EndsWith.extend {ws : List Word} (hw : ∀ w ∈ ws, w.IsOrdinary) (extra : List Word)
    {tokens : List Value} {c : Context} {unfreeze : Bool} {after : Context}
    (h : (ofWords ws).EndsWith tokens c unfreeze (.ok after)) :
    (ofWords (ws ++ extra)).EndsWith tokens c unfreeze (.ok after) := by
  have hU : ∀ {a a' : Context}, a = a' → a.unfreeze = a'.unfreeze := congrArg Context.unfreeze
  obtain ⟨after', hrun, rfl⟩ :=
    h.ok_followed Coupling.eq_ignored (ofWords_append_followedBy hw extra) hU rfl
  exact hrun

end Dictionary

theorem Vocabulary.allWords_of_dependencies {v first : Vocabulary} {others : List Vocabulary}
    (h : v.dependencies = first :: others) :
    v.allWords = first.allWords ++ (allWordsOf others ++ v.words) := by
  obtain ⟨name, dependencies, words⟩ := v
  subst h
  rw [allWords, allWordsOf, List.append_assoc]

theorem Standard.allWords_vocabulary : vocabulary.allWords = words := by
  simp only [vocabulary, Vocabulary.allWords, Vocabulary.allWordsOf, List.nil_append]

/-- A program that ends well does so with the same context when the dictionary has further words
behind its own. So a program over the standard vocabulary keeps its result over every vocabulary
that builds on the standard one first, whatever words with standard names are added. -/
theorem Dictionary.extension_is_conservative {ws : List Word} (hw : ∀ w ∈ ws, w.IsOrdinary)
    (tokens : List Value) (c after : Context) (unfreeze : Bool) :
    ((ofWords ws).EndsWith tokens c unfreeze (.ok after) →
      ∀ extra, (ofWords (ws ++ extra)).EndsWith tokens c unfreeze (.ok after)) ∧
    (Standard.dictionary.EndsWith tokens c unfreeze (.ok after) →
      ∀ v others, v.dependencies = Standard.vocabulary :: others →
        (ofVocabulary v).EndsWith tokens c unfreeze (.ok after)) := by
  refine ⟨fun h extra => h.extend hw extra, ?_⟩
  intro h v others hv
  have hstd : ∀ w ∈ Standard.words, w.IsOrdinary := fun w => Word.isOrdinary_of_mem_words
  rw [Standard.dictionary, ofVocabulary, Standard.allWords_vocabulary] at h
  rw [ofVocabulary, Vocabulary.allWords_of_dependencies hv, Standard.allWords_vocabulary]
  exact h.extend hstd _

theorem Dictionary.extension_keeps_map_in_macro :
    let pairs : Macro := ⟨"pairs", ["(", ":dup", ")", ":map", ":nip"].map .literal⟩
    let extra := [Standard.simple "dup" "--" Standard.anyStack (fun _ => .ok []) [],
      (⟨"nip", [.literal ":clear"]⟩ : Macro).toWord]
    let v : Vocabulary := ⟨"host", [Standard.vocabulary, ⟨"more", [], extra⟩], [pairs.toWord]⟩
    let tokens := ["(", "a", "b", ")", ":pairs", ":freeze", "c"].map Value.literal
    let after : Context :=
      { stack := [.literal "c"], frozen := [.list (["a", "a", "b", "b"].map .literal)] }
    (ofWords (Standard.words ++ [pairs.toWord] ++ extra)).EndsWith tokens
        { stack := [.literal "z"] } false (.ok after) ∧
      (ofVocabulary v).EndsWith (["(", "a", ")", "(", ":dup", ")", ":map"].map .literal) {} true
        (.ok { stack := [.list (["a", "a"].map .literal)] }) := by
  intro pairs extra v tokens after
  have hw : ∀ w ∈ Standard.words ++ [pairs.toWord], w.IsOrdinary := by
    intro w hw
    rcases List.mem_append.mp hw with hw | hw
    · exact Word.isOrdinary_of_mem_words hw
    · cases List.mem_singleton.mp hw
      exact Or.inr (Or.inl ⟨pairs, true, [], rfl⟩)
  have hrun : (ofWords (Standard.words ++ [pairs.toWord])).EndsWith tokens
      { stack := [.literal "z"] } false (.ok after) :=
    ⟨3, by decide +kernel⟩
  have hstd : Standard.dictionary.EndsWith
      (["(", "a", ")", "(", ":dup", ")", ":map"].map .literal) {} true
      (.ok { stack := [.list (["a", "a"].map .literal)] }) :=
    ⟨3, by decide +kernel⟩
  exact ⟨(extension_is_conservative hw _ _ _ _).1 hrun extra,
    (extension_is_conservative hw _ _ _ _).2 hstd v _ rfl⟩

end StackWords
