import Mathlib.Data.List.Forall2
import StackWords.Proofs.Coupled

/-! # The gate in front of unstable words

A word is selected by its test alone, and an unstable one is then refused at the
stable level. So at that level it does not matter what unstable words do, however
deep a name is looked up, and whatever succeeds there succeeds at the unstable
level as well.
-/
namespace StackWords

/-- Two words that are selected alike: they differ at most in their actions and examples. -/
structure Word.Alike (w w' : Word) : Prop where
  name_eq : w'.name = w.name
  signature_eq : w'.signature = w.signature
  accepts_eq : w'.accepts = w.accepts
  stable_eq : w'.stable = w.stable

/-- Two words that differ at most in their examples and in what they do while they are unstable. -/
structure Word.AgreesIfStable (w w' : Word) : Prop where
  name_eq : w'.name = w.name
  signature_eq : w'.signature = w.signature
  accepts_eq : w'.accepts = w.accepts
  stable_eq : w'.stable = w.stable
  action_eq : w.stable → w'.action = w.action

namespace Word.AgreesIfStable

variable {w w' : Word} {R : Context → Context → Prop} {F : Failures}

theorem alike (h : w.AgreesIfStable w') : w.Alike w' :=
  ⟨h.name_eq, h.signature_eq, h.accepts_eq, h.stable_eq⟩

theorem symm (h : w.AgreesIfStable w') : w'.AgreesIfStable w where
  name_eq := h.name_eq.symm
  signature_eq := h.signature_eq.symm
  accepts_eq := h.accepts_eq.symm
  stable_eq := h.stable_eq.symm
  action_eq hs := (h.action_eq (h.stable_eq ▸ hs)).symm

theorem followedBy (h : w.AgreesIfStable w') (hs : w.stable) (hw : w.FollowedBy R F w) :
    w.FollowedBy R F w' := by
  intro r s hr c c' hcc ha
  have haction := h.action_eq hs
  have happly : w'.apply c' = w.apply c' := by simp only [apply, haction]
  rw [happly]
  exact hw hr hcc ha

end Word.AgreesIfStable

/-- Two contexts that differ in their feature levels only, which are as given. -/
def AtLevels (features features' : Features) (c c' : Context) : Prop :=
  c' = { c with features := features' } ∧ c.features = features

theorem coupling_atLevels (features features' : Features) {F : Failures}
    (huser : ∀ {e : Error}, e.isUserError → F.Allows e e)
    (hframe : ∀ {e e' : Error}, F.Allows e e' → ∀ frame,
      F.Allows (e.inFrame frame) (e'.inFrame frame)) :
    Coupling (AtLevels features features') F where
  stack_eq := by
    rintro c _ ⟨rfl, -⟩
    rfl
  vars_eq := by
    rintro c _ ⟨rfl, -⟩
    rfl
  update := by
    rintro c _ ⟨rfl, hf⟩ stack vars
    exact ⟨rfl, hf⟩
  freeze := by
    rintro c _ ⟨rfl, hf⟩
    exact ⟨rfl, hf⟩
  fresh_eq := by
    rintro c _ a _ ⟨rfl, -⟩ ⟨rfl, -⟩
    rfl
  userError := huser
  inFrame := hframe

theorem coupling_stable : Coupling (AtLevels .stable .stable) (.related Eq) := by
  refine coupling_atLevels _ _ (fun _ => rfl) ?_
  rintro e _ rfl frame
  rfl

theorem coupling_raised : Coupling (AtLevels .stable .unstable) .ignored :=
  coupling_atLevels _ _ (fun _ => trivial) fun _ _ => trivial

theorem AtLevels.unfreeze {features features' : Features} {c c' : Context}
    (h : AtLevels features features' c c') :
    AtLevels features features' c.unfreeze c'.unfreeze := by
  obtain ⟨rfl, hf⟩ := h
  exact ⟨rfl, hf⟩

namespace Dictionary

variable {ws ws' : List Word} {name : String} {c : Context} {w : Word}

section Alike

variable {Q : Word → Word → Prop}

theorem candidates_alike (hQ : ∀ {w w'}, Q w w' → w.Alike w') (h : List.Forall₂ Q ws ws')
    (name : String) :
    List.Forall₂ Q ((ofWords ws).candidates name) ((ofWords ws').candidates name) := by
  rw [candidates_ofWords, candidates_ofWords]
  induction h with
  | nil => exact .nil
  | cons hw _ ih =>
    rw [List.filter_cons, List.filter_cons, (hQ hw).name_eq]
    split
    · exact .cons hw ih
    · exact ih

theorem find?_alike (hQ : ∀ {w w'}, Q w w' → w.Alike w') (h : List.Forall₂ Q ws ws')
    (stack : Stack) :
    Option.Rel Q (ws.find? (·.accepts stack)) (ws'.find? (·.accepts stack)) := by
  induction h with
  | nil => exact .none
  | cons hw _ ih =>
    rw [List.find?_cons, List.find?_cons, (hQ hw).accepts_eq]
    split
    · exact .some hw
    · exact ih

theorem isEmpty_alike (h : List.Forall₂ Q ws ws') : ws'.isEmpty = ws.isEmpty := by
  cases h <;> rfl

theorem map_signature_alike (hQ : ∀ {w w'}, Q w w' → w.Alike w') (h : List.Forall₂ Q ws ws') :
    ws'.map Word.signature = ws.map Word.signature := by
  induction h with
  | nil => rfl
  | cons hw _ ih => rw [List.map_cons, List.map_cons, (hQ hw).signature_eq, ih]

/-- A name is refused with the same error by two lists of words that are selected alike, or else it
stands for two words in the same place of the lists. -/
theorem select_alike (hQ : ∀ {w w'}, Q w w' → w.Alike w') (h : List.Forall₂ Q ws ws')
    (name : String) (c : Context) :
    (Outcome.ofExcept ((ofWords ws).select name c)).FollowedBy Q (.related Eq)
      (Outcome.ofExcept ((ofWords ws').select name c)) := by
  have hc := candidates_alike hQ h name
  have hfind := find?_alike hQ hc c.stack
  simp only [select, isEmpty_alike hc, map_signature_alike hQ hc]
  generalize ((ofWords ws).candidates name).find? (·.accepts c.stack) = found at hfind ⊢
  generalize ((ofWords ws').candidates name).find? (·.accepts c.stack) = found' at hfind ⊢
  split
  · exact .error rfl
  · cases hfind with
    | none => exact .error rfl
    | some hw =>
      simp only [(hQ hw).stable_eq]
      split
      · exact .ok hw
      · exact .error rfl

end Alike

theorem stable_of_select {d : Dictionary} (hs : d.select name c = .ok w)
    (hf : c.features = .stable) : w.stable := by
  have hallow := (select_eq_ok_iff.mp hs).2
  simpa [Features.allows, hf] using hallow

theorem select_unstable {d : Dictionary} (hs : d.select name c = .ok w) :
    d.select name { c with features := .unstable } = .ok w := by
  obtain ⟨hfind, -⟩ := select_eq_ok_iff.mp hs
  exact select_eq_ok_iff.mpr ⟨hfind, by simp [Features.allows]⟩

/-- At the stable level only stable words are run, so it is enough that these agree. -/
theorem ofWords_followedBy_of_agree (h : List.Forall₂ Word.AgreesIfStable ws ws')
    (hw : ∀ w ∈ ws, w.IsOrdinary) :
    (ofWords ws).FollowedBy (AtLevels .stable .stable) (.related Eq) (ofWords ws') := by
  rintro c _ name ⟨rfl, hf⟩
  have hc : { c with features := .stable } = c := by rw [← hf]
  have hsel := select_alike Word.AgreesIfStable.alike h name c
  rw [hc]
  cases hs : (ofWords ws).select name c with
  | error e =>
    rw [hs] at hsel
    exact hsel
  | ok w =>
    rw [hs] at hsel
    obtain ⟨w', hw', hagree⟩ := hsel
    have hself : w.FollowedBy (AtLevels .stable .stable) (.related Eq) w :=
      (hw w (mem_of_select_ofWords hs)).followedBy coupling_stable fun _ => rfl
    rw [hw']
    exact .ok (hagree.followedBy (stable_of_select hs hf) hself)

theorem ofWords_followedBy_raised (hw : ∀ w ∈ ws, w.IsOrdinary) :
    (ofWords ws).FollowedBy (AtLevels .stable .unstable) .ignored (ofWords ws) := by
  rintro c _ name ⟨rfl, hf⟩
  cases hs : (ofWords ws).select name c with
  | error e => trivial
  | ok w =>
    have hmem : w ∈ ws := mem_of_select_ofWords hs
    rw [select_unstable hs]
    exact .ok ((hw w hmem).followedBy coupling_raised fun _ => trivial)

variable {tokens : List Value} {unfreeze : Bool}

theorem EndsWith.of_agree (h : List.Forall₂ Word.AgreesIfStable ws ws')
    (hw : ∀ w ∈ ws, w.IsOrdinary) (hf : c.features = .stable) {result : Except Error Context}
    (he : (ofWords ws).EndsWith tokens c unfreeze result) :
    (ofWords ws').EndsWith tokens c unfreeze result := by
  have hd : (ofWords ws).FollowedBy (AtLevels .stable .stable) (.related Eq) (ofWords ws') :=
    ofWords_followedBy_of_agree h hw
  have hcc : AtLevels .stable .stable c c := ⟨by rw [← hf], hf⟩
  cases result with
  | ok after =>
    obtain ⟨_, hrun, rfl, hafter⟩ := he.ok_followed coupling_stable hd AtLevels.unfreeze hcc
    rwa [← hafter] at hrun
  | error e =>
    obtain ⟨_, hrun, rfl⟩ := he.error_followed coupling_stable hd AtLevels.unfreeze hcc
    exact hrun

theorem EndsWith.raise (hw : ∀ w ∈ ws, w.IsOrdinary) (hf : c.features = .stable) {after : Context}
    (he : (ofWords ws).EndsWith tokens c unfreeze (.ok after)) :
    (ofWords ws).EndsWith tokens { c with features := .unstable } unfreeze
      (.ok { after with features := .unstable }) := by
  have hd : (ofWords ws).FollowedBy (AtLevels .stable .unstable) .ignored (ofWords ws) :=
    ofWords_followedBy_raised hw
  obtain ⟨_, hrun, rfl, -⟩ := he.ok_followed coupling_raised hd AtLevels.unfreeze ⟨rfl, hf⟩
  exact hrun

/-- The gate is sound and monotone. At the stable level two lists of words that agree up to the
actions of unstable words lead every program to the same result. What succeeds at the stable level
succeeds with the same values at the unstable level. -/
theorem gate_sound_and_monotone (hw : ∀ w ∈ ws, w.IsOrdinary) (tokens : List Value) (c : Context)
    (unfreeze : Bool) (hf : c.features = .stable) :
    (∀ ws', List.Forall₂ Word.AgreesIfStable ws ws' → (∀ w ∈ ws', w.IsOrdinary) → ∀ result,
      (ofWords ws).EndsWith tokens c unfreeze result ↔
        (ofWords ws').EndsWith tokens c unfreeze result) ∧
    ∀ after, (ofWords ws).EndsWith tokens c unfreeze (.ok after) →
      (ofWords ws).EndsWith tokens { c with features := .unstable } unfreeze
        (.ok { after with features := .unstable }) := by
  refine ⟨?_, fun after he => he.raise hw hf⟩
  intro ws' h hw' result
  have h' : List.Forall₂ Word.AgreesIfStable ws' ws := h.flip.imp fun _ _ hww => hww.symm
  exact ⟨EndsWith.of_agree h hw hf, EndsWith.of_agree h' hw' hf⟩

theorem gate_holds_inside_map :
    let boom (f : Stack → Except Error Stack) : Word :=
      { Standard.simple "boom" "--" Standard.anyStack f [] with stable := false }
    let twice : Macro := ⟨"twice", ["(", ":dup", ")", ":map"].map .literal⟩
    let ws (f : Stack → Except Error Stack) := Standard.words ++ [boom f, twice.toWord]
    (ofWords (ws .ok)).EndsWith (["(", "a", ")", "(", ":boom", ")", ":map"].map .literal) {} true
        (.error (Cause.unstableWord "boom")) ∧
      (ofWords (ws .ok)).EndsWith (["(", "a", ")", ":twice"].map .literal)
        { features := .unstable } true
        (.ok { stack := [.list (["a", "a"].map .literal)], features := .unstable }) := by
  intro boom twice ws
  have hw : ∀ f, ∀ w ∈ ws f, w.IsOrdinary := by
    intro f w hw
    rcases List.mem_append.mp hw with hw | hw
    · exact Word.isOrdinary_of_mem_words hw
    · simp only [List.mem_cons, List.not_mem_nil, or_false] at hw
      rcases hw with rfl | rfl
      · exact Or.inr (Or.inr rfl)
      · exact Or.inr (Or.inl ⟨twice, true, [], rfl⟩)
  have hsame : ∀ w : Word, w.AgreesIfStable w := fun _ => ⟨rfl, rfl, rfl, rfl, fun _ => rfl⟩
  have hagree : ∀ f g, List.Forall₂ Word.AgreesIfStable (ws f) (ws g) := by
    intro f g
    have hboom : (boom f).AgreesIfStable (boom g) := ⟨rfl, rfl, rfl, rfl, fun hs => nomatch hs⟩
    refine List.rel_append (List.forall₂_same.mpr fun w _ => hsame w) ?_
    exact .cons hboom (.cons (hsame _) .nil)
  -- The gate is shown with a word that would clear the stack, then carried over to another one.
  have hfail : (ofWords (ws fun _ => .ok [])).EndsWith
      (["(", "a", ")", "(", ":boom", ")", ":map"].map .literal) {} true
      (.error (Cause.unstableWord "boom")) :=
    ⟨3, by decide +kernel⟩
  have hok : (ofWords (ws .ok)).EndsWith (["(", "a", ")", ":twice"].map .literal) {} true
      (.ok { stack := [.list (["a", "a"].map .literal)] }) :=
    ⟨3, by decide +kernel⟩
  exact ⟨((gate_sound_and_monotone (hw _) _ _ _ rfl).1 _ (hagree _ _) (hw _) _).mp hfail,
    (gate_sound_and_monotone (hw _) _ _ _ rfl).2 _ hok⟩

end Dictionary

end StackWords
