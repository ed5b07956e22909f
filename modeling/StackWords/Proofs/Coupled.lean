import StackWords.Proofs.Acceptance
import StackWords.Proofs.Simulation
import StackWords.Standard

/-! # Standard words in related contexts

In contexts that a coupling relates, each standard word does the same twice. The
words that run lists do so because the programs inside do; the only word that
looks at the values set aside is the one that maps, and it keeps just those that
came up since it started.
-/
namespace StackWords

variable {R : Context → Context → Prop} {F : Failures}

theorem Macro.eval_invoke (m : Macro) (runner : Runner) (c : Context) :
    (m.invoke c).eval runner = (runner m.body c false).mapError (·.inFrame m.name) := by
  simp only [invoke, Routine.eval]
  cases runner m.body c false <;> rfl

namespace Word

theorem followedBy_of_simplyRaises (hC : Coupling R F) {w : Word}
    (h : w.SimplyRaises fun e => F.Allows e e) : w.FollowedBy R F w := by
  obtain ⟨f, hw, hf⟩ := h
  intro r s _ c c' hcc ha
  simp only [apply, hw, Action.apply, Routine.eval_done, hC.stack_eq hcc]
  cases hfs : f c.stack with
  | ok stack => exact .ok (hC.setStack hcc stack)
  | error e => exact .error (hf c.stack e ha hfs)

theorem followedBy_of_invoke (hC : Coupling R F) {w : Word} {m : Macro}
    (h : w.action = .onContext m.invoke) : w.FollowedBy R F w := by
  intro r s hr c c' hcc _
  simp only [apply, h, Action.apply, Macro.eval_invoke]
  exact (hr m.body c c' hcc).mapError fun e e' he => hC.inFrame he m.name

end Word

namespace Standard

variable {r s : Runner} {c c' : Context}

theorem lookup_eq (hC : Coupling R F) (hcc : R c c') (key : Value) : lookup c' key = lookup c key := by
  simp only [lookup, hC.vars_eq hcc]

theorem isUserError_of_lookup {name : String} {e : Error}
    (h : lookup c (.literal name) = .error e) : e.isUserError := by
  simp only [lookup, Value.text?] at h
  cases hv : c.vars.get? name with
  | none =>
    rw [hv] at h
    cases h
    rfl
  | some v =>
    rw [hv] at h
    cases h

theorem get_followedBy (hC : Coupling R F) (hcc : R c c') (ha : topIsLiteral c.stack) :
    (Outcome.ofExcept (get c)).FollowedBy R F (Outcome.ofExcept (get c')) := by
  obtain ⟨name, rest, hs⟩ := topIsLiteral_iff.mp ha
  simp only [get, hC.stack_eq hcc, hs, lookup_eq hC hcc]
  cases hv : lookup c (.literal name) with
  | error e => exact .error (hC.userError (isUserError_of_lookup hv))
  | ok v => exact .ok (hC.setStack hcc (v :: rest))

theorem bind_followedBy (hC : Coupling R F) (hcc : R c c') (name : String) (value : Value)
    (rest : Stack) :
    (Outcome.ofExcept (bind c (.literal name) value rest)).FollowedBy R F
      (Outcome.ofExcept (bind c' (.literal name) value rest)) := by
  simp only [bind, Value.text?, hC.vars_eq hcc]
  exact .ok (hC.update hcc rest (c.vars.insert name value))

theorem call_followedBy (hC : Coupling R F) (hr : Runner.FollowedBy R F r s) (hcc : R c c')
    (ha : topIsList c.stack) : ((call c).eval r).FollowedBy R F ((call c').eval s) := by
  obtain ⟨body, rest, hs⟩ := topIsList_iff.mp ha
  simp only [call, hC.stack_eq hcc, hs, Routine.eval_body]
  exact hr body _ _ (hC.setStack hcc rest)

theorem foldlM_body_followedBy (hC : Coupling R F) (hr : Runner.FollowedBy R F r s)
    (body items : List Value) (hcc : R c c') :
    ((items.foldlM (fun c item => Routine.body body (c.push item)) c).eval r).FollowedBy R F
      ((items.foldlM (fun c item => Routine.body body (c.push item)) c').eval s) := by
  -- The context goes from item to item, so it has to be related again in front of each.
  induction items generalizing c c' with
  | nil => exact .ok hcc
  | cons item items ih =>
    simp only [List.foldlM_cons, Routine.eval_bind, Routine.eval_body]
    exact (hr body _ _ (hC.push hcc item)).bind fun x y hxy => ih hxy

theorem each_followedBy (hC : Coupling R F) (hr : Runner.FollowedBy R F r s) (hcc : R c c')
    (ha : topAreLists c.stack) : ((each c).eval r).FollowedBy R F ((each c').eval s) := by
  obtain ⟨body, items, rest, hs⟩ := topAreLists_iff.mp ha
  simp only [each, hC.stack_eq hcc, hs]
  exact foldlM_body_followedBy hC hr body items (hC.setStack hcc rest)

theorem mapItem_followedBy (hC : Coupling R F) (hr : Runner.FollowedBy R F r s) (hcc : R c c')
    (body : List Value) (vars : Variables) (item : Value) :
    ((mapItem c body vars item).eval r).FollowedBy Eq F ((mapItem c' body vars item).eval s) := by
  simp only [mapItem, Routine.eval_bind, Routine.eval_body]
  refine (hr body _ _ (hC.update hcc [item] vars)).bind ?_
  intro after after' haa
  refine .ok ?_
  rw [hC.vars_eq haa, hC.stack_eq haa, hC.fresh_eq hcc haa]

theorem mapItems_followedBy (hC : Coupling R F) (hr : Runner.FollowedBy R F r s) (hcc : R c c')
    (body items : List Value) (vars : Variables) (collected : Stack) :
    ((mapItems c body items vars collected).eval r).FollowedBy Eq F
      ((mapItems c' body items vars collected).eval s) := by
  induction items generalizing vars collected with
  | nil => exact .ok rfl
  | cons item items ih =>
    simp only [mapItems, Routine.eval_bind]
    refine (mapItem_followedBy hC hr hcc body vars item).bind ?_
    rintro ⟨vars', produced⟩ _ rfl
    exact ih vars' (produced ++ collected)

theorem map_followedBy (hC : Coupling R F) (hr : Runner.FollowedBy R F r s) (hcc : R c c')
    (ha : topAreLists c.stack) : ((map c).eval r).FollowedBy R F ((map c').eval s) := by
  obtain ⟨body, items, rest, hs⟩ := topAreLists_iff.mp ha
  simp only [map, hC.stack_eq hcc, hC.vars_eq hcc, hs, Routine.eval_bind]
  refine (mapItems_followedBy hC hr hcc body items c.vars []).bind ?_
  rintro ⟨vars, collected⟩ _ rfl
  exact .ok (hC.update hcc (.list collected.reverse :: rest) vars)

theorem callNamed_followedBy (hC : Coupling R F) (hr : Runner.FollowedBy R F r s) (hcc : R c c')
    (ha : topIsLiteral c.stack) :
    ((callNamed c).eval r).FollowedBy R F ((callNamed c').eval s) := by
  obtain ⟨name, rest, hs⟩ := topIsLiteral_iff.mp ha
  simp only [callNamed, hC.stack_eq hcc, hs, lookup_eq hC hcc]
  cases hv : lookup c (.literal name) with
  | error e => exact .error (hC.userError (isUserError_of_lookup hv))
  | ok v =>
    cases v with
    | list body =>
      simp only [Routine.eval_body]
      exact hr body _ _ (hC.setStack hcc rest)
    | literal text => exact .ok (hC.setStack hcc _)
    | object item => exact .ok (hC.setStack hcc _)

theorem bindingWords_followedBy (hC : Coupling R F) :
    ∀ w ∈ bindingWords, w.FollowedBy R F w := by
  intro w hw
  simp only [bindingWords, List.mem_cons, List.not_mem_nil, or_false] at hw
  rcases hw with rfl | rfl | rfl | rfl
  · intro r s _ c c' hcc _
    exact .ok (hC.freeze hcc)
  · intro r s _ c c' hcc ha
    exact get_followedBy hC hcc ha
  · intro r s _ c c' hcc ha
    obtain ⟨value, name, rest, hs⟩ := secondIsLiteral_iff.mp ha
    simp only [Word.apply, full, Action.apply, Routine.ofExcept, Routine.eval_done, set,
      hC.stack_eq hcc, hs]
    exact bind_followedBy hC hcc name value rest
  · intro r s _ c c' hcc ha
    obtain ⟨name, value, rest, hs⟩ := literalOverValue_iff.mp ha
    simp only [Word.apply, full, Action.apply, Routine.ofExcept, Routine.eval_done, setSwapped,
      hC.stack_eq hcc, hs]
    exact bind_followedBy hC hcc name value rest

theorem quotationWords_followedBy (hC : Coupling R F) :
    ∀ w ∈ quotationWords, w.FollowedBy R F w := by
  intro w hw
  simp only [quotationWords, List.mem_cons, List.not_mem_nil, or_false] at hw
  rcases hw with rfl | rfl | rfl | rfl | rfl | rfl
  · exact Word.followedBy_of_simplyRaises hC (simplyRaises_of_succeeds fun _ _ => ⟨_, rfl⟩)
  · exact Word.followedBy_of_simplyRaises hC
      (simplyRaises_of_succeeds fun _ => listMany_succeeds)
  · exact fun hr _ _ hcc ha => call_followedBy hC hr hcc ha
  · exact fun hr _ _ hcc ha => each_followedBy hC hr hcc ha
  · exact fun hr _ _ hcc ha => map_followedBy hC hr hcc ha
  · exact fun hr _ _ hcc ha => callNamed_followedBy hC hr hcc ha

theorem derivedWords_followedBy (hC : Coupling R F) :
    ∀ w ∈ derivedWords, w.FollowedBy R F w := by
  intro w hw
  simp only [derivedWords, List.mem_cons, List.not_mem_nil, or_false] at hw
  rcases hw with rfl | rfl | rfl <;> exact Word.followedBy_of_invoke hC rfl

/-- Every standard word does the same in related contexts. -/
theorem words_followedBy (hC : Coupling R F) : ∀ w ∈ words, w.FollowedBy R F w := by
  intro w hw
  simp only [words, List.mem_append] at hw
  rcases hw with ((hw | hw) | hw) | hw
  · obtain ⟨f, hf, hraise⟩ := shuffleWords_simplyRaise w hw
    refine Word.followedBy_of_simplyRaises hC ⟨f, hf, ?_⟩
    intro stack e ha he
    obtain ⟨index, size, rfl⟩ := hraise stack e ha he
    exact hC.userError rfl
  · exact bindingWords_followedBy hC w hw
  · exact quotationWords_followedBy hC w hw
  · exact derivedWords_followedBy hC w hw

end Standard

theorem Dictionary.ofWords_followedBy (hC : Coupling R F)
    (hf : ∀ {c c' : Context}, R c c' → c'.features = c.features) {words : List Word}
    (hw : ∀ w ∈ words, w.FollowedBy R F w) : (ofWords words).FollowedBy R F (ofWords words) := by
  intro c c' name hcc
  rw [select_congr (hC.stack_eq hcc) (hf hcc)]
  cases hs : (ofWords words).select name c with
  | error e => exact .error (hC.userError (isUserError_of_select hs))
  | ok w => exact .ok (hw w (mem_of_select_ofWords hs))

/-- A word that a macro was turned into, with a stability and examples of its own. -/
def Word.IsMacro (w : Word) : Prop :=
  ∃ (m : Macro) (stable : Bool) (examples : List String), w = { m.toWord with stable, examples }

theorem Word.IsMacro.followedBy (hC : Coupling R F) {w : Word} (h : w.IsMacro) :
    w.FollowedBy R F w := by
  obtain ⟨m, stable, examples, rfl⟩ := h
  exact followedBy_of_invoke hC rfl

/-- A standard word with a stability and examples of its own, a macro, or a word that changes the
stack only. -/
def Word.IsOrdinary (w : Word) : Prop :=
  (∃ base ∈ Standard.words, ∃ (stable : Bool) (examples : List String),
    w = { base with stable, examples }) ∨ w.IsMacro ∨ w.isSimple

theorem Word.isOrdinary_of_mem_words {w : Word} (h : w ∈ Standard.words) : w.IsOrdinary :=
  Or.inl ⟨w, h, w.stable, w.examples, rfl⟩

theorem Word.IsOrdinary.followedBy (hC : Coupling R F) (hF : ∀ e, F.Allows e e) {w : Word}
    (h : w.IsOrdinary) : w.FollowedBy R F w := by
  rcases h with ⟨base, hbase, stable, examples, rfl⟩ | hm | hs
  · -- Neither the stability nor the examples play a part in what a word does.
    exact fun hr _ _ hcc ha => Standard.words_followedBy hC base hbase hr hcc ha
  · exact hm.followedBy hC
  · exact followedBy_of_simplyRaises hC (simplyRaises_of_isSimple hs hF)

/-- The dictionary of the standard words with further words behind them. -/
def Standard.extendedBy (extra : List Word) : Dictionary := .ofWords (words ++ extra)

/-- The first standard word of a name is stable, accepts the stacks that pass a test, and has an
action. -/
def Standard.Leads (name : String) (accepts : Stack → Bool) (action : Action) : Prop :=
  ∃ w others, words.filter (fun w => name = w.name) = w :: others ∧ w.accepts = accepts ∧
    w.action = action ∧ w.stable

/-- A standard word comes before all further words of its name, and no feature level keeps it from
being selected. -/
theorem Standard.select_extendedBy {name : String} {accepts : Stack → Bool} {action : Action}
    (h : Leads name accepts action) (extra : List Word) {c : Context} (ha : accepts c.stack) :
    ∃ w, (extendedBy extra).select name c = .ok w ∧ w.action = action := by
  obtain ⟨w, others, hw, rfl, haction, hstable⟩ := h
  have hcand : (extendedBy extra).candidates name =
      w :: (others ++ extra.filter fun w => name = w.name) := by
    rw [extendedBy, Dictionary.candidates_ofWords, List.filter_append, hw, List.cons_append]
  refine ⟨w, ?_, haction⟩
  rw [Dictionary.select_eq_ok_iff, hcand]
  refine ⟨List.find?_cons_of_pos ha, ?_⟩
  simp only [Features.allows, hstable, Bool.true_or]

theorem Standard.extendedBy_followedBy (hC : Coupling R F)
    (hf : ∀ {c c' : Context}, R c c' → c'.features = c.features) {extra : List Word}
    (hx : ∀ w ∈ extra, w.IsMacro ∨ w.SimplyRaises fun e => F.Allows e e) :
    (extendedBy extra).FollowedBy R F (extendedBy extra) := by
  apply Dictionary.ofWords_followedBy hC hf
  intro w hw
  rcases List.mem_append.mp hw with hw | hw
  · exact words_followedBy hC w hw
  · rcases hx w hw with hm | hs
    · exact hm.followedBy hC
    · exact Word.followedBy_of_simplyRaises hC hs

/-- Programs over the standard words, macros and words that change the stack only go on in related
contexts and share their failures. -/
theorem Standard.run_followedBy (hC : Coupling R (.related Eq))
    (hf : ∀ {c c' : Context}, R c c' → c'.features = c.features) {extra : List Word}
    (hx : ∀ w ∈ extra, w.IsMacro ∨ w.isSimple) (depth : Nat) :
    Runner.FollowedBy R (.related Eq) ((extendedBy extra).run depth)
      ((extendedBy extra).run depth) := by
  have hd : (extendedBy extra).FollowedBy R (.related Eq) (extendedBy extra) := by
    apply extendedBy_followedBy hC hf
    intro w hw
    exact (hx w hw).imp id fun h => Word.simplyRaises_of_isSimple h fun _ => rfl
  exact Dictionary.run_followedBy hC hd depth

end StackWords
