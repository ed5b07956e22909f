import StackWords.Declaration
import StackWords.Proofs.Resemblance

/-! # Words do not see identities

Standard words, macros and declared words see the type of an object and how it is shown,
never its identity. So it makes no difference to a program which identities the words
that make objects choose for them.
-/
namespace StackWords

open Value (Resemble)

namespace Word

variable {w w' : Word} {f f' : Stack → Except Error Stack}

/-- A word that changes the stack only, by a function that commutes with forgetting identities. -/
def IsBlind (w : Word) : Prop :=
  (∀ stack, w.accepts (stack.map Value.anonymous) = w.accepts stack) ∧
    ∃ f, w.action = .onStack f ∧
      ∀ stack, f (stack.map Value.anonymous) = (f stack).map (List.map Value.anonymous)

theorem apply_onStack_resembles (hw : w.action = .onStack f) (hw' : w'.action = .onStack f')
    (h : ∀ {stack stack'}, Resemble stack stack' →
      (f stack).map (List.map Value.anonymous) = (f' stack').map (List.map Value.anonymous))
    (r s : Runner) {c c' : Context} (hc : c.Resembles c') :
    ((w.apply c).eval r).Resembles ((w'.apply c').eval s) := by
  simp only [apply, hw, hw', Action.apply, Routine.eval_done, ← Outcome.ofExcept_bind_ok]
  refine (Outcome.followedBy_of_map_eq (h hc.stack)).bind ?_
  exact fun stack stack' hs => .ok (hc.setStack hs)

theorem accepts_eq_of_resemble {accepts : Stack → Bool}
    (h : ∀ stack, accepts (stack.map Value.anonymous) = accepts stack) {stack stack' : Stack}
    (hs : Resemble stack stack') : accepts stack' = accepts stack := by
  rw [← h stack, ← h stack', hs]

theorem Alike.refl (w : Word) : w.Alike w := ⟨rfl, rfl, rfl, rfl⟩

theorem IsBlind.resembles (h : w.IsBlind) : w.Resembles w := by
  obtain ⟨haccepts, f, hw, hf⟩ := h
  refine ⟨.refl w, accepts_eq_of_resemble haccepts, fun _ _ _ hc _ => ?_⟩
  refine apply_onStack_resembles hw hw ?_ _ _ hc
  intro stack stack' hs
  rw [← hf, ← hf, hs]

end Word

namespace Standard

open Value (anonymous)

variable {stack : Stack}

theorem atLeast_anonymous (n : Nat) (stack : Stack) :
    atLeast n (stack.map anonymous) = atLeast n stack := by
  simp [atLeast]

theorem topIsInt_anonymous (stack : Stack) : topIsInt (stack.map anonymous) = topIsInt stack := by
  cases stack <;> simp [topIsInt]

theorem topIsCount_anonymous (stack : Stack) :
    topIsCount (stack.map anonymous) = topIsCount stack := by
  cases stack <;> simp [topIsCount]

theorem topIsPosition_anonymous (stack : Stack) :
    topIsPosition (stack.map anonymous) = topIsPosition stack := by
  cases stack <;> simp [topIsPosition]

theorem topIsLiteral_anonymous (stack : Stack) :
    topIsLiteral (stack.map anonymous) = topIsLiteral stack := by
  cases stack <;> simp [topIsLiteral]

theorem topIsList_anonymous (stack : Stack) :
    topIsList (stack.map anonymous) = topIsList stack := by
  cases stack <;> simp [topIsList]

theorem popCount_anonymous (word : String) (stack : Stack) :
    popCount word (stack.map anonymous) =
      (popCount word stack).map (Prod.map id (List.map anonymous)) := by
  cases stack with
  | nil => rfl
  | cons v rest =>
    simp only [List.map_cons, popCount, Value.count?_anonymous]
    cases v.count? <;> rfl

theorem dropMany_anonymous (stack : Stack) :
    dropMany (stack.map anonymous) = (dropMany stack).map (List.map anonymous) := by
  simp only [dropMany, popCount_anonymous]
  cases popCount "ndrop" stack with
  | ok popped => simp [Except.map]
  | error e => rfl

theorem listMany_anonymous (stack : Stack) :
    listMany (stack.map anonymous) = (listMany stack).map (List.map anonymous) := by
  simp only [listMany, popCount_anonymous]
  cases popCount "nlist" stack with
  | ok popped => simp [Except.map]
  | error e => rfl

theorem pick_anonymous (stack : Stack) :
    pick (stack.map anonymous) = (pick stack).map (List.map anonymous) := by
  cases stack with
  | nil => rfl
  | cons v rest =>
    simp only [List.map_cons, pick, Value.int?_anonymous, List.getElem?_map, List.length_map]
    cases v.int? with
    | none => rfl
    | some i =>
      by_cases hi : 0 ≤ i
      · simp only [hi, ↓reduceIte]
        cases rest[i.toNat]? <;> rfl
      · simp only [hi, ↓reduceIte]
        rfl

theorem roll_anonymous (stack : Stack) :
    roll (stack.map anonymous) = (roll stack).map (List.map anonymous) := by
  simp only [roll, popCount_anonymous]
  cases popCount "roll" stack with
  | error e => rfl
  | ok popped =>
    obtain ⟨n, rest⟩ := popped
    simp only [Except.map, Prod.map_apply, id_eq, Sequence.removeAt?, List.getElem?_map,
      Option.map_map]
    cases rest[n]? with
    | none => rfl
    | some v => simp [List.eraseIdx_eq_take_drop_succ]

theorem rotate_anonymous (stack : Stack) :
    rotate (stack.map anonymous) = (rotate stack).map (List.map anonymous) := by
  simp only [rotate, Sequence.popLast?, List.getLast?_map, Option.map_map]
  cases stack.getLast? with
  | none => rfl
  | some v => simp [Except.map, List.map_dropLast]

theorem simple_isBlind {name signature : String} {accepts : Stack → Bool}
    {f : Stack → Except Error Stack} {examples : List String}
    (ha : ∀ stack, accepts (stack.map anonymous) = accepts stack)
    (hf : ∀ stack, f (stack.map anonymous) = (f stack).map (List.map anonymous)) :
    (simple name signature accepts f examples).IsBlind :=
  ⟨ha, f, rfl, hf⟩

theorem shuffleWords_areBlind : ∀ w ∈ shuffleWords, w.IsBlind := by
  have hany : ∀ stack : Stack, anyStack (stack.map anonymous) = anyStack stack := fun _ => rfl
  intro w hw
  simp only [shuffleWords, List.mem_cons, List.not_mem_nil, or_false] at hw
  rcases hw with rfl | rfl | rfl | rfl | rfl | rfl | rfl | rfl | rfl | rfl | rfl | rfl
  · exact simple_isBlind hany fun _ => rfl
  · exact simple_isBlind hany fun stack => by simp [depth, Except.map]
  · exact simple_isBlind (atLeast_anonymous 1) fun stack => by cases stack <;> rfl
  · exact simple_isBlind (atLeast_anonymous 1) fun stack => by cases stack <;> rfl
  · exact simple_isBlind topIsCount_anonymous dropMany_anonymous
  · refine simple_isBlind (atLeast_anonymous 2) fun stack => ?_
    rcases stack with _ | ⟨_, _ | ⟨_, _⟩⟩ <;> rfl
  · exact simple_isBlind topIsInt_anonymous pick_anonymous
  · exact simple_isBlind topIsPosition_anonymous roll_anonymous
  · exact simple_isBlind (atLeast_anonymous 1) rotate_anonymous
  · refine simple_isBlind (atLeast_anonymous 1) fun stack => ?_
    cases stack <;> simp [rotateBack, Except.map, underflow]
  · exact simple_isBlind hany fun stack => by simp [Except.map]
  · refine simple_isBlind (atLeast_anonymous 2) fun stack => ?_
    rcases stack with _ | ⟨_, _ | ⟨_, _⟩⟩ <;> rfl

section Runs

variable {r s : Runner} {c c' : Context}

theorem lookup_followedBy (h : c.Resembles c') (name : String) :
    (Outcome.ofExcept (lookup c (.literal name))).FollowedBy
      (fun v v' => v.anonymous = v'.anonymous) (.related Eq)
      (Outcome.ofExcept (lookup c' (.literal name))) := by
  apply Outcome.followedBy_of_map_eq
  have hname := h.vars name
  simp only [lookup, Value.text?]
  cases hv : c.vars.get? name with
  | none =>
    rw [hv, Option.map_none, eq_comm, Option.map_eq_none_iff] at hname
    rw [hname]
  | some v =>
    rw [hv, Option.map_some, eq_comm, Option.map_eq_some_iff] at hname
    obtain ⟨v', hv', hsame⟩ := hname
    rw [hv']
    exact congrArg Except.ok hsame.symm

theorem call_resembles (hr : Runner.Resembles r s) (h : c.Resembles c')
    (ha : topIsList c.stack) :
    ((call c).eval r).Resembles ((call c').eval s) := by
  obtain ⟨body, rest, hs⟩ := topIsList_iff.mp ha
  obtain ⟨body', rest', hs', hbody, hrest⟩ := (hs ▸ h.stack).exists_of_list
  simp only [call, hs, hs', Routine.eval_body]
  exact hr hbody (h.setStack hrest) false

theorem foldlM_body_resembles (hr : Runner.Resembles r s) {body body' : List Value}
    (hbody : Resemble body body') {items items' : List Value} (hitems : Resemble items items')
    (h : c.Resembles c') :
    ((items.foldlM (fun c item => Routine.body body (c.push item)) c).eval r).Resembles
      ((items'.foldlM (fun c item => Routine.body body' (c.push item)) c').eval s) := by
  induction items generalizing items' c c' with
  | nil =>
    obtain rfl := List.map_eq_nil_iff.mp hitems.symm
    exact .ok h
  | cons item items ih =>
    obtain ⟨item', items', rfl, hitem, hitems⟩ := hitems.exists_of_cons
    simp only [List.foldlM_cons, Routine.eval_bind, Routine.eval_body]
    exact (hr hbody (h.push hitem) false).bind fun x y hxy => ih hitems hxy

theorem each_resembles (hr : Runner.Resembles r s) (h : c.Resembles c')
    (ha : topAreLists c.stack) :
    ((each c).eval r).Resembles ((each c').eval s) := by
  obtain ⟨body, items, rest, hs⟩ := topAreLists_iff.mp ha
  obtain ⟨body', items', rest', hs', hbody, hitems, hrest⟩ := (hs ▸ h.stack).exists_of_lists
  simp only [each, hs, hs']
  exact foldlM_body_resembles hr hbody hitems (h.setStack hrest)

def Collected (p p' : Variables × Stack) : Prop :=
  Variables.Resemble p.1 p'.1 ∧ Resemble p.2 p'.2

theorem mapItem_resembles (hr : Runner.Resembles r s) (h : c.Resembles c')
    {body body' : List Value} (hbody : Resemble body body') {vars vars' : Variables}
    (hvars : Variables.Resemble vars vars') {item item' : Value}
    (hitem : item.anonymous = item'.anonymous) :
    ((mapItem c body vars item).eval r).FollowedBy Collected (.related Eq)
      ((mapItem c' body' vars' item').eval s) := by
  simp only [mapItem, Routine.eval_bind, Routine.eval_body]
  have hstart : Resemble [item] [item'] := Value.Resemble.cons hitem rfl
  refine (hr hbody ((h.setStack hstart).setVars hvars) false).bind ?_
  intro after after' hafter
  refine .ok ⟨hafter.vars, hafter.stack.append ?_⟩
  rw [hafter.frozen.length_eq, h.frozen.length_eq]
  exact hafter.frozen.take _

theorem mapItems_resembles (hr : Runner.Resembles r s) (h : c.Resembles c')
    {body body' : List Value} (hbody : Resemble body body') {items items' : List Value}
    (hitems : Resemble items items') {vars vars' : Variables}
    (hvars : Variables.Resemble vars vars') {collected collected' : Stack}
    (hcollected : Resemble collected collected') :
    ((mapItems c body items vars collected).eval r).FollowedBy Collected (.related Eq)
      ((mapItems c' body' items' vars' collected').eval s) := by
  induction items generalizing items' vars vars' collected collected' with
  | nil =>
    obtain rfl := List.map_eq_nil_iff.mp hitems.symm
    exact .ok ⟨hvars, hcollected⟩
  | cons item items ih =>
    obtain ⟨item', items', rfl, hitem, hitems⟩ := hitems.exists_of_cons
    simp only [mapItems, Routine.eval_bind]
    refine (mapItem_resembles hr h hbody hvars hitem).bind ?_
    rintro ⟨vars, produced⟩ ⟨vars', produced'⟩ ⟨hvars, hproduced⟩
    exact ih hitems hvars (hproduced.append hcollected)

theorem map_resembles (hr : Runner.Resembles r s) (h : c.Resembles c')
    (ha : topAreLists c.stack) :
    ((map c).eval r).Resembles ((map c').eval s) := by
  obtain ⟨body, items, rest, hs⟩ := topAreLists_iff.mp ha
  obtain ⟨body', items', rest', hs', hbody, hitems, hrest⟩ := (hs ▸ h.stack).exists_of_lists
  simp only [map, hs, hs', Routine.eval_bind]
  refine (mapItems_resembles hr h hbody hitems h.vars rfl).bind ?_
  rintro ⟨vars, collected⟩ ⟨vars', collected'⟩ ⟨hvars, hcollected⟩
  refine .ok ((h.setStack (hrest.cons ?_)).setVars hvars)
  rw [Value.anonymous_list, Value.anonymous_list, hcollected.reverse]

theorem callNamed_resembles (hr : Runner.Resembles r s) (h : c.Resembles c')
    (ha : topIsLiteral c.stack) :
    ((callNamed c).eval r).Resembles ((callNamed c').eval s) := by
  obtain ⟨name, rest, hs⟩ := topIsLiteral_iff.mp ha
  obtain ⟨rest', hs', hrest⟩ := (hs ▸ h.stack).exists_of_literal
  have hlookup := lookup_followedBy h name
  simp only [callNamed, hs, hs']
  cases hv : lookup c (.literal name) with
  | error e =>
    rw [hv] at hlookup
    obtain ⟨e', he', rfl⟩ := hlookup
    rw [Outcome.ofExcept_injective (b := .error e) he']
    exact .error rfl
  | ok v =>
    rw [hv] at hlookup
    obtain ⟨v', hv', hsame⟩ := hlookup
    rw [Outcome.ofExcept_injective (b := .ok v') hv']
    cases v with
    | list body =>
      cases v' <;> simp at hsame
      simp only [Routine.eval_body]
      exact hr hsame (h.setStack hrest) false
    | literal text =>
      cases v' <;> simp at hsame
      exact .ok (h.setStack (hrest.cons (by simp [hsame])))
    | object item =>
      cases v' <;> simp at hsame
      exact .ok (h.setStack (hrest.cons (by simp [hsame])))

theorem get_resembles (h : c.Resembles c') (ha : topIsLiteral c.stack) :
    (Outcome.ofExcept (get c)).Resembles (Outcome.ofExcept (get c')) := by
  obtain ⟨name, rest, hs⟩ := topIsLiteral_iff.mp ha
  obtain ⟨rest', hs', hrest⟩ := (hs ▸ h.stack).exists_of_literal
  simp only [get, hs, hs', ← Outcome.ofExcept_bind_ok]
  exact (lookup_followedBy h name).bind fun v v' hv => .ok (h.setStack (hrest.cons hv))

theorem bind_resembles (h : c.Resembles c') (name : String) {v v' : Value}
    (hv : v.anonymous = v'.anonymous) {rest rest' : Stack} (hrest : Resemble rest rest') :
    (Outcome.ofExcept (bind c (.literal name) v rest)).Resembles
      (Outcome.ofExcept (bind c' (.literal name) v' rest')) :=
  .ok ((h.setStack hrest).setVars (h.vars.insert name hv))

theorem set_resembles (h : c.Resembles c') (ha : secondIsLiteral c.stack) :
    (Outcome.ofExcept (set c)).Resembles (Outcome.ofExcept (set c')) := by
  obtain ⟨v, name, rest, hs⟩ := secondIsLiteral_iff.mp ha
  obtain ⟨v', below', hs', hv, hbelow⟩ := (hs ▸ h.stack).exists_of_cons
  obtain ⟨rest', rfl, hrest⟩ := hbelow.exists_of_literal
  simp only [set, hs, hs']
  exact bind_resembles h name hv hrest

theorem setSwapped_resembles (h : c.Resembles c') (ha : literalOverValue c.stack) :
    (Outcome.ofExcept (setSwapped c)).Resembles (Outcome.ofExcept (setSwapped c')) := by
  obtain ⟨name, v, rest, hs⟩ := literalOverValue_iff.mp ha
  obtain ⟨below', hs', hbelow⟩ := (hs ▸ h.stack).exists_of_literal
  obtain ⟨v', rest', rfl, hv, hrest⟩ := hbelow.exists_of_cons
  simp only [setSwapped, hs, hs']
  exact bind_resembles h name hv hrest

end Runs

theorem secondIsLiteral_anonymous (stack : Stack) :
    secondIsLiteral (stack.map anonymous) = secondIsLiteral stack := by
  rcases stack with _ | ⟨_, _ | ⟨_, _⟩⟩ <;> simp [secondIsLiteral]

theorem literalOverValue_anonymous (stack : Stack) :
    literalOverValue (stack.map anonymous) = literalOverValue stack := by
  simp only [literalOverValue, atLeast_anonymous, topIsLiteral_anonymous]

theorem topAreLists_anonymous (stack : Stack) :
    topAreLists (stack.map anonymous) = topAreLists stack := by
  rcases stack with _ | ⟨_, _ | ⟨_, _⟩⟩ <;> simp [topAreLists, topIsList]

theorem full_resembles {name signature : String} {accepts : Stack → Bool}
    {f : Context → Routine Context} {examples : List String}
    (ha : ∀ stack, accepts (stack.map anonymous) = accepts stack)
    (hf : ∀ {r s : Runner}, Runner.Resembles r s → ∀ {c c' : Context}, c.Resembles c' →
      accepts c.stack → ((f c).eval r).Resembles ((f c').eval s)) :
    (full name signature accepts f examples).Resembles (full name signature accepts f examples) :=
  ⟨.refl _, Word.accepts_eq_of_resemble ha, hf⟩

theorem bindingWords_resemble : ∀ w ∈ bindingWords, w.Resembles w := by
  intro w hw
  simp only [bindingWords, List.mem_cons, List.not_mem_nil, or_false] at hw
  rcases hw with rfl | rfl | rfl | rfl
  · exact full_resembles (fun _ => rfl) fun _ _ _ h _ => .ok h.freeze
  · exact full_resembles topIsLiteral_anonymous fun _ _ _ h ha => get_resembles h ha
  · exact full_resembles secondIsLiteral_anonymous fun _ _ _ h ha => set_resembles h ha
  · exact full_resembles literalOverValue_anonymous fun _ _ _ h ha => setSwapped_resembles h ha

theorem quotationWords_resemble : ∀ w ∈ quotationWords, w.Resembles w := by
  intro w hw
  simp only [quotationWords, List.mem_cons, List.not_mem_nil, or_false] at hw
  rcases hw with rfl | rfl | rfl | rfl | rfl | rfl
  · have hlist : ∀ stack : Stack,
        list (stack.map anonymous) = (list stack).map (List.map anonymous) :=
      fun stack => by simp [list, Except.map]
    exact (simple_isBlind (fun _ => rfl) hlist).resembles
  · exact (simple_isBlind topIsCount_anonymous listMany_anonymous).resembles
  · exact full_resembles topIsList_anonymous fun hr _ _ h ha => call_resembles hr h ha
  · exact full_resembles topAreLists_anonymous fun hr _ _ h ha => each_resembles hr h ha
  · exact full_resembles topAreLists_anonymous fun hr _ _ h ha => map_resembles hr h ha
  · exact full_resembles topIsLiteral_anonymous fun hr _ _ h ha => callNamed_resembles hr h ha

end Standard

theorem Word.IsMacro.resembles {w : Word} (h : w.IsMacro) : w.Resembles w := by
  obtain ⟨m, stable, examples, rfl⟩ := h
  refine ⟨.refl _, fun _ => rfl, ?_⟩
  intro r s hr c c' hc _
  simp only [apply, Macro.toWord, Action.apply, Macro.eval_invoke]
  refine (hr rfl hc false).mapError ?_
  rintro e _ rfl
  rfl

/-- No standard word sees identities. -/
theorem Standard.words_resemble : ∀ w ∈ words, w.Resembles w := by
  intro w hw
  simp only [words, List.mem_append] at hw
  rcases hw with ((hw | hw) | hw) | hw
  · exact (shuffleWords_areBlind w hw).resembles
  · exact bindingWords_resemble w hw
  · exact quotationWords_resemble w hw
  · simp only [derivedWords, List.mem_cons, List.not_mem_nil, or_false] at hw
    rcases hw with rfl | rfl | rfl <;> exact Word.IsMacro.resembles ⟨_, true, _, rfl⟩

theorem Condition.holds_anonymous (condition : Condition) (stack : Stack) :
    condition.holds (stack.map Value.anonymous) = condition.holds stack := by
  cases condition with
  | labels expected => simp [holds, Function.comp_def]
  | atLeast n => simp [holds]
  | topIsInt => cases stack <;> simp [holds]
  | topIsNumber => cases stack <;> simp [holds]
  | always => rfl
  | never => rfl

namespace Effect

open Value (anonymous)

variable (identify : Stack → Nat)

/-- Whatever identity a new object gets, forgetting it is giving it the one of all objects. -/
theorem wrapTop_anonymous (typeName : String) (stack : Stack) :
    wrapTop (fun _ => 0) typeName (stack.map anonymous) =
      (wrapTop identify typeName stack).map (List.map anonymous) := by
  rcases stack with _ | ⟨v, _ | ⟨key, rest⟩⟩
  · rfl
  · rfl
  · simp [wrapTop, Except.map, Value.render_anonymous]

theorem joinTop_anonymous (typeName : String) (stack : Stack) :
    joinTop (fun _ => 0) typeName (stack.map anonymous) =
      (joinTop identify typeName stack).map (List.map anonymous) := by
  rcases stack with _ | ⟨right, _ | ⟨left, rest⟩⟩
  · rfl
  · cases right <;> simp [joinTop, Except.map]
  · cases right <;> cases left <;> simp [joinTop, Except.map]

end Effect

/-- A declared word sees no identities, and it does not matter how its objects get theirs. -/
theorem Declaration.word_resembles (identify identify' : Stack → Nat) (d : Declaration) :
    (d.word identify).Resembles (d.word identify') := by
  refine ⟨⟨rfl, rfl, rfl, rfl⟩, Word.accepts_eq_of_resemble d.condition.holds_anonymous, ?_⟩
  intro r s hr c c' hc _
  obtain ⟨name, signature, condition, effect⟩ := d
  cases effect with
  | keep => exact .ok hc
  | summary =>
    refine .ok (hc.setStack (hc.stack.cons ?_))
    rw [Stack.summary, Stack.summary, hc.stack.map_label_eq]
  | push v => exact .ok (hc.setStack (hc.stack.cons rfl))
  | wrap typeName =>
    -- both are the word that gives all objects one identity, run on the stack without identities
    refine Word.apply_onStack_resembles rfl rfl ?_ r s hc
    intro stack stack' hs
    rw [← Effect.wrapTop_anonymous, ← Effect.wrapTop_anonymous, hs]
  | join typeName =>
    refine Word.apply_onStack_resembles rfl rfl ?_ r s hc
    intro stack stack' hs
    rw [← Effect.joinTop_anonymous, ← Effect.joinTop_anonymous, hs]
  | fail kind text => exact .error rfl
  | freeze => exact .ok hc.freeze
  | unfreeze => exact .ok hc.unfreeze
  | unset name => exact .ok (hc.setVars (hc.vars.erase name))
  | run tokens =>
    simp only [Word.apply, word, Effect.action, Action.apply, Routine.eval_call_done]
    exact hr (.refl tokens) hc true

namespace Standard

/-- The standard words with declared words and macros behind them, given how new objects get their
identities. -/
def withHost (identify : Stack → Nat) (declarations : List Declaration) (macros : List Macro) :
    Dictionary :=
  extendedBy (declarations.map (·.word identify) ++ macros.map Macro.toWord)

theorem host_words_resemble (identify identify' : Stack → Nat) (declarations : List Declaration)
    (macros : List Macro) :
    List.Forall₂ Word.Resembles
      (words ++ (declarations.map (·.word identify) ++ macros.map Macro.toWord))
      (words ++ (declarations.map (·.word identify') ++ macros.map Macro.toWord)) := by
  have hdeclared : List.Forall₂ Word.Resembles (declarations.map (·.word identify))
      (declarations.map (·.word identify')) := by
    rw [List.forall₂_map_left_iff, List.forall₂_map_right_iff, List.forall₂_same]
    exact fun d _ => d.word_resembles identify identify'
  have hmacros : ∀ w ∈ macros.map Macro.toWord, w.Resembles w := by
    intro w hw
    obtain ⟨m, -, rfl⟩ := List.mem_map.mp hw
    exact Word.IsMacro.resembles ⟨m, true, [], rfl⟩
  exact List.rel_append (List.forall₂_same.mpr words_resemble)
    (List.rel_append hdeclared (List.forall₂_same.mpr hmacros))

/-- It makes no difference to a program which identities the words of a host give to new objects:
it ends with values that are shown the same, or with the same error. -/
theorem identities_make_no_difference (identify identify' : Stack → Nat)
    (declarations : List Declaration) (macros : List Macro) (tokens : List Value) (c : Context)
    (unfreeze : Bool) :
    (∀ after, (withHost identify declarations macros).EndsWith tokens c unfreeze (.ok after) →
      ∃ after', (withHost identify' declarations macros).EndsWith tokens c unfreeze (.ok after') ∧
        after.Resembles after' ∧
        ∀ separator, renderValues separator after'.stack = renderValues separator after.stack) ∧
    ∀ e, (withHost identify declarations macros).EndsWith tokens c unfreeze (.error e) →
      (withHost identify' declarations macros).EndsWith tokens c unfreeze (.error e) := by
  have hwords := host_words_resemble identify identify' declarations macros
  obtain ⟨hok, herror⟩ := Dictionary.endsWith_resembles hwords (.refl tokens) (.refl c) unfreeze
  refine ⟨fun after hafter => ?_, herror⟩
  obtain ⟨after', hends, hsame⟩ := hok after hafter
  exact ⟨after', hends, hsame, hsame.stack.renderValues_eq⟩

example :
    let make : Declaration := {
      name := "eq", signature := "k v -- Query"
      condition := .labels ["String", "String"], effect := .wrap "Query" }
    let join : Declaration := {
      name := "and", signature := "Query Query -- Query"
      condition := .labels ["Query", "Query"], effect := .join "Query" }
    (withHost Stack.newIdentity [make, join] []).EndsWith
      (["name", "sps", ":eq", "app", "www", ":eq", ":and"].map .literal) {} true
      (.ok { stack := [.object ⟨2, "Query", "(name=sps) and (app=www)"⟩] }) :=
  ⟨1, by decide +kernel⟩

end Standard

end StackWords
