import StackWords.Proofs.Capturing
import StackWords.Proofs.Gate

/-! # Runs that are the same but for identities

An object has an identity besides its type and its text. Values, contexts and runs are
compared here with all identities forgotten. The tokens of the two runs may differ in
identities too, since a list on the stack can be run. Therefore these runs are not those of a
coupling, where both contexts show the same stack.
-/
namespace StackWords

variable {α β : Type}

namespace Value

mutual

/-- A value in which all objects have one identity. -/
def anonymous : Value → Value
  | .literal text => .literal text
  | .list items => .list (anonymousItems items)
  | .object item => .object { item with identity := 0 }

def anonymousItems : List Value → List Value
  | [] => []
  | v :: vs => v.anonymous :: anonymousItems vs

end

theorem anonymousItems_eq_map (vs : List Value) : anonymousItems vs = vs.map anonymous := by
  induction vs with
  | nil => rfl
  | cons v vs ih => rw [anonymousItems, ih, List.map_cons]

@[simp] theorem anonymous_literal (text : String) : (literal text).anonymous = .literal text := by
  rw [anonymous]

@[simp] theorem anonymous_list (items : List Value) :
    (list items).anonymous = .list (items.map anonymous) := by
  rw [anonymous, anonymousItems_eq_map]

@[simp] theorem anonymous_object (item : Object) :
    (object item).anonymous = .object { item with identity := 0 } := by
  rw [anonymous]

@[simp] theorem text?_anonymous (v : Value) : v.anonymous.text? = v.text? := by
  cases v <;> simp [text?]

@[simp] theorem int?_anonymous (v : Value) : v.anonymous.int? = v.int? := by simp [int?]

@[simp] theorem count?_anonymous (v : Value) : v.anonymous.count? = v.count? := by simp [count?]

@[simp] theorem number?_anonymous (v : Value) : v.anonymous.number? = v.number? := by
  simp [number?]

@[simp] theorem label_anonymous (v : Value) : v.anonymous.label = v.label := by
  cases v <;> simp [label]

@[simp] theorem isLiteral_anonymous (v : Value) : v.anonymous.isLiteral = v.isLiteral := by
  simp [isLiteral]

@[simp] theorem isList_anonymous (v : Value) : v.anonymous.isList = v.isList := by
  cases v <;> simp [isList, items?]

mutual

/-- The text of a value does not show identities. -/
theorem render_anonymous : (v : Value) → v.anonymous.render = v.render
  | .literal text => by rw [anonymous_literal]
  | .list items => by rw [anonymous, render_list, render_list, renderItems_anonymousItems items]
  | .object item => by rw [anonymous_object, render, render]

theorem renderItems_anonymousItems :
    (vs : List Value) → renderItems (anonymousItems vs) = renderItems vs
  | [] => rfl
  | v :: vs => by
    rw [anonymousItems, renderItems, renderItems, render_anonymous v,
      renderItems_anonymousItems vs]

end

/-- Values that are the same but for identities. -/
def Resemble (vs ws : List Value) : Prop := vs.map anonymous = ws.map anonymous

namespace Resemble

variable {vs ws vs' ws' : List Value} {v w : Value}

theorem refl (vs : List Value) : Resemble vs vs := rfl

theorem cons (hv : v.anonymous = w.anonymous) (h : Resemble vs ws) :
    Resemble (v :: vs) (w :: ws) := by
  rw [Resemble, List.map_cons, List.map_cons, hv, h]

theorem append (h : Resemble vs ws) (h' : Resemble vs' ws') :
    Resemble (vs ++ vs') (ws ++ ws') := by
  rw [Resemble, List.map_append, List.map_append, h, h']

theorem take (h : Resemble vs ws) (n : Nat) : Resemble (vs.take n) (ws.take n) := by
  rw [Resemble, List.map_take, List.map_take, h]

theorem reverse (h : Resemble vs ws) : Resemble vs.reverse ws.reverse := by
  rw [Resemble, List.map_reverse, List.map_reverse, h]

theorem length_eq (h : Resemble vs ws) : ws.length = vs.length := by
  have hlength := congrArg List.length h
  simpa using hlength.symm

theorem map_label_eq (h : Resemble vs ws) : ws.map label = vs.map label := by
  have hlabels := congrArg (List.map label) h
  simpa [Function.comp_def] using hlabels.symm

theorem renderValues_eq (h : Resemble vs ws) (separator : String) :
    renderValues separator ws = renderValues separator vs := by
  have hrender := congrArg (List.map render) h
  simp only [List.map_map, Function.comp_def, render_anonymous] at hrender
  rw [renderValues, renderValues, hrender]

theorem exists_of_cons (h : Resemble (v :: vs) ws) :
    ∃ w ws', ws = w :: ws' ∧ v.anonymous = w.anonymous ∧ Resemble vs ws' := by
  obtain ⟨w, ws', rfl, hw, hws⟩ := List.map_eq_cons_iff.mp h.symm
  exact ⟨w, ws', rfl, hw.symm, hws.symm⟩

theorem exists_of_literal {text : String} (h : Resemble (.literal text :: vs) ws) :
    ∃ ws', ws = .literal text :: ws' ∧ Resemble vs ws' := by
  obtain ⟨w, ws', rfl, hw, hws⟩ := h.exists_of_cons
  cases w <;> simp at hw
  exact ⟨ws', by rw [hw], hws⟩

theorem exists_of_list {items : List Value} (h : Resemble (.list items :: vs) ws) :
    ∃ items' ws', ws = .list items' :: ws' ∧ Resemble items items' ∧ Resemble vs ws' := by
  obtain ⟨w, ws', rfl, hw, hws⟩ := h.exists_of_cons
  cases w <;> simp at hw
  exact ⟨_, ws', rfl, hw, hws⟩

theorem exists_of_lists {body items : List Value}
    (h : Resemble (.list body :: .list items :: vs) ws) :
    ∃ body' items' ws', ws = .list body' :: .list items' :: ws' ∧ Resemble body body' ∧
      Resemble items items' ∧ Resemble vs ws' := by
  obtain ⟨body', below, rfl, hbody, hbelow⟩ := h.exists_of_list
  obtain ⟨items', ws', rfl, hitems, hws⟩ := hbelow.exists_of_list
  exact ⟨body', items', ws', rfl, hbody, hitems, hws⟩

end Resemble

end Value

open Value (Resemble)

def Variables.Resemble (vars vars' : Variables) : Prop :=
  ∀ name, (vars.get? name).map Value.anonymous = (vars'.get? name).map Value.anonymous

namespace Variables.Resemble

variable {vars vars' : Variables}

theorem insert (h : Variables.Resemble vars vars') (name : String) {v v' : Value}
    (hv : v.anonymous = v'.anonymous) :
    Variables.Resemble (vars.insert name v) (vars'.insert name v') := by
  intro other
  rw [Bindings.get?_insert, Bindings.get?_insert]
  split
  · rw [Option.map_some, Option.map_some, hv]
  · exact h other

theorem erase (h : Variables.Resemble vars vars') (name : String) :
    Variables.Resemble (vars.erase name) (vars'.erase name) := by
  intro other
  rw [Bindings.get?_erase, Bindings.get?_erase]
  split
  · rfl
  · exact h other

end Variables.Resemble

structure Context.Resembles (c c' : Context) : Prop where
  stack : Resemble c.stack c'.stack
  vars : Variables.Resemble c.vars c'.vars
  initial : Variables.Resemble c.initial c'.initial
  frozen : Resemble c.frozen c'.frozen
  features_eq : c'.features = c.features

namespace Context.Resembles

variable {c c' : Context} {stack stack' : Stack} {vars vars' : Variables}

theorem refl (c : Context) : c.Resembles c := ⟨rfl, fun _ => rfl, fun _ => rfl, rfl, rfl⟩

theorem setStack (h : c.Resembles c') (hs : Resemble stack stack') :
    Context.Resembles { c with stack } { c' with stack := stack' } :=
  ⟨hs, h.vars, h.initial, h.frozen, h.features_eq⟩

theorem setVars (h : c.Resembles c') (hv : Variables.Resemble vars vars') :
    Context.Resembles { c with vars } { c' with vars := vars' } :=
  ⟨h.stack, hv, h.initial, h.frozen, h.features_eq⟩

theorem push (h : c.Resembles c') {v v' : Value} (hv : v.anonymous = v'.anonymous) :
    (c.push v).Resembles (c'.push v') :=
  h.setStack (h.stack.cons hv)

theorem freeze (h : c.Resembles c') : c.freeze.Resembles c'.freeze :=
  ⟨rfl, h.initial, h.initial, h.stack.append h.frozen, h.features_eq⟩

theorem unfreeze (h : c.Resembles c') : c.unfreeze.Resembles c'.unfreeze :=
  ⟨h.stack.append h.frozen, h.vars, h.initial, rfl, h.features_eq⟩

end Context.Resembles

/-- A context is met by one that is the same but for identities, and an error by the same error. -/
abbrev Outcome.Resembles (o o' : Outcome Context) : Prop :=
  o.FollowedBy Context.Resembles (.related Eq) o'

/-- Runners that go alike from contexts that are the same but for identities. -/
def Runner.Resembles (r s : Runner) : Prop :=
  ∀ {tokens tokens' : List Value}, Resemble tokens tokens' → ∀ {c c' : Context}, c.Resembles c' →
    ∀ unfreeze, (r tokens c unfreeze).Resembles (s tokens' c' unfreeze)

/-- Two words that are selected alike, by a test that sees no identities, and do the same but for
identities. -/
structure Word.Resembles (w w' : Word) : Prop where
  alike : w.Alike w'
  accepts_eq : ∀ {stack stack' : Stack}, Resemble stack stack' →
    w.accepts stack' = w.accepts stack
  apply : ∀ {r s : Runner}, Runner.Resembles r s → ∀ {c c' : Context}, c.Resembles c' →
    w.accepts c.stack → ((w.apply c).eval r).Resembles ((w'.apply c').eval s)

/-- Results that a map makes equal are met by each other. -/
theorem Outcome.followedBy_of_map_eq {x y : Except Error α} {f : α → β} (h : x.map f = y.map f) :
    (Outcome.ofExcept x).FollowedBy (fun a b => f a = f b) (.related Eq) (Outcome.ofExcept y) := by
  cases x with
  | ok a =>
    cases y with
    | ok b => exact .ok (Except.ok.inj h)
    | error e => cases h
  | error e =>
    cases y with
    | ok b => cases h
    | error e' =>
      cases h
      exact .error rfl

namespace Instruction

def anonymous : Instruction → Instruction
  | .push v => .push v.anonymous
  | .invoke name => .invoke name

theorem isLiteral_anonymous_eq_false (v : Value) (h : v.isLiteral = false) :
    v.anonymous.isLiteral = false := by
  rw [Value.isLiteral_anonymous, h]

/-- Reading looks at literals only. -/
theorem read_anonymous (t : Value) (ts : List Value) :
    read t.anonymous (ts.map Value.anonymous) =
      (read t ts).map (Prod.map anonymous (List.map Value.anonymous)) := by
  have hsame : ∀ text, t.anonymous = .literal text ↔ t = .literal text := fun text =>
    map_eq_literal_iff Value.anonymous_literal isLiteral_anonymous_eq_false
  have hcapture := capture_map Value.anonymous_literal isLiteral_anonymous_eq_false 0 ts
  by_cases hs : t = .listStart
  · subst hs
    rw [Value.listStart, Value.anonymous_literal, ← Value.listStart]
    simp only [read, ↓reduceIte, hcapture]
    cases capture 0 ts with
    | none => rfl
    | some list => simp [Except.map, anonymous]
  · have hs' : t.anonymous ≠ .listStart := mt (hsame _).mp hs
    by_cases he : t = .listEnd
    · have he' : t.anonymous = .listEnd := (hsame _).mpr he
      subst he
      rw [he', read_listEnd, read_listEnd]
      rfl
    · have he' : t.anonymous ≠ .listEnd := mt (hsame _).mp he
      have hname : t.anonymous.wordName? = t.wordName? := by
        rw [Value.wordName?, Value.text?_anonymous, Value.wordName?]
      simp only [read, hs, hs', he, he', ↓reduceIte, hname]
      cases t.wordName? <;> rfl

end Instruction

namespace Dictionary

variable {ws ws' : List Word} {tokens tokens' : List Value} {c c' : Context}

theorem accepts_eq_of_mem (h : List.Forall₂ Word.Resembles ws ws') {w : Word} (hw : w ∈ ws)
    {stack stack' : Stack} (hs : Resemble stack stack') : w.accepts stack' = w.accepts stack := by
  induction h with
  | nil => cases hw
  | cons hwords _ ih =>
    rcases List.mem_cons.mp hw with rfl | hw
    · exact hwords.accepts_eq hs
    · exact ih hw

theorem find?_accepts_eq {words : List Word} {stack stack' : Stack}
    (h : ∀ w ∈ words, w.accepts stack' = w.accepts stack) :
    words.find? (·.accepts stack') = words.find? (·.accepts stack) := by
  induction words with
  | nil => rfl
  | cons w words ih =>
    obtain ⟨hw, hwords⟩ := List.forall_mem_cons.mp h
    rw [List.find?_cons, List.find?_cons, hw, ih hwords]

theorem select_resembles (h : List.Forall₂ Word.Resembles ws ws') (name : String)
    (hc : c.Resembles c') :
    (Outcome.ofExcept ((ofWords ws).select name c)).FollowedBy Word.Resembles (.related Eq)
      (Outcome.ofExcept ((ofWords ws').select name c')) := by
  have haccepts : ∀ w ∈ (ofWords ws).candidates name, w.accepts c'.stack = w.accepts c.stack := by
    intro w hw
    rw [candidates_ofWords] at hw
    exact accepts_eq_of_mem h (List.mem_filter.mp hw).1 hc.stack
  have hsame : (ofWords ws).select name c' = (ofWords ws).select name c := by
    simp only [select, find?_accepts_eq haccepts, Stack.summary, hc.stack.map_label_eq,
      hc.features_eq]
  rw [← hsame]
  exact select_alike (fun hw => hw.alike) h name c'

theorem perform_resembles (h : List.Forall₂ Word.Resembles ws ws') {r s : Runner}
    (hr : Runner.Resembles r s) {i i' : Instruction} (hi : i.anonymous = i'.anonymous)
    (hc : c.Resembles c') :
    ((ofWords ws).perform r i c).Resembles ((ofWords ws').perform s i' c') := by
  cases i with
  | push v =>
    cases i' with
    | push v' => exact .ok (hc.push (Instruction.push.inj hi))
    | invoke name => cases hi
  | invoke name =>
    cases i' with
    | push v => cases hi
    | invoke name' =>
      cases hi
      rw [perform_invoke, perform_invoke]
      have hselect := select_resembles h name hc
      cases hw : (ofWords ws).select name c with
      | error e =>
        rw [hw] at hselect
        obtain ⟨e', he', rfl⟩ := hselect
        rw [he']
        exact .error rfl
      | ok w =>
        rw [hw] at hselect
        obtain ⟨w', hw', hww⟩ := hselect
        rw [hw']
        exact hww.apply hr hc (accepts_of_select hw)

theorem execute_resembles (h : List.Forall₂ Word.Resembles ws ws') {r s : Runner}
    (hr : Runner.Resembles r s) (ht : Resemble tokens tokens') (hc : c.Resembles c') :
    ((ofWords ws).execute r tokens c).Resembles ((ofWords ws').execute s tokens' c') := by
  induction tokens using Instruction.read_induction generalizing tokens' c c' with
  | nil =>
    obtain rfl := List.map_eq_nil_iff.mp ht.symm
    rw [execute_nil, execute_nil]
    exact .ok hc
  | cons t ts ih =>
    obtain ⟨t', ts', rfl, ht, hts⟩ := ht.exists_of_cons
    have hread : (Instruction.read t ts).map
          (Prod.map Instruction.anonymous (List.map Value.anonymous)) =
        (Instruction.read t' ts').map
          (Prod.map Instruction.anonymous (List.map Value.anonymous)) := by
      rw [← Instruction.read_anonymous, ← Instruction.read_anonymous, ht, hts]
    have hstep := Outcome.followedBy_of_map_eq hread
    rw [execute_cons, execute_cons]
    cases hi : Instruction.read t ts with
    | error e =>
      rw [hi] at hstep
      obtain ⟨e', he', rfl⟩ := hstep
      rw [he']
      exact .error rfl
    | ok step =>
      rw [hi] at hstep
      obtain ⟨i, rest⟩ := step
      obtain ⟨⟨i', rest'⟩, hi', hsame⟩ := hstep
      obtain ⟨hinstruction, hrest⟩ := Prod.mk.inj hsame
      rw [hi']
      exact (perform_resembles h hr hinstruction hc).bind fun x y hxy => ih i rest hi hrest hxy

/-- Runs go alike at every limit on nesting. -/
theorem run_resembles (h : List.Forall₂ Word.Resembles ws ws') (depth : Nat) :
    Runner.Resembles ((ofWords ws).run depth) ((ofWords ws').run depth) := by
  induction depth with
  | zero => exact fun _ _ _ _ _ => trivial
  | succ depth ih =>
    intro tokens tokens' ht c c' hc unfreeze
    refine (execute_resembles h ih ht hc).bind fun after after' hafter => .ok ?_
    cases unfreeze with
    | false => exact hafter
    | true => exact hafter.unfreeze

/-- Programs do not see the identities of objects. Two runs that start alike but for these, with
words that do, end alike but for these or fail with the same error. -/
theorem endsWith_resembles (h : List.Forall₂ Word.Resembles ws ws')
    (ht : Resemble tokens tokens') (hc : c.Resembles c') (unfreeze : Bool) :
    (∀ after, (ofWords ws).EndsWith tokens c unfreeze (.ok after) →
      ∃ after', (ofWords ws').EndsWith tokens' c' unfreeze (.ok after') ∧ after.Resembles after') ∧
    ∀ e, (ofWords ws).EndsWith tokens c unfreeze (.error e) →
      (ofWords ws').EndsWith tokens' c' unfreeze (.error e) := by
  constructor
  · rintro after ⟨depth, hrun⟩
    have hfollow := run_resembles h depth ht hc unfreeze
    rw [hrun] at hfollow
    obtain ⟨after', hrun', hafter⟩ := hfollow
    exact ⟨after', ⟨depth, hrun'⟩, hafter⟩
  · rintro e ⟨depth, hrun⟩
    have hfollow := run_resembles h depth ht hc unfreeze
    rw [hrun] at hfollow
    obtain ⟨e', hrun', rfl⟩ := hfollow
    exact ⟨depth, hrun'⟩

end Dictionary

end StackWords
