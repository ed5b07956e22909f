import StackWords.Proofs.Ending
import StackWords.Proofs.Reading
import StackWords.Proofs.Selection

/-! # Two runs side by side

Two runs of a program are compared instruction by instruction. Their contexts
stay related, and a failure of the first run is shared by the second one or is
of no concern. What is shown of every word a dictionary can select is carried
over to whole runs here, through all programs that words have run on the way.
-/
namespace StackWords

variable {α β γ δ : Type}

/-- What a failure of the first run asks of the second one: nothing, or a related failure. -/
inductive Failures where
  | ignored
  | related (E : Error → Error → Prop)

namespace Failures

/-- Whether the first run may fail with one error while the second one fails with another. -/
def Allows : Failures → Error → Error → Prop
  | .ignored, _, _ => True
  | .related E, e, e' => E e e'

/-- Whether the second run may have an outcome when the first one fails with an error. -/
def Answer : Failures → Error → Outcome α → Prop
  | .ignored, _, _ => True
  | .related E, e, o => ∃ e', o = .error e' ∧ E e e'

theorem Allows.answer {F : Failures} {e e' : Error} (h : F.Allows e e') :
    F.Answer e (.error e' : Outcome α) := by
  cases F with
  | ignored => trivial
  | related E => exact ⟨e', rfl, h⟩

theorem Answer.bind {F : Failures} {e : Error} {o : Outcome α} (h : F.Answer e o)
    (f : α → Outcome β) : F.Answer e (o >>= f) := by
  cases F with
  | ignored => trivial
  | related E =>
    obtain ⟨e', rfl, he⟩ := h
    exact ⟨e', rfl, he⟩

end Failures

/-- The second outcome follows the first one: a value is met by a related value, a failure is
answered. An outcome that was stopped asks for nothing. -/
def Outcome.FollowedBy (R : α → β → Prop) (F : Failures) : Outcome α → Outcome β → Prop
  | .ok a, o => ∃ b, o = .ok b ∧ R a b
  | .error e, o => F.Answer e o
  | .exhausted, _ => True

namespace Outcome.FollowedBy

variable {R : α → β → Prop} {S : γ → δ → Prop} {F : Failures}

theorem ok {a : α} {b : β} (h : R a b) : (Outcome.ok a).FollowedBy R F (.ok b) := ⟨b, rfl, h⟩

theorem error {e e' : Error} (h : F.Allows e e') :
    (Outcome.error e : Outcome α).FollowedBy R F (.error e') := h.answer

theorem bind {a : Outcome α} {b : Outcome β} {f : α → Outcome γ} {g : β → Outcome δ}
    (h : a.FollowedBy R F b) (hf : ∀ x y, R x y → (f x).FollowedBy S F (g y)) :
    (a >>= f).FollowedBy S F (b >>= g) := by
  cases a with
  | ok x =>
    obtain ⟨y, rfl, hxy⟩ := h
    exact hf x y hxy
  | error e => exact Failures.Answer.bind h g
  | exhausted => trivial

theorem mapError {a : Outcome α} {b : Outcome β} {f g : Error → Error}
    (h : a.FollowedBy R F b) (hf : ∀ e e', F.Allows e e' → F.Allows (f e) (g e')) :
    (a.mapError f).FollowedBy R F (b.mapError g) := by
  cases a with
  | ok x =>
    obtain ⟨y, rfl, hxy⟩ := h
    exact ok hxy
  | error e =>
    cases F with
    | ignored => trivial
    | related E =>
      obtain ⟨e', rfl, he⟩ := h
      exact error (hf e e' he)
  | exhausted => trivial

end Outcome.FollowedBy

/-- A relation of contexts that standard words keep up: related contexts show the same stack and
the same variables, changes of these and setting aside lead to related contexts, and the values
set aside since an earlier pair of contexts are the same. Failures of programs are shared, and
macros around a failure are recorded alike. -/
structure Coupling (R : Context → Context → Prop) (F : Failures) : Prop where
  stack_eq {c c' : Context} : R c c' → c'.stack = c.stack
  vars_eq {c c' : Context} : R c c' → c'.vars = c.vars
  update {c c' : Context} : R c c' → ∀ (stack : Stack) (vars : Variables),
    R { c with stack, vars } { c' with stack, vars }
  freeze {c c' : Context} : R c c' → R c.freeze c'.freeze
  fresh_eq {c c' a a' : Context} : R c c' → R a a' →
    a'.frozen.take (a'.frozen.length - c'.frozen.length) =
      a.frozen.take (a.frozen.length - c.frozen.length)
  userError {e : Error} : e.isUserError → F.Allows e e
  inFrame {e e' : Error} : F.Allows e e' → ∀ frame, F.Allows (e.inFrame frame) (e'.inFrame frame)

variable {R : Context → Context → Prop} {F : Failures}

namespace Coupling

variable {c c' : Context}

theorem eq (huser : ∀ {e : Error}, e.isUserError → F.Allows e e)
    (hframe : ∀ {e e' : Error}, F.Allows e e' → ∀ frame,
      F.Allows (e.inFrame frame) (e'.inFrame frame)) : Coupling Eq F where
  stack_eq := by
    rintro c _ rfl
    rfl
  vars_eq := by
    rintro c _ rfl
    rfl
  update := by
    rintro c _ rfl stack vars
    rfl
  freeze := by
    rintro c _ rfl
    rfl
  fresh_eq := by
    rintro c _ a _ rfl rfl
    rfl
  userError := huser
  inFrame := hframe

/-- If failures are the same on both sides, the two sides of a coupling can change places. -/
theorem flip (hC : Coupling R (.related Eq)) : Coupling (fun c c' => R c' c) (.related Eq) where
  stack_eq h := (hC.stack_eq h).symm
  vars_eq h := (hC.vars_eq h).symm
  update h := hC.update h
  freeze h := hC.freeze h
  fresh_eq h ha := (hC.fresh_eq h ha).symm
  userError _ := rfl
  inFrame := by
    rintro e _ rfl frame
    rfl

theorem setStack (hC : Coupling R F) (h : R c c') (stack : Stack) :
    R { c with stack } { c' with stack } := by
  have hu := hC.update h stack c.vars
  rw [← hC.vars_eq h] at hu
  simpa [hC.vars_eq h] using hu

theorem push (hC : Coupling R F) (h : R c c') (v : Value) : R (c.push v) (c'.push v) := by
  have hs := hC.setStack h (v :: c.stack)
  simpa only [Context.push, hC.stack_eq h] using hs

end Coupling

/-- Programs that do not put values back go on in related contexts. -/
def Runner.FollowedBy (R : Context → Context → Prop) (F : Failures) (r s : Runner) : Prop :=
  ∀ tokens c c', R c c' → (r tokens c false).FollowedBy R F (s tokens c' false)

/-- On a stack that the first word accepts, the second one does what it does. -/
def Word.FollowedBy (R : Context → Context → Prop) (F : Failures) (w w' : Word) : Prop :=
  ∀ {r s : Runner}, Runner.FollowedBy R F r s → ∀ {c c' : Context}, R c c' →
    w.accepts c.stack → ((w.apply c).eval r).FollowedBy R F ((w'.apply c').eval s)

/-- In related contexts a name stands for words of which the second does what the first does. -/
def Dictionary.FollowedBy (R : Context → Context → Prop) (F : Failures) (d d' : Dictionary) :
    Prop :=
  ∀ {c c' : Context} (name : String), R c c' →
    (Outcome.ofExcept (d.select name c)).FollowedBy (Word.FollowedBy R F) F
      (Outcome.ofExcept (d'.select name c'))

namespace Dictionary

variable {d d' : Dictionary}

theorem perform_invoke (d : Dictionary) (runner : Runner) (name : String) (c : Context) :
    d.perform runner (.invoke name) c =
      Outcome.ofExcept (d.select name c) >>= fun w => (w.apply c).eval runner := by
  simp only [perform]
  cases d.select name c <;> rfl

theorem perform_followedBy (hC : Coupling R F) (hd : d.FollowedBy R F d') {r s : Runner}
    (hr : Runner.FollowedBy R F r s) (i : Instruction) {c c' : Context} (h : R c c') :
    (d.perform r i c).FollowedBy R F (d'.perform s i c') := by
  cases i with
  | push v => exact .ok (hC.push h v)
  | invoke name =>
    rw [perform_invoke, perform_invoke]
    have hsel := hd name h
    cases hw : d.select name c with
    | error e =>
      rw [hw] at hsel
      exact Failures.Answer.bind hsel _
    | ok w =>
      rw [hw] at hsel
      obtain ⟨w', hw', hww⟩ := hsel
      rw [hw']
      exact hww hr h (accepts_of_select hw)

theorem execute_followedBy (hC : Coupling R F) (hd : d.FollowedBy R F d') {r s : Runner}
    (hr : Runner.FollowedBy R F r s) (tokens : List Value) {c c' : Context} (h : R c c') :
    (d.execute r tokens c).FollowedBy R F (d'.execute s tokens c') := by
  induction tokens using Instruction.read_induction generalizing c c' with
  | nil =>
    rw [execute_nil, execute_nil]
    exact .ok h
  | cons t ts ih =>
    rw [execute_cons, execute_cons]
    cases hi : Instruction.read t ts with
    | error e => exact .error (hC.userError (Instruction.isUserError_of_read hi))
    | ok step =>
      obtain ⟨i, rest⟩ := step
      exact (perform_followedBy hC hd hr i h).bind fun x y hxy => ih i rest hi hxy

/-- Runs of two dictionaries in related contexts go alike at every limit on nesting. -/
theorem run_followedBy (hC : Coupling R F) (hd : d.FollowedBy R F d') (depth : Nat) :
    Runner.FollowedBy R F (d.run depth) (d'.run depth) := by
  induction depth with
  | zero =>
    intro tokens c c' _
    trivial
  | succ depth ih =>
    intro tokens c c' h
    rw [run_succ_false, run_succ_false]
    exact execute_followedBy hC hd ih tokens h

variable {tokens : List Value} {c c' : Context} {unfreeze : Bool}

theorem run_unfreeze_followedBy (hC : Coupling R F) (hd : d.FollowedBy R F d')
    (hU : ∀ {c c' : Context}, R c c' → R c.unfreeze c'.unfreeze) (h : R c c') (depth : Nat)
    (tokens : List Value) (unfreeze : Bool) :
    (d.run depth tokens c unfreeze).FollowedBy R F (d'.run depth tokens c' unfreeze) := by
  have hrun := run_followedBy hC hd depth tokens c c' h
  cases unfreeze with
  | false => exact hrun
  | true =>
    rw [run_true, run_true]
    exact hrun.bind fun x y hxy => .ok (hU hxy)

theorem EndsWith.ok_followed (hC : Coupling R F) (hd : d.FollowedBy R F d')
    (hU : ∀ {c c' : Context}, R c c' → R c.unfreeze c'.unfreeze) (h : R c c') {after : Context}
    (he : d.EndsWith tokens c unfreeze (.ok after)) :
    ∃ after', d'.EndsWith tokens c' unfreeze (.ok after') ∧ R after after' := by
  obtain ⟨depth, hrun⟩ := he
  have hfollow := run_unfreeze_followedBy hC hd hU h depth tokens unfreeze
  rw [hrun] at hfollow
  obtain ⟨after', hrun', hR⟩ := hfollow
  exact ⟨after', ⟨depth, hrun'⟩, hR⟩

theorem EndsWith.error_followed {E : Error → Error → Prop} (hC : Coupling R (.related E))
    (hd : d.FollowedBy R (.related E) d')
    (hU : ∀ {c c' : Context}, R c c' → R c.unfreeze c'.unfreeze) (h : R c c') {e : Error}
    (he : d.EndsWith tokens c unfreeze (.error e)) :
    ∃ e', d'.EndsWith tokens c' unfreeze (.error e') ∧ E e e' := by
  obtain ⟨depth, hrun⟩ := he
  have hfollow := run_unfreeze_followedBy hC hd hU h depth tokens unfreeze
  rw [hrun] at hfollow
  obtain ⟨e', hrun', hE⟩ := hfollow
  exact ⟨e', ⟨depth, hrun'⟩, hE⟩

end Dictionary

end StackWords
