import StackWords.Execution

/-! # The limit on nesting

A deeper limit can only turn a run that was stopped into one that ends. Whatever
a run ends with, value or error, is the same at every limit that lets it end.
-/
namespace StackWords

variable {α β : Type}

/-- An outcome is stopped, or is the same as another one. -/
def Outcome.Refines (a b : Outcome α) : Prop := a = .exhausted ∨ a = b

def Runner.Refines (r s : Runner) : Prop :=
  ∀ tokens c unfreeze, (r tokens c unfreeze).Refines (s tokens c unfreeze)

namespace Outcome.Refines

theorem refl (a : Outcome α) : a.Refines a := Or.inr rfl

theorem bind {a b : Outcome α} {f g : α → Outcome β} (h : a.Refines b)
    (hf : ∀ x, (f x).Refines (g x)) : (a >>= f).Refines (b >>= g) := by
  rcases h with rfl | rfl
  · exact Or.inl rfl
  · cases a with
    | ok x => exact hf x
    | error e => exact Or.inr rfl
    | exhausted => exact Or.inl rfl

theorem mapError {a b : Outcome α} (h : a.Refines b) (g : Error → Error) :
    (a.mapError g).Refines (b.mapError g) := by
  rcases h with rfl | rfl
  · exact Or.inl rfl
  · exact .refl _

theorem eq_of_finished {a b : Outcome α} (h : a.Refines b) (hf : a.Finished) : b = a := by
  rcases h with rfl | rfl
  · exact absurd rfl hf
  · rfl

end Outcome.Refines

theorem Routine.eval_refines {r s : Runner} (h : r.Refines s) (routine : Routine α) :
    (routine.eval r).Refines (routine.eval s) := by
  induction routine with
  | done result => exact .refl _
  | call tokens c unfreeze resume ih =>
    simp only [Routine.eval]
    rcases h tokens c unfreeze with hr | hr
    · rw [hr]
      exact Or.inl rfl
    · rw [hr]
      cases s tokens c unfreeze with
      | ok next => exact ih _
      | error e => exact ih _
      | exhausted => exact Or.inl rfl

namespace Dictionary

variable (d : Dictionary)

theorem perform_refines {r s : Runner} (h : r.Refines s) (i : Instruction) (c : Context) :
    (d.perform r i c).Refines (d.perform s i c) := by
  cases i with
  | push v => exact .refl _
  | invoke name =>
    simp only [perform]
    cases d.select name c with
    | ok w => exact Routine.eval_refines h _
    | error e => exact .refl _

theorem execute_refines {r s : Runner} (h : r.Refines s) (tokens : List Value) (c : Context) :
    (d.execute r tokens c).Refines (d.execute s tokens c) := by
  induction hn : tokens.length using Nat.strongRecOn generalizing tokens c with
  | ind n ih =>
    cases tokens with
    | nil => simpa using Outcome.Refines.refl _
    | cons t ts =>
      rw [execute_cons, execute_cons]
      cases hr : Instruction.read t ts with
      | error e => exact .refl _
      | ok step =>
        obtain ⟨i, rest⟩ := step
        have hlt : rest.length < n := by
          have hle := Instruction.length_read_le hr
          simp only [List.length_cons] at hn
          omega
        exact (d.perform_refines h i c).bind fun next => ih _ hlt rest next rfl

theorem run_succ_refines (depth : Nat) : (d.run depth).Refines (d.run (depth + 1)) := by
  induction depth with
  | zero => exact fun _ _ _ => Or.inl rfl
  | succ depth ih =>
    intro tokens c unfreeze
    exact (d.execute_refines ih tokens c).bind fun _ => .refl _

theorem run_refines {depth deeper : Nat} (h : depth ≤ deeper) :
    (d.run depth).Refines (d.run deeper) := by
  induction h with
  | refl => exact fun _ _ _ => .refl _
  | step _ ih =>
    intro tokens c unfreeze
    rcases ih tokens c unfreeze with he | he
    · exact Or.inl he
    · rw [he]
      exact d.run_succ_refines _ tokens c unfreeze

/-- A run that ends has the same outcome at every deeper limit. -/
theorem run_eq_of_finished {depth deeper : Nat} (h : depth ≤ deeper) {tokens : List Value}
    {c : Context} {unfreeze : Bool} (hf : (d.run depth tokens c unfreeze).Finished) :
    d.run deeper tokens c unfreeze = d.run depth tokens c unfreeze :=
  (d.run_refines h tokens c unfreeze).eq_of_finished hf

end Dictionary

end StackWords
