import StackWords.Error

/-! # Outcomes of a run

A run ends with a value, ends with an error, or is stopped because it nests too
deeply. Being stopped is kept apart from failing: it is no answer of the program.
-/
namespace StackWords

inductive Outcome (α : Type) where
  | ok (value : α)
  | error (e : Error)
  | exhausted
deriving DecidableEq

namespace Outcome

variable {α β : Type}

def bind (o : Outcome α) (f : α → Outcome β) : Outcome β :=
  match o with
  | .ok a => f a
  | .error e => .error e
  | .exhausted => .exhausted

instance : Monad Outcome where
  pure := .ok
  bind := bind

def ofExcept : Except Error α → Outcome α
  | .ok a => .ok a
  | .error e => .error e

def mapError (f : Error → Error) : Outcome α → Outcome α
  | .error e => .error (f e)
  | o => o

/-- Whether a run ended by itself. -/
def Finished (o : Outcome α) : Prop := o ≠ .exhausted

@[simp] theorem pure_eq (a : α) : (pure a : Outcome α) = .ok a := rfl

@[simp] theorem ok_bind (a : α) (f : α → Outcome β) : (Outcome.ok a >>= f) = f a := rfl

@[simp] theorem error_bind (e : Error) (f : α → Outcome β) :
    (Outcome.error e >>= f) = .error e := rfl

@[simp] theorem exhausted_bind (f : α → Outcome β) :
    ((Outcome.exhausted : Outcome α) >>= f) = .exhausted := rfl

instance : LawfulMonad Outcome :=
  LawfulMonad.mk' Outcome (fun o => by cases o <;> rfl) (fun _ _ => rfl)
    (fun o _ _ => by cases o <;> rfl)

end Outcome

end StackWords
