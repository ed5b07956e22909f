import StackWords.Context
import StackWords.Outcome

/-! # Routines

A word that changes the whole context may ask for programs to be run on the way.
It is a routine: a result, or a program to run together with what to do with its
result. Nothing is run until the routine is given the means to do so, hence a
routine cannot tell a deeper limit on nesting from a lower one.
-/
namespace StackWords

/-- A computation that can have programs run. -/
inductive Routine (α : Type) where
  | done (result : Except Error α)
  | call (tokens : List Value) (context : Context) (unfreeze : Bool)
      (resume : Except Error Context → Routine α)

/-- What runs a program on a context; the flag asks to put values set aside back at the end. -/
abbrev Runner := List Value → Context → Bool → Outcome Context

namespace Routine

variable {α β : Type}

def bind (r : Routine α) (f : α → Routine β) : Routine β :=
  match r with
  | .done (.ok a) => f a
  | .done (.error e) => .done (.error e)
  | .call tokens context unfreeze resume =>
    .call tokens context unfreeze fun result => (resume result).bind f

instance : Monad Routine where
  pure a := .done (.ok a)
  bind := bind

def fail (e : Error) : Routine α := .done (.error e)

def ofExcept (result : Except Error α) : Routine α := .done result

/-- Runs a program and leaves the values that it sets aside where they are. -/
def body (tokens : List Value) (context : Context) : Routine Context :=
  .call tokens context false .done

def eval (runner : Runner) : Routine α → Outcome α
  | .done result => .ofExcept result
  | .call tokens context unfreeze resume =>
    match runner tokens context unfreeze with
    | .ok c => (resume (.ok c)).eval runner
    | .error e => (resume (.error e)).eval runner
    | .exhausted => .exhausted

@[simp] theorem eval_done (runner : Runner) (result : Except Error α) :
    (Routine.done result).eval runner = .ofExcept result := rfl

/-- Carrying out a routine goes step by step. -/
theorem eval_bind (runner : Runner) (r : Routine α) (f : α → Routine β) :
    (r >>= f).eval runner = r.eval runner >>= fun a => (f a).eval runner := by
  change (r.bind f).eval runner = _
  induction r with
  | done result => cases result <;> rfl
  | call tokens context unfreeze resume ih =>
    simp only [bind, eval]
    cases runner tokens context unfreeze with
    | ok c => exact ih _
    | error e => exact ih _
    | exhausted => rfl

theorem eval_call_done (runner : Runner) (tokens : List Value) (context : Context)
    (unfreeze : Bool) :
    (Routine.call tokens context unfreeze .done).eval runner =
      runner tokens context unfreeze := by
  simp only [eval]
  cases runner tokens context unfreeze <;> rfl

@[simp] theorem eval_body (runner : Runner) (tokens : List Value) (context : Context) :
    (body tokens context).eval runner = runner tokens context false :=
  eval_call_done runner tokens context false

end Routine

end StackWords
