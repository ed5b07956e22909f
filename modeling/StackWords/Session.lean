import StackWords.Execution
import StackWords.Standard

/-! # Sessions

A session keeps the stack and the variables from one program to the next. A
program that fails leaves it as it was.
-/
namespace StackWords

structure Settings where
  features : Features := .stable
  showTypes : Bool := false
  showSteps : Bool := false
  banner : Bool := true
  /-- What every session starts with. -/
  vars : Variables := .empty

structure Session where
  dictionary : Dictionary
  features : Features
  stack : Stack
  vars : Variables
  initial : Variables

namespace Session

def start (dictionary : Dictionary) (settings : Settings) : Session where
  dictionary
  features := settings.features
  stack := []
  vars := settings.vars
  initial := settings.vars

/-- The context in which the next program runs. Its variables are also what they are reset to
when values are set aside. -/
def context (s : Session) : Context := .start s.stack s.vars s.features

def resume (s : Session) (c : Context) : Session :=
  { s with stack := c.stack, vars := c.vars }

def execute (s : Session) (depth : Nat) (program : String) : Outcome Session := do
  let tokens ← Outcome.ofExcept (Token.read program)
  let c ← s.dictionary.run depth tokens s.context true
  pure (s.resume c)

/-- Traces a program without running it for good. -/
def trace (s : Session) (depth : Nat) (program : String) : Outcome (List Step) := do
  let tokens ← Outcome.ofExcept (Token.read program)
  s.dictionary.trace depth tokens s.context

def adopt (s : Session) (steps : List Step) : Session :=
  (steps.getLast?.map fun step => s.resume step.context).getD s

def clear (s : Session) : Session := { s with stack := [], vars := s.initial }

end Session

end StackWords
