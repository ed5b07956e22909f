import StackWords.Stack
import StackWords.Features

/-! # Contexts

What a program runs on: the stack, the variables and those it started with, the
values set aside so far, and the feature level. The dictionary that runs a program
owns its contexts and runs the programs inside on them as well, so a context need not
keep an owner.
-/
namespace StackWords

structure Context where
  stack : Stack := []
  vars : Variables := .empty
  /-- What the variables are reset to when values are set aside. -/
  initial : Variables := .empty
  /-- The values set aside, the latest first. -/
  frozen : Stack := []
  features : Features := .stable
deriving DecidableEq

namespace Context

def start (stack : Stack) (vars : Variables) (features : Features) : Context :=
  { stack, vars, initial := vars, features }

def push (c : Context) (v : Value) : Context := { c with stack := v :: c.stack }

/-- Sets the whole stack aside and resets the variables. -/
def freeze (c : Context) : Context :=
  { c with stack := [], frozen := c.stack ++ c.frozen, vars := c.initial }

def unfreeze (c : Context) : Context := { c with stack := c.stack ++ c.frozen, frozen := [] }

end Context

end StackWords
