import StackWords.Routine
import StackWords.Token

/-! # Words

A word has a name, a text that describes its effect, a test on the stack, and an
action. Several words may share a name. A macro is a word given by tokens.
-/
namespace StackWords

inductive Action where
  | onStack (f : Stack → Except Error Stack)
  /-- Changes the context and may have programs run. -/
  | onContext (f : Context → Routine Context)

def Action.apply : Action → Context → Routine Context
  | .onStack f, c => .done ((f c.stack).map fun stack => { c with stack })
  | .onContext f, c => f c

structure Word where
  name : String
  /-- The effect on the stack, for readers. -/
  signature : String
  accepts : Stack → Bool
  action : Action
  /-- Whether the word may be used at every feature level. -/
  stable : Bool := true
  /-- Programs that leave a stack the word applies to. -/
  examples : List String := []

namespace Word

/-- Runs the action of a word; its test is not asked. -/
def apply (w : Word) (c : Context) : Routine Context := w.action.apply c

def isSimple (w : Word) : Bool :=
  match w.action with
  | .onStack _ => true
  | .onContext _ => false

end Word

structure Macro where
  name : String
  body : List Value
deriving DecidableEq

namespace Macro

def read (name program : String) : Except Error Macro :=
  (Token.read program).map fun body => { name, body }

def bodyText (m : Macro) : String := renderValues "," m.body

/-- Runs the body; a failure in it is recorded under the name of the macro. -/
def invoke (m : Macro) (c : Context) : Routine Context :=
  .call m.body c false fun result => .done (result.mapError (·.inFrame m.name))

def toWord (m : Macro) : Word where
  name := m.name
  signature := m.bodyText
  accepts _ := true
  action := .onContext m.invoke

end Macro

end StackWords
