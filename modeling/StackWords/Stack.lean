import StackWords.Value
import StackWords.Bindings

/-! # Stacks and variables

A stack is a list of values, its top first. Variables bind names to values.
-/
namespace StackWords

/-- Values, the top of the stack first. -/
abbrev Stack := List Value

abbrev Variables := Bindings Value

def Stack.summary (stack : Stack) : String :=
  "[" ++ ",".intercalate (stack.map Value.label) ++ "]"

@[simp] theorem Stack.summary_nil : Stack.summary [] = "[]" := rfl

end StackWords
