import StackWords.Console.Command

/-! # Turns of a console

A console takes inputs one after the other. An input that fails gives no console
of its own, so the next one meets the console as it was.
-/
namespace StackWords.Console

/-- What a console is given: a line, or a file by its name with what reading it gave. -/
inductive Input where
  | line (text : String)
  | file (name : String) (content : Except FileFailure String)

/-- What an input leads to: a text to show or the reason of a failure, and the console for the
next input. -/
structure Turn where
  reply : Except Error String
  console : Console

def respond (console : Console) (depth : Nat) : Input → Outcome (Console × String)
  | .line text => console.eval depth text
  | .file name content => console.evalFile depth name content

def turn (console : Console) (depth : Nat) (input : Input) : Outcome Turn :=
  match console.respond depth input with
  | .ok (next, text) => .ok ⟨.ok text, next⟩
  | .error e => .ok ⟨.error e, console⟩
  | .exhausted => .exhausted

def turns (console : Console) (depth : Nat) : List Input → Outcome (List Turn)
  | [] => .ok []
  | input :: inputs => do
    let turn ← console.turn depth input
    let later ← turn.console.turns depth inputs
    pure (turn :: later)

end StackWords.Console
