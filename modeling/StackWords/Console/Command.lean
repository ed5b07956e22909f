import StackWords.Session
import StackWords.Console.Style

/-! # The console

A console evaluates inputs: commands, which start with a point, and programs.
The outcome is a text to show and the console for the next input.
-/
namespace StackWords

structure Console where
  session : Session
  settings : Settings
  styled : Bool := false
  prompt : String := "ps> "
  continuation : String := ".. "

namespace Console

def start (dictionary : Dictionary) (settings : Settings) : Console where
  session := .start dictionary settings
  settings

inductive Command where
  | showStack
  | showVariables
  | showWords
  | help
  | clear
  | trace (program : String)
  | program (text : String)
deriving DecidableEq

/-- Reads an input. Only its first part tells a command; what follows is kept for a trace. -/
def Command.read (input : String) : Command :=
  let text := Text.trim input.toList
  let (head, argument) := (Text.cut? Text.isBlank text).getD (text, [])
  match String.ofList head with
  | ".stack" => .showStack
  | ".vars" => .showVariables
  | ".words" => .showWords
  | ".help" => .help
  | ".clear" => .clear
  | ".debug" => .trace (String.ofList (Text.trim argument))
  | _ => .program (String.ofList text)

def helpText : String := "\n".intercalate [
  ".stack            Show the stack, top first",
  ".vars             Show variables",
  ".words            List words and their signatures",
  ".clear            Empty the stack and reset variables",
  ".debug PROGRAM    Show every step of PROGRAM without running it",
  ".help             Show this help"]

def style (console : Console) (style : Style) (text : String) : String :=
  if console.styled then style.paint text else text

def stackText (console : Console) : String :=
  let stack := console.session.stack
  "\n".intercalate (stack.map (fun v => console.style .bold v.render) ++
    if console.settings.showTypes then [console.style .faint (Stack.summary stack)] else [])

def variablesText (console : Console) : String :=
  "\n".intercalate (console.session.vars.entries.map fun entry =>
    entry.1 ++ " = " ++ entry.2.render)

def padded (width : Nat) (text : String) : String :=
  text ++ String.ofList (List.replicate (width - text.length) ' ')

def wordsText (console : Console) : String :=
  "\n".intercalate (console.session.dictionary.words.map fun w =>
    ":" ++ padded 10 w.name ++ " " ++ w.signature ++ if w.stable then "" else " (unstable)")

def runProgram (console : Console) (depth : Nat) (text : String) : Outcome (Console × String) :=
  if console.settings.showSteps then do
    let steps ← console.session.trace depth text
    pure ({ console with session := console.session.adopt steps }, renderTrace steps)
  else do
    let session ← console.session.execute depth text
    let console := { console with session }
    pure (console, console.stackText)

def perform (console : Console) (depth : Nat) : Command → Outcome (Console × String)
  | .showStack => pure (console, console.stackText)
  | .showVariables => pure (console, console.variablesText)
  | .showWords => pure (console, console.wordsText)
  | .help => pure (console, helpText)
  | .clear => pure ({ console with session := console.session.clear }, "")
  | .trace program => do
    let steps ← console.session.trace depth program
    pure (console, renderTrace steps)
  | .program text => console.runProgram depth text

def eval (console : Console) (depth : Nat) (input : String) : Outcome (Console × String) :=
  console.perform depth (.read input)

def programOfFile (content : String) : String :=
  ",".intercalate
    (((Text.fields '\n' content.toList).map Text.trim).filter (· ≠ []) |>.map String.ofList)

/-- Evaluates a file, given its name and what reading it gave: its content or why it failed. -/
def evalFile (console : Console) (depth : Nat) (name : String)
    (content : Except FileFailure String) : Outcome (Console × String) :=
  match content with
  | .ok content => (console.eval depth (programOfFile content)).mapError (·.inSource name)
  | .error failure => .error (Cause.unreadable name failure)

end Console

end StackWords
