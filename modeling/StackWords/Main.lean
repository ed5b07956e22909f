import StackWords.CommandLine.Program

/-! # The command line

Everything is decided elsewhere; this module reads files and lines and shows
what there is to show.
-/
namespace StackWords.CommandLine

open Console (Event Dialogue)

/-- How deeply programs may run programs. -/
def nestingLimit : Nat := 1000000

def readFailure : IO.Error → FileFailure
  | .noFileOrDirectory .. => .missing
  | .permissionDenied .. => .denied
  | .inappropriateType none .. => .isDirectory
  | .inappropriateType (some _) .. => .notDirectory
  | .invalidArgument .. => .nameTooLong
  | .userError _ => .notText
  | e => .reported (toString e)

def readNamed (path : String) : IO (String × Except FileFailure String) := do
  try return (path, .ok (← IO.FS.readFile path))
  catch e => return (path, .error (readFailure e))

/-- Shows events. Prompts are only for terminals. -/
def showEvents (events : List Event) : IO Unit := do
  IO.print (Event.printed events)
  (← IO.getStdout).flush
  IO.eprint (Event.reported events)

def giveUp : IO UInt32 := do
  IO.eprintln "programs are nested too deeply"
  return 134

partial def readReply (read : List Char) : IO Console.Reply := do
  let line ← (← IO.getStdin).getLine
  if line.isEmpty then return .endOfInput
  match Console.Pipe.feed read line.toList with
  | .ok reply => return reply
  | .error read => readReply read

partial def talk (d : Dialogue) : IO UInt32 := do
  if ← (← IO.getStdin).isTty then
    IO.print (Console.promptText d.prompt true)
    (← IO.getStdout).flush
  match d.step nestingLimit (← readReply []) with
  | .ok (d, events) =>
    showEvents events
    if d.status = .reading then talk d
    else
      let (success, last) := conclude d
      showEvents last
      return if success then 0 else 1
  | .error e =>
    showEvents (failure e.message).2
    return 1
  | .exhausted => giveUp

def perform (o : Options) : IO UInt32 := do
  match begin nestingLimit o (← o.files.mapM readNamed) with
  | .ok (.ended success, events) =>
    showEvents events
    return if success then 0 else 1
  | .ok (.going console, events) =>
    showEvents events
    let (d, greeting) := Dialogue.start console
    showEvents greeting
    talk d
  | .error e =>
    showEvents (failure e.message).2
    return 1
  | .exhausted => giveUp

end StackWords.CommandLine

def main (arguments : List String) : IO UInt32 := do
  match StackWords.CommandLine.Options.read arguments with
  | .ok o => StackWords.CommandLine.perform o
  | .error refusal =>
    StackWords.CommandLine.showEvents (StackWords.CommandLine.failure refusal.message).2
    return 1
