import StackWords.CommandLine.Options
import StackWords.Console.Pipe

/-! # The program behind the command line

Files are evaluated first, then the programs given as options. If neither these
nor an option end it there, a dialogue follows.
-/
namespace StackWords.CommandLine

open Console (Event Dialogue Style)

def versionText : String := "plotstack 0.1.0\n"

def usageText : String := "\n".intercalate [
  Style.bold.paint "plotstack" ++ " - Stack language for metric expressions",
  "",
  Style.bold.paint "USAGE:",
  "    plotstack [OPTIONS] [FILES...]",
  "",
  Style.bold.paint "ARGUMENTS:",
  "    [FILES...]    Programs to run before starting the REPL",
  "",
  Style.bold.paint "OPTIONS:",
  "    -h, --help           Print help information",
  "    -V, --version        Print version information",
  "    -b, --batch          Run files and exit (no REPL)",
  "    -e, --eval PROGRAM   Run PROGRAM, print the stack and exit",
  "    --set KEY=VALUE      Bind a variable before running anything",
  "    --unstable           Allow unstable words",
  "    --features LEVEL     Feature level: stable or unstable",
  "    --show-types         Print the type summary after each stack",
  "    --debug              Print every step instead of only the result",
  "",
  Style.bold.paint "EXAMPLES:",
  "    plotstack                          Start interactive REPL",
  "    plotstack -e 'a,b,:swap'           Print the stack after swapping",
  "    plotstack --set step=60 query.ps   Run query.ps, then start REPL",
  "    plotstack -b --debug query.ps      Trace query.ps and exit",
  "",
  Style.bold.paint "REPL COMMANDS:",
  "    .stack  .vars  .words  .clear  .debug PROGRAM  .help",
  "    Ctrl+D               Exit REPL",
  "    Ctrl+C               Cancel current input",
  "",
  "Set RUST_LOG=plotstack_language=trace to log every dispatched word.",
  ""]

inductive Stage where
  | ended (success : Bool)
  | going (console : Console)

def failure (message : String) : Stage × List Event :=
  (.ended false, [.report (Style.red.paint ("Error: " ++ message) ++ "\n")])

/-- Goes on after an input, whose text is shown if asked for, or ends the run if it failed. -/
def proceed (shown : Bool) (result : Outcome (Console × String))
    (next : Console → Outcome (Stage × List Event)) : Outcome (Stage × List Event) :=
  match result with
  | .ok (console, text) => do
    let (stage, events) ← next console
    pure (stage, (if shown then Event.lineOf text else []) ++ events)
  | .error e => .ok (failure e.message)
  | .exhausted => .exhausted

def evalFiles (depth : Nat) (shown : Bool) :
    List (String × Except FileFailure String) → Console → Outcome (Stage × List Event)
  | [], console => .ok (.going console, [])
  | (name, content) :: rest, console =>
    proceed shown (console.evalFile depth name content) (evalFiles depth shown rest)

def evalPrograms (depth : Nat) : List String → Console → Outcome (Stage × List Event)
  | [], console => .ok (.going console, [])
  | program :: rest, console =>
    proceed true (console.eval depth program) (evalPrograms depth rest)

def begin (depth : Nat) (o : Options) (files : List (String × Except FileFailure String)) :
    Outcome (Stage × List Event) :=
  if o.showHelp then .ok (.ended true, [.print usageText])
  else if o.showVersion then .ok (.ended true, [.print versionText])
  else do
    let (stage, events) ← evalFiles depth o.isBatch files (.start Standard.dictionary o.settings)
    match stage with
    | .ended success => pure (.ended success, events)
    | .going console =>
      let (stage, more) ← evalPrograms depth o.programs console
      match stage with
      | .ended success => pure (.ended success, events ++ more)
      | .going console =>
        pure (if o.isBatch then .ended true else .going console, events ++ more)

def conclude (d : Dialogue) : Bool × List Event :=
  match d.status with
  | .broken e => (false, (failure e.message).2)
  | _ => (true, [])

/-- The whole run in a directory: whether it went well, and what could be seen of it. -/
def run (depth : Nat) (arguments : List String) (directory : Directory) (input : String) :
    Outcome (Bool × List Event) :=
  match Options.read arguments with
  | .error refusal => .ok (false, (failure refusal.message).2)
  | .ok o => do
    let (stage, events) ← begin depth o (o.files.map fun path => (path, directory.read path))
    match stage with
    | .ended success => pure (success, events)
    | .going console =>
      let (d, more) ← console.converse depth (Console.Pipe.replies input)
      let (success, last) := conclude d
      pure (success, events ++ more ++ last)

end StackWords.CommandLine
