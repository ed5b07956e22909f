import StackWords.Console.Turn

/-! # Dialogues

A dialogue reads inputs one after the other until there are no more. An input may
take several lines, which are joined by commas. What happens is recorded as a
sequence of events.
-/
namespace StackWords.Console

inductive Reply where
  | line (text : String)
  | interrupted
  | endOfInput
  | failed (e : Error)
deriving DecidableEq

inductive Event where
  /-- A line was asked for, the first of an input or a further one. -/
  | ask (further : Bool) (prompt : String)
  | print (text : String)
  | report (text : String)
  /-- An input was put into the history. -/
  | remember (input : String)
deriving DecidableEq

namespace Event

def printed (events : List Event) : String :=
  String.join (events.filterMap fun event => match event with
    | .print text => some text
    | _ => none)

def reported (events : List Event) : String :=
  String.join (events.filterMap fun event => match event with
    | .report text => some text
    | _ => none)

def asked (events : List Event) : List (Bool × String) :=
  events.filterMap fun event => match event with
    | .ask further prompt => some (further, prompt)
    | _ => none

def remembered (events : List Event) : List String :=
  events.filterMap fun event => match event with
    | .remember input => some input
    | _ => none

/-- Prints a text as a line, unless it is empty. -/
def lineOf (text : String) : List Event := if text = "" then [] else [.print (text ++ "\n")]

end Event

def errorText (e : Error) : String :=
  Style.red.paint ("Error: " ++ e.message) ++ "\n" ++
    e.trail.elim "" fun trail => Style.faint.paint trail.render ++ "\n"

def bannerText : String :=
  Style.brightCyan.paint "plotstack" ++ " v0.1.0\n" ++
    "Enter comma separated programs. Type .help for commands, Ctrl+D to exit.\n\n"

inductive Status where
  | reading
  | closed
  | broken (e : Error)
deriving DecidableEq

structure Dialogue where
  console : Console
  /-- The lines so far of an input that is not complete. -/
  pending : Option String := none
  status : Status := .reading

namespace Dialogue

def start (console : Console) : Dialogue × List Event :=
  ({ console := { console with styled := true } },
    if console.settings.banner then [.print bannerText] else [])

def joined (pending : Option String) (line : String) : String :=
  pending.elim line fun lines => lines ++ "," ++ line

/-- Whether an input needs no further line: it is a command, or leaves nothing open. -/
def isWhole (input : String) : Bool :=
  (Text.trimStart input.toList).head? == some '.' || Token.isComplete input

/-- Evaluates a whole input. A blank one is passed over. -/
def submit (console : Console) (depth : Nat) (input : String) : Outcome (Console × List Event) :=
  if Text.trim input.toList = [] then .ok (console, [])
  else do
    let turn ← console.turn depth (.line (Text.trimmed input))
    match turn.reply with
    | .ok text => pure (turn.console, .remember input :: Event.lineOf text)
    | .error e => pure (turn.console, [.remember input, .report (errorText e)])

def answer (d : Dialogue) (depth : Nat) : Reply → Outcome (Dialogue × List Event)
  | .line text =>
    let input := joined d.pending text
    if isWhole input then do
      let (console, events) ← submit d.console depth input
      pure ({ console }, events)
    else pure ({ d with pending := some input }, [])
  | .interrupted =>
    pure ({ d with pending := none },
      if d.pending.isSome then [.print "\nInput cancelled.\n"] else [])
  | .endOfInput =>
    if d.pending.isSome then
      pure ({ d with pending := none }, [.report (errorText Cause.unfinishedInput)])
    else pure ({ d with status := .closed }, [.print "\nGoodbye!\n"])
  | .failed e =>
    if e.isUserError then pure ({ d with pending := none }, [.report (errorText e)])
    else pure ({ d with pending := none, status := .broken e }, [])

def prompt (d : Dialogue) : String :=
  if d.pending.isSome then d.console.continuation else d.console.prompt

def step (d : Dialogue) (depth : Nat) (reply : Reply) : Outcome (Dialogue × List Event) := do
  let (next, events) ← d.answer depth reply
  pure (next, .ask d.pending.isSome d.prompt :: events)

/-- Takes the end of the input, twice if it comes inside an input. -/
def finish (d : Dialogue) (depth : Nat) : Outcome (Dialogue × List Event) := do
  let (d, events) ← d.step depth .endOfInput
  if d.status = .reading then
    let (d, more) ← d.step depth .endOfInput
    pure (d, events ++ more)
  else pure (d, events)

/-- Takes replies as long as the dialogue goes on; behind the last one the input ends. -/
def run (d : Dialogue) (depth : Nat) : List Reply → Outcome (Dialogue × List Event)
  | [] => d.finish depth
  | reply :: replies => do
    let (d, events) ← d.step depth reply
    if d.status = .reading then
      let (d, more) ← d.run depth replies
      pure (d, events ++ more)
    else pure (d, events)

end Dialogue

def converse (console : Console) (depth : Nat) (replies : List Reply) :
    Outcome (Dialogue × List Event) := do
  let (d, greeting) := Dialogue.start console
  let (d, events) ← d.run depth replies
  pure (d, greeting ++ events)

end StackWords.Console
