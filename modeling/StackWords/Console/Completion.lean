import StackWords.Text.Blank
import StackWords.Text.Fields

/-! # Completion

What stands between the last comma and the cursor can be completed: a word that
starts with a colon anywhere, and a command at the start of the line.
-/
namespace StackWords.Console.Completion

def commands : List String := [".clear", ".debug", ".help", ".stack", ".vars", ".words"]

/-- A place in a line, counted in bytes, and the texts that may stand there. -/
structure Proposal where
  start : Nat
  options : List String
deriving DecidableEq

/-- The part of a text behind its last comma, without the blanks in front. -/
def typed (before : List Char) : List Char :=
  Text.trimStart (before.reverse.takeWhile (· ≠ ',')).reverse

def options (words : List String) (start : Nat) (typed : List Char) : List String :=
  match typed with
  | ':' :: name => (words.filter fun w => name.isPrefixOf w.toList).map (":" ++ ·)
  | '.' :: _ => if start = 0 then commands.filter fun c => typed.isPrefixOf c.toList else []
  | _ => []

/-- What may stand in front of the cursor, which is given in bytes from the start of the line. -/
def propose (words : List String) (line : String) (cursor : Nat) : Proposal :=
  let text := typed (Text.takeBytes cursor line.toList)
  let start := cursor - Text.byteLength text
  { start, options := options words start text }

end StackWords.Console.Completion
