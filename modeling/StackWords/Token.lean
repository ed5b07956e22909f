import StackWords.Text.Blank
import StackWords.Text.Fields
import StackWords.Error
import StackWords.Value

/-! # Tokens of a program text

Commas separate tokens, and brackets protect the commas between them. A
parenthesis that stands alone between commas delimits a list instead: it is a
token of its own. Every character is read together with what stands before it
and after it, since this decides what a parenthesis is.
-/
namespace StackWords.Token

def closer? : Char → Option Char
  | '(' => some ')'
  | '[' => some ']'
  | '\x7b' => some '\x7d'
  | _ => none

def isCloser (c : Char) : Bool := c == ')' || c == ']' || c == '\x7d'

/-- Whether only blanks stand in front of the next comma or the end of the text. -/
def isBoundary (cs : List Char) : Bool := (Text.trimStart cs).head?.all (· == ',')

/-- Whether the character between two parts of a text is alone between commas. The part in
front of it is given nearest character first. -/
def isLone (before after : List Char) : Bool := isBoundary before && isBoundary after

/-- Whether the parenthesis that closes the ones open so far, `depth` and one more, is lone, or
is missing. Other brackets are not looked at. -/
def closesLone : Nat → List Char → List Char → Bool
  | _, _, [] => true
  | depth, before, c :: after =>
    if c = '(' then closesLone (depth + 1) (c :: before) after
    else if c = ')' then
      match depth with
      | 0 => isLone before after
      | depth + 1 => closesLone depth (c :: before) after
    else closesLone depth (c :: before) after

def startsList (before after : List Char) : Bool :=
  isLone before after && closesLone 0 ('(' :: before) after

inductive Reading where
  | separator
  /-- It belongs to a token, and the brackets with these closers are open behind it. -/
  | part (closers : List Char)
  | stray
deriving DecidableEq

/-- Reads a character between two parts of a text, given the closers of the brackets that are
open in front of it, innermost first. -/
def reading (closers before : List Char) (c : Char) (after : List Char) : Reading :=
  match closer? c with
  | some closer =>
    if c = '(' ∧ closers = [] ∧ startsList before after then .part closers
    else .part (closer :: closers)
  | none =>
    if isCloser c then
      if c = ')' ∧ closers.head? ≠ some ')' ∧ isLone before after then .part closers
      else if closers.head? = some c then .part closers.tail
      else .stray
    else if c = ',' ∧ closers = [] then .separator
    else .part closers

def segments (closers before : List Char) : List Char → Except Error (List (List Char))
  | [] => if closers = [] then .ok [[]] else .error Cause.openBracket
  | c :: after =>
    match reading closers before c after with
    | .separator => (segments closers (c :: before) after).map ([] :: ·)
    | .part closers => (segments closers (c :: before) after).map (Text.extendFirst c)
    | .stray => .error (Cause.strayCloser c)

def ofSegments (segments : List (List Char)) : List (List Char) :=
  (segments.map Text.trim).filter (· ≠ [])

def splitChars (text : List Char) : Except Error (List (List Char)) :=
  (segments [] [] text).map ofSegments

def split (program : String) : Except Error (List String) :=
  (splitChars program.toList).map (·.map String.ofList)

def read (program : String) : Except Error (List Value) :=
  (split program).map (·.map Value.literal)

/-- The list starts in a sequence of tokens less the list ends. -/
def listDepth (tokens : List String) : Int := tokens.count "(" - tokens.count ")"

/-- Whether a text leaves no bracket and no list open. A stray closing bracket counts as
complete, for no further text can mend it. -/
def isComplete (text : String) : Bool :=
  match split text with
  | .ok tokens => decide (listDepth tokens ≤ 0)
  | .error e => e.cause != .openBracket

end StackWords.Token
