import StackWords.Directory

/-! # Errors

An error is a cause, and optionally a trail that says where it arose. The
wording of every cause stands in one function.
-/
namespace StackWords

inductive ErrorKind where
  | invalidProgram
  | fileAccess
  | editor
  | internal
deriving DecidableEq, Repr

inductive Cause where
  /-- A closing bracket that does not close the innermost open one. -/
  | strayCloser (c : Char)
  /-- A bracket that is still open at the end of a text. -/
  | openBracket
  /-- A list end without a list start. -/
  | strayListEnd
  /-- A list start without a list end. -/
  | openList
  | unknownWord (name : String)
  | noMatch (name summary : String) (signatures : List String)
  | unstableWord (name : String)
  | unknownVariable (name : String)
  | pickOutOfRange (index : Int) (size : Nat)
  | unknownFeatures (level : String)
  /-- The input ended inside a program of several lines. -/
  | unfinishedInput
  /-- A word was run on a stack that it does not accept. -/
  | underflow (word : String)
  | unreadable (file : String) (failure : FileFailure)
  /-- A failure that the host words itself. -/
  | reported (kind : ErrorKind) (text : String)
deriving DecidableEq, Repr

namespace Cause

def kind : Cause → ErrorKind
  | .underflow _ => .internal
  | .unreadable _ _ => .fileAccess
  | .reported kind _ => kind
  | _ => .invalidProgram

def text : Cause → String
  | .strayCloser c => "unmatched closing character '" ++ String.singleton c ++ "'"
  | .openBracket => "unmatched opening character"
  | .strayListEnd => "unmatched closing parenthesis"
  | .openList => "unmatched opening parenthesis"
  | .unknownWord name => "unknown word ':" ++ name ++ "'"
  | .noMatch name summary signatures =>
    "no matches for word ':" ++ name ++ "' with stack " ++ summary ++ ", candidates: " ++
      ", ".intercalate (signatures.map fun signature => "[" ++ signature ++ "]")
  | .unstableWord name => "to use :" ++ name ++ " enable unstable features"
  | .unknownVariable name => "unknown variable '" ++ name ++ "'"
  | .pickOutOfRange index size =>
    "cannot pick item " ++ toString index ++ " from stack of size " ++ toString size
  | .unknownFeatures level => "unknown feature level '" ++ level ++ "'"
  | .unfinishedInput => "unexpected end of input in multi-line program"
  | .underflow word => "stack underflow in :" ++ word
  | .unreadable file failure => "failed to read " ++ file ++ ": " ++ failure.text
  | .reported _ text => text

end Cause

def ErrorKind.heading : ErrorKind → String
  | .invalidProgram => ""
  | .fileAccess => "io error: "
  | .editor => "editor error: "
  | .internal => "internal error: "

/-- Where an error arose: a source, and the macros that were running, outermost first. -/
structure Trail where
  source : Option String := none
  frames : List String := []
deriving DecidableEq, Repr, Inhabited

def Trail.render (trail : Trail) : String :=
  (trail.source.elim "" fun source => "at " ++ source) ++
    (if trail.frames.isEmpty then "" else "\n") ++
    String.join (trail.frames.map fun frame => "  in " ++ frame ++ "\n")

structure Error where
  cause : Cause
  trail : Option Trail := none
deriving DecidableEq, Repr

namespace Error

instance : Coe Cause Error := ⟨fun cause => { cause }⟩

def kind (e : Error) : ErrorKind := e.cause.kind

/-- The wording of an error. The trail is not part of it. -/
def message (e : Error) : String := e.kind.heading ++ e.cause.text

def isUserError (e : Error) : Bool := e.kind == .invalidProgram

/-- Records a macro around those recorded so far. -/
def inFrame (e : Error) (frame : String) : Error :=
  let trail := e.trail.getD {}
  { e with trail := some { trail with frames := frame :: trail.frames } }

def inSource (e : Error) (source : String) : Error :=
  { e with trail := some { e.trail.getD {} with source := some source } }

@[simp] theorem inFrame_cause (e : Error) (frame : String) :
    (e.inFrame frame).cause = e.cause := rfl

@[simp] theorem inSource_cause (e : Error) (source : String) :
    (e.inSource source).cause = e.cause := rfl

end Error

end StackWords
