import StackWords.Text.Blank
import StackWords.Error

/-! # Feature levels

A word is stable or not, and a program runs at a level that allows stable words
only or all of them.
-/
namespace StackWords

inductive Features where
  | stable
  | unstable
deriving DecidableEq, Repr, Inhabited

namespace Features

def name : Features → String
  | .stable => "stable"
  | .unstable => "unstable"

/-- Reads the name of a level, in any case and with blanks around it. -/
def read (text : String) : Except Error Features :=
  let level := String.ofList ((Text.trim text.toList).map Char.toLower)
  if level = "stable" then .ok .stable
  else if level = "unstable" then .ok .unstable
  else .error (Cause.unknownFeatures level)

def allows (features : Features) (stable : Bool) : Bool := stable || features == .unstable

end Features

end StackWords
