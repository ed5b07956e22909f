/-! # Styled texts

A style is switched on by an escape sequence with its code and off by another.
-/
namespace StackWords.Console

abbrev Style := String

namespace Style

def bold : Style := "1"

def faint : Style := "2"

def red : Style := "31"

def magenta : Style := "35"

def cyan : Style := "36"

def brightGreen : Style := "1;32"

def brightYellow : Style := "1;33"

def brightCyan : Style := "1;36"

def sequence (style : Style) : String := "\x1b[" ++ style ++ "m"

def paint (style : Style) (text : String) : String := sequence style ++ text ++ sequence "0"

end Style

def promptText (prompt : String) (styled : Bool) : String :=
  if styled then Style.brightGreen.paint prompt else prompt

def hintText (hint : String) : String := Style.faint.paint hint

end StackWords.Console
