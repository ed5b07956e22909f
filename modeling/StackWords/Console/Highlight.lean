import StackWords.Console.Style
import StackWords.Text.Blank
import StackWords.Text.Fields
import StackWords.Text.Decimal

/-! # Highlighting

A line is coloured field by field, so that a line still being typed is coloured
too. Commands are left alone.
-/
namespace StackWords.Console.Highlight

def style? (isNumber : List Char → Bool) (token : List Char) : Option Style :=
  match token with
  | [] => none
  | ['('] | [')'] => some Style.brightYellow
  | ':' :: _ :: _ => some Style.cyan
  | _ => if isNumber token then some Style.magenta else none

def field (isNumber : List Char → Bool) (cs : List Char) : String :=
  (style? isNumber (Text.trim cs)).elim (String.ofList cs) fun style =>
    style.paint (String.ofList cs)

def lineWith (isNumber : List Char → Bool) (text : String) : String :=
  match text.toList with
  | [] | '.' :: _ => text
  | cs => (Style.faint.paint ",").intercalate ((Text.fields ',' cs).map (field isNumber))

def line (text : String) : String :=
  lineWith (fun token => (Text.Number.read? token).isSome) text

end StackWords.Console.Highlight
