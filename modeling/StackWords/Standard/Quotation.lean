import StackWords.Standard.Binding

/-! # Quotation words

These words build lists from the stack and run lists as programs. A list runs on
the context of its caller, and values that it sets aside stay there.
-/
namespace StackWords.Standard

def topIsList (stack : Stack) : Bool := stack.head?.any Value.isList

def topAreLists (stack : Stack) : Bool := topIsList stack && stack[1]?.any Value.isList

/-- Collects the whole stack into a list, the bottom first. -/
def list (stack : Stack) : Except Error Stack := .ok [.list stack.reverse]

/-- Collects as many values as the top says, or all of them, into a list, the lowest first. -/
def listMany (stack : Stack) : Except Error Stack :=
  (popCount "nlist" stack).map fun (n, rest) => .list (rest.take n).reverse :: rest.drop n

def call (c : Context) : Routine Context :=
  match c.stack with
  | .list body :: rest => .body body { c with stack := rest }
  | _ => .ofExcept (underflow "call")

def each (c : Context) : Routine Context :=
  match c.stack with
  | .list body :: .list items :: rest =>
    items.foldlM (fun c item => .body body (c.push item)) { c with stack := rest }
  | _ => .ofExcept (underflow "each")

/-- Runs a list on a single item. The outcome is the variables it leaves and the values it
leaves or sets aside, the latest first; values set aside before are not among them. -/
def mapItem (c : Context) (body : List Value) (vars : Variables) (item : Value) :
    Routine (Variables × Stack) := do
  let after ← .body body { c with stack := [item], vars }
  let fresh := after.frozen.take (after.frozen.length - c.frozen.length)
  pure (after.vars, after.stack ++ fresh)

/-- Runs a list on each of some items and puts what it leaves on what has been collected. The
variables pass from one item to the next. -/
def mapItems (c : Context) (body : List Value) :
    List Value → Variables → Stack → Routine (Variables × Stack)
  | [], vars, collected => pure (vars, collected)
  | item :: items, vars, collected => do
    let (vars, produced) ← mapItem c body vars item
    mapItems c body items vars (produced ++ collected)

/-- Runs the list on top on each item of the list below and replaces both by a list of what it
leaves, the earliest first. -/
def map (c : Context) : Routine Context :=
  match c.stack with
  | .list body :: .list items :: rest => do
    let (vars, collected) ← mapItems c body items c.vars []
    pure { c with stack := .list collected.reverse :: rest, vars }
  | _ => .ofExcept (underflow "map")

/-- Runs the list that the name on top is bound to; any other value is pushed. -/
def callNamed (c : Context) : Routine Context :=
  match c.stack with
  | key :: rest =>
    match lookup c key with
    | .ok (.list body) => .body body { c with stack := rest }
    | .ok v => pure { c with stack := v :: rest }
    | .error e => .fail e
  | [] => .ofExcept (underflow "fcall")

def quotationWords : List Word := [
  simple "list" "* -- List" anyStack list ["", "a,b"],
  simple "nlist" "aN ... a1 N -- List" topIsCount listMany ["a,b,2", "a,b,5", "0"],
  full "call" "* List -- *" topIsList call ["(,a,)", "a,(,:dup,)"],
  full "each" "items:List f:List -- f(items[0]) ... f(items[N])" topAreLists each
    ["(,a,b,),(,)", "(,a,b,),(,:dup,)"],
  full "map" "items:List f:List -- List" topAreLists map
    ["(,a,b,),(,)", "(,a,b,),(,:dup,:drop,)"],
  full "fcall" "k -- *" topIsLiteral callNamed ["f,(,a,),:set,f"]]

end StackWords.Standard
