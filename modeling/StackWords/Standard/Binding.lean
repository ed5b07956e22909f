import StackWords.Standard.Shuffle

/-! # Binding words

These words read and bind variables and set the stack aside. A name is given by
a literal on the stack.
-/
namespace StackWords.Standard

def topIsLiteral (stack : Stack) : Bool := stack.head?.any Value.isLiteral

def secondIsLiteral (stack : Stack) : Bool := stack[1]?.any Value.isLiteral

def literalOverValue (stack : Stack) : Bool := atLeast 2 stack && topIsLiteral stack

def lookup (c : Context) (key : Value) : Except Error Value :=
  match key.text? with
  | some name => (c.vars.get? name).elim (.error (Cause.unknownVariable name)) .ok
  | none => underflow "get"

def get (c : Context) : Except Error Context :=
  match c.stack with
  | key :: rest => (lookup c key).map fun v => { c with stack := v :: rest }
  | [] => underflow "get"

def bind (c : Context) (key value : Value) (rest : Stack) : Except Error Context :=
  match key.text? with
  | some name => .ok { c with stack := rest, vars := c.vars.insert name value }
  | none => underflow "set"

def set (c : Context) : Except Error Context :=
  match c.stack with
  | value :: key :: rest => bind c key value rest
  | _ => underflow "set"

/-- Binds the name on top to the value below it. -/
def setSwapped (c : Context) : Except Error Context :=
  match c.stack with
  | key :: value :: rest => bind c key value rest
  | _ => underflow "sset"

def full (name signature : String) (accepts : Stack → Bool) (f : Context → Routine Context)
    (examples : List String) : Word :=
  { name, signature, accepts, action := .onContext f, examples }

def bindingWords : List Word := [
  full "freeze" "* --" anyStack (fun c => pure c.freeze) ["", "a", "a,b"],
  full "get" "k -- v" topIsLiteral (fun c => .ofExcept (get c)) ["k,v,:set,k"],
  full "set" "k v --" secondIsLiteral (fun c => .ofExcept (set c)) ["k,v", "k,(,a,)"],
  full "sset" "v k --" literalOverValue (fun c => .ofExcept (setSwapped c)) ["v,k", "(,a,),k"]]

end StackWords.Standard
