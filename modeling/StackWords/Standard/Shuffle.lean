import StackWords.Word
import StackWords.Sequence

/-! # Shuffling words

These words move, copy and drop values of the stack and touch nothing else. A
word asked to run on a stack that it does not accept reports an underflow.
-/
namespace StackWords.Standard

def anyStack (_ : Stack) : Bool := true

def atLeast (n : Nat) (stack : Stack) : Bool := n ≤ stack.length

def topIsInt (stack : Stack) : Bool := (stack.head?.bind Value.int?).isSome

def topIsCount (stack : Stack) : Bool := (stack.head?.bind Value.count?).isSome

def topIsPosition (stack : Stack) : Bool :=
  (stack.head?.bind Value.count?).any fun n => n + 1 < stack.length

variable {α : Type}

def underflow (word : String) : Except Error α := .error (Cause.underflow word)

def popCount (word : String) : Stack → Except Error (Nat × Stack)
  | v :: rest => (v.count?.map (·, rest)).elim (underflow word) .ok
  | [] => underflow word

def depth (stack : Stack) : Except Error Stack :=
  .ok (.literal (toString stack.length) :: stack)

def drop : Stack → Except Error Stack
  | _ :: rest => .ok rest
  | [] => underflow "drop"

def dup : Stack → Except Error Stack
  | a :: rest => .ok (a :: a :: rest)
  | [] => underflow "dup"

/-- Drops as many values as the top says, or all of them. -/
def dropMany (stack : Stack) : Except Error Stack :=
  (popCount "ndrop" stack).map fun (n, rest) => rest.drop n

def copySecond : Stack → Except Error Stack
  | a :: b :: rest => .ok (b :: a :: b :: rest)
  | _ => underflow "over"

def pick : Stack → Except Error Stack
  | v :: rest =>
    match v.int? with
    | some i =>
      match if 0 ≤ i then rest[i.toNat]? else none with
      | some a => .ok (a :: rest)
      | none => .error (Cause.pickOutOfRange i rest.length)
    | none => underflow "pick"
  | [] => underflow "pick"

def roll (stack : Stack) : Except Error Stack :=
  match popCount "roll" stack with
  | .ok (n, rest) =>
    match Sequence.removeAt? rest n with
    | some (a, others) => .ok (a :: others)
    | none => underflow "roll"
  | .error e => .error e

/-- Moves the bottom value to the top. -/
def rotate (stack : Stack) : Except Error Stack :=
  match Sequence.popLast? stack with
  | some (a, rest) => .ok (a :: rest)
  | none => underflow "rot"

/-- Moves the top value to the bottom. -/
def rotateBack : Stack → Except Error Stack
  | a :: rest => .ok (rest ++ [a])
  | [] => underflow "-rot"

def swap : Stack → Except Error Stack
  | a :: b :: rest => .ok (b :: a :: rest)
  | _ => underflow "swap"

def simple (name signature : String) (accepts : Stack → Bool) (f : Stack → Except Error Stack)
    (examples : List String) : Word :=
  { name, signature, accepts, action := .onStack f, examples }

def shuffleWords : List Word := [
  simple "clear" "* --" anyStack (fun _ => .ok []) ["", "a", "a,b"],
  simple "depth" "* -- * N" anyStack depth ["", "a", "a,b"],
  simple "drop" "a --" (atLeast 1) drop ["a", "a,b"],
  simple "dup" "a -- a a" (atLeast 1) dup ["a", "a,b"],
  simple "ndrop" "* N -- *" topIsCount dropMany ["a,0", "a,b,c,2", "a,5"],
  simple "over" "a b -- a b a" (atLeast 2) copySecond ["a,b"],
  simple "pick" "aN ... a0 N -- aN ... a0 aN" topIsInt pick ["a,0", "a,b,1"],
  simple "roll" "aN ... a0 N -- aN-1 ... a0 aN" topIsPosition roll ["a,0", "a,b,c,2"],
  simple "rot" "a ... b -- ... b a" (atLeast 1) rotate ["a", "a,b,c"],
  simple "-rot" "... b a -- a ... b" (atLeast 1) rotateBack ["a", "a,b,c"],
  simple "reverse" "* -- *" anyStack (fun stack => .ok stack.reverse) ["", "a,b,c"],
  simple "swap" "a b -- b a" (atLeast 2) swap ["a,b"]]

end StackWords.Standard
