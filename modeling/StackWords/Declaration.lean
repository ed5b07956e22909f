import StackWords.Word

/-! # Words declared by a host

A host brings words of its own, such as those that make a query of a key and a value
and that join two queries. It describes such a word by a condition on the stack and an
effect, without writing functions. An object that a word makes gets an identity that
is new on the stack, which is all that the word sees. Programs do not see identities, so
to them it makes no difference which one it is.
-/
namespace StackWords

inductive Condition where
  | always
  | never
  | topIsInt
  | topIsNumber
  | atLeast (n : Nat)
  /-- The topmost values have these labels, top first. -/
  | labels (expected : List String)

def Condition.holds : Condition → Stack → Bool
  | .always, _ => true
  | .never, _ => false
  | .topIsInt, stack => (stack.head?.bind Value.int?).isSome
  | .topIsNumber, stack => (stack.head?.bind Value.number?).isSome
  | .atLeast n, stack => n ≤ stack.length
  | .labels expected, stack => expected.isPrefixOf (stack.map Value.label)

inductive Effect where
  | keep
  /-- Pushes the labels of the stack as a literal. -/
  | summary
  | freeze
  | unfreeze
  | push (v : Value)
  /-- Replaces a key and a value by a new object that shows both. -/
  | wrap (typeName : String)
  /-- Replaces two objects by a new one that shows both. -/
  | join (typeName : String)
  | fail (kind : ErrorKind) (text : String)
  /-- Runs tokens like a program of its own. -/
  | run (tokens : List Value)
  | unset (name : String)

namespace Value

mutual

def objects : Value → List Object
  | .literal _ => []
  | .list items => objectsOf items
  | .object item => [item]

/-- The objects in some values, those in lists included. -/
def objectsOf : List Value → List Object
  | [] => []
  | v :: vs => v.objects ++ objectsOf vs

end

end Value

def Stack.newIdentity (stack : Stack) : Nat :=
  (Value.objectsOf stack).foldr (fun item bound => max (item.identity + 1) bound) 0

theorem Stack.identity_lt_newIdentity {stack : Stack} {item : Object}
    (h : item ∈ Value.objectsOf stack) : item.identity < stack.newIdentity := by
  unfold newIdentity
  generalize Value.objectsOf stack = items at h ⊢
  induction items with
  | nil => cases h
  | cons first rest ih =>
    rw [List.foldr_cons]
    rcases List.mem_cons.mp h with rfl | h
    · exact Nat.le_max_left _ _
    · exact Nat.lt_of_lt_of_le (ih h) (Nat.le_max_right _ _)

namespace Effect

section

variable (identify : Stack → Nat)

def wrapTop (typeName : String) (stack : Stack) : Except Error Stack :=
  match stack with
  | v :: key :: rest =>
    .ok (.object ⟨identify stack, typeName, key.render ++ "=" ++ v.render⟩ :: rest)
  | _ => .error (Cause.reported .internal "wrap")

def joinTop (typeName : String) (stack : Stack) : Except Error Stack :=
  match stack with
  | .object right :: .object left :: rest =>
    .ok (.object ⟨identify stack, typeName,
      "(" ++ left.rendering ++ ") and (" ++ right.rendering ++ ")"⟩ :: rest)
  | _ => .error (Cause.reported .internal "join")

def action : Effect → Action
  | .keep => .onStack .ok
  | .summary => .onStack fun stack => .ok (.literal (Stack.summary stack) :: stack)
  | .freeze => .onContext fun c => pure c.freeze
  | .unfreeze => .onContext fun c => pure c.unfreeze
  | .push v => .onStack fun stack => .ok (v :: stack)
  | .wrap typeName => .onStack (wrapTop identify typeName)
  | .join typeName => .onStack (joinTop identify typeName)
  | .fail kind text => .onStack fun _ => .error (Cause.reported kind text)
  | .run tokens => .onContext fun c => .call tokens c true .done
  | .unset name => .onContext fun c => pure { c with vars := c.vars.erase name }

end

end Effect

structure Declaration where
  name : String
  signature : String
  condition : Condition
  effect : Effect

/-- The declared word, given how new objects get their identities. -/
def Declaration.word (identify : Stack → Nat) (d : Declaration) : Word where
  name := d.name
  signature := d.signature
  accepts := d.condition.holds
  action := d.effect.action identify

/-- A declared word whose objects get identities that are new on the stack. -/
def Word.declare (name signature : String) (condition : Condition) (effect : Effect) : Word :=
  Declaration.word Stack.newIdentity { name, signature, condition, effect }

end StackWords
