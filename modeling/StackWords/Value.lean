import StackWords.Text.Decimal

/-! # Values

A value is a literal, a list of values, or an object that belongs to the host.
Literals are plain text; a word that needs a number reads it from the text.
-/
namespace StackWords

/-- An object of the host. Two objects are the same only if they have the same identity, so
objects with equal renderings can differ. -/
structure Object where
  identity : Nat
  typeName : String
  rendering : String
deriving DecidableEq, Repr, Inhabited

inductive Value where
  | literal (text : String)
  | list (items : List Value)
  | object (item : Object)
deriving Inhabited

namespace Value

mutual

def decEq : (a b : Value) → Decidable (a = b)
  | .literal s, .literal t => if h : s = t then .isTrue (by rw [h]) else .isFalse (by simp [h])
  | .literal _, .list _ => .isFalse (by simp)
  | .literal _, .object _ => .isFalse (by simp)
  | .list _, .literal _ => .isFalse (by simp)
  | .list xs, .list ys =>
    match decEqItems xs ys with
    | .isTrue h => .isTrue (by rw [h])
    | .isFalse h => .isFalse (by simp [h])
  | .list _, .object _ => .isFalse (by simp)
  | .object _, .literal _ => .isFalse (by simp)
  | .object _, .list _ => .isFalse (by simp)
  | .object p, .object q => if h : p = q then .isTrue (by rw [h]) else .isFalse (by simp [h])

def decEqItems : (xs ys : List Value) → Decidable (xs = ys)
  | [], [] => .isTrue rfl
  | [], _ :: _ => .isFalse (by simp)
  | _ :: _, [] => .isFalse (by simp)
  | x :: xs, y :: ys =>
    match decEq x y, decEqItems xs ys with
    | .isTrue h, .isTrue hs => .isTrue (by rw [h, hs])
    | .isFalse h, _ => .isFalse (by simp [h])
    | _, .isFalse hs => .isFalse (by simp [hs])

end

instance : DecidableEq Value := decEq

/-- The label of a value's type. A list does not show what it holds. -/
def label : Value → String
  | .literal _ => "String"
  | .list _ => "List"
  | .object item => item.typeName

def text? : Value → Option String
  | .literal text => some text
  | _ => none

def items? : Value → Option (List Value)
  | .list items => some items
  | _ => none

def object? : Value → Option Object
  | .object item => some item
  | _ => none

def int? (v : Value) : Option Int := v.text?.bind fun text => Text.readWord? text.toList

def count? (v : Value) : Option Nat := v.int?.bind fun i => if 0 ≤ i then some i.toNat else none

def number? (v : Value) : Option Text.Number :=
  v.text?.bind fun text => Text.Number.read? text.toList

def isLiteral (v : Value) : Bool := v.text?.isSome

def isList (v : Value) : Bool := v.items?.isSome

mutual

/-- The text of a value. A list is written as a program that pushes it: its items stand between
parentheses of their own, every part behind a comma. -/
def render : Value → String
  | .literal text => text
  | .list items => "(" ++ renderItems items ++ ",)"
  | .object item => item.rendering

def renderItems : List Value → String
  | [] => ""
  | v :: vs => "," ++ v.render ++ renderItems vs

end

@[simp] theorem render_literal (text : String) : (literal text).render = text := by
  simp [render]

theorem render_list (items : List Value) :
    (list items).render = "(" ++ renderItems items ++ ",)" := by
  simp [render]

end Value

def renderValues (separator : String) (vs : List Value) : String :=
  separator.intercalate (vs.map Value.render)

end StackWords
