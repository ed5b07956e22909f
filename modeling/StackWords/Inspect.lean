import StackWords.Text.Quoted
import StackWords.Dictionary

/-! # Texts for inspection

Every part of a run can be written out in full: literals in quotes, lists in
brackets, records with the names of their fields. A record that leaves fields
out ends with two points.
-/
namespace StackWords.Inspect

def sequence (items : List String) : String := "[" ++ ", ".intercalate items ++ "]"

def record (name : String) (fields : List (String × String)) (whole : Bool) : String :=
  name ++ " \x7b " ++
    ", ".intercalate (fields.map (fun field => field.1 ++ ": " ++ field.2) ++
      if whole then [] else [".."]) ++ " \x7d"

mutual

def value : Value → String
  | .literal text => Text.quoted text
  | .list items => sequence (values items)
  | .object item =>
    record "Obj" [("type_name", Text.quoted item.typeName), ("text", Text.quoted item.rendering)]
      true

def values : List Value → List String
  | [] => []
  | v :: vs => value v :: values vs

end

def stack (s : Stack) : String := sequence (values s)

def vars (vs : Variables) : String :=
  "\x7b" ++ ", ".intercalate (vs.entries.map fun entry =>
    Text.quoted entry.1 ++ ": " ++ value entry.2) ++ "\x7d"

def features : Features → String
  | .stable => "Stable"
  | .unstable => "Unstable"

/-- A context without its initial variables. -/
def context (c : Context) : String :=
  record "Context" [("stack", stack c.stack), ("variables", vars c.vars),
    ("frozen_stack", stack c.frozen), ("features", features c.features)] false

/-- A word without its test, action and examples. -/
def word (w : Word) : String :=
  record "Word" [("name", Text.quoted w.name), ("signature", Text.quoted w.signature),
    ("stable", if w.stable then "true" else "false")] false

mutual

def vocabulary : Vocabulary → String
  | ⟨name, dependencies, words⟩ =>
    record "Vocabulary" [("name", Text.quoted name),
      ("dependencies", sequence (vocabularies dependencies)),
      ("words", sequence (words.map word))] true

def vocabularies : List Vocabulary → List String
  | [] => []
  | v :: vs => vocabulary v :: vocabularies vs

end

def dictionary (d : Dictionary) : String :=
  record "Interpreter" [("words", sequence (d.names.map Text.quoted))] true

end StackWords.Inspect
