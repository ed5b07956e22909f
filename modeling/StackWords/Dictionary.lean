import StackWords.Vocabulary

/-! # Dictionaries

A dictionary holds words by name. Names stand in the order of their first word,
and the words of one name in the order they were entered, which is the order in
which they are tried.
-/
namespace StackWords

structure Dictionary where
  groups : List (String × List Word) := []

namespace Dictionary

def enter (w : Word) : List (String × List Word) → List (String × List Word)
  | [] => [(w.name, [w])]
  | (name, words) :: rest =>
    if name = w.name then (name, words ++ [w]) :: rest else (name, words) :: enter w rest

def ofWords (words : List Word) : Dictionary :=
  ⟨words.foldl (fun groups w => enter w groups) []⟩

def ofVocabulary (v : Vocabulary) : Dictionary := ofWords v.allWords

def names (d : Dictionary) : List String := d.groups.map Prod.fst

/-- The words of a name in the order in which they are tried. -/
def candidates (d : Dictionary) (name : String) : List Word := (d.groups.lookup name).getD []

def words (d : Dictionary) : List Word := d.groups.flatMap Prod.snd

/-- The word that a name stands for in a context: the first one that accepts the stack. It is
refused if the feature level does not allow it, even if a later word would do. -/
def select (d : Dictionary) (name : String) (c : Context) : Except Error Word :=
  let candidates := d.candidates name
  if candidates.isEmpty then .error (Cause.unknownWord name)
  else match candidates.find? (·.accepts c.stack) with
    | none =>
      .error (Cause.noMatch name (Stack.summary c.stack) (candidates.map Word.signature))
    | some w => if c.features.allows w.stable then .ok w else .error (Cause.unstableWord name)

end Dictionary

end StackWords
