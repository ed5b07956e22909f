import StackWords.Word

/-! # Vocabularies

A vocabulary has words of its own and builds on other vocabularies. The words of
what it builds on come before its own, so they are tried first.
-/
namespace StackWords

structure Vocabulary where
  name : String
  dependencies : List Vocabulary := []
  words : List Word := []

namespace Vocabulary

instance : Inhabited Vocabulary := ⟨{ name := "" }⟩

def addDependency (v dependency : Vocabulary) : Vocabulary :=
  { v with dependencies := v.dependencies ++ [dependency] }

def addWord (v : Vocabulary) (w : Word) : Vocabulary := { v with words := v.words ++ [w] }

mutual

/-- All words of a vocabulary: those of what it builds on, in order, then its own. -/
def allWords : Vocabulary → List Word
  | ⟨_, dependencies, words⟩ => allWordsOf dependencies ++ words

def allWordsOf : List Vocabulary → List Word
  | [] => []
  | v :: vs => v.allWords ++ allWordsOf vs

end

/-- Adds the vocabularies of a list whose names are not there yet. -/
def merge (known added : List Vocabulary) : List Vocabulary :=
  added.foldl (fun known v => if known.any (·.name == v.name) then known else known ++ [v]) known

mutual

/-- All vocabularies that a vocabulary builds on, directly or not. Each comes behind those that
it builds on itself, and of several with one name the first is listed. -/
def allDependencies : Vocabulary → List Vocabulary
  | ⟨_, dependencies, _⟩ => collect [] dependencies

def collect : List Vocabulary → List Vocabulary → List Vocabulary
  | known, [] => known
  | known, v :: vs => collect (merge known (v.allDependencies ++ [v])) vs

end

end Vocabulary

end StackWords
