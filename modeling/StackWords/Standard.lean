import StackWords.Standard.Quotation
import StackWords.Dictionary

/-! # The standard vocabulary

The shuffling, binding and quotation words, and a few macros over them.
-/
namespace StackWords.Standard

def derived (name : String) (body examples : List String) : Word :=
  { Macro.toWord ⟨name, body.map .literal⟩ with examples }

def derivedWords : List Word := [
  derived "nip" [":swap", ":drop"] ["a,b"],
  derived "tuck" [":swap", ":over"] ["a,b"],
  derived "2over" ["3", ":pick", "3", ":pick"] ["a,b,c,d"]]

def words : List Word := shuffleWords ++ bindingWords ++ quotationWords ++ derivedWords

def vocabulary : Vocabulary := { name := "std", words }

def dictionary : Dictionary := .ofVocabulary vocabulary

end StackWords.Standard
