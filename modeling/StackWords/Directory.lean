import StackWords.Text.Fields

/-! # Directories

Files are read by their paths. A path leads from a directory through names
between slashes to a file, or else there is a reason why it does not.
-/
namespace StackWords

inductive FileFailure where
  | missing
  | denied
  /-- A name behind a file that is no directory. -/
  | notDirectory
  | isDirectory
  | nameTooLong
  | notText
  | reported (text : String)
deriving DecidableEq, Repr

def FileFailure.text : FileFailure → String
  | .missing => "No such file or directory (os error 2)"
  | .denied => "Permission denied (os error 13)"
  | .notDirectory => "Not a directory (os error 20)"
  | .isDirectory => "Is a directory (os error 21)"
  | .nameTooLong => "File name too long (os error 36)"
  | .notText => "stream did not contain valid UTF-8"
  | .reported text => text

/-- The files in a directory and in those below it. A file is found by the names on the way to
it, outermost first. -/
structure Directory where
  files : List (List (List Char) × String)

namespace Directory

inductive Place where
  | file (content : String)
  /-- The directory itself, or one below it by the names on the way to it. -/
  | inside (names : List (List Char))
  /-- A directory around it, of which nothing else is known. -/
  | outside
deriving DecidableEq, Repr

def ofFiles (files : List (String × String)) : Directory :=
  ⟨files.map fun (path, content) => (Text.fields '/' path.toList, content)⟩

def find (d : Directory) (names : List (List Char)) : Except FileFailure Place :=
  match d.files.lookup names with
  | some content => .ok (.file content)
  | none =>
    if d.files.any (fun file => names.isPrefixOf file.1) then .ok (.inside names)
    else .error .missing

def enter (d : Directory) (place : Place) (name : List Char) : Except FileFailure Place :=
  match place with
  | .file _ => .error .notDirectory
  | .inside names =>
    if name = [] ∨ name = ['.'] then .ok place
    else if name = ['.', '.'] then .ok (if names = [] then .outside else .inside names.dropLast)
    else if 255 < Text.byteLength name then .error .nameTooLong
    else d.find (names ++ [name])
  | .outside =>
    if name = [] ∨ name = ['.'] ∨ name = ['.', '.'] then .ok place
    else if 255 < Text.byteLength name then .error .nameTooLong
    else .error .missing

/-- Where a path leads that starts in the directory, or outside if it starts with a slash. -/
def follow (d : Directory) (path : List Char) : Except FileFailure Place :=
  if path = [] then .error .missing
  else if 4096 ≤ Text.byteLength path then .error .nameTooLong
  else
    (Text.fields '/' path).foldlM d.enter
      (if path.head? = some '/' then .outside else .inside [])

def read (d : Directory) (path : String) : Except FileFailure String :=
  match d.follow path.toList with
  | .ok (.file content) => .ok content
  | .ok _ => .error .isDirectory
  | .error failure => .error failure

end Directory

end StackWords
