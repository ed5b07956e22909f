/-! # Sequences by position

Lists serve as stacks, as captured programs and as plain sequences. These are
the operations on positions that may fail.
-/
namespace StackWords.Sequence

variable {α : Type}

def popFirst? : List α → Option (α × List α)
  | [] => none
  | a :: as => some (a, as)

def popLast? (as : List α) : Option (α × List α) := as.getLast?.map fun a => (a, as.dropLast)

def removeAt? (as : List α) (i : Nat) : Option (α × List α) :=
  as[i]?.map fun a => (a, as.eraseIdx i)

/-- The sequence with an element put in at a position, which may be the end. -/
def insertAt? (as : List α) (i : Nat) (a : α) : Option (List α) :=
  if i ≤ as.length then some (as.insertIdx i a) else none

@[simp] theorem popLast?_concat (as : List α) (a : α) : popLast? (as ++ [a]) = some (a, as) := by
  simp [popLast?]

@[simp] theorem popLast?_eq_none {as : List α} : popLast? as = none ↔ as = [] := by
  simp [popLast?]

end StackWords.Sequence
