import StackWords.Dictionary

/-! # Execution

Tokens are read as instructions: push a value or run a word. A list start takes
all tokens up to the list end that belongs to it, unread, as one value. A run is
bounded by how deeply programs may run programs; the tokens of one program need
no bound, for every instruction uses some of them up.
-/
namespace StackWords

def Value.listStart : Value := .literal "("

def Value.listEnd : Value := .literal ")"

def Value.wordName? (v : Value) : Option String :=
  v.text?.bind fun text =>
    match text.toList with
    | ':' :: name => some (String.ofList name)
    | _ => none

inductive Instruction where
  | push (v : Value)
  | invoke (name : String)
deriving DecidableEq

namespace Instruction

/-- The tokens up to the list end that closes the lists open so far, `depth` and one more, and
the tokens behind it. -/
def capture : Nat → List Value → Option (List Value × List Value)
  | _, [] => none
  | depth, t :: ts =>
    if t = .listStart then (capture (depth + 1) ts).map (Prod.map (t :: ·) id)
    else if t = .listEnd then
      match depth with
      | 0 => some ([], ts)
      | depth + 1 => (capture depth ts).map (Prod.map (t :: ·) id)
    else (capture depth ts).map (Prod.map (t :: ·) id)

/-- Reads the instruction that starts with a token, and the tokens behind it. -/
def read (t : Value) (ts : List Value) : Except Error (Instruction × List Value) :=
  if t = .listStart then
    match capture 0 ts with
    | some (items, rest) => .ok (.push (.list items), rest)
    | none => .error Cause.openList
  else if t = .listEnd then .error Cause.strayListEnd
  else match t.wordName? with
    | some name => .ok (.invoke name, ts)
    | none => .ok (.push t, ts)

theorem length_capture_lt {depth : Nat} {ts items rest : List Value}
    (h : capture depth ts = some (items, rest)) : rest.length < ts.length := by
  fun_induction capture depth ts generalizing items rest <;> grind [Option.map_eq_some_iff]

theorem length_read_le {t : Value} {ts rest : List Value} {i : Instruction}
    (h : read t ts = .ok (i, rest)) : rest.length ≤ ts.length := by
  unfold read at h
  split at h
  · split at h
    · cases h
      exact Nat.le_of_lt (length_capture_lt ‹_›)
    · cases h
  · split at h
    · cases h
    · split at h <;> cases h <;> exact Nat.le_refl _

end Instruction

structure Step where
  remaining : List Value
  context : Context
deriving DecidableEq

namespace Dictionary

def perform (d : Dictionary) (runner : Runner) : Instruction → Context → Outcome Context
  | .push v, c => .ok (c.push v)
  | .invoke name, c =>
    match d.select name c with
    | .ok w => (w.apply c).eval runner
    | .error e => .error e

def execute (d : Dictionary) (runner : Runner) : List Value → Context → Outcome Context
  | [], c => .ok c
  | t :: ts, c =>
    match _h : Instruction.read t ts with
    | .error e => .error e
    | .ok (i, rest) =>
      match d.perform runner i c with
      | .ok c => execute d runner rest c
      | .error e => .error e
      | .exhausted => .exhausted
termination_by tokens => tokens.length
decreasing_by exact Nat.lt_succ_of_le (Instruction.length_read_le ‹_›)

@[simp] theorem execute_nil (d : Dictionary) (runner : Runner) (c : Context) :
    d.execute runner [] c = .ok c := by
  rw [execute]

/-- Tokens are run one instruction after the other. -/
theorem execute_cons (d : Dictionary) (runner : Runner) (t : Value) (ts : List Value)
    (c : Context) :
    d.execute runner (t :: ts) c =
      Outcome.ofExcept (Instruction.read t ts) >>= fun (i, rest) =>
        d.perform runner i c >>= fun c => d.execute runner rest c := by
  rw [execute]
  split
  · next e h => rw [h]; rfl
  · next i rest h =>
    rw [h]
    simp only [Outcome.ofExcept, Outcome.ok_bind]
    cases d.perform runner i c <;> rfl

/-- Runs tokens and records the state in front of every instruction and at the end, where the
values set aside are put back. -/
def record (d : Dictionary) (runner : Runner) : List Value → Context → Outcome (List Step)
  | [], c => .ok [⟨[], c.unfreeze⟩]
  | t :: ts, c =>
    match _h : Instruction.read t ts with
    | .error e => .error e
    | .ok (i, rest) =>
      match d.perform runner i c with
      | .ok next => record d runner rest next >>= fun steps => .ok (⟨t :: ts, c⟩ :: steps)
      | .error e => .error e
      | .exhausted => .exhausted
termination_by tokens => tokens.length
decreasing_by exact Nat.lt_succ_of_le (Instruction.length_read_le ‹_›)

@[simp] theorem record_nil (d : Dictionary) (runner : Runner) (c : Context) :
    d.record runner [] c = .ok [⟨[], c.unfreeze⟩] := by
  rw [record]

/-- A record has the state in front of the first instruction, then the record of the rest. -/
theorem record_cons (d : Dictionary) (runner : Runner) (t : Value) (ts : List Value)
    (c : Context) :
    d.record runner (t :: ts) c =
      Outcome.ofExcept (Instruction.read t ts) >>= fun (i, rest) =>
        d.perform runner i c >>= fun next =>
          d.record runner rest next >>= fun steps => .ok (⟨t :: ts, c⟩ :: steps) := by
  rw [record]
  split
  · next e h => rw [h]; rfl
  · next i rest h =>
    rw [h]
    simp only [Outcome.ofExcept, Outcome.ok_bind]
    cases d.perform runner i c <;> rfl

/-- Runs a program in which at most `depth` programs are inside each other. -/
def run (d : Dictionary) : Nat → Runner
  | 0 => fun _ _ _ => .exhausted
  | depth + 1 => fun tokens c unfreeze =>
    (d.execute (d.run depth) tokens c) >>= fun c => .ok (if unfreeze then c.unfreeze else c)

def trace (d : Dictionary) : Nat → List Value → Context → Outcome (List Step)
  | 0 => fun _ _ => .exhausted
  | depth + 1 => d.record (d.run depth)

end Dictionary

def Step.render (step : Step) : String :=
  "[" ++ renderValues " " step.context.stack ++ "] | " ++ renderValues "," step.remaining

def renderTrace (steps : List Step) : String := "\n".intercalate (steps.map Step.render)

end StackWords
