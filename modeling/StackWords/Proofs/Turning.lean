import StackWords.Proofs.Inlining

/-! # Tokens that turn one stack into another

Most programs over the stack words change nothing but the stack, and what they make
of it does not depend on the tokens behind them. For such programs it is enough to
name the stack in front of them and the stack behind them, and programs that fit
together can be put one behind the other.
-/
namespace StackWords

namespace Value

def numeral (n : Nat) : Value := .literal (toString n)

theorem text_numeral (n : Nat) : (toString n).toList = Nat.toDigits 10 n := by
  rw [Nat.toString_eq_ofList_toDigits, String.toList_ofList]

theorem count?_numeral {n : Nat} (h : Text.IsWord n) : (numeral n).count? = some n := by
  simp [count?, int?, numeral, text?, Text.readWord?_toDigits h]

theorem inert_numeral (n : Nat) : (numeral n).Inert := by
  intro text htext
  have htext : text.toList = Nat.toDigits 10 n := by
    cases htext
    exact text_numeral n
  have hdigit : ∀ c ∈ text.toList, c.isDigit = true := by
    intro c hc
    rw [htext] at hc
    exact Text.isDigit_of_mem_toDigits hc
  refine ⟨?_, ?_, ?_⟩
  · rintro rfl
    exact absurd (hdigit '(' (by decide)) (by decide)
  · rintro rfl
    exact absurd (hdigit ')' (by decide)) (by decide)
  · intro hhead
    exact absurd (hdigit ':' (List.mem_of_head? hhead)) (by decide)

end Value

namespace Dictionary

variable {d : Dictionary} {tokens more : List Value} {before middle after : Stack} {c : Context}

/-- In every context with the first stack some tokens do nothing but replace it by the second one,
whatever tokens stand behind them. -/
def Turns (d : Dictionary) (tokens : List Value) (before after : Stack) : Prop :=
  ∀ (c : Context) (rest : List Value) (unfreeze : Bool), c.stack = before →
    d.EndsWith (tokens ++ rest) c unfreeze = d.EndsWith rest { c with stack := after } unfreeze

theorem Turns.nil (d : Dictionary) (stack : Stack) : d.Turns [] stack stack := by
  rintro c rest unfreeze rfl
  rfl

theorem Turns.append (first : d.Turns tokens before middle) (second : d.Turns more middle after) :
    d.Turns (tokens ++ more) before after := by
  intro c rest unfreeze hstack
  rw [List.append_assoc, first c _ unfreeze hstack, second _ rest unfreeze rfl]

theorem Turns.cons {t : Value} (first : d.Turns [t] before middle)
    (second : d.Turns more middle after) : d.Turns (t :: more) before after :=
  first.append second

/-- Tokens that turn every stack of a sequence into the next one lead along the sequence. -/
theorem Turns.repeated (stage : Nat → Stack)
    (h : ∀ i, d.Turns tokens (stage i) (stage (i + 1))) (times : Nat) :
    d.Turns (List.replicate times tokens).flatten (stage 0) (stage times) := by
  induction times with
  | zero => exact .nil d (stage 0)
  | succ times ih =>
    rw [List.replicate_succ', List.flatten_concat]
    exact ih.append (h times)

theorem Turns.endsWith (h : d.Turns tokens c.stack after) :
    d.EndsWith tokens c false (.ok { c with stack := after }) := by
  have hrun := h c [] false rfl
  rw [List.append_nil, endsWith_nil] at hrun
  rw [hrun]

theorem turns_push {t v : Value} (h : ∀ more, Instruction.read t more = .ok (.push v, more))
    (d : Dictionary) (stack : Stack) : d.Turns [t] stack (v :: stack) := by
  rintro c rest unfreeze rfl
  exact endsWith_push (h rest) d c unfreeze

theorem turns_numeral (d : Dictionary) (n : Nat) (stack : Stack) :
    d.Turns [.numeral n] stack (.numeral n :: stack) :=
  turns_push (Value.inert_numeral n).read_eq d stack

theorem turns_emptyList (d : Dictionary) (stack : Stack) :
    d.Turns [.listStart, .listEnd] stack (.list [] :: stack) := by
  have hnone : Value.Balanced [] := .nil
  rintro c rest unfreeze rfl
  exact endsWith_push (Instruction.read_quoted hnone rest) d c unfreeze

end Dictionary

namespace Standard

variable {name : String} {accepts : Stack → Bool} {before after : Stack}

theorem turns_word {action : Action} (h : Leads name accepts action) (extra : List Word)
    (ha : accepts before)
    (hy : ∀ c : Context, c.stack = before → (extendedBy extra).Yields (action.apply c) =
      fun result => result = .ok { c with stack := after }) :
    (extendedBy extra).Turns [.literal (":" ++ name)] before after := by
  rintro c rest unfreeze rfl
  rw [List.singleton_append, endsWith_word h extra ha, hy c rfl, Results.value_bind]

/-- A standard word that changes the stack only turns a stack into what its function gives. -/
theorem turns_simple {f : Stack → Except Error Stack} (h : Leads name accepts (.onStack f))
    (extra : List Word) (ha : accepts before) (hf : f before = .ok after) :
    (extendedBy extra).Turns [.literal (":" ++ name)] before after := by
  refine turns_word h extra ha ?_
  rintro c rfl
  rw [Action.apply, hf, Dictionary.yields_done]
  rfl

end Standard

end StackWords
