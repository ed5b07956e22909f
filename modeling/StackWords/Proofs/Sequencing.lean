import StackWords.Proofs.Ending
import StackWords.Proofs.Reading

/-! # Programs one after the other

The tokens of a program that ended well are used up before those behind them are
looked at. So a program in front of another one runs as it does alone, and the
second goes on from where the first one ended. A program that failed fails in the
same way in front of another one, unless it ran out of tokens inside a list.
-/
namespace StackWords

namespace Dictionary

variable {d : Dictionary} {c c₁ : Context}

theorem execute_cons_eq_ok_iff {r : Runner} {t : Value} {ts : List Value} :
    d.execute r (t :: ts) c = .ok c₁ ↔
      ∃ i rest next, Instruction.read t ts = .ok (i, rest) ∧ d.perform r i c = .ok next ∧
        d.execute r rest next = .ok c₁ := by
  rw [execute_cons]
  cases Instruction.read t ts with
  | error e => simp [Outcome.ofExcept]
  | ok step =>
    obtain ⟨i, rest⟩ := step
    simp only [Outcome.ofExcept, Outcome.ok_bind, Outcome.bind_eq_ok_iff]
    constructor
    · rintro ⟨next, hp, he⟩
      exact ⟨i, rest, next, rfl, hp, he⟩
    · rintro ⟨_, _, next, hi, hp, he⟩
      cases hi
      exact ⟨next, hp, he⟩

theorem execute_append {r : Runner} {t₁ : List Value} (h : d.execute r t₁ c = .ok c₁)
    (t₂ : List Value) : d.execute r (t₁ ++ t₂) c = d.execute r t₂ c₁ := by
  induction t₁ using Instruction.read_induction generalizing c with
  | nil =>
    rw [execute_nil] at h
    cases h
    rfl
  | cons t ts ih =>
    obtain ⟨i, rest, next, hi, hp, he⟩ := execute_cons_eq_ok_iff.mp h
    obtain ⟨used, rfl, hmore⟩ := Instruction.read_eq_ok hi
    rw [List.cons_append, List.append_assoc, execute_cons, hmore]
    simp only [Outcome.ofExcept, Outcome.ok_bind, hp]
    exact ih i rest hi he

/-- A program that fails at a token fails there whatever stands behind it, unless the token starts
a list that has no end. -/
theorem execute_append_error {r : Runner} {t₁ : List Value} {e : Error}
    (h : d.execute r t₁ c = .error e) :
    (∃ front items next, t₁ = front ++ .listStart :: items ∧ d.execute r front c = .ok next ∧
      Instruction.capture 0 items = none) ∨
    ∀ t₂, d.execute r (t₁ ++ t₂) c = .error e := by
  induction t₁ using Instruction.read_induction generalizing c with
  | nil =>
    rw [execute_nil] at h
    cases h
  | cons t ts ih =>
    rw [execute_cons] at h
    cases hi : Instruction.read t ts with
    | error e' =>
      rcases Instruction.read_eq_error hi with ⟨rfl, hc⟩ | rfl
      · exact Or.inl ⟨[], ts, c, rfl, execute_nil d r c, hc⟩
      · rw [Instruction.read_listEnd] at h
        refine Or.inr fun t₂ => ?_
        rw [List.cons_append, execute_cons, Instruction.read_listEnd]
        exact h
    | ok step =>
      obtain ⟨i, rest⟩ := step
      obtain ⟨used, hts, hmore⟩ := Instruction.read_eq_ok hi
      have hrun : ∀ more, d.execute r (t :: (used ++ more)) c =
          d.perform r i c >>= fun next => d.execute r more next := by
        intro more
        rw [execute_cons, hmore]
        rfl
      rw [← execute_cons, hts, hrun] at h
      cases hp : d.perform r i c with
      | exhausted =>
        rw [hp] at h
        cases h
      | error e' =>
        rw [hp] at h
        refine Or.inr fun t₂ => ?_
        rw [hts, List.cons_append, List.append_assoc, hrun, hp]
        exact h
      | ok next =>
        rw [hp] at h
        rcases ih i rest hi h with ⟨front, items, last, hrest, hfront, hc⟩ | hfail
        · refine Or.inl ⟨t :: (used ++ front), items, last, ?_, ?_, hc⟩
          · rw [hts, hrest, List.cons_append, List.append_assoc]
          · rw [hrun, hp]
            exact hfront
        · refine Or.inr fun t₂ => ?_
          rw [hts, List.cons_append, List.append_assoc, hrun, hp]
          exact hfail t₂

theorem run_append {depth : Nat} {t₁ : List Value} (h : d.run depth t₁ c false = .ok c₁)
    (t₂ : List Value) (unfreeze : Bool) :
    d.run depth (t₁ ++ t₂) c unfreeze = d.run depth t₂ c₁ unfreeze := by
  cases depth with
  | zero => cases h
  | succ depth =>
    rw [run_succ_false] at h
    simp only [run, execute_append h t₂]

theorem EndsWith.append_iff {t₁ : List Value} (h₁ : d.EndsWith t₁ c false (.ok c₁))
    (t₂ : List Value) (unfreeze : Bool) (result : Except Error Context) :
    d.EndsWith (t₁ ++ t₂) c unfreeze result ↔ d.EndsWith t₂ c₁ unfreeze result := by
  obtain ⟨m, hm⟩ := h₁
  -- At any limit that lets the first program end, both sides are the same run.
  have hrun : ∀ n, d.run (max m n) (t₁ ++ t₂) c unfreeze = d.run (max m n) t₂ c₁ unfreeze :=
    fun n => run_append (run_eq_of_le (Nat.le_max_left m n) hm) t₂ unfreeze
  constructor
  · rintro ⟨n, hn⟩
    exact ⟨max m n, by rw [← hrun, run_eq_of_le (Nat.le_max_right m n) hn]⟩
  · rintro ⟨n, hn⟩
    exact ⟨max m n, by rw [hrun, run_eq_of_le (Nat.le_max_right m n) hn]⟩

/-- A program behind one that ends well goes on from its context. -/
theorem EndsWith.append {t₁ t₂ : List Value} {unfreeze : Bool} {result : Except Error Context}
    (h₁ : d.EndsWith t₁ c false (.ok c₁)) (h₂ : d.EndsWith t₂ c₁ unfreeze result) :
    d.EndsWith (t₁ ++ t₂) c unfreeze result :=
  (h₁.append_iff t₂ unfreeze result).mpr h₂

/-- A program comes to a list start of its own for which no list end is left. -/
def LeavesListOpen (d : Dictionary) (tokens : List Value) (c : Context) : Prop :=
  ∃ front items next, tokens = front ++ .listStart :: items ∧
    d.EndsWith front c false (.ok next) ∧ Instruction.capture 0 items = none

theorem EndsWith.append_error {t₁ : List Value} {e : Error}
    (h : d.EndsWith t₁ c false (.error e)) (hopen : ¬ d.LeavesListOpen t₁ c) (t₂ : List Value)
    (unfreeze : Bool) : d.EndsWith (t₁ ++ t₂) c unfreeze (.error e) := by
  obtain ⟨depth, h⟩ := h
  cases depth with
  | zero => cases h
  | succ depth =>
    rw [run_succ_false] at h
    rcases execute_append_error h with ⟨front, items, next, ht, hfront, hc⟩ | hfail
    · refine absurd ⟨front, items, next, ht, ⟨depth + 1, ?_⟩, hc⟩ hopen
      rw [run_succ_false]
      exact hfront
    · refine ⟨depth + 1, ?_⟩
      simp only [run, hfail t₂]
      rfl

theorem endsWith_unread (d : Dictionary) {t : Value} {ts : List Value} {e : Error}
    (h : Instruction.read t ts = .error e) (c : Context) :
    d.EndsWith (t :: ts) c false (.error e) := by
  refine ⟨1, ?_⟩
  rw [run_succ_false, execute_cons, h]
  rfl

theorem endsWith_openList {items : List Value} (h : Instruction.capture 0 items = none)
    (d : Dictionary) (c : Context) :
    d.EndsWith (.listStart :: items) c false (.error Cause.openList) :=
  d.endsWith_unread (Instruction.read_openList h) c

theorem exists_endsWith_openList {items : List Value} (h : Instruction.capture 0 items = none)
    (d : Dictionary) (c : Context) :
    ∃ ends list, d.EndsWith (.listStart :: (items ++ ends)) c false (.ok (c.push list)) := by
  obtain ⟨ends, captured, hc⟩ := Instruction.exists_capture_append h
  have hread : Instruction.read .listStart (items ++ ends) = .ok (.push (.list captured), []) := by
    simp only [Instruction.read, ↓reduceIte, hc]
  refine ⟨ends, .list captured, 1, ?_⟩
  rw [run_succ_false, execute_cons, hread]
  simp only [Outcome.ofExcept, Outcome.ok_bind, perform, execute_nil]

/-- Programs compose. Behind a program that ends well the second one goes on from its context. A
failure of the first one is the failure of both, but for a list start of its own without a list
end: this fails for the want of further tokens, and some let it end well. -/
theorem programs_compose (d : Dictionary) (t₁ t₂ : List Value) (c : Context) (unfreeze : Bool) :
    (∀ c₁, d.EndsWith t₁ c false (.ok c₁) → ∀ result,
      d.EndsWith (t₁ ++ t₂) c unfreeze result ↔ d.EndsWith t₂ c₁ unfreeze result) ∧
    (∀ e, d.EndsWith t₁ c false (.error e) → ¬ d.LeavesListOpen t₁ c →
      d.EndsWith (t₁ ++ t₂) c unfreeze (.error e)) ∧
    (d.LeavesListOpen t₁ c → d.EndsWith t₁ c false (.error Cause.openList) ∧
      ∃ ends next, d.EndsWith (t₁ ++ ends) c false (.ok next)) := by
  refine ⟨fun c₁ h => h.append_iff t₂ unfreeze, fun e h hopen => h.append_error hopen t₂ unfreeze,
    ?_⟩
  rintro ⟨front, items, next, rfl, hfront, hc⟩
  refine ⟨hfront.append (d.endsWith_openList hc next), ?_⟩
  obtain ⟨ends, list, hlist⟩ := d.exists_endsWith_openList hc next
  refine ⟨ends, next.push list, ?_⟩
  rw [List.append_assoc]
  exact hfront.append hlist

/-- The list that a macro leaves open is no list of the program, so what follows the macro does not
mend it. -/
theorem list_left_open_in_macro_stays_open :
    let opening : Macro := ⟨"open", [.listStart]⟩
    let d := Dictionary.ofWords [opening.toWord]
    let e := (Cause.openList : Error).inFrame "open"
    let quoted := ["(", "a", ")"].map Value.literal
    d.EndsWith (quoted ++ [Value.literal ":open"]) {} false (.error e) ∧
      ¬ d.LeavesListOpen (quoted ++ [Value.literal ":open"]) {} ∧
      d.EndsWith (quoted ++ [Value.literal ":open"] ++ [Value.listEnd]) {} true (.error e) ∧
      d.EndsWith [.literal ":open"] { stack := [.list [.literal "a"]] } false (.error e) := by
  intro opening d e quoted
  have hquoted : d.EndsWith quoted {} false (.ok { stack := [.list [.literal "a"]] }) :=
    ⟨1, by decide +kernel⟩
  have hfail : d.EndsWith (quoted ++ [Value.literal ":open"]) {} false (.error e) :=
    ⟨2, by decide +kernel⟩
  have hopen : ¬ d.LeavesListOpen (quoted ++ [Value.literal ":open"]) {} := by
    rintro ⟨front, items, next, htokens, -, hc⟩
    cases front with
    | nil =>
      obtain ⟨-, rfl⟩ := List.cons.inj htokens
      exact absurd hc (by decide)
    | cons t front =>
      have htail : ["a", ")", ":open"].map Value.literal = front ++ .listStart :: items :=
        (List.cons.inj htokens).2
      have hmem : Value.listStart ∈ ["a", ")", ":open"].map Value.literal := by
        rw [htail]
        exact List.mem_append_right front List.mem_cons_self
      exact absurd hmem (by decide)
  refine ⟨hfail, hopen, ?_, ?_⟩
  · exact (programs_compose d _ _ _ true).2.1 e hfail hopen
  · exact ((programs_compose d _ _ _ false).1 _ hquoted (.error e)).mp hfail

end Dictionary

end StackWords
