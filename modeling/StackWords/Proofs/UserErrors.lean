import StackWords.Proofs.Coupled

/-! # Whose fault a failure is

A standard word reports an underflow when it runs on a stack that it does not
accept. No program gets there: a word is only run after its test, and at every
depth of nesting the failures that come back are the fault of the program.
-/
namespace StackWords.Standard

variable {extra : List Word}

theorem run_userError (hx : ∀ w ∈ extra, w.IsMacro ∨ w.SimplyRaises fun e => e.isUserError)
    (depth : Nat) (tokens : List Value) (c : Context) {e : Error}
    (h : (extendedBy extra).run depth tokens c false = .error e) : e.isUserError := by
  have hC : Coupling Eq (.related fun e e' => e' = e ∧ e.isUserError) := by
    refine Coupling.eq (fun hu => ⟨rfl, hu⟩) ?_
    rintro e _ ⟨rfl, hu⟩ frame
    exact ⟨rfl, hu⟩
  have hd : (extendedBy extra).FollowedBy Eq (.related fun e e' => e' = e ∧ e.isUserError)
      (extendedBy extra) := by
    apply extendedBy_followedBy hC
    · rintro a _ rfl
      rfl
    · intro w hw
      refine (hx w hw).imp id ?_
      rintro ⟨f, hf, hraise⟩
      exact ⟨f, hf, fun stack e ha he => ⟨rfl, hraise stack e ha he⟩⟩
  have hrun := Dictionary.run_followedBy hC hd depth tokens c c rfl
  rw [h] at hrun
  obtain ⟨e', -, -, hu⟩ := hrun
  exact hu

/-- A program fails by its own fault only: over the standard words, macros and words that change
the stack and raise no other errors, no failure is an underflow of a word. -/
theorem failures_are_user_errors
    (hx : ∀ w ∈ extra, w.IsMacro ∨ w.SimplyRaises fun e => e.isUserError)
    {tokens : List Value} {c : Context} {unfreeze : Bool} {e : Error}
    (h : (extendedBy extra).EndsWith tokens c unfreeze (.error e)) :
    e.isUserError ∧ e.kind = .invalidProgram ∧ ∀ word, e.cause ≠ .underflow word := by
  obtain ⟨depth, h⟩ := h
  have hu : e.isUserError := by
    cases unfreeze with
    | false => exact run_userError hx depth tokens c h
    | true =>
      rw [Dictionary.run_true] at h
      exact run_userError hx depth tokens c (Outcome.bind_ok_eq_error_iff.mp h)
  have hk : e.kind = .invalidProgram := by simpa [Error.isUserError] using hu
  refine ⟨hu, hk, ?_⟩
  intro word hcause
  rw [Error.kind, hcause] at hk
  cases hk

theorem failure_in_map_in_macro_is_user_error :
    let outer : Macro := ⟨"outer", ["(", "0", ")", "(", ":pick", ")", ":map"].map .literal⟩
    let fails : Error := ⟨.pickOutOfRange 0 0, some { frames := ["outer"] }⟩
    (extendedBy [outer.toWord, simple "same" "*" anyStack .ok []]).EndsWith [.literal ":outer"]
        { stack := [.list []], frozen := [.literal "f"] } true (.error fails) ∧
      fails.isUserError ∧ fails.kind = .invalidProgram ∧
      ∀ word, fails.cause ≠ .underflow word := by
  intro outer fails
  have hx : ∀ w ∈ [outer.toWord, simple "same" "*" anyStack .ok []],
      w.IsMacro ∨ w.SimplyRaises fun e => e.isUserError := by
    intro w hw
    simp only [List.mem_cons, List.not_mem_nil, or_false] at hw
    rcases hw with rfl | rfl
    · exact Or.inl ⟨outer, true, [], rfl⟩
    · exact Or.inr (simplyRaises_of_succeeds fun stack _ => ⟨stack, rfl⟩)
  have hrun : (extendedBy [outer.toWord, simple "same" "*" anyStack .ok []]).EndsWith
      [.literal ":outer"] { stack := [.list []], frozen := [.literal "f"] } true
      (.error fails) :=
    ⟨3, by decide +kernel⟩
  exact ⟨hrun, failures_are_user_errors hx hrun⟩

end StackWords.Standard
