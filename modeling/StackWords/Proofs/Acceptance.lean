import StackWords.Standard.Quotation

/-! # The stacks that standard words accept

Every standard word has a test for the stack and an action, written apart. The
tests are opened here: what they say about the values on top is just what the
actions take for granted, so none of the words runs into an underflow.
-/
namespace StackWords

/-- A word that changes the stack only and fails with none but the given errors on the stacks that
it accepts. -/
def Word.SimplyRaises (w : Word) (Q : Error → Prop) : Prop :=
  ∃ f, w.action = .onStack f ∧ ∀ stack e, w.accepts stack → f stack = .error e → Q e

theorem Word.simplyRaises_of_isSimple {w : Word} (h : w.isSimple) {Q : Error → Prop}
    (hQ : ∀ e, Q e) : w.SimplyRaises Q := by
  cases hw : w.action with
  | onStack f => exact ⟨f, hw, fun _ e _ _ => hQ e⟩
  | onContext f => simp [isSimple, hw] at h

namespace Standard

variable {stack : Stack}

theorem atLeast_one_iff : atLeast 1 stack ↔ ∃ v rest, stack = v :: rest := by
  cases stack with
  | nil => simp [atLeast]
  | cons v rest => simp [atLeast]

theorem atLeast_two_iff : atLeast 2 stack ↔ ∃ v v' rest, stack = v :: v' :: rest := by
  match stack with
  | [] => simp [atLeast]
  | [_] => simp [atLeast]
  | _ :: _ :: _ => simp [atLeast]

theorem topIsInt_iff : topIsInt stack ↔ ∃ v i rest, stack = v :: rest ∧ v.int? = some i := by
  cases stack with
  | nil => simp [topIsInt]
  | cons v rest => simp [topIsInt, Option.isSome_iff_exists]

theorem topIsCount_iff : topIsCount stack ↔ ∃ v n rest, stack = v :: rest ∧ v.count? = some n := by
  cases stack with
  | nil => simp [topIsCount]
  | cons v rest => simp [topIsCount, Option.isSome_iff_exists]

theorem topIsPosition_iff :
    topIsPosition stack ↔
      ∃ v n rest, stack = v :: rest ∧ v.count? = some n ∧ n < rest.length := by
  cases stack with
  | nil => simp [topIsPosition]
  | cons v rest =>
    simp only [topIsPosition, List.head?_cons, Option.bind_some, Option.any_eq_true,
      List.length_cons, Nat.add_lt_add_iff_right, decide_eq_true_eq, List.cons.injEq]
    constructor
    · rintro ⟨n, hn, hlt⟩
      exact ⟨v, n, rest, ⟨rfl, rfl⟩, hn, hlt⟩
    · rintro ⟨_, n, _, ⟨rfl, rfl⟩, hn, hlt⟩
      exact ⟨n, hn, hlt⟩

theorem isLiteral_iff {v : Value} : v.isLiteral ↔ ∃ name, v = .literal name := by
  cases v <;> simp [Value.isLiteral, Value.text?]

theorem isList_iff {v : Value} : v.isList ↔ ∃ items, v = .list items := by
  cases v <;> simp [Value.isList, Value.items?]

theorem topIsLiteral_iff : topIsLiteral stack ↔ ∃ name rest, stack = .literal name :: rest := by
  cases stack with
  | nil => simp [topIsLiteral]
  | cons v rest => simp [topIsLiteral, isLiteral_iff]

theorem secondIsLiteral_iff :
    secondIsLiteral stack ↔ ∃ v name rest, stack = v :: .literal name :: rest := by
  match stack with
  | [] => simp [secondIsLiteral]
  | [_] => simp [secondIsLiteral]
  | _ :: _ :: _ => simp [secondIsLiteral, isLiteral_iff]

theorem literalOverValue_iff :
    literalOverValue stack ↔ ∃ name v rest, stack = .literal name :: v :: rest := by
  match stack with
  | [] => simp [literalOverValue, atLeast]
  | [_] => simp [literalOverValue, atLeast]
  | _ :: _ :: _ => simp [literalOverValue, atLeast, topIsLiteral, isLiteral_iff]

theorem topIsList_iff : topIsList stack ↔ ∃ items rest, stack = .list items :: rest := by
  cases stack with
  | nil => simp [topIsList]
  | cons v rest => simp [topIsList, isList_iff]

theorem topAreLists_iff :
    topAreLists stack ↔ ∃ body items rest, stack = .list body :: .list items :: rest := by
  match stack with
  | [] => simp [topAreLists, topIsList]
  | [_] => simp [topAreLists, topIsList]
  | _ :: _ :: _ => simp [topAreLists, topIsList, isList_iff]

theorem popCount_cons {v : Value} {n : Nat} (h : v.count? = some n) (word : String)
    (rest : Stack) : popCount word (v :: rest) = .ok (n, rest) := by
  simp [popCount, h]

theorem removeAt?_of_lt {rest : Stack} {n : Nat} (h : n < rest.length) :
    Sequence.removeAt? rest n = some (rest[n], rest.eraseIdx n) := by
  simp [Sequence.removeAt?, h]

theorem pick_eq_error {e : Error} (ha : topIsInt stack) (h : pick stack = .error e) :
    ∃ index size, e = Cause.pickOutOfRange index size := by
  obtain ⟨v, i, rest, rfl, hi⟩ := topIsInt_iff.mp ha
  simp only [pick, hi] at h
  split at h <;> cases h
  exact ⟨i, rest.length, rfl⟩

theorem roll_succeeds (ha : topIsPosition stack) : ∃ after, roll stack = .ok after := by
  obtain ⟨v, n, rest, rfl, hn, hlt⟩ := topIsPosition_iff.mp ha
  refine ⟨rest[n] :: rest.eraseIdx n, ?_⟩
  simp only [roll, popCount_cons hn, removeAt?_of_lt hlt]

theorem rotate_succeeds (ha : atLeast 1 stack) : ∃ after, rotate stack = .ok after := by
  obtain ⟨v, rest, rfl⟩ := atLeast_one_iff.mp ha
  cases hp : Sequence.popLast? (v :: rest) with
  | none => simp at hp
  | some p => exact ⟨p.1 :: p.2, by simp only [rotate, hp]⟩

theorem dropMany_succeeds (ha : topIsCount stack) : ∃ after, dropMany stack = .ok after := by
  obtain ⟨v, n, rest, rfl, hn⟩ := topIsCount_iff.mp ha
  exact ⟨rest.drop n, by simp only [dropMany, popCount_cons hn, Except.map]⟩

theorem listMany_succeeds (ha : topIsCount stack) : ∃ after, listMany stack = .ok after := by
  obtain ⟨v, n, rest, rfl, hn⟩ := topIsCount_iff.mp ha
  exact ⟨.list (rest.take n).reverse :: rest.drop n,
    by simp only [listMany, popCount_cons hn, Except.map]⟩

variable {name signature : String} {accepts : Stack → Bool} {f : Stack → Except Error Stack}
variable {examples : List String} {Q : Error → Prop}

theorem simplyRaises_of_succeeds (h : ∀ stack, accepts stack → ∃ after, f stack = .ok after) :
    (simple name signature accepts f examples).SimplyRaises Q := by
  refine ⟨f, rfl, ?_⟩
  intro stack e ha he
  obtain ⟨after, hf⟩ := h stack ha
  rw [hf] at he
  cases he

theorem simplyRaises_of_one (h : ∀ v rest, ∃ after, f (v :: rest) = .ok after) :
    (simple name signature (atLeast 1) f examples).SimplyRaises Q := by
  apply simplyRaises_of_succeeds
  intro stack ha
  obtain ⟨v, rest, rfl⟩ := atLeast_one_iff.mp ha
  exact h v rest

theorem simplyRaises_of_two (h : ∀ v v' rest, ∃ after, f (v :: v' :: rest) = .ok after) :
    (simple name signature (atLeast 2) f examples).SimplyRaises Q := by
  apply simplyRaises_of_succeeds
  intro stack ha
  obtain ⟨v, v', rest, rfl⟩ := atLeast_two_iff.mp ha
  exact h v v' rest

/-- A shuffling word fails on no stack that it accepts, unless it picks out of range. -/
theorem shuffleWords_simplyRaise :
    ∀ w ∈ shuffleWords, w.SimplyRaises fun e =>
      ∃ index size, e = Cause.pickOutOfRange index size := by
  intro w hw
  simp only [shuffleWords, List.mem_cons, List.not_mem_nil, or_false] at hw
  rcases hw with rfl | rfl | rfl | rfl | rfl | rfl | rfl | rfl | rfl | rfl | rfl | rfl
  · exact simplyRaises_of_succeeds fun _ _ => ⟨_, rfl⟩
  · exact simplyRaises_of_succeeds fun _ _ => ⟨_, rfl⟩
  · exact simplyRaises_of_one fun _ _ => ⟨_, rfl⟩
  · exact simplyRaises_of_one fun _ _ => ⟨_, rfl⟩
  · exact simplyRaises_of_succeeds fun _ => dropMany_succeeds
  · exact simplyRaises_of_two fun _ _ _ => ⟨_, rfl⟩
  · exact ⟨pick, rfl, fun _ _ => pick_eq_error⟩
  · exact simplyRaises_of_succeeds fun _ => roll_succeeds
  · exact simplyRaises_of_succeeds fun _ => rotate_succeeds
  · exact simplyRaises_of_one fun _ _ => ⟨_, rfl⟩
  · exact simplyRaises_of_succeeds fun _ _ => ⟨_, rfl⟩
  · exact simplyRaises_of_two fun _ _ _ => ⟨_, rfl⟩

end Standard

end StackWords
