import StackWords.Execution

/-! # Reading instructions

An instruction uses up a first part of the tokens and does not look at the rest,
so the rest can be exchanged. Programs are taken apart instruction by instruction
with an induction of their own.
-/
namespace StackWords.Instruction

theorem capture_start (depth : Nat) (ts : List Value) :
    capture depth (.listStart :: ts) =
      (capture (depth + 1) ts).map (Prod.map (.listStart :: ·) id) := by
  simp only [capture, ↓reduceIte]

theorem capture_end (depth : Nat) (ts : List Value) :
    capture (depth + 1) (.listEnd :: ts) =
      (capture depth ts).map (Prod.map (.listEnd :: ·) id) := by
  have hne : Value.listEnd ≠ Value.listStart := by decide
  simp only [capture, hne, ↓reduceIte]

theorem capture_zero_end (ts : List Value) : capture 0 (.listEnd :: ts) = some ([], ts) := by
  have hne : Value.listEnd ≠ Value.listStart := by decide
  simp only [capture, hne, ↓reduceIte]

theorem capture_other {t : Value} (hs : t ≠ .listStart) (he : t ≠ .listEnd) (depth : Nat)
    (ts : List Value) :
    capture depth (t :: ts) = (capture depth ts).map (Prod.map (t :: ·) id) := by
  simp only [capture, hs, he, ↓reduceIte]

theorem capture_cons_eq_some {depth inner : Nat} {t : Value} {ts items rest : List Value}
    (hstep : ∀ more, capture depth (t :: more) = (capture inner more).map (Prod.map (t :: ·) id))
    (ih : ∀ {items}, capture inner ts = some (items, rest) → ts = items ++ .listEnd :: rest ∧
      ∀ more, capture inner (items ++ .listEnd :: more) = some (items, more))
    (h : (capture inner ts).map (Prod.map (t :: ·) id) = some (items, rest)) :
    t :: ts = items ++ .listEnd :: rest ∧
      ∀ more, capture depth (items ++ .listEnd :: more) = some (items, more) := by
  obtain ⟨⟨taken, after⟩, hc, hp⟩ := Option.map_eq_some_iff.mp h
  obtain ⟨rfl, rfl⟩ := Prod.mk.inj hp
  obtain ⟨hts, hmore⟩ := ih hc
  refine ⟨by rw [hts]; rfl, ?_⟩
  intro more
  rw [List.cons_append, hstep, hmore]
  rfl

/-- A captured list ends with a list end of its own, and what stands behind it does not matter. -/
theorem capture_eq_some {depth : Nat} {ts items rest : List Value}
    (h : capture depth ts = some (items, rest)) :
    ts = items ++ .listEnd :: rest ∧
      ∀ more, capture depth (items ++ .listEnd :: more) = some (items, more) := by
  fun_induction capture depth ts generalizing items with
  | case1 depth => cases h
  | case2 depth ts ih => exact capture_cons_eq_some (capture_start depth) ih h
  | case3 ts _ =>
    cases h
    exact ⟨rfl, capture_zero_end⟩
  | case4 ts depth _ ih => exact capture_cons_eq_some (capture_end depth) ih h
  | case5 depth t ts hs he ih => exact capture_cons_eq_some (capture_other hs he depth) ih h

/-- An instruction is read off the tokens that it uses up, whatever stands behind them. -/
theorem read_eq_ok {t : Value} {ts rest : List Value} {i : Instruction}
    (h : read t ts = .ok (i, rest)) :
    ∃ used, ts = used ++ rest ∧ ∀ more, read t (used ++ more) = .ok (i, more) := by
  unfold read at h
  split at h
  · next hs =>
    split at h
    · next items after hc =>
      cases h
      obtain ⟨hts, hmore⟩ := capture_eq_some hc
      refine ⟨items ++ [.listEnd], by simpa using hts, ?_⟩
      intro more
      have hm := hmore more
      simp only [read, hs, ↓reduceIte, List.append_assoc, List.singleton_append, hm]
    · cases h
  · next hs =>
    split at h
    · cases h
    · next he =>
      -- One token is all that any other instruction uses.
      refine ⟨[], ?_, ?_⟩
      · split at h <;> cases h <;> rfl
      · intro more
        simp only [read, hs, he, ↓reduceIte, List.nil_append]
        split at h <;> cases h <;> rfl

theorem read_listEnd (ts : List Value) : read .listEnd ts = .error Cause.strayListEnd := by
  have hne : Value.listEnd ≠ Value.listStart := by decide
  simp only [read, hne, ↓reduceIte]

theorem read_openList {ts : List Value} (h : capture 0 ts = none) :
    read .listStart ts = .error Cause.openList := by
  simp only [read, ↓reduceIte, h]

/-- No instruction starts with a list end, or with a list start that has no end. -/
theorem read_eq_error {t : Value} {ts : List Value} {e : Error} (h : read t ts = .error e) :
    (t = .listStart ∧ capture 0 ts = none) ∨ t = .listEnd := by
  unfold read at h
  split at h
  · next hs =>
    split at h
    · cases h
    · next hc => exact Or.inl ⟨hs, hc⟩
  · split at h
    · next he => exact Or.inr he
    · split at h <;> cases h

/-- A list without an end can be given one. -/
theorem exists_capture_append {depth : Nat} {ts : List Value} (h : capture depth ts = none) :
    ∃ ends items, capture depth (ts ++ ends) = some (items, []) := by
  fun_induction capture depth ts with
  | case1 depth =>
    induction depth with
    | zero => exact ⟨[.listEnd], [], capture_zero_end []⟩
    | succ depth ih =>
      obtain ⟨ends, items, hc⟩ := ih
      rw [List.nil_append] at hc
      refine ⟨.listEnd :: ends, .listEnd :: items, ?_⟩
      rw [List.nil_append, capture_end, hc]
      rfl
  | case2 depth ts ih =>
    obtain ⟨ends, items, hc⟩ := ih (Option.map_eq_none_iff.mp h)
    refine ⟨ends, .listStart :: items, ?_⟩
    rw [List.cons_append, capture_start, hc]
    rfl
  | case3 ts _ => cases h
  | case4 ts depth _ ih =>
    obtain ⟨ends, items, hc⟩ := ih (Option.map_eq_none_iff.mp h)
    refine ⟨ends, .listEnd :: items, ?_⟩
    rw [List.cons_append, capture_end, hc]
    rfl
  | case5 depth t ts hs he ih =>
    obtain ⟨ends, items, hc⟩ := ih (Option.map_eq_none_iff.mp h)
    refine ⟨ends, t :: items, ?_⟩
    rw [List.cons_append, capture_other hs he, hc]
    rfl

theorem wordName?_literal (name : String) : (Value.literal (":" ++ name)).wordName? = some name := by
  simp [Value.wordName?, Value.text?]

theorem read_word (name : String) (ts : List Value) :
    read (.literal (":" ++ name)) ts = .ok (.invoke name, ts) := by
  have hw := wordName?_literal name
  have hs : Value.literal (":" ++ name) ≠ .listStart := by
    intro h
    rw [h] at hw
    cases hw
  have he : Value.literal (":" ++ name) ≠ .listEnd := by
    intro h
    rw [h] at hw
    cases hw
  simp only [read, hs, he, ↓reduceIte, hw]

theorem isUserError_of_read {t : Value} {ts : List Value} {e : Error}
    (h : read t ts = .error e) : e.isUserError := by
  unfold read at h
  split at h
  · split at h <;> cases h
    rfl
  · split at h
    · cases h
      rfl
    · split at h <;> cases h

/-- Induction along a program: a property of all tokens follows if it passes from the tokens
behind an instruction to the tokens that start with it. -/
theorem read_induction {P : List Value → Prop} (nil : P [])
    (cons : ∀ t ts, (∀ i rest, read t ts = .ok (i, rest) → P rest) → P (t :: ts))
    (tokens : List Value) : P tokens := by
  induction hn : tokens.length using Nat.strongRecOn generalizing tokens with
  | ind n ih =>
    cases tokens with
    | nil => exact nil
    | cons t ts =>
      apply cons
      intro i rest hi
      have hle := length_read_le hi
      simp only [List.length_cons] at hn
      exact ih rest.length (by omega) rest rfl

end StackWords.Instruction
