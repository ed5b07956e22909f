import StackWords.Execution.Limit

/-! # What a program ends with

The limit on nesting serves to write runs as functions. A program that ends has
one result, whichever limit lets it end, so statements about programs name the
result and leave the limit out.
-/
namespace StackWords

variable {α β : Type}

namespace Outcome

theorem finished_ofExcept (result : Except Error α) : (ofExcept result).Finished := by
  cases result <;> simp [ofExcept, Finished]

theorem ofExcept_injective {a b : Except Error α} (h : ofExcept a = ofExcept b) : a = b := by
  cases a <;> cases b <;> cases h <;> rfl

theorem ofExcept_bind_ok (result : Except Error α) (f : α → β) :
    (ofExcept result >>= fun a => .ok (f a)) = ofExcept (result.map f) := by
  cases result <;> rfl

theorem eq_ofExcept_of_bind_ok {o : Outcome α} {f : α → β} {result : Except Error β}
    (h : (o >>= fun a => .ok (f a)) = ofExcept result) :
    ∃ before, o = ofExcept before ∧ result = before.map f := by
  cases o with
  | ok a => exact ⟨.ok a, rfl, ofExcept_injective h.symm⟩
  | error e => exact ⟨.error e, rfl, ofExcept_injective h.symm⟩
  | exhausted => exact absurd h.symm (finished_ofExcept result)

theorem eq_ofExcept_of_mapError {o : Outcome α} {f : Error → Error}
    {result : Except Error α} (h : o.mapError f = ofExcept result) :
    ∃ before, o = ofExcept before ∧ result = before.mapError f := by
  cases o with
  | ok a => exact ⟨.ok a, rfl, ofExcept_injective h.symm⟩
  | error e => exact ⟨.error e, rfl, ofExcept_injective h.symm⟩
  | exhausted => exact absurd h.symm (finished_ofExcept result)

theorem bind_eq_ok_iff {o : Outcome α} {f : α → Outcome β} {b : β} :
    (o >>= f) = .ok b ↔ ∃ a, o = .ok a ∧ f a = .ok b := by
  cases o with
  | ok a => simp
  | error e => simp
  | exhausted => simp

theorem bind_ok_eq_error_iff {o : Outcome α} {f : α → β} {e : Error} :
    (o >>= fun a => .ok (f a)) = .error e ↔ o = .error e := by
  cases o with
  | ok a => simp
  | error e' => simp
  | exhausted => simp

theorem bind_ok_eq_exhausted_iff {o : Outcome α} {f : α → β} :
    (o >>= fun a => .ok (f a)) = .exhausted ↔ o = .exhausted := by
  cases o with
  | ok a => simp
  | error e => simp
  | exhausted => simp

theorem mapError_bind_ok (o : Outcome α) (f : α → β) (g : Error → Error) :
    (o >>= fun a => .ok (f a)).mapError g = o.mapError g >>= fun a => .ok (f a) := by
  cases o <;> rfl

theorem eq_ok_of_mapError {o : Outcome α} {g : Error → Error} {a : α}
    (h : o.mapError g = .ok a) : o = .ok a := by
  cases o with
  | ok b => exact h
  | error e => cases h
  | exhausted => cases h

end Outcome

namespace Dictionary

variable {d : Dictionary} {tokens : List Value} {c : Context} {unfreeze : Bool}

/-- A program ends with a result: there is a limit that lets it end, and it ends so. -/
def EndsWith (d : Dictionary) (tokens : List Value) (c : Context) (unfreeze : Bool)
    (result : Except Error Context) : Prop :=
  ∃ depth, d.run depth tokens c unfreeze = .ofExcept result

/-- A program that is traced ends with a result, which is the list of its steps or an error. -/
def TracesTo (d : Dictionary) (tokens : List Value) (c : Context)
    (result : Except Error (List Step)) : Prop :=
  ∃ depth, d.trace depth tokens c = .ofExcept result

theorem run_eq_of_le {depth deeper : Nat} (h : depth ≤ deeper) {result : Except Error Context}
    (hr : d.run depth tokens c unfreeze = .ofExcept result) :
    d.run deeper tokens c unfreeze = .ofExcept result := by
  have hf : (d.run depth tokens c unfreeze).Finished := by
    rw [hr]
    exact Outcome.finished_ofExcept result
  rw [d.run_eq_of_finished h hf, hr]

/-- A program has at most one result. -/
theorem EndsWith.unique {r s : Except Error Context} (hr : d.EndsWith tokens c unfreeze r)
    (hs : d.EndsWith tokens c unfreeze s) : r = s := by
  obtain ⟨m, hm⟩ := hr
  obtain ⟨n, hn⟩ := hs
  have hm' := run_eq_of_le (Nat.le_max_left m n) hm
  have hn' := run_eq_of_le (Nat.le_max_right m n) hn
  exact Outcome.ofExcept_injective (hm'.symm.trans hn')

/-- Putting back what was set aside is the last thing a program does. -/
theorem run_true (d : Dictionary) (depth : Nat) (tokens : List Value) (c : Context) :
    d.run depth tokens c true = d.run depth tokens c false >>= fun c => .ok c.unfreeze := by
  cases depth with
  | zero => rfl
  | succ depth =>
    simp only [run, ↓reduceIte, Bool.false_eq_true]
    cases d.execute (d.run depth) tokens c <;> rfl

theorem endsWith_true_iff {result : Except Error Context} :
    d.EndsWith tokens c true result ↔
      ∃ before, d.EndsWith tokens c false before ∧ result = before.map Context.unfreeze := by
  constructor
  · rintro ⟨depth, h⟩
    rw [run_true] at h
    obtain ⟨before, hb, hr⟩ := Outcome.eq_ofExcept_of_bind_ok h
    exact ⟨before, ⟨depth, hb⟩, hr⟩
  · rintro ⟨before, ⟨depth, h⟩, rfl⟩
    refine ⟨depth, ?_⟩
    rw [run_true, h, Outcome.ofExcept_bind_ok]

theorem run_error_iff {depth : Nat} {e : Error} :
    d.run depth tokens c unfreeze = .error e ↔ d.run depth tokens c false = .error e := by
  cases unfreeze with
  | false => rfl
  | true => rw [run_true, Outcome.bind_ok_eq_error_iff]

theorem endsWith_error_iff {e : Error} :
    d.EndsWith tokens c unfreeze (.error e) ↔ d.EndsWith tokens c false (.error e) :=
  exists_congr fun _ => run_error_iff

theorem run_succ_false (d : Dictionary) (depth : Nat) (tokens : List Value) (c : Context) :
    d.run (depth + 1) tokens c false = d.execute (d.run depth) tokens c := by
  simp only [run, Bool.false_eq_true, ↓reduceIte]
  cases d.execute (d.run depth) tokens c <;> rfl

end Dictionary

end StackWords
