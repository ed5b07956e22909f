import StackWords.Proofs.Simulation

/-! # Results without limits

The limits on nesting drop out of the laws of programs when a computation is given
by the results that it ends with at some limit. The results of two computations one
after the other are told by the results of each, and a word in a program has the
results of its routine.
-/
namespace StackWords

variable {α β : Type}

abbrev Results (α : Type) := Except Error α → Prop

namespace Results

/-- The results of two computations one after the other: those of the second from a value of the
first, and the failures of the first. -/
def bind (first : Results α) (second : α → Results β) : Results β := fun result =>
  (∃ a, first (.ok a) ∧ second a result) ∨ ∃ e, first (.error e) ∧ result = .error e

def map (f : α → β) (first : Results α) : Results β := fun result =>
  ∃ before, first before ∧ result = before.map f

theorem map_map {γ : Type} (first : Results α) (f : α → β) (g : β → γ) :
    (first.map f).map g = first.map fun a => g (f a) := by
  funext result
  apply propext
  constructor
  · rintro ⟨_, ⟨before, hb, rfl⟩, rfl⟩
    refine ⟨before, hb, ?_⟩
    cases before <;> rfl
  · rintro ⟨before, hb, rfl⟩
    refine ⟨before.map f, ⟨before, hb, rfl⟩, ?_⟩
    cases before <;> rfl

theorem bind_ok (first : Results α) (f : α → β) :
    (first.bind fun a result => result = .ok (f a)) = first.map f := by
  funext result
  apply propext
  constructor
  · rintro (⟨a, ha, rfl⟩ | ⟨e, he, rfl⟩)
    · exact ⟨.ok a, ha, rfl⟩
    · exact ⟨.error e, he, rfl⟩
  · rintro ⟨before, hb, rfl⟩
    cases before with
    | ok a => exact Or.inl ⟨a, hb, rfl⟩
    | error e => exact Or.inr ⟨e, hb, rfl⟩

theorem value_bind (a : α) (second : α → Results β) :
    bind (fun result => result = .ok a) second = second a := by
  funext result
  simp [bind]

theorem value_map (f : α → β) (a : α) :
    map f (fun result => result = .ok a) = fun result => result = .ok (f a) := by
  funext result
  simp [map, Except.map]

/-- Outcomes at growing limits that, once ended, stay as they are. -/
def Settles (outcomes : Nat → Outcome α) : Prop :=
  ∀ depth deeper, depth ≤ deeper → (outcomes depth).Refines (outcomes deeper)

theorem Settles.eq_of_le {outcomes : Nat → Outcome α} (h : Settles outcomes) {depth deeper : Nat}
    (hle : depth ≤ deeper) {result : Except Error α} (hr : outcomes depth = .ofExcept result) :
    outcomes deeper = .ofExcept result := by
  have hfinished : (outcomes depth).Finished := by
    rw [hr]
    exact Outcome.finished_ofExcept result
  rw [(h depth deeper hle).eq_of_finished hfinished, hr]

def ofLimits (outcomes : Nat → Outcome α) : Results α := fun result =>
  ∃ depth, outcomes depth = .ofExcept result

theorem ofLimits_const (result : Except Error α) :
    ofLimits (fun _ => .ofExcept result) = fun other => other = result := by
  funext other
  apply propext
  constructor
  · rintro ⟨_, h⟩
    exact (Outcome.ofExcept_injective h).symm
  · rintro rfl
    exact ⟨0, rfl⟩

theorem ofLimits_succ {outcomes : Nat → Outcome α} (h : Settles outcomes) :
    ofLimits (fun depth => outcomes (depth + 1)) = ofLimits outcomes := by
  funext result
  apply propext
  constructor
  · rintro ⟨depth, hr⟩
    exact ⟨depth + 1, hr⟩
  · rintro ⟨depth, hr⟩
    exact ⟨depth, h.eq_of_le (Nat.le_succ depth) hr⟩

/-- Two computations may need different limits, and at the larger one both have ended. -/
theorem ofLimits_bind {first : Nat → Outcome α} {second : Nat → α → Outcome β}
    (hfirst : Settles first) (hsecond : ∀ a, Settles fun depth => second depth a) :
    ofLimits (fun depth => first depth >>= second depth) =
      (ofLimits first).bind fun a => ofLimits fun depth => second depth a := by
  funext result
  apply propext
  constructor
  · rintro ⟨depth, hr⟩
    dsimp only at hr
    cases hf : first depth with
    | ok a =>
      rw [hf] at hr
      exact Or.inl ⟨a, ⟨depth, hf⟩, depth, hr⟩
    | error e =>
      rw [hf] at hr
      have he : result = .error e := Outcome.ofExcept_injective hr.symm
      exact Or.inr ⟨e, ⟨depth, hf⟩, he⟩
    | exhausted =>
      rw [hf] at hr
      exact absurd hr.symm (Outcome.finished_ofExcept result)
  · rintro (⟨a, ⟨m, hm⟩, n, hn⟩ | ⟨e, ⟨m, hm⟩, rfl⟩)
    · have hf := hfirst.eq_of_le (Nat.le_max_left m n) hm
      have hs := (hsecond a).eq_of_le (Nat.le_max_right m n) hn
      refine ⟨max m n, ?_⟩
      dsimp only
      rw [hf]
      exact hs
    · refine ⟨m, ?_⟩
      dsimp only
      rw [hm]
      rfl

end Results

namespace Dictionary

variable {d : Dictionary} {tokens : List Value} {c : Context} {unfreeze : Bool}

/-- What a routine ends with if its programs run with the words of a dictionary. -/
def Yields (d : Dictionary) (routine : Routine α) : Results α :=
  .ofLimits fun depth => routine.eval (d.run depth)

theorem settles_run (d : Dictionary) (tokens : List Value) (c : Context) (unfreeze : Bool) :
    Results.Settles fun depth => d.run depth tokens c unfreeze :=
  fun _ _ h => d.run_refines h tokens c unfreeze

theorem settles_eval (d : Dictionary) (routine : Routine α) :
    Results.Settles fun depth => routine.eval (d.run depth) :=
  fun _ _ h => Routine.eval_refines (d.run_refines h) routine

theorem yields_done (d : Dictionary) (result : Except Error α) :
    d.Yields (.done result) = fun other => other = result :=
  Results.ofLimits_const result

theorem yields_call {resume : Except Error Context → Routine α} {inner : Except Error Context}
    {result : Except Error α} (hrun : d.EndsWith tokens c unfreeze inner)
    (hr : d.Yields (resume inner) result) :
    d.Yields (.call tokens c unfreeze resume) result := by
  obtain ⟨m, hm⟩ := hrun
  obtain ⟨n, hn⟩ := hr
  have hrun' := (d.settles_run tokens c unfreeze).eq_of_le (Nat.le_max_left m n) hm
  have hr' := (d.settles_eval (resume inner)).eq_of_le (Nat.le_max_right m n) hn
  refine ⟨max m n, ?_⟩
  simp only [Routine.eval, hrun']
  cases inner <;> exact hr'

theorem yields_body (d : Dictionary) (tokens : List Value) (c : Context) :
    d.Yields (.body tokens c) = d.EndsWith tokens c false := by
  funext result
  simp only [Yields, Results.ofLimits, Routine.eval_body, EndsWith]

theorem yields_bind (d : Dictionary) (routine : Routine α) (f : α → Routine β) :
    d.Yields (routine >>= f) = (d.Yields routine).bind fun a => d.Yields (f a) := by
  have hlimits := Results.ofLimits_bind (d.settles_eval routine) fun a => d.settles_eval (f a)
  simpa only [Yields, Routine.eval_bind] using hlimits

theorem yields_bind_pure (d : Dictionary) (routine : Routine α) (f : α → β) :
    d.Yields (routine >>= fun a => pure (f a)) = Results.map f (d.Yields routine) := by
  have hpure : ∀ a, d.Yields (pure (f a)) = fun result => result = .ok (f a) :=
    fun a => d.yields_done (.ok (f a))
  rw [yields_bind]
  simp only [hpure, Results.bind_ok]

theorem endsWith_nil (d : Dictionary) (c : Context) :
    d.EndsWith [] c false = fun result => result = .ok c := by
  have hrun : (fun depth => d.run (depth + 1) [] c false) = fun _ => .ofExcept (.ok c) := by
    funext depth
    rw [run_succ_false, execute_nil]
    rfl
  have hlimits := Results.ofLimits_succ (d.settles_run [] c false)
  rw [hrun, Results.ofLimits_const] at hlimits
  exact hlimits.symm

theorem run_succ_cons {t : Value} {ts rest : List Value} {i : Instruction}
    (h : Instruction.read t ts = .ok (i, rest)) (d : Dictionary) (depth : Nat) (c : Context)
    (unfreeze : Bool) :
    d.run (depth + 1) (t :: ts) c unfreeze =
      d.perform (d.run depth) i c >>= fun next => d.run (depth + 1) rest next unfreeze := by
  simp only [run, execute_cons, h, Outcome.ofExcept, Outcome.ok_bind, bind_assoc]

theorem endsWith_push {t v : Value} {ts rest : List Value}
    (h : Instruction.read t ts = .ok (.push v, rest)) (d : Dictionary) (c : Context)
    (unfreeze : Bool) : d.EndsWith (t :: ts) c unfreeze = d.EndsWith rest (c.push v) unfreeze := by
  have hrun : (fun depth => d.run (depth + 1) (t :: ts) c unfreeze) =
      fun depth => d.run (depth + 1) rest (c.push v) unfreeze := by
    funext depth
    rw [run_succ_cons h]
    rfl
  have hleft := Results.ofLimits_succ (d.settles_run (t :: ts) c unfreeze)
  have hright := Results.ofLimits_succ (d.settles_run rest (c.push v) unfreeze)
  rw [hrun] at hleft
  exact hleft.symm.trans hright

/-- A word in a program has the results of its routine, and the tokens behind it go on from them. -/
theorem endsWith_invoke {t : Value} {ts rest : List Value} {name : String} {w : Word}
    (h : Instruction.read t ts = .ok (.invoke name, rest)) (hw : d.select name c = .ok w)
    (unfreeze : Bool) :
    d.EndsWith (t :: ts) c unfreeze =
      (d.Yields (w.apply c)).bind fun next => d.EndsWith rest next unfreeze := by
  have hrun : (fun depth => d.run (depth + 1) (t :: ts) c unfreeze) = fun depth =>
      (w.apply c).eval (d.run depth) >>= fun next => d.run (depth + 1) rest next unfreeze := by
    funext depth
    rw [run_succ_cons h, perform_invoke, hw]
    rfl
  have hsettles : ∀ next, Results.Settles fun depth => d.run (depth + 1) rest next unfreeze :=
    fun next _ _ hle => d.settles_run rest next unfreeze _ _ (Nat.succ_le_succ hle)
  have hrest : (fun next => Results.ofLimits fun depth => d.run (depth + 1) rest next unfreeze) =
      fun next => d.EndsWith rest next unfreeze :=
    funext fun next => Results.ofLimits_succ (d.settles_run rest next unfreeze)
  have hleft := Results.ofLimits_succ (d.settles_run (t :: ts) c unfreeze)
  rw [hrun, Results.ofLimits_bind (d.settles_eval (w.apply c)) hsettles, hrest] at hleft
  exact hleft.symm

end Dictionary

end StackWords
