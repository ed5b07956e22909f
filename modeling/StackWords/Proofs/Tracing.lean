import StackWords.Proofs.Sequencing

/-! # Traces and runs

Tracing and running a program are separate recursions over its instructions. They
fail alike, and the last step of a trace is the result of the run. Every other
step stands behind a first part of the program, and that part alone leads to the
context that the step shows.
-/
namespace StackWords.Dictionary

variable {d : Dictionary} {r : Runner} {tokens : List Value} {c : Context} {steps : List Step}

theorem record_cons_eq_ok {t : Value} {ts : List Value} (h : d.record r (t :: ts) c = .ok steps) :
    ∃ i rest next later, Instruction.read t ts = .ok (i, rest) ∧ d.perform r i c = .ok next ∧
      d.record r rest next = .ok later ∧ steps = ⟨t :: ts, c⟩ :: later := by
  rw [record_cons] at h
  cases hi : Instruction.read t ts with
  | error e =>
    rw [hi] at h
    cases h
  | ok step =>
    obtain ⟨i, rest⟩ := step
    rw [hi] at h
    simp only [Outcome.ofExcept, Outcome.ok_bind] at h
    obtain ⟨next, hp, h⟩ := Outcome.bind_eq_ok_iff.mp h
    obtain ⟨later, hrec, h⟩ := Outcome.bind_eq_ok_iff.mp h
    cases h
    exact ⟨i, rest, next, later, rfl, hp, hrec, rfl⟩

/-- A record ends as the execution does, with its last step in the place of the context. -/
theorem record_getLast? (d : Dictionary) (r : Runner) (tokens : List Value) (c : Context) :
    (d.record r tokens c >>= fun steps => .ok steps.getLast?) =
      d.execute r tokens c >>= fun after => .ok (some ⟨[], after.unfreeze⟩) := by
  induction tokens using Instruction.read_induction generalizing c with
  | nil =>
    rw [record_nil, execute_nil]
    rfl
  | cons t ts ih =>
    rw [record_cons, execute_cons]
    cases hi : Instruction.read t ts with
    | error e => rfl
    | ok step =>
      obtain ⟨i, rest⟩ := step
      simp only [Outcome.ofExcept, Outcome.ok_bind]
      cases d.perform r i c with
      | error e => rfl
      | exhausted => rfl
      | ok next =>
        have hrest := ih i rest hi next
        simp only [Outcome.ok_bind]
        rw [← hrest]
        -- The record of the rest has a last step, so one more in front does not change it.
        cases hrec : d.record r rest next with
        | error e => rfl
        | exhausted => rfl
        | ok later =>
          rw [hrec, Outcome.ok_bind] at hrest
          obtain ⟨after, -, hlast⟩ := Outcome.bind_eq_ok_iff.mp hrest.symm
          simp only [Outcome.ok.injEq] at hlast
          simp only [Outcome.ok_bind, List.getLast?_cons, ← hlast, Option.getD_some]

theorem record_ne_nil (h : d.record r tokens c = .ok steps) : steps ≠ [] := by
  intro hnil
  have hlast := d.record_getLast? r tokens c
  rw [h, hnil, Outcome.ok_bind] at hlast
  obtain ⟨after, -, hsome⟩ := Outcome.bind_eq_ok_iff.mp hlast.symm
  cases hsome

theorem record_head? (h : d.record r tokens c = .ok steps) (hne : tokens ≠ []) :
    steps.head? = some ⟨tokens, c⟩ := by
  cases tokens with
  | nil => exact absurd rfl hne
  | cons t ts =>
    obtain ⟨i, rest, next, later, -, -, -, rfl⟩ := record_cons_eq_ok h
    rfl

theorem record_suffix (h : d.record r tokens c = .ok steps) :
    ∀ step ∈ steps, step.remaining <:+ tokens := by
  induction tokens using Instruction.read_induction generalizing c steps with
  | nil =>
    rw [record_nil] at h
    cases h
    intro step hs
    cases List.mem_singleton.mp hs
    exact List.suffix_refl []
  | cons t ts ih =>
    obtain ⟨i, rest, next, later, hi, -, hrec, rfl⟩ := record_cons_eq_ok h
    obtain ⟨used, rfl, -⟩ := Instruction.read_eq_ok hi
    intro step hs
    rcases List.mem_cons.mp hs with rfl | hs
    · exact List.suffix_refl _
    · have hsuf := ih i rest hi hrec step hs
      exact hsuf.trans ((List.suffix_append used rest).trans (List.suffix_cons t _))

theorem record_decreasing (h : d.record r tokens c = .ok steps) :
    steps.Pairwise fun step later => later.remaining.length < step.remaining.length := by
  induction tokens using Instruction.read_induction generalizing c steps with
  | nil =>
    rw [record_nil] at h
    cases h
    exact List.pairwise_singleton _ _
  | cons t ts ih =>
    obtain ⟨i, rest, next, later, hi, -, hrec, rfl⟩ := record_cons_eq_ok h
    refine List.pairwise_cons.mpr ⟨?_, ih i rest hi hrec⟩
    intro step hs
    have hle := (record_suffix hrec step hs).length_le
    have hrest := Instruction.length_read_le hi
    simp only [List.length_cons]
    omega

/-- The tokens in front of a step run alone as they do inside the whole program. -/
theorem record_reached (h : d.record r tokens c = .ok steps) :
    ∀ step ∈ steps.dropLast, ∃ front, tokens = front ++ step.remaining ∧
      d.execute r front c = .ok step.context := by
  induction tokens using Instruction.read_induction generalizing c steps with
  | nil =>
    rw [record_nil] at h
    cases h
    intro step hs
    cases hs
  | cons t ts ih =>
    obtain ⟨i, rest, next, later, hi, hp, hrec, rfl⟩ := record_cons_eq_ok h
    intro step hs
    rw [List.dropLast_cons_of_ne_nil (record_ne_nil hrec)] at hs
    rcases List.mem_cons.mp hs with rfl | hs
    · exact ⟨[], rfl, execute_nil d r c⟩
    · obtain ⟨front, hrest, he⟩ := ih i rest hi hrec step hs
      obtain ⟨used, rfl, hmore⟩ := Instruction.read_eq_ok hi
      refine ⟨t :: (used ++ front), ?_, ?_⟩
      · rw [hrest, List.cons_append, List.append_assoc]
      · exact execute_cons_eq_ok_iff.mpr ⟨i, front, next, hmore front, hp, he⟩

theorem trace_getLast? (d : Dictionary) (depth : Nat) (tokens : List Value) (c : Context) :
    (d.trace depth tokens c >>= fun steps => .ok steps.getLast?) =
      d.run depth tokens c true >>= fun after => .ok (some ⟨[], after⟩) := by
  cases depth with
  | zero => rfl
  | succ depth =>
    rw [run_true, run_succ_false, trace, record_getLast?]
    cases d.execute (d.run depth) tokens c <;> rfl

/-- What the steps of a trace have to do with the runs of a program and of its first parts. -/
structure TraceOf (d : Dictionary) (tokens : List Value) (c : Context) (steps : List Step) :
    Prop where
  last : ∃ after, steps.getLast? = some ⟨[], after⟩ ∧ d.EndsWith tokens c true (.ok after)
  first : tokens ≠ [] → steps.head? = some ⟨tokens, c⟩
  suffix : ∀ step ∈ steps, step.remaining <:+ tokens
  decreasing : steps.Pairwise fun step later => later.remaining.length < step.remaining.length
  reached : ∀ step ∈ steps.dropLast, ∃ front, tokens = front ++ step.remaining ∧
    d.EndsWith front c false (.ok step.context)

theorem traceOf_of_tracesTo (h : d.TracesTo tokens c (.ok steps)) : d.TraceOf tokens c steps := by
  obtain ⟨depth, h⟩ := h
  have hlast := d.trace_getLast? depth tokens c
  rw [h] at hlast
  obtain ⟨after, hrun, hok⟩ := Outcome.bind_eq_ok_iff.mp hlast.symm
  cases depth with
  | zero => cases h
  | succ depth =>
    refine ⟨⟨after, ?_, depth + 1, hrun⟩, record_head? h, record_suffix h, record_decreasing h, ?_⟩
    · simpa using hok.symm
    · intro step hs
      obtain ⟨front, hf, he⟩ := record_reached h step hs
      exact ⟨front, hf, depth + 1, by rw [run_succ_false, he]; rfl⟩

/-- A trace is faithful: it comes about just when the run ends well, fails just as the run fails,
and shows what the run and its first parts lead to. -/
theorem trace_faithful (d : Dictionary) (tokens : List Value) (c : Context) :
    ((∃ steps, d.TracesTo tokens c (.ok steps)) ↔ ∃ after, d.EndsWith tokens c true (.ok after)) ∧
    (∀ e, d.TracesTo tokens c (.error e) ↔ d.EndsWith tokens c true (.error e)) ∧
    ∀ steps, d.TracesTo tokens c (.ok steps) → d.TraceOf tokens c steps := by
  refine ⟨⟨?_, ?_⟩, ?_, fun steps h => traceOf_of_tracesTo h⟩
  · rintro ⟨steps, h⟩
    obtain ⟨after, -, hrun⟩ := (traceOf_of_tracesTo h).last
    exact ⟨after, hrun⟩
  · rintro ⟨after, depth, h⟩
    have hlast := d.trace_getLast? depth tokens c
    rw [h] at hlast
    obtain ⟨steps, htrace, -⟩ := Outcome.bind_eq_ok_iff.mp hlast
    exact ⟨steps, depth, htrace⟩
  · intro e
    constructor
    · rintro ⟨depth, h⟩
      have hlast := d.trace_getLast? depth tokens c
      rw [h] at hlast
      exact ⟨depth, Outcome.bind_ok_eq_error_iff.mp hlast.symm⟩
    · rintro ⟨depth, h⟩
      have hlast := d.trace_getLast? depth tokens c
      rw [h] at hlast
      exact ⟨depth, Outcome.bind_ok_eq_error_iff.mp hlast⟩

end StackWords.Dictionary
