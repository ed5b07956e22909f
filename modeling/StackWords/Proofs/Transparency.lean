import StackWords.Proofs.Coupled

/-! # Words that hand failures on

A word that runs programs ends with the failure of a program as it is, unless it is a
macro. A routine with this property does the same whether or not the programs that it
runs say where their failures arose.
-/
namespace StackWords

variable {α β : Type}

def Error.bare (e : Error) : Error := { cause := e.cause }

theorem Error.bare_eq {e : Error} (h : e.trail = none) : e.bare = e := by
  cases e
  cases h
  rfl

/-- A routine that passes the failures of its programs on as they are; its own have no trail. -/
inductive Routine.Transparent : Routine α → Prop where
  | done {result : Except Error α} (h : ∀ e, result = .error e → e.trail = none) :
      Transparent (.done result)
  | call {tokens : List Value} {c : Context} {unfreeze : Bool}
      {resume : Except Error Context → Routine α}
      (herror : ∀ e, resume (.error e) = .done (.error e))
      (hok : ∀ after, Transparent (resume (.ok after))) :
      Transparent (.call tokens c unfreeze resume)

namespace Routine.Transparent

theorem pure (a : α) : (pure a : Routine α).Transparent := .done fun _ h => nomatch h

theorem body (tokens : List Value) (c : Context) : (Routine.body tokens c).Transparent :=
  .call (fun _ => rfl) fun _ => .done fun _ h => nomatch h

theorem bind {r : Routine α} {f : α → Routine β} (hr : r.Transparent)
    (hf : ∀ a, (f a).Transparent) : (r >>= f).Transparent := by
  induction hr with
  | @done result h =>
    cases result with
    | ok a => exact hf a
    | error e => exact .done fun e' he => h e' (by cases he; rfl)
  | @call tokens c unfreeze resume herror _ ih =>
    refine .call (fun e => ?_) ih
    rw [herror]
    rfl

/-- If the failures of all programs lose their trails, so do those of the routine. -/
theorem eval_bare {r : Routine α} (h : r.Transparent) {runner bared : Runner}
    (hrun : ∀ tokens c unfreeze,
      bared tokens c unfreeze = (runner tokens c unfreeze).mapError Error.bare) :
    r.eval bared = (r.eval runner).mapError Error.bare := by
  induction h with
  | @done result h =>
    cases result with
    | ok a => rfl
    | error e =>
      have hbare := Error.bare_eq (h e rfl)
      simp only [eval_done, Outcome.ofExcept, Outcome.mapError, hbare]
  | @call tokens c unfreeze resume herror _ ih =>
    rw [eval, eval, hrun]
    cases runner tokens c unfreeze with
    | ok after => exact ih after
    | error e =>
      simp only [Outcome.mapError, herror]
      rfl
    | exhausted => rfl

end Routine.Transparent

namespace Standard

variable {c : Context}

theorem trail_of_lookup {key : Value} {e : Error} (h : lookup c key = .error e) :
    e.trail = none := by
  simp only [lookup, underflow] at h
  split at h
  · next name _ =>
    cases hv : c.vars.get? name with
    | none =>
      rw [hv] at h
      cases h
      rfl
    | some v =>
      rw [hv] at h
      cases h
  · cases h
    rfl

theorem trail_of_bind {key value : Value} {rest : Stack} {e : Error}
    (h : bind c key value rest = .error e) : e.trail = none := by
  simp only [bind, underflow] at h
  split at h <;> cases h
  rfl

theorem bindingWords_transparent : ∀ w ∈ bindingWords, ∀ c, (w.apply c).Transparent := by
  intro w hw c
  simp only [bindingWords, List.mem_cons, List.not_mem_nil, or_false] at hw
  rcases hw with rfl | rfl | rfl | rfl
  · exact .pure c.freeze
  · refine .done fun e he => ?_
    simp only [get, underflow] at he
    split at he
    · next key rest _ =>
      cases hl : lookup c key with
      | ok v => simp [hl, Except.map] at he
      | error e' =>
        rw [hl] at he
        cases he
        exact trail_of_lookup hl
    · cases he
      rfl
  · refine .done fun e he => ?_
    simp only [set, underflow] at he
    split at he
    · exact trail_of_bind he
    · cases he
      rfl
  · refine .done fun e he => ?_
    simp only [setSwapped, underflow] at he
    split at he
    · exact trail_of_bind he
    · cases he
      rfl

theorem underflow_transparent (word : String) :
    (Routine.ofExcept (underflow word) : Routine Context).Transparent := by
  refine .done fun e he => ?_
  cases he
  rfl

theorem call_transparent (c : Context) : (call c).Transparent := by
  unfold call
  split
  · exact .body _ _
  · exact underflow_transparent _

theorem foldlM_body_transparent (body items : List Value) (c : Context) :
    (items.foldlM (fun c item => Routine.body body (c.push item)) c).Transparent := by
  induction items generalizing c with
  | nil => exact .pure c
  | cons item items ih =>
    rw [List.foldlM_cons]
    exact (Routine.Transparent.body _ _).bind ih

theorem each_transparent (c : Context) : (each c).Transparent := by
  unfold each
  split
  · exact foldlM_body_transparent _ _ _
  · exact underflow_transparent _

theorem mapItems_transparent (c : Context) (body items : List Value) (vars : Variables)
    (collected : Stack) : (mapItems c body items vars collected).Transparent := by
  induction items generalizing vars collected with
  | nil => exact .pure _
  | cons item items ih =>
    have hitem : (mapItem c body vars item).Transparent :=
      (Routine.Transparent.body _ _).bind fun _ => .pure _
    exact hitem.bind fun p => ih p.1 (p.2 ++ collected)

theorem map_transparent (c : Context) : (map c).Transparent := by
  unfold map
  split
  · exact (mapItems_transparent _ _ _ _ _).bind fun _ => .pure _
  · exact underflow_transparent _

theorem callNamed_transparent (c : Context) : (callNamed c).Transparent := by
  unfold callNamed
  split
  · next key rest _ =>
    split
    · exact .body _ _
    · exact .pure _
    · next e hl => exact .done fun e' he => by cases he; exact trail_of_lookup hl
  · exact underflow_transparent _

theorem transparent_of_simplyRaises {w : Word} (h : w.SimplyRaises fun e => e.trail = none)
    {c : Context} (ha : w.accepts c.stack) : (w.apply c).Transparent := by
  obtain ⟨f, hf, hraise⟩ := h
  simp only [Word.apply, hf, Action.apply]
  refine .done fun e he => ?_
  cases hs : f c.stack with
  | ok stack => simp [hs, Except.map] at he
  | error e' =>
    rw [hs] at he
    cases he
    exact hraise c.stack e ha hs

theorem quotationWords_transparent :
    ∀ w ∈ quotationWords, ∀ c : Context, w.accepts c.stack → (w.apply c).Transparent := by
  intro w hw c ha
  simp only [quotationWords, List.mem_cons, List.not_mem_nil, or_false] at hw
  rcases hw with rfl | rfl | rfl | rfl | rfl | rfl
  · exact transparent_of_simplyRaises (simplyRaises_of_succeeds fun _ _ => ⟨_, rfl⟩) ha
  · exact transparent_of_simplyRaises (simplyRaises_of_succeeds fun _ => listMany_succeeds) ha
  · exact call_transparent c
  · exact each_transparent c
  · exact map_transparent c
  · exact callNamed_transparent c

/-- A standard word is a macro or passes the failures of its programs on as they are. -/
theorem words_transparent : ∀ w ∈ words, w.IsMacro ∨
    ∀ c : Context, w.accepts c.stack → (w.apply c).Transparent := by
  intro w hw
  simp only [words, List.mem_append] at hw
  rcases hw with ((hw | hw) | hw) | hw
  · obtain ⟨f, hf, hraise⟩ := shuffleWords_simplyRaise w hw
    refine Or.inr fun c ha => transparent_of_simplyRaises ⟨f, hf, ?_⟩ ha
    intro stack e ha he
    obtain ⟨index, size, rfl⟩ := hraise stack e ha he
    rfl
  · exact Or.inr fun c _ => bindingWords_transparent w hw c
  · exact Or.inr fun c ha => quotationWords_transparent w hw c ha
  · simp only [derivedWords, List.mem_cons, List.not_mem_nil, or_false] at hw
    rcases hw with rfl | rfl | rfl <;> exact Or.inl ⟨_, _, _, rfl⟩

end Standard

/-- A standard word with a stability and examples of its own, a macro, or a word that changes the
stack only and raises errors without a trail. -/
def Word.IsCandid (w : Word) : Prop :=
  (∃ base ∈ Standard.words, ∃ (stable : Bool) (examples : List String),
    w = { base with stable, examples }) ∨ w.IsMacro ∨ w.SimplyRaises fun e => e.trail = none

def Word.Reports (w : Word) (c : Context) : Prop := w.IsMacro ∨ (w.apply c).Transparent

theorem Word.IsCandid.reports {w : Word} (h : w.IsCandid) {c : Context}
    (ha : w.accepts c.stack) : w.Reports c := by
  rcases h with ⟨base, hbase, stable, examples, rfl⟩ | hm | hs
  · rcases Standard.words_transparent base hbase with ⟨m, stable', examples', rfl⟩ | ht
    · exact Or.inl ⟨m, stable, examples, rfl⟩
    · exact Or.inr (ht c ha)
  · exact Or.inl hm
  · exact Or.inr (Standard.transparent_of_simplyRaises hs ha)

/-- Every word that is selected is a macro or hands failures on. -/
def Dictionary.Reports (d : Dictionary) : Prop :=
  ∀ name c w, d.select name c = .ok w → w.Reports c

theorem Dictionary.reports_ofWords {ws : List Word} (hw : ∀ w ∈ ws, w.IsCandid) :
    (ofWords ws).Reports :=
  fun _ _ w hs => (hw w (mem_of_select_ofWords hs)).reports (accepts_of_select hs)

end StackWords
