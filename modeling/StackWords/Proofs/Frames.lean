import StackWords.Proofs.Gate
import StackWords.Proofs.Results
import StackWords.Proofs.Sequencing
import StackWords.Proofs.Transparency

/-! # Macros around a failure

A failure that comes out of a macro is recorded under its name, and the other words
hand the failures of their programs on untouched. So the names in the trail of an
error are those of the macros whose bodies were being run when it arose. These are
told here by a relation of its own, which keeps the running macros on the way down
and does not look at trails.
-/
namespace StackWords

variable {α : Type}

/-- A word, and the same word without a record of failures if it is a macro. -/
inductive Word.Unframed : Word → Word → Prop where
  | ofMacro (m : Macro) (stable : Bool) (examples : List String) :
      Unframed { m.toWord with stable, examples }
        { m.toWord with stable, examples, action := .onContext fun c => .body m.body c }
  | other {w : Word} (h : ¬ w.IsMacro) : Unframed w w

theorem Word.not_isMacro_of_done {w : Word} {result : Except Error Context}
    (h : w.apply {} = .done result) : ¬ w.IsMacro := by
  rintro ⟨m, stable, examples, rfl⟩
  cases h

theorem Standard.quotationWords_unframed :
    List.Forall₂ Word.Unframed quotationWords quotationWords := by
  refine List.forall₂_same.mpr fun w hw => .other ?_
  simp only [quotationWords, List.mem_cons, List.not_mem_nil, or_false] at hw
  rcases hw with rfl | rfl | rfl | rfl | rfl | rfl <;> exact Word.not_isMacro_of_done rfl

theorem Word.Unframed.alike {w w' : Word} (h : w.Unframed w') : w.Alike w' := by
  cases h <;> exact ⟨rfl, rfl, rfl, rfl⟩

theorem Word.Unframed.eval_bare {w w' : Word} (h : w.Unframed w') {c : Context}
    (hw : w.Reports c) {runner bared : Runner}
    (hrun : ∀ tokens c unfreeze,
      bared tokens c unfreeze = (runner tokens c unfreeze).mapError Error.bare) :
    (w'.apply c).eval bared = ((w.apply c).eval runner).mapError Error.bare := by
  cases h with
  | ofMacro m stable examples =>
    have hbody : ((Routine.body m.body c).eval bared) =
        ((m.invoke c).eval runner).mapError Error.bare := by
      rw [Routine.eval_body, hrun, Macro.eval_invoke]
      cases runner m.body c false <;> rfl
    exact hbody
  | other hm =>
    rcases hw with hm' | ht
    · exact absurd hm' hm
    · exact ht.eval_bare hrun

theorem Instruction.trail_of_read {t : Value} {ts : List Value} {e : Error}
    (h : read t ts = .error e) : e.trail = none := by
  rcases read_eq_error h with ⟨rfl, hc⟩ | rfl
  · rw [read_openList hc] at h
    cases h
    rfl
  · rw [read_listEnd] at h
    cases h
    rfl

namespace Dictionary

theorem trail_of_select {d : Dictionary} {name : String} {c : Context} {e : Error}
    (h : d.select name c = .error e) : e.trail = none := by
  unfold select at h
  simp only at h
  split at h
  · cases h
    rfl
  · split at h
    · cases h
      rfl
    · split at h <;> cases h
      rfl

variable {ws ws' : List Word}

theorem perform_bare (hd : (ofWords ws).Reports) (h : List.Forall₂ Word.Unframed ws ws')
    {runner bared : Runner}
    (hrun : ∀ tokens c unfreeze,
      bared tokens c unfreeze = (runner tokens c unfreeze).mapError Error.bare)
    (i : Instruction) (c : Context) :
    (ofWords ws').perform bared i c =
      ((ofWords ws).perform runner i c).mapError Error.bare := by
  cases i with
  | push v => rfl
  | invoke name =>
    rw [perform_invoke, perform_invoke]
    have hsel := select_alike Word.Unframed.alike h name c
    cases hs : (ofWords ws).select name c with
    | error e =>
      rw [hs] at hsel
      obtain ⟨_, hs', rfl⟩ := hsel
      rw [hs']
      simp only [Outcome.ofExcept, Outcome.error_bind, Outcome.mapError,
        Error.bare_eq (trail_of_select hs)]
    | ok w =>
      rw [hs] at hsel
      obtain ⟨w', hs', hww⟩ := hsel
      rw [hs']
      exact hww.eval_bare (hd name c w hs) hrun

theorem execute_bare (hd : (ofWords ws).Reports) (h : List.Forall₂ Word.Unframed ws ws')
    {runner bared : Runner}
    (hrun : ∀ tokens c unfreeze,
      bared tokens c unfreeze = (runner tokens c unfreeze).mapError Error.bare)
    (tokens : List Value) (c : Context) :
    (ofWords ws').execute bared tokens c =
      ((ofWords ws).execute runner tokens c).mapError Error.bare := by
  induction tokens using Instruction.read_induction generalizing c with
  | nil =>
    rw [execute_nil, execute_nil]
    rfl
  | cons t ts ih =>
    rw [execute_cons, execute_cons]
    cases hi : Instruction.read t ts with
    | error e =>
      simp only [Outcome.ofExcept, Outcome.error_bind, Outcome.mapError,
        Error.bare_eq (Instruction.trail_of_read hi)]
    | ok step =>
      obtain ⟨i, rest⟩ := step
      simp only [Outcome.ofExcept, Outcome.ok_bind, perform_bare hd h hrun]
      cases (ofWords ws).perform runner i c with
      | ok next => exact ih i rest hi next
      | error e => rfl
      | exhausted => rfl

/-- Without a record of failures in macros every run is the same but for the trails of errors. -/
theorem run_bare (hd : (ofWords ws).Reports) (h : List.Forall₂ Word.Unframed ws ws')
    (depth : Nat) (tokens : List Value) (c : Context) (unfreeze : Bool) :
    (ofWords ws').run depth tokens c unfreeze =
      ((ofWords ws).run depth tokens c unfreeze).mapError Error.bare := by
  induction depth generalizing tokens c unfreeze with
  | zero => rfl
  | succ depth ih =>
    simp only [run, execute_bare hd h ih]
    cases (ofWords ws).execute ((ofWords ws).run depth) tokens c <;> rfl

theorem endsWith_bare (hd : (ofWords ws).Reports) (h : List.Forall₂ Word.Unframed ws ws')
    {tokens : List Value} {c : Context} {unfreeze : Bool} {result : Except Error Context} :
    (ofWords ws').EndsWith tokens c unfreeze result ↔
      ∃ framed, (ofWords ws).EndsWith tokens c unfreeze framed ∧
        result = framed.mapError Error.bare := by
  constructor
  · rintro ⟨depth, hr⟩
    rw [run_bare hd h] at hr
    obtain ⟨framed, hf, rfl⟩ := Outcome.eq_ofExcept_of_mapError hr
    exact ⟨framed, ⟨depth, hf⟩, rfl⟩
  · rintro ⟨framed, ⟨depth, hf⟩, rfl⟩
    refine ⟨depth, ?_⟩
    rw [run_bare hd h, hf]
    cases framed <;> rfl

end Dictionary

def Trail.ofFrames? (frames : List String) : Option Trail :=
  if frames = [] then none else some { frames }

theorem Trail.ofFrames?_injective {a b : List String} (h : ofFrames? a = ofFrames? b) : a = b := by
  unfold ofFrames? at h
  split at h <;> split at h
  · next ha hb => rw [ha, hb]
  · cases h
  · cases h
  · cases h
    rfl

theorem Error.trail_inFrame {e : Error} {frames : List String}
    (h : e.trail = Trail.ofFrames? frames) (frame : String) :
    (e.inFrame frame).trail = Trail.ofFrames? (frame :: frames) := by
  cases frames with
  | nil => simp [inFrame, h, Trail.ofFrames?]
  | cons first frames => simp [inFrame, h, Trail.ofFrames?]

namespace Dictionary

variable {d : Dictionary}

/-- A routine goes on to another one while the programs that it runs end well. -/
inductive Reaches (d : Dictionary) : Routine α → Routine α → Prop where
  | refl (r : Routine α) : Reaches d r r
  | resume {tokens : List Value} {c after : Context} {unfreeze : Bool}
      {resume : Except Error Context → Routine α} {r : Routine α}
      (hrun : d.EndsWith tokens c unfreeze (.ok after)) (hr : Reaches d (resume (.ok after)) r) :
      Reaches d (.call tokens c unfreeze resume) r

theorem Reaches.transparent {r s : Routine α} (h : d.Reaches r s) (hr : r.Transparent) :
    s.Transparent := by
  induction h with
  | refl r => exact hr
  | @resume _ _ after _ _ _ _ _ ih =>
    cases hr with
    | call _ hok => exact ih (hok after)

theorem Reaches.yields {r s : Routine α} (h : d.Reaches r s) {result : Except Error α}
    (hs : d.Yields s result) : d.Yields r result := by
  induction h with
  | refl r => exact hs
  | resume hrun _ ih => exact yields_call hrun (ih hs)

/-- A transparent routine fails by itself or with the failure of a program that it reaches. -/
theorem exists_reaches_of_eval_error {r : Routine α} (hr : r.Transparent) {depth : Nat}
    {e : Error} (h : r.eval (d.run depth) = .error e) :
    d.Reaches r (.done (.error e)) ∨
      ∃ tokens c unfreeze resume, d.Reaches r (.call tokens c unfreeze resume) ∧
        d.run depth tokens c unfreeze = .error e := by
  induction hr with
  | @done result _ =>
    have hresult : result = .error e := Outcome.ofExcept_injective h
    rw [hresult]
    exact Or.inl (.refl _)
  | @call tokens c unfreeze resume herror _ ih =>
    rw [Routine.eval] at h
    cases hrun : d.run depth tokens c unfreeze with
    | exhausted =>
      rw [hrun] at h
      cases h
    | error e' =>
      rw [hrun] at h
      simp only [herror] at h
      cases h
      exact Or.inr ⟨tokens, c, unfreeze, resume, .refl _, hrun⟩
    | ok after =>
      rw [hrun] at h
      have hends : d.EndsWith tokens c unfreeze (.ok after) := ⟨depth, hrun⟩
      rcases ih after h with hdone | ⟨tokens', c', unfreeze', resume', hreach, hrun'⟩
      · exact Or.inl (.resume hends hdone)
      · exact Or.inr ⟨tokens', c', unfreeze', resume', .resume hends hreach, hrun'⟩

/-- A program comes to a token that fails, for a cause. The macros in front are those whose bodies
are being run when the program starts, the macros behind those whose bodies are being run at that
token, in both cases outermost first. -/
inductive FailsAt (d : Dictionary) :
    List String → List Value → Context → Cause → List String → Prop where
  -- The token is no instruction.
  | unread {active : List String} {t : Value} {ts : List Value} {c : Context} {e : Error}
      (hread : Instruction.read t ts = .error e) : FailsAt d active (t :: ts) c e.cause active
  -- No word can be run under the name.
  | unselected {active : List String} {t : Value} {ts rest : List Value} {c : Context}
      {name : String} {e : Error} (hread : Instruction.read t ts = .ok (.invoke name, rest))
      (hsel : d.select name c = .error e) : FailsAt d active (t :: ts) c e.cause active
  -- The word itself fails.
  | raised {active : List String} {t : Value} {ts rest : List Value} {c : Context}
      {name : String} {w : Word} {e : Error}
      (hread : Instruction.read t ts = .ok (.invoke name, rest)) (hsel : d.select name c = .ok w)
      (hreach : d.Reaches (w.apply c) (.done (.error e))) :
      FailsAt d active (t :: ts) c e.cause active
  -- A program that the word runs fails, and the word is not a macro.
  | inProgram {active chain : List String} {t : Value} {ts rest inner : List Value}
      {c before : Context} {name : String} {w : Word} {unfreeze : Bool}
      {resume : Except Error Context → Routine Context} {cause : Cause}
      (hread : Instruction.read t ts = .ok (.invoke name, rest)) (hsel : d.select name c = .ok w)
      (hplain : ¬ w.IsMacro) (hreach : d.Reaches (w.apply c) (.call inner before unfreeze resume))
      (hinner : FailsAt d active inner before cause chain) :
      FailsAt d active (t :: ts) c cause chain
  -- The word is a macro, and its body fails.
  | inMacro {active chain : List String} {t : Value} {ts rest : List Value} {c : Context}
      {name : String} {m : Macro} {stable : Bool} {examples : List String} {cause : Cause}
      (hread : Instruction.read t ts = .ok (.invoke name, rest))
      (hsel : d.select name c = .ok { m.toWord with stable, examples })
      (hbody : FailsAt d (active ++ [m.name]) m.body c cause chain) :
      FailsAt d active (t :: ts) c cause chain
  -- The tokens in front end well.
  | later {active chain : List String} {front rest : List Value} {c next : Context} {cause : Cause}
      (hfront : d.EndsWith front c false (.ok next))
      (hrest : FailsAt d active rest next cause chain) :
      FailsAt d active (front ++ rest) c cause chain

theorem endsWith_unselected {t : Value} {ts rest : List Value} {name : String} {c : Context}
    {e : Error} (h : Instruction.read t ts = .ok (.invoke name, rest))
    (hsel : d.select name c = .error e) : d.EndsWith (t :: ts) c false (.error e) := by
  refine ⟨1, ?_⟩
  rw [run_succ_false, execute_cons, h]
  simp only [Outcome.ofExcept, Outcome.ok_bind, perform_invoke, hsel]
  rfl

theorem endsWith_of_yields_error {t : Value} {ts rest : List Value} {name : String} {w : Word}
    {c : Context} {e : Error} (h : Instruction.read t ts = .ok (.invoke name, rest))
    (hsel : d.select name c = .ok w) (hy : d.Yields (w.apply c) (.error e)) :
    d.EndsWith (t :: ts) c false (.error e) := by
  rw [endsWith_invoke h hsel]
  exact Or.inr ⟨e, hy, rfl⟩

theorem not_reaches_error_of_invoke {m : Macro} {c : Context} {e : Error} :
    ¬ d.Reaches (m.invoke c) (.done (.error e)) := by
  intro h
  cases h with
  | resume _ hr => cases hr

theorem yields_invoke_error {m : Macro} {c : Context} {e : Error}
    (h : d.EndsWith m.body c false (.error e)) :
    d.Yields (m.invoke c) (.error (e.inFrame m.name)) := by
  refine yields_call h ?_
  rw [yields_done]
  rfl

theorem Reaches.yields_error {r : Routine α} (hr : r.Transparent) {tokens : List Value}
    {c : Context} {unfreeze : Bool} {resume : Except Error Context → Routine α} {e : Error}
    (hreach : d.Reaches r (.call tokens c unfreeze resume))
    (h : d.EndsWith tokens c unfreeze (.error e)) : d.Yields r (.error e) := by
  have hcall := hreach.transparent hr
  cases hcall with
  | call herror _ =>
    refine hreach.yields (yields_call h ?_)
    rw [herror, yields_done]

/-- Where a program fails it ends, and its trail has the macros entered since it started. -/
theorem FailsAt.endsWith (hd : d.Reports)
    {active chain : List String} {tokens : List Value} {c : Context} {cause : Cause}
    (h : d.FailsAt active tokens c cause chain) :
    ∃ entered, chain = active ++ entered ∧
      d.EndsWith tokens c false (.error ⟨cause, Trail.ofFrames? entered⟩) := by
  have hbare : ∀ {e : Error}, e.trail = none → ⟨e.cause, Trail.ofFrames? []⟩ = e :=
    fun he => Error.bare_eq he
  induction h with
  | unread hread =>
    refine ⟨[], (List.append_nil _).symm, ?_⟩
    rw [hbare (Instruction.trail_of_read hread)]
    exact d.endsWith_unread hread _
  | unselected hread hsel =>
    refine ⟨[], (List.append_nil _).symm, ?_⟩
    rw [hbare (trail_of_select hsel)]
    exact endsWith_unselected hread hsel
  | @raised _ _ _ _ c name w e hread hsel hreach =>
    have htrail : e.trail = none := by
      rcases hd name c w hsel with ⟨m, stable, examples, rfl⟩ | ht
      · exact absurd hreach not_reaches_error_of_invoke
      · cases hreach.transparent ht with
        | done h => exact h e rfl
    refine ⟨[], (List.append_nil _).symm, ?_⟩
    rw [hbare htrail]
    exact endsWith_of_yields_error hread hsel (hreach.yields (by rw [yields_done]))
  | @inProgram _ _ _ _ _ _ c _ name w _ _ _ hread hsel hplain hreach _ ih =>
    obtain ⟨entered, hchain, hinner⟩ := ih
    have ht : (w.apply c).Transparent := (hd name c w hsel).resolve_left hplain
    have hy := hreach.yields_error ht (endsWith_error_iff.mpr hinner)
    exact ⟨entered, hchain, endsWith_of_yields_error hread hsel hy⟩
  | @inMacro active _ _ _ _ c _ m _ _ cause hread hsel _ ih =>
    obtain ⟨entered, rfl, hbody⟩ := ih
    refine ⟨m.name :: entered, List.append_assoc .., ?_⟩
    have hframed : (⟨cause, Trail.ofFrames? (m.name :: entered)⟩ : Error) =
        Error.inFrame ⟨cause, Trail.ofFrames? entered⟩ m.name := by
      rw [← Error.trail_inFrame (e := ⟨cause, Trail.ofFrames? entered⟩) rfl m.name]
      rfl
    rw [hframed]
    exact endsWith_of_yields_error hread hsel (yields_invoke_error hbody)
  | later hfront _ ih =>
    obtain ⟨entered, hchain, hrest⟩ := ih
    exact ⟨entered, hchain, hfront.append hrest⟩

/-- A failure is one that the relation tells of, and its trail has the macros entered since the
program started. -/
def Located (d : Dictionary) (active : List String) (tokens : List Value) (c : Context)
    (e : Error) : Prop :=
  ∃ entered, e.trail = Trail.ofFrames? entered ∧
    d.FailsAt active tokens c e.cause (active ++ entered)

theorem FailsAt.located {active : List String} {tokens : List Value} {c : Context} {e : Error}
    (h : d.FailsAt active tokens c e.cause active) (htrail : e.trail = none) :
    d.Located active tokens c e := by
  refine ⟨[], htrail, ?_⟩
  rw [List.append_nil]
  exact h

def Locates (d : Dictionary) (depth : Nat) : Prop :=
  ∀ tokens c e, d.run depth tokens c false = .error e → ∀ active, d.Located active tokens c e

section

variable {depth : Nat} {t : Value} {ts rest : List Value} {name : String} {c : Context}
  {e : Error}

theorem Locates.invoke_macro (hl : d.Locates depth) {m : Macro} {stable : Bool}
    {examples : List String} (hread : Instruction.read t ts = .ok (.invoke name, rest))
    (hsel : d.select name c = .ok { m.toWord with stable, examples })
    (h : (m.invoke c).eval (d.run depth) = .error e) (active : List String) :
    d.Located active (t :: ts) c e := by
  rw [Macro.eval_invoke] at h
  cases hbody : d.run depth m.body c false with
  | ok after =>
    rw [hbody] at h
    cases h
  | exhausted =>
    rw [hbody] at h
    cases h
  | error e' =>
    rw [hbody] at h
    cases h
    obtain ⟨entered, htrail, hfails⟩ := hl m.body c e' hbody (active ++ [m.name])
    rw [List.append_assoc] at hfails
    exact ⟨m.name :: entered, Error.trail_inFrame htrail m.name, .inMacro hread hsel hfails⟩

theorem Locates.invoke (hl : d.Locates depth) {w : Word}
    (hread : Instruction.read t ts = .ok (.invoke name, rest)) (hsel : d.select name c = .ok w)
    (hw : w.Reports c) (h : (w.apply c).eval (d.run depth) = .error e) (active : List String) :
    d.Located active (t :: ts) c e := by
  by_cases hm : w.IsMacro
  · obtain ⟨m, stable, examples, rfl⟩ := hm
    exact hl.invoke_macro hread hsel h active
  · have ht : (w.apply c).Transparent := hw.resolve_left hm
    rcases exists_reaches_of_eval_error ht h with hreach | ⟨inner, before, unfreeze, _, hreach, hi⟩
    · cases hreach.transparent ht with
      | done htrail => exact (FailsAt.raised hread hsel hreach).located (htrail e rfl)
    · obtain ⟨entered, htrail, hfails⟩ := hl inner before e (run_error_iff.mp hi) active
      exact ⟨entered, htrail, .inProgram hread hsel hm hreach hfails⟩

theorem Locates.perform (hd : d.Reports) (hl : d.Locates depth) {i : Instruction}
    (hread : Instruction.read t ts = .ok (i, rest))
    (h : d.perform (d.run depth) i c = .error e) (active : List String) :
    d.Located active (t :: ts) c e := by
  cases i with
  | push v => cases h
  | invoke name =>
    rw [perform_invoke] at h
    cases hsel : d.select name c with
    | error e' =>
      rw [hsel] at h
      cases h
      exact (FailsAt.unselected hread hsel).located (trail_of_select hsel)
    | ok w =>
      rw [hsel] at h
      exact hl.invoke hread hsel (hd name c w hsel) h active

/-- The tokens of an instruction that was carried out are a program that ends well. -/
theorem exists_endsWith_of_perform {i : Instruction} {next : Context}
    (hread : Instruction.read t ts = .ok (i, rest))
    (hp : d.perform (d.run depth) i c = .ok next) :
    ∃ used, t :: ts = (t :: used) ++ rest ∧ d.EndsWith (t :: used) c false (.ok next) := by
  obtain ⟨used, rfl, hmore⟩ := Instruction.read_eq_ok hread
  refine ⟨used, rfl, depth + 1, ?_⟩
  have halone : Instruction.read t used = .ok (i, []) := by
    rw [← hmore [], List.append_nil]
  rw [run_succ_false, execute_cons, halone]
  simp only [Outcome.ofExcept, Outcome.ok_bind, hp, execute_nil]

end

theorem Locates.succ (hd : d.Reports) {depth : Nat} (hl : d.Locates depth) :
    d.Locates (depth + 1) := by
  intro tokens c e h active
  rw [run_succ_false] at h
  induction tokens using Instruction.read_induction generalizing c with
  | nil =>
    rw [execute_nil] at h
    cases h
  | cons t ts ih =>
    rw [execute_cons] at h
    cases hread : Instruction.read t ts with
    | error e' =>
      rw [hread] at h
      cases h
      exact (FailsAt.unread hread).located (Instruction.trail_of_read hread)
    | ok step =>
      obtain ⟨i, rest⟩ := step
      rw [hread] at h
      simp only [Outcome.ofExcept, Outcome.ok_bind] at h
      cases hp : d.perform (d.run depth) i c with
      | exhausted =>
        rw [hp] at h
        cases h
      | error e' =>
        rw [hp] at h
        cases h
        exact hl.perform hd hread hp active
      | ok next =>
        rw [hp] at h
        obtain ⟨entered, htrail, hfails⟩ := ih i rest hread next h
        obtain ⟨used, htokens, hfront⟩ := exists_endsWith_of_perform hread hp
        rw [htokens]
        exact ⟨entered, htrail, .later hfront hfails⟩

theorem locates (hd : d.Reports) (depth : Nat) : d.Locates depth := by
  induction depth with
  | zero => exact fun _ _ _ h => nomatch h
  | succ depth hl => exact hl.succ hd

/-- The trail of an error has exactly the macros whose bodies were being run at the failing token,
and to record them changes nothing else. -/
theorem trail_names_running_macros (hw : ∀ w ∈ ws, w.IsCandid)
    (h : List.Forall₂ Word.Unframed ws ws') (tokens : List Value) (c : Context) (unfreeze : Bool) :
    (∀ after, (ofWords ws).EndsWith tokens c unfreeze (.ok after) ↔
      (ofWords ws').EndsWith tokens c unfreeze (.ok after)) ∧
    (∀ e, (ofWords ws).EndsWith tokens c unfreeze (.error e) →
      ∃ e', (ofWords ws').EndsWith tokens c unfreeze (.error e') ∧
        e'.kind = e.kind ∧ e'.message = e.message) ∧
    (∀ e', (ofWords ws').EndsWith tokens c unfreeze (.error e') →
      ∃ e, (ofWords ws).EndsWith tokens c unfreeze (.error e) ∧
        e'.kind = e.kind ∧ e'.message = e.message) ∧
    ∀ e, (ofWords ws).EndsWith tokens c unfreeze (.error e) ↔
      ∃ active, (ofWords ws).FailsAt [] tokens c e.cause active ∧
        e.trail = Trail.ofFrames? active := by
  have hd : (ofWords ws).Reports := reports_ofWords hw
  refine ⟨fun after => ?_, fun e he => ?_, fun e' he => ?_, fun e => ?_⟩
  · rw [endsWith_bare hd h]
    constructor
    · exact fun hok => ⟨.ok after, hok, rfl⟩
    · rintro ⟨framed, hframed, hresult⟩
      cases framed <;> cases hresult
      exact hframed
  · exact ⟨e.bare, (endsWith_bare hd h).mpr ⟨.error e, he, rfl⟩, rfl, rfl⟩
  · obtain ⟨framed, hframed, hresult⟩ := (endsWith_bare hd h).mp he
    cases framed <;> cases hresult
    exact ⟨_, hframed, rfl, rfl⟩
  · rw [endsWith_error_iff]
    constructor
    · rintro ⟨depth, hrun⟩
      obtain ⟨entered, htrail, hfails⟩ := locates hd depth tokens c e hrun []
      exact ⟨entered, hfails, htrail⟩
    · rintro ⟨active, hfails, htrail⟩
      obtain ⟨entered, hchain, hends⟩ := hfails.endsWith hd
      rw [List.nil_append] at hchain
      rwa [← hchain, ← htrail] at hends

theorem trail_of_failure_in_nested_macros :
    let inner : Macro := ⟨"inner", ["(", "a", ")", "(", ":stop", ")", ":map"].map .literal⟩
    let outer : Macro := ⟨"outer", [":idle", "(", ":inner", ")", ":call"].map .literal⟩
    let idle : Macro := ⟨"idle", []⟩
    let stop : Word := Standard.simple "stop" "--" Standard.anyStack
      (fun _ => .error (Cause.reported .editor "stopped")) []
    let plain (m : Macro) : Word :=
      { m.toWord with action := .onContext fun c => .body m.body c }
    let d := ofWords (Standard.quotationWords ++ [stop, inner.toWord, outer.toWord, idle.toWord])
    let d' := ofWords (Standard.quotationWords ++ [stop, plain inner, plain outer, plain idle])
    d.EndsWith ([":idle", ":outer"].map .literal) {} true
        (.error ⟨.reported .editor "stopped", some { frames := ["outer", "inner"] }⟩) ∧
      d.FailsAt [] ([":idle", ":outer"].map .literal) {} (.reported .editor "stopped")
        ["outer", "inner"] ∧
      (∃ e, d'.EndsWith ([":idle", ":outer"].map .literal) {} true (.error e) ∧
        e.message = "editor error: stopped") ∧
      d.FailsAt [] ([":idle", "(", ":stop", ")", ":call"].map .literal) {}
        (.reported .editor "stopped") [] := by
  intro inner outer idle stop plain d d'
  have hw : ∀ w ∈ Standard.quotationWords ++ [stop, inner.toWord, outer.toWord, idle.toWord],
      w.IsCandid := by
    intro w hw
    rcases List.mem_append.mp hw with hw | hw
    · have hwords : w ∈ Standard.words := by simp [Standard.words, hw]
      exact Or.inl ⟨w, hwords, w.stable, w.examples, rfl⟩
    · simp only [List.mem_cons, List.not_mem_nil, or_false] at hw
      rcases hw with rfl | rfl | rfl | rfl
      · refine Or.inr (Or.inr ⟨_, rfl, fun _ e _ he => ?_⟩)
        cases he
        rfl
      · exact Or.inr (Or.inl ⟨inner, true, [], rfl⟩)
      · exact Or.inr (Or.inl ⟨outer, true, [], rfl⟩)
      · exact Or.inr (Or.inl ⟨idle, true, [], rfl⟩)
  have hplain : List.Forall₂ Word.Unframed
      (Standard.quotationWords ++ [stop, inner.toWord, outer.toWord, idle.toWord])
      (Standard.quotationWords ++ [stop, plain inner, plain outer, plain idle]) := by
    refine List.rel_append Standard.quotationWords_unframed ?_
    exact .cons (.other (Word.not_isMacro_of_done rfl)) (.cons (.ofMacro inner true [])
      (.cons (.ofMacro outer true []) (.cons (.ofMacro idle true []) .nil)))
  have hnested : d.EndsWith ([":idle", ":outer"].map .literal) {} true
      (.error ⟨.reported .editor "stopped", some { frames := ["outer", "inner"] }⟩) :=
    ⟨6, by decide +kernel⟩
  have hlone : d.EndsWith ([":idle", "(", ":stop", ")", ":call"].map .literal) {} true
      (.error (Cause.reported .editor "stopped")) :=
    ⟨3, by decide +kernel⟩
  obtain ⟨-, hmessage, -, htrail⟩ := trail_names_running_macros hw hplain
    ([":idle", ":outer"].map .literal) {} true
  obtain ⟨e, he, -, hm⟩ := hmessage _ hnested
  obtain ⟨active, hfails, hactive⟩ := (htrail _).mp hnested
  obtain rfl : ["outer", "inner"] = active := Trail.ofFrames?_injective hactive
  obtain ⟨-, -, -, htrail'⟩ := trail_names_running_macros hw hplain
    ([":idle", "(", ":stop", ")", ":call"].map .literal) {} true
  obtain ⟨active', hfails', hactive'⟩ := (htrail' _).mp hlone
  obtain rfl : [] = active' := Trail.ofFrames?_injective hactive'
  exact ⟨hnested, hfails, ⟨e, he, hm⟩, hfails'⟩

end Dictionary

end StackWords
