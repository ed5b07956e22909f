import Mathlib.Data.Finset.Card
import Mathlib.Logic.Relation
import StackWords.Proofs.Frames

/-! # Programs that come to an end

A macro runs its body, so a macro that comes back to itself need not end. If none
does, each macro has a height: the number of names that can be reached from it. The
macros that a body names are lower than the macro, and tokens are used up, hence
every program ends, and no deeper limit is needed than the number of words.
-/
namespace StackWords

variable {α β : Type}

namespace Outcome.Finished

theorem ok (a : α) : (Outcome.ok a).Finished := by simp [Finished]

theorem bind {o : Outcome α} {f : α → Outcome β} (h : o.Finished)
    (hf : ∀ a, o = .ok a → (f a).Finished) : (o >>= f).Finished := by
  cases o with
  | ok a => exact hf a rfl
  | error e => simp [Finished]
  | exhausted => exact absurd rfl h

theorem mapError {o : Outcome α} (h : o.Finished) (g : Error → Error) :
    (o.mapError g).Finished := by
  cases o with
  | ok a => exact h
  | error e => simp [Outcome.mapError, Finished]
  | exhausted => exact absurd rfl h

theorem exists_result {o : Outcome α} (h : o.Finished) : ∃ result, o = .ofExcept result := by
  cases o with
  | ok a => exact ⟨.ok a, rfl⟩
  | error e => exact ⟨.error e, rfl⟩
  | exhausted => exact absurd rfl h

end Outcome.Finished

/-- The binding words, each with a stability and examples of its own. -/
def Word.IsBinding (w : Word) : Prop :=
  ∃ base ∈ Standard.bindingWords, ∃ (stable : Bool) (examples : List String),
    w = { base with stable, examples }

/-- A macro of the first name has a token in its body that names the second. -/
def Calls (words : List Word) (name other : String) : Prop :=
  ∃ (m : Macro) (stable : Bool) (examples : List String),
    { m.toWord with stable, examples } ∈ words ∧ m.name = name ∧ .literal (":" ++ other) ∈ m.body

def Acyclic (words : List Word) : Prop := ∀ name, ¬ Relation.TransGen (Calls words) name name

/-- No macro comes back to itself if names can be ranked so that bodies name lower ones only. -/
theorem acyclic_of_rank {words : List Word} {rank : String → Nat}
    (h : ∀ name other, Calls words name other → rank other < rank name) : Acyclic words := by
  have hdescends : ∀ name other, Relation.TransGen (Calls words) name other →
      rank other < rank name := by
    intro name other hreach
    induction hreach with
    | single hcall => exact h _ _ hcall
    | tail _ hcall ih => exact (h _ _ hcall).trans ih
  exact fun name hloop => Nat.lt_irrefl _ (hdescends name name hloop)

section Height

variable {words : List Word} {name other : String}

open Classical in
noncomputable def reachable (words : List Word) (name : String) : Finset String :=
  (words.map Word.name).toFinset.filter fun other => Relation.TransGen (Calls words) name other

theorem mem_reachable :
    other ∈ reachable words name ↔
      other ∈ words.map Word.name ∧ Relation.TransGen (Calls words) name other := by
  simp only [reachable, Finset.mem_filter, List.mem_toFinset]

noncomputable def height (words : List Word) (name : String) : Nat := (reachable words name).card

theorem notMem_reachable_self (hacyclic : Acyclic words) (name : String) :
    name ∉ reachable words name :=
  fun hmem => hacyclic name (mem_reachable.mp hmem).2

theorem height_lt_of_calls (hacyclic : Acyclic words) (hcall : Calls words name other)
    (hother : other ∈ words.map Word.name) : height words other < height words name := by
  have hsubset : reachable words other ⊆ reachable words name := by
    intro lower hlower
    obtain ⟨hname, hreach⟩ := mem_reachable.mp hlower
    exact mem_reachable.mpr ⟨hname, .head hcall hreach⟩
  have hhere : other ∈ reachable words name := mem_reachable.mpr ⟨hother, .single hcall⟩
  have hgone := notMem_reachable_self hacyclic other
  exact Finset.card_lt_card ((Finset.ssubset_iff_of_subset hsubset).mpr ⟨other, hhere, hgone⟩)

theorem height_lt_length (hacyclic : Acyclic words) (hname : name ∈ words.map Word.name) :
    height words name < words.length := by
  have hsubset : reachable words name ⊆ (words.map Word.name).toFinset :=
    fun other hother => List.mem_toFinset.mpr (mem_reachable.mp hother).1
  have hhere : name ∈ (words.map Word.name).toFinset := List.mem_toFinset.mpr hname
  have hgone := notMem_reachable_self hacyclic name
  calc height words name < (words.map Word.name).toFinset.card :=
        Finset.card_lt_card ((Finset.ssubset_iff_of_subset hsubset).mpr ⟨name, hhere, hgone⟩)
    _ ≤ (words.map Word.name).length := List.toFinset_card_le _
    _ = words.length := List.length_map _

end Height

namespace Word

/-- A word that has no programs run. -/
def RunsNothing (w : Word) : Prop := ∀ c, ∃ result, w.apply c = .done result

theorem RunsNothing.finished {w : Word} (h : w.RunsNothing) (r : Runner) (c : Context) :
    ((w.apply c).eval r).Finished := by
  obtain ⟨result, hresult⟩ := h c
  rw [hresult, Routine.eval_done]
  exact Outcome.finished_ofExcept result

theorem runsNothing_of_isSimple {w : Word} (h : w.isSimple) : w.RunsNothing := by
  intro c
  cases hw : w.action with
  | onStack f => exact ⟨_, by rw [apply, hw, Action.apply]⟩
  | onContext f => simp [isSimple, hw] at h

theorem IsBinding.runsNothing {w : Word} (h : w.IsBinding) : w.RunsNothing := by
  obtain ⟨base, hbase, stable, examples, rfl⟩ := h
  intro c
  simp only [Standard.bindingWords, List.mem_cons, List.not_mem_nil, or_false] at hbase
  rcases hbase with rfl | rfl | rfl | rfl <;> exact ⟨_, rfl⟩

theorem RunsNothing.not_isMacro {w : Word} (h : w.RunsNothing) : ¬ w.IsMacro := by
  obtain ⟨result, hresult⟩ := h {}
  exact not_isMacro_of_done hresult

end Word

theorem Macro.eq_of_toWord {m m' : Macro} {stable : Bool} {examples : List String}
    (h : { m.toWord with stable, examples } = m'.toWord) : m = m' := by
  have hname : m.name = m'.name := congrArg Word.name h
  have haction : Action.onContext m.invoke = .onContext m'.invoke := congrArg Word.action h
  have hinvoke : m.invoke {} = m'.invoke {} := congrFun (Action.onContext.inj haction) {}
  have hbody : m.body = m'.body := (Routine.call.inj hinvoke).1
  cases m
  cases m'
  exact congr (congrArg Macro.mk hname) hbody

/-- Macros do not come back to themselves if the words in the body of each rank lower. -/
theorem acyclic_of_ranked_bodies {plain : List Word} (hplain : ∀ w ∈ plain, w.RunsNothing)
    {macros : List Macro} {rank : String → Nat}
    (h : ∀ m ∈ macros, ∀ t ∈ m.body, ∀ other ∈ t.wordName?, rank other < rank m.name) :
    Acyclic (plain ++ macros.map Macro.toWord) := by
  have hrank : ∀ name other, Calls (plain ++ macros.map Macro.toWord) name other →
      rank other < rank name := by
    rintro _ other ⟨m, stable, examples, hm, rfl, hother⟩
    rcases List.mem_append.mp hm with hm | hm
    · exact absurd ⟨m, stable, examples, rfl⟩ (hplain _ hm).not_isMacro
    · obtain ⟨m', hm', heq⟩ := List.mem_map.mp hm
      obtain rfl := Macro.eq_of_toWord heq.symm
      exact h m hm' _ hother other (Instruction.wordName?_literal other)
  exact acyclic_of_rank hrank

theorem Value.eq_of_wordName? {t : Value} {name : String} (h : t.wordName? = some name) :
    t = .literal (":" ++ name) := by
  cases t with
  | literal text =>
    simp only [wordName?, text?, Option.bind_some] at h
    split at h
    · next rest hrest =>
      cases h
      refine congrArg Value.literal (String.toList_injective ?_)
      simp [hrest]
    · cases h
  | list items => cases h
  | object item => cases h

theorem Instruction.read_eq_invoke {t : Value} {ts rest : List Value} {name : String}
    (h : read t ts = .ok (.invoke name, rest)) : t = .literal (":" ++ name) ∧ rest = ts := by
  unfold read at h
  split at h
  · split at h <;> cases h
  · split at h
    · cases h
    · split at h
      · next hname =>
        cases h
        exact ⟨Value.eq_of_wordName? hname, rfl⟩
      · cases h

namespace Dictionary

variable {words : List Word} {r : Runner} {name : String} {tokens : List Value}

/-- Tokens come to an end if the words that they name do. -/
theorem execute_finished {d : Dictionary}
    (h : ∀ name, .literal (":" ++ name) ∈ tokens → ∀ c, (d.perform r (.invoke name) c).Finished)
    (c : Context) : (d.execute r tokens c).Finished := by
  induction tokens using Instruction.read_induction generalizing c with
  | nil =>
    rw [execute_nil]
    exact .ok c
  | cons t ts ih =>
    rw [execute_cons]
    refine (Outcome.finished_ofExcept _).bind ?_
    rintro ⟨i, rest⟩ hstep
    have hread : Instruction.read t ts = .ok (i, rest) := Outcome.ofExcept_injective hstep
    obtain ⟨used, hused, -⟩ := Instruction.read_eq_ok hread
    have hperform : (d.perform r i c).Finished := by
      cases i with
      | push v => exact .ok _
      | invoke name =>
        obtain ⟨rfl, -⟩ := Instruction.read_eq_invoke hread
        exact h name List.mem_cons_self c
    refine hperform.bind fun next _ => ih i rest hread ?_ next
    -- What is left is the end of the tokens, so it names no other words.
    intro name hname
    refine h name (List.mem_cons_of_mem t ?_)
    rw [hused]
    exact List.mem_append_right used hname

theorem perform_finished (hwords : ∀ w ∈ words, w.isSimple ∨ w.IsBinding ∨ w.IsMacro)
    (hbody : ∀ (m : Macro) (stable : Bool) (examples : List String),
      { m.toWord with stable, examples } ∈ words → m.name = name →
      ∀ c, (r m.body c false).Finished) (c : Context) :
    ((ofWords words).perform r (.invoke name) c).Finished := by
  rw [perform_invoke]
  refine (Outcome.finished_ofExcept _).bind fun w hstep => ?_
  have hselect : (ofWords words).select name c = .ok w := Outcome.ofExcept_injective hstep
  have hmem := mem_candidates_of_select hselect
  rw [candidates_ofWords] at hmem
  obtain ⟨hw, hname⟩ := List.mem_filter.mp hmem
  rcases hwords w hw with hsimple | hbinding | ⟨m, stable, examples, rfl⟩
  · exact (Word.runsNothing_of_isSimple hsimple).finished r c
  · exact hbinding.runsNothing.finished r c
  · have hsame : m.name = name := (of_decide_eq_true hname).symm
    have heval : ((m.toWord.apply c).eval r).Finished := by
      rw [Word.apply, Macro.toWord, Action.apply, Macro.eval_invoke]
      exact (hbody m stable examples hw hsame c).mapError _
    exact heval

/-- A program comes to an end if the bodies of the macros that it names do at one limit less. -/
theorem run_succ_finished (hwords : ∀ w ∈ words, w.isSimple ∨ w.IsBinding ∨ w.IsMacro) {limit : Nat}
    (hbodies : ∀ name, .literal (":" ++ name) ∈ tokens →
      ∀ (m : Macro) (stable : Bool) (examples : List String),
        { m.toWord with stable, examples } ∈ words → m.name = name →
        ∀ c, ((ofWords words).run limit m.body c false).Finished)
    (c : Context) (unfreeze : Bool) :
    ((ofWords words).run (limit + 1) tokens c unfreeze).Finished := by
  have hexecute : ((ofWords words).execute ((ofWords words).run limit) tokens c).Finished :=
    execute_finished (fun name hname => perform_finished hwords (hbodies name hname)) c
  exact hexecute.bind fun next _ => .ok _

/-- A program comes to an end at a limit above the heights of the names in it. -/
theorem run_finished (hwords : ∀ w ∈ words, w.isSimple ∨ w.IsBinding ∨ w.IsMacro)
    (hacyclic : Acyclic words) {limit : Nat}
    (h : ∀ name, .literal (":" ++ name) ∈ tokens → name ∈ words.map Word.name →
      height words name < limit) (c : Context) (unfreeze : Bool) :
    ((ofWords words).run (limit + 1) tokens c unfreeze).Finished := by
  induction limit generalizing tokens c unfreeze with
  | zero =>
    refine run_succ_finished hwords (fun name hname m stable examples hm hsame => ?_) c unfreeze
    have hlisted : name ∈ words.map Word.name := List.mem_map.mpr ⟨_, hm, hsame⟩
    exact absurd (h name hname hlisted) (Nat.not_lt_zero _)
  | succ limit ih =>
    refine run_succ_finished hwords (fun name hname m stable examples hm hsame c => ?_) c unfreeze
    have hlisted : name ∈ words.map Word.name := List.mem_map.mpr ⟨_, hm, hsame⟩
    -- The body runs with one limit less, and the names in it are lower.
    refine ih ?_ c false
    intro other hother hthere
    have hcall : Calls words name other := ⟨m, stable, examples, hm, hsame, hother⟩
    have hlower := height_lt_of_calls hacyclic hcall hthere
    have hbound := h name hname hlisted
    omega

/-- A macro whose body starts with its own name does not end. -/
theorem not_endsWith_of_self_call {m : Macro} {rest : List Value}
    (hbody : m.body = .literal (":" ++ m.name) :: rest) (words : List Word) (c : Context)
    (unfreeze : Bool) (result : Except Error Context) :
    ¬ (ofWords (m.toWord :: words)).EndsWith m.body c unfreeze result := by
  have hcandidates : (ofWords (m.toWord :: words)).candidates m.name =
      m.toWord :: words.filter fun w => m.name = w.name := by
    have hown : m.toWord.name = m.name := rfl
    simp [candidates_ofWords, hown]
  have hselect : (ofWords (m.toWord :: words)).select m.name c = .ok m.toWord := by
    rw [select_eq_ok_iff, hcandidates]
    exact ⟨List.find?_cons_of_pos rfl, rfl⟩
  have hstopped : ∀ depth unfreeze,
      (ofWords (m.toWord :: words)).run depth m.body c unfreeze = .exhausted := by
    intro depth
    induction depth with
    | zero => exact fun _ => rfl
    | succ depth ih =>
      intro unfreeze
      have hread : Instruction.read (.literal (":" ++ m.name)) rest = .ok (.invoke m.name, rest) :=
        Instruction.read_word m.name rest
      have hinvoke : (m.toWord.apply c).eval ((ofWords (m.toWord :: words)).run depth) =
          .exhausted := by
        rw [Word.apply, Macro.toWord, Action.apply, Macro.eval_invoke, ← Macro.toWord, ih]
        rfl
      rw [hbody, run_succ_cons hread, perform_invoke, hselect]
      simp only [Outcome.ofExcept, Outcome.ok_bind, hinvoke, Outcome.exhausted_bind]
  rintro ⟨depth, hdepth⟩
  rw [hstopped] at hdepth
  exact Outcome.finished_ofExcept result hdepth.symm

/-- Programs come to an end if no macro comes back to itself and all other words change the stack
only or are binding words. No limit is too low that is above the number of words. -/
theorem programs_over_acyclic_macros_end
    (hwords : ∀ w ∈ words, w.isSimple ∨ w.IsBinding ∨ w.IsMacro) (hacyclic : Acyclic words)
    (tokens : List Value) (c : Context) (unfreeze : Bool) :
    ∃ result, (ofWords words).EndsWith tokens c unfreeze result ∧
      ∀ limit, words.length < limit →
        (ofWords words).run limit tokens c unfreeze = .ofExcept result := by
  have hfinished : ((ofWords words).run (words.length + 1) tokens c unfreeze).Finished :=
    run_finished hwords hacyclic (fun name _ hname => height_lt_length hacyclic hname) c unfreeze
  obtain ⟨result, hresult⟩ := hfinished.exists_result
  exact ⟨result, ⟨_, hresult⟩, fun limit hlimit => run_eq_of_le hlimit hresult⟩

theorem macros_over_binding_words_end :
    let copy : Word := {
      name := "dup", signature := "a -- a a", accepts := Standard.atLeast 1,
      action := .onStack fun stack => .ok (stack.take 1 ++ stack) }
    let macros : List Macro := [
      ⟨"keep", [":dup", "k", ":sset"].map .literal⟩,
      ⟨"twice", [":keep", "k", ":get"].map .literal⟩,
      ⟨"thrice", [.literal ":twice", .list [.literal ":thrice"], .literal "k", .literal ":get"]⟩]
    let words := Standard.bindingWords ++ [copy] ++ macros.map Macro.toWord
    (∀ w ∈ words, w.isSimple ∨ w.IsBinding ∨ w.IsMacro) ∧ Acyclic words ∧
      (∀ (tokens : List Value) (c : Context) (unfreeze : Bool),
        ∃ result, (ofWords words).EndsWith tokens c unfreeze result) ∧
      (ofWords words).EndsWith ([":freeze", "a", ":thrice"].map .literal) {} true (.ok {
        stack := [.literal "a", .list [.literal ":thrice"], .literal "a", .literal "a"],
        vars := Bindings.empty.insert "k" (.literal "a") }) ∧
      (ofWords words).EndsWith [.literal ":thrice"] {} true (.error {
        cause := .noMatch "dup" (Stack.summary []) ["a -- a a"],
        trail := some { frames := ["thrice", "twice", "keep"] } }) := by
  intro copy macros words
  have hplain : ∀ w ∈ Standard.bindingWords ++ [copy], w.isSimple ∨ w.IsBinding := by
    intro w hw
    rcases List.mem_append.mp hw with hw | hw
    · exact Or.inr ⟨w, hw, w.stable, w.examples, rfl⟩
    · obtain rfl := List.mem_singleton.mp hw
      exact Or.inl rfl
  have hwords : ∀ w ∈ words, w.isSimple ∨ w.IsBinding ∨ w.IsMacro := by
    intro w hw
    rcases List.mem_append.mp hw with hw | hw
    · exact (hplain w hw).imp_right Or.inl
    · obtain ⟨m, -, rfl⟩ := List.mem_map.mp hw
      exact Or.inr (Or.inr ⟨m, true, [], rfl⟩)
  have hnothing : ∀ w ∈ Standard.bindingWords ++ [copy], w.RunsNothing := by
    intro w hw
    rcases hplain w hw with hsimple | hbinding
    · exact Word.runsNothing_of_isSimple hsimple
    · exact hbinding.runsNothing
  have hacyclic : Acyclic words := by
    let rank := fun name => ["dup", "sset", "get", "keep", "twice", "thrice"].idxOf name
    have hranked : ∀ m ∈ macros, ∀ t ∈ m.body, ∀ other ∈ t.wordName?, rank other < rank m.name := by
      decide +kernel
    exact acyclic_of_ranked_bodies hnothing hranked
  have hends := programs_over_acyclic_macros_end hwords hacyclic
  refine ⟨hwords, hacyclic, ?_, ⟨4, by decide +kernel⟩, ⟨4, by decide +kernel⟩⟩
  intro tokens c unfreeze
  obtain ⟨result, hresult, -⟩ := hends tokens c unfreeze
  exact ⟨result, hresult⟩

end Dictionary

end StackWords
