import StackWords.Proofs.Coupled
import StackWords.Proofs.Results
import StackWords.Proofs.Spelling

/-! # Lists that run and tokens written out

A word that runs a list does so in a program of its own. If the list marks of the
list are balanced, its tokens can as well be written in the place of the word: no
list that starts in them is closed by a token behind them, and the values set aside
stay where they are in both cases.
-/
namespace StackWords

/-- The list starts and the list ends among some tokens are nested pairs. -/
def Value.Balanced (tokens : List Value) : Prop :=
  Nested Value.endOfList? (tokens.filter Value.isListMark)

theorem Value.Balanced.append {first second : List Value} (hf : Balanced first)
    (hs : Balanced second) : Balanced (first ++ second) := by
  rw [Balanced, List.filter_append]
  exact Nested.append hf hs

theorem Value.Balanced.cons {t : Value} (ht : t.isListMark = false) {tokens : List Value}
    (h : Balanced tokens) : Balanced (t :: tokens) := by
  rw [Balanced, List.filter_cons_of_neg (by simp [ht])]
  exact h

theorem Instruction.read_unmarked {t : Value} (h : t.isListMark = false) :
    ∃ i, ∀ more, read t more = .ok (i, more) := by
  have hne : t ≠ .listStart ∧ t ≠ .listEnd := by simpa [Value.isListMark] using h
  cases hw : t.wordName? with
  | some name => exact ⟨.invoke name, fun more => by simp only [read, hne, ↓reduceIte, hw]⟩
  | none => exact ⟨.push t, fun more => by simp only [read, hne, ↓reduceIte, hw]⟩

namespace Dictionary

variable {c : Context} {body : List Value}

/-- Balanced tokens run in front of others as they run alone, and fail as they fail alone. -/
theorem execute_balanced_append (h : Value.Balanced body) (d : Dictionary) (r : Runner) :
    ∀ (c : Context) (rest : List Value), d.execute r (body ++ rest) c =
      d.execute r body c >>= fun next => d.execute r rest next := by
  -- A pair of list marks is one instruction, so the induction does not enter it.
  refine Nested.filter_induction ?nil ?other ?pair body h
  case nil =>
    intro c rest
    rw [List.nil_append, execute_nil, Outcome.ok_bind]
  case other =>
    intro t ts ht ih c rest
    obtain ⟨i, hread⟩ := Instruction.read_unmarked ht
    rw [List.cons_append, execute_cons, execute_cons, hread, hread]
    simp only [Outcome.ofExcept, Outcome.ok_bind, bind_assoc, ih]
  case pair =>
    intro o k inner ts hk hinner _ ih c rest
    obtain ⟨rfl, rfl⟩ := Value.endOfList?_eq_some hk
    rw [List.cons_append, List.append_assoc, List.cons_append, execute_cons, execute_cons,
      Instruction.read_quoted hinner, Instruction.read_quoted hinner]
    simp only [Outcome.ofExcept, Outcome.ok_bind, bind_assoc, ih]

theorem run_balanced_append (h : Value.Balanced body) (d : Dictionary) (depth : Nat) (c : Context)
    (rest : List Value) (unfreeze : Bool) :
    d.run depth (body ++ rest) c unfreeze =
      d.run depth body c false >>= fun next => d.run depth rest next unfreeze := by
  cases depth with
  | zero => rfl
  | succ depth =>
    rw [run_succ_false]
    simp only [run, execute_balanced_append h, bind_assoc]

theorem endsWith_balanced_append (h : Value.Balanced body) (d : Dictionary) (c : Context)
    (rest : List Value) (unfreeze : Bool) :
    d.EndsWith (body ++ rest) c unfreeze =
      Results.bind (d.EndsWith body c false) fun next => d.EndsWith rest next unfreeze := by
  have hlimits := Results.ofLimits_bind (d.settles_run body c false) fun next =>
    d.settles_run rest next unfreeze
  simp only [← run_balanced_append h] at hlimits
  exact hlimits

end Dictionary

namespace Standard

variable {c : Context} {body : List Value} {below : Stack}

section Words

variable {name : String} {accepts : Stack → Bool}

/-- A standard word in a program does its action, whatever further words there are. -/
theorem endsWith_word {action : Action} (h : Leads name accepts action) (extra : List Word)
    (ha : accepts c.stack) (rest : List Value) (unfreeze : Bool) :
    (extendedBy extra).EndsWith (.literal (":" ++ name) :: rest) c unfreeze =
      ((extendedBy extra).Yields (action.apply c)).bind fun next =>
        (extendedBy extra).EndsWith rest next unfreeze := by
  obtain ⟨w, hw, rfl⟩ := select_extendedBy h extra ha
  exact Dictionary.endsWith_invoke (Instruction.read_word name rest) hw unfreeze

/-- A word that does nothing but run balanced tokens stands for them. -/
theorem endsWith_body {f : Context → Routine Context} {next : Context}
    (h : Leads name accepts (.onContext f)) (ha : accepts c.stack) (hf : f c = .body body next)
    (hbody : Value.Balanced body) (extra : List Word) (rest : List Value) (unfreeze : Bool) :
    (extendedBy extra).EndsWith (.literal (":" ++ name) :: rest) c unfreeze =
      (extendedBy extra).EndsWith (body ++ rest) next unfreeze := by
  rw [endsWith_word h extra ha, Action.apply, hf, Dictionary.yields_body,
    Dictionary.endsWith_balanced_append hbody]

end Words

theorem leads_call : Leads "call" topIsList (.onContext call) := ⟨_, _, rfl, rfl, rfl, rfl⟩

theorem leads_callNamed : Leads "fcall" topIsLiteral (.onContext callNamed) :=
  ⟨_, _, rfl, rfl, rfl, rfl⟩

theorem leads_each : Leads "each" topAreLists (.onContext each) := ⟨_, _, rfl, rfl, rfl, rfl⟩

theorem endsWith_call (hbody : Value.Balanced body) (hstack : c.stack = .list body :: below)
    (extra : List Word) (rest : List Value) (unfreeze : Bool) :
    (extendedBy extra).EndsWith (.literal ":call" :: rest) c unfreeze =
      (extendedBy extra).EndsWith (body ++ rest) { c with stack := below } unfreeze := by
  have haccepts : topIsList c.stack := topIsList_iff.mpr ⟨body, below, hstack⟩
  have hcall : call c = .body body { c with stack := below } := by
    simp only [call, hstack]
  exact endsWith_body leads_call haccepts hcall hbody extra rest unfreeze

theorem endsWith_callNamed {key : String} (hbody : Value.Balanced body)
    (hstack : c.stack = .literal key :: below) (hkey : c.vars.get? key = some (.list body))
    (extra : List Word) (rest : List Value) (unfreeze : Bool) :
    (extendedBy extra).EndsWith (.literal ":fcall" :: rest) c unfreeze =
      (extendedBy extra).EndsWith (body ++ rest) { c with stack := below } unfreeze := by
  have haccepts : topIsLiteral c.stack := topIsLiteral_iff.mpr ⟨key, below, hstack⟩
  have hlookup : lookup c (.literal key) = .ok (.list body) := by
    simp [lookup, Value.text?, hkey]
  have hcall : callNamed c = .body body { c with stack := below } := by
    simp only [callNamed, hstack, hlookup]
  exact endsWith_body leads_callNamed haccepts hcall hbody extra rest unfreeze

/-- Quoting tokens and calling the list is the same as writing the tokens, and so is calling a list
by its name: what follows goes on from the same context, or the same error is raised. -/
theorem quoted_tokens_run_inline (extra : List Word) {body : List Value}
    (hbody : Value.Balanced body) (rest : List Value) (c : Context) (unfreeze : Bool) :
    (∀ result,
      (extendedBy extra).EndsWith
          ([Value.listStart] ++ body ++ [Value.listEnd, Value.literal ":call"] ++ rest) c unfreeze
          result ↔
        (extendedBy extra).EndsWith (body ++ rest) c unfreeze result) ∧
    ∀ key below, c.stack = .literal key :: below → c.vars.get? key = some (.list body) →
      ∀ result, (extendedBy extra).EndsWith ([Value.literal ":fcall"] ++ rest) c unfreeze result ↔
        (extendedBy extra).EndsWith (body ++ rest) { c with stack := below } unfreeze result := by
  constructor
  · intro result
    have hpush := Dictionary.endsWith_push
      (Instruction.read_quoted hbody (.literal ":call" :: rest)) (extendedBy extra) c unfreeze
    have hstack : (c.push (.list body)).stack = .list body :: c.stack := rfl
    have hcall := endsWith_call hbody hstack extra rest unfreeze
    have htokens : [Value.listStart] ++ body ++ [Value.listEnd, Value.literal ":call"] ++ rest =
        .listStart :: (body ++ .listEnd :: .literal ":call" :: rest) := by
      simp
    rw [htokens, hpush, hcall]
    exact Iff.rfl
  · intro key below hstack hkey result
    exact iff_of_eq (congrFun (endsWith_callNamed hbody hstack hkey extra rest unfreeze) result)

theorem call_of_freezing_and_failing_lists_run_inline :
    let stash : Macro := ⟨"stash", [.literal "x", .literal ":freeze"]⟩
    let d := extendedBy [stash.toWord]
    let body := ["(", ":dup", "(", "y", ")", ")", ":call", ":stash"].map .literal
    let c : Context := { stack := [.literal "f", .literal "a"],
                         vars := .ofList [("f", .list body)], features := .unstable }
    Value.Balanced body ∧
      d.EndsWith ([Value.listStart] ++ body ++ [Value.listEnd, Value.literal ":call"] ++
          [Value.literal "z"]) c true
        (.ok { c with stack := [.literal "z", .literal "x", .list [.literal "y"], .literal "f",
                                .literal "f", .literal "a"], vars := .empty }) ∧
      d.EndsWith ([Value.literal ":fcall"] ++ [Value.literal ":drop"]) c false
        (.error (Cause.noMatch "drop" "[]" ["a --"])) := by
  intro stash d body c
  have hmarks : unwind Value.endOfList? [] (body.filter Value.isListMark) = some [] := by decide
  have hbody : Value.Balanced body := supplies_of_unwind hmarks
  have hcall : d.EndsWith (body ++ [Value.literal "z"]) c true
      (.ok { c with stack := [.literal "z", .literal "x", .list [.literal "y"], .literal "f",
                              .literal "f", .literal "a"], vars := .empty }) :=
    ⟨3, by decide +kernel⟩
  have hnamed : d.EndsWith (body ++ [Value.literal ":drop"]) { c with stack := [.literal "a"] }
      false (.error (Cause.noMatch "drop" "[]" ["a --"])) :=
    ⟨3, by decide +kernel⟩
  have hkey : c.vars.get? "f" = some (.list body) := by decide +kernel
  refine ⟨hbody, ?_, ?_⟩
  · exact ((quoted_tokens_run_inline _ hbody _ c true).1 _).mpr hcall
  · exact ((quoted_tokens_run_inline _ hbody _ c false).2 "f" [.literal "a"] rfl hkey _).mpr hnamed

end Standard

/-- A value that pushes itself when it is read as a token: it is no literal, or one that is no list
mark and names no word. -/
def Value.Inert (v : Value) : Prop :=
  ∀ text, v = .literal text → text ≠ "(" ∧ text ≠ ")" ∧ text.toList.head? ≠ some ':'

namespace Value.Inert

variable {item : Value}

theorem isListMark_eq_false (h : item.Inert) : item.isListMark = false := by
  have hstart : item ≠ .listStart := fun hs => (h "(" hs).1 rfl
  have hend : item ≠ .listEnd := fun he => (h ")" he).2.1 rfl
  simp [isListMark, hstart, hend]

theorem wordName?_eq_none (h : item.Inert) : item.wordName? = none := by
  cases item with
  | literal text =>
    have hhead := (h text rfl).2.2
    simp only [wordName?, text?, Option.bind_some]
    split
    · next name heq => exact absurd (by rw [heq]; rfl) hhead
    · rfl
  | list items => rfl
  | object item => rfl

theorem read_eq (h : item.Inert) (more : List Value) :
    Instruction.read item more = .ok (.push item, more) := by
  have hne : item ≠ .listStart ∧ item ≠ .listEnd := by
    simpa [isListMark] using h.isListMark_eq_false
  simp only [Instruction.read, hne, ↓reduceIte, h.wordName?_eq_none]

end Value.Inert

section Unrolling

variable {items body : List Value}

def unrolled (items body : List Value) : List Value := items.flatMap fun item => item :: body

theorem unrolled_cons (item : Value) (items body : List Value) :
    unrolled (item :: items) body = item :: (body ++ unrolled items body) := by
  simp [unrolled]

theorem balanced_unrolled (hitems : ∀ item ∈ items, item.Inert) (hbody : Value.Balanced body) :
    Value.Balanced (unrolled items body) := by
  induction items with
  | nil => exact .nil
  | cons item items ih =>
    obtain ⟨hitem, hrest⟩ := List.forall_mem_cons.mp hitems
    rw [unrolled_cons]
    exact .cons hitem.isListMark_eq_false (hbody.append (ih hrest))

/-- Running a list once for each item is running the items and the list written out. -/
theorem Dictionary.yields_foldlM_body (hitems : ∀ item ∈ items, item.Inert)
    (hbody : Value.Balanced body) (d : Dictionary) (c : Context) :
    d.Yields (items.foldlM (fun c item => .body body (c.push item)) c) =
      d.EndsWith (unrolled items body) c false := by
  induction items generalizing c with
  | nil =>
    have hnil : unrolled [] body = [] := rfl
    rw [hnil, endsWith_nil]
    exact d.yields_done (.ok c)
  | cons item items ih =>
    obtain ⟨hitem, hrest⟩ := List.forall_mem_cons.mp hitems
    have hfirst := endsWith_push (hitem.read_eq (body ++ unrolled items body)) d c false
    rw [unrolled_cons, hfirst, endsWith_balanced_append hbody, List.foldlM_cons, yields_bind,
      yields_body]
    simp only [ih hrest]

/-- Running a list for each item unrolls: the word does what the items do if each is written with
the tokens of the list behind it, also if the list reaches below the item, sets values aside, or
fails on the way. -/
theorem Standard.each_unrolls (extra : List Word) {items body : List Value}
    (hitems : ∀ item ∈ items, item.Inert) (hbody : Value.Balanced body) {c : Context}
    {below : Stack} (hstack : c.stack = .list body :: .list items :: below) (rest : List Value)
    (unfreeze : Bool) (result : Except Error Context) :
    (extendedBy extra).EndsWith ([Value.literal ":each"] ++ rest) c unfreeze result ↔
      (extendedBy extra).EndsWith (unrolled items body ++ rest) { c with stack := below } unfreeze
        result := by
  have haccepts : topAreLists c.stack := topAreLists_iff.mpr ⟨body, items, below, hstack⟩
  have heach : each c =
      items.foldlM (fun c item => .body body (c.push item)) { c with stack := below } := by
    simp only [each, hstack]
  have hword := endsWith_word leads_each extra haccepts rest unfreeze
  rw [Action.apply, heach, Dictionary.yields_foldlM_body hitems hbody,
    ← Dictionary.endsWith_balanced_append (balanced_unrolled hitems hbody)] at hword
  exact iff_of_eq (congrFun hword result)

end Unrolling

theorem Standard.each_unrolls_until_a_failure :
    let body := [":swap", ":drop", ":call", "(", "k", ")", ":freeze", "b"].map .literal
    let items := [.list [.literal "a", .literal ":dup"], .list [.list [.listStart]]]
    let c := fun items : List Value => { stack := [.list body, .list items, .literal "s"],
                                         frozen := [.literal "f"] : Context }
    Value.Balanced body ∧ (∀ item ∈ items ++ [Value.literal "c"], item.Inert) ∧
      (extendedBy []).EndsWith ([Value.literal ":each"] ++ [Value.literal "t"]) (c items) true
        (.ok { stack := [.literal "t", .literal "b", .list [.literal "k"], .list [.listStart],
                         .list [.literal "k"], .literal "a", .literal "a", .literal "f"] }) ∧
      (extendedBy []).EndsWith ([Value.literal ":each"] ++ [Value.literal "t"])
        (c (items ++ [Value.literal "c"])) true
        (.error (Cause.noMatch "call" "[String]" ["* List -- *"])) := by
  intro body items c
  have hmarks : unwind Value.endOfList? [] (body.filter Value.isListMark) = some [] := by decide
  have hbody : Value.Balanced body := supplies_of_unwind hmarks
  have hall : ∀ item ∈ items ++ [Value.literal "c"], item.Inert := by
    intro item hitem text htext
    subst htext
    have htext : text = "c" := by simpa [items] using hitem
    rw [htext]
    decide
  have hitems : ∀ item ∈ items, item.Inert :=
    fun item hitem => hall item (List.mem_append_left _ hitem)
  refine ⟨hbody, hall, ?_, ?_⟩
  · exact (each_unrolls [] hitems hbody rfl _ true _).mpr ⟨3, by decide +kernel⟩
  · exact (each_unrolls [] hall hbody rfl _ true _).mpr ⟨3, by decide +kernel⟩

end StackWords
