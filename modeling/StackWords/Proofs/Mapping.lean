import StackWords.Proofs.Frozen
import StackWords.Proofs.Inlining

/-! # Mapping a list over items

The word that maps runs its list on the values set aside by its caller and finds
out by counting which of them the list added. The list cannot tell: it ends as it
would by itself, with nothing set aside before. So each item has a program of its
own, and only the variables pass from one item to the next.
-/
namespace StackWords

theorem Dictionary.endsWith_true (d : Dictionary) (tokens : List Value) (c : Context) :
    d.EndsWith tokens c true = Results.map Context.unfreeze (d.EndsWith tokens c false) := by
  funext result
  exact propext endsWith_true_iff

/-- The contexts that a list leaves if it runs by itself on one item after the other. The first
variables are those before the first item, the last ones are left behind the last item. -/
inductive ItemRuns (d : Dictionary) (body : List Value) (c : Context) :
    Variables → List Value → List Context → Variables → Prop where
  | nil {vars : Variables} : ItemRuns d body c vars [] [] vars
  | cons {vars last : Variables} {item : Value} {items : List Value} {after : Context}
      {afters : List Context}
      (head : d.EndsWith body { c with stack := [item], vars, frozen := [] } true (.ok after))
      (tail : ItemRuns d body c after.vars items afters last) :
      ItemRuns d body c vars (item :: items) (after :: afters) last

/-- A list fails on one of some items, and on none in front of it. -/
def ItemFails (d : Dictionary) (body : List Value) (c : Context) (vars : Variables)
    (items : List Value) (e : Error) : Prop :=
  ∃ done item rest afters last, items = done ++ item :: rest ∧
    ItemRuns d body c vars done afters last ∧
    d.EndsWith body { c with stack := [item], vars := last, frozen := [] } true (.error e)

section Items

variable {d : Dictionary} {body items : List Value} {c : Context} {vars : Variables} {item : Value}
variable {e : Error}

theorem ItemFails.head
    (h : d.EndsWith body { c with stack := [item], vars, frozen := [] } true (.error e)) :
    ItemFails d body c vars (item :: items) e :=
  ⟨[], item, items, [], vars, rfl, .nil, h⟩

theorem ItemFails.tail {after : Context}
    (h : d.EndsWith body { c with stack := [item], vars, frozen := [] } true (.ok after))
    (hrest : ItemFails d body c after.vars items e) :
    ItemFails d body c vars (item :: items) e := by
  obtain ⟨done, failing, rest, afters, last, rfl, hruns, hfail⟩ := hrest
  exact ⟨item :: done, failing, rest, after :: afters, last, rfl, .cons h hruns, hfail⟩

theorem itemFails_nil : ¬ ItemFails d body c vars [] e := by
  rintro ⟨done, item, rest, afters, last, hitems, -⟩
  cases done <;> cases hitems

theorem itemFails_cons (h : ItemFails d body c vars (item :: items) e) :
    d.EndsWith body { c with stack := [item], vars, frozen := [] } true (.error e) ∨
      ∃ after, d.EndsWith body { c with stack := [item], vars, frozen := [] } true (.ok after) ∧
        ItemFails d body c after.vars items e := by
  obtain ⟨done, failing, rest, afters, last, hitems, hruns, hfail⟩ := h
  cases hruns with
  | nil =>
    cases hitems
    exact Or.inl hfail
  | cons hhead htail =>
    cases hitems
    exact Or.inr ⟨_, hhead, _, _, _, _, _, rfl, htail, hfail⟩

end Items

namespace Standard

variable {extra : List Word} {tokens : List Value} {c : Context}

theorem endsWith_of_underlay (hx : ∀ w ∈ extra, w.IsMacro ∨ w.isSimple) {below : Stack}
    {result : Except Error Context}
    (h : (extendedBy extra).EndsWith tokens (c.underlay below) false result) :
    ∃ before, (extendedBy extra).EndsWith tokens c false before ∧
      result = before.map fun after => after.underlay below := by
  obtain ⟨depth, h⟩ := h
  -- The coupling of both runs is used from the run with more values set aside to the other one.
  have hC := (coupling_underlaid below c.initial c.features).flip
  have hrun := run_followedBy hC (by rintro _ a ⟨rfl, -, -⟩; rfl) hx depth tokens
    (c.underlay below) c ⟨rfl, rfl, rfl⟩
  rw [h] at hrun
  cases result with
  | ok after =>
    obtain ⟨before, hok, rfl, -⟩ := hrun
    exact ⟨.ok before, ⟨depth, hok⟩, rfl⟩
  | error e =>
    obtain ⟨e', herr, rfl⟩ := hrun
    exact ⟨.error e, ⟨depth, herr⟩, rfl⟩

/-- With further values set aside a program has the results that it has without, over them. -/
theorem endsWith_underlay_eq (hx : ∀ w ∈ extra, w.IsMacro ∨ w.isSimple) (tokens : List Value)
    (c : Context) (below : Stack) :
    (extendedBy extra).EndsWith tokens (c.underlay below) false =
      Results.map (fun after => after.underlay below)
        ((extendedBy extra).EndsWith tokens c false) := by
  funext result
  apply propext
  constructor
  · exact endsWith_of_underlay hx
  · rintro ⟨before, h, rfl⟩
    cases before with
    | ok after => exact (endsWith_underlay hx below h).1
    | error e => exact endsWith_underlay_error hx below h

/-- The values that a list leaves or sets aside over those of the caller are what it ends with by
itself, where all values set aside are put back. -/
theorem yields_mapItem (hx : ∀ w ∈ extra, w.IsMacro ∨ w.isSimple) (c : Context)
    (body : List Value) (vars : Variables) (item : Value) :
    (extendedBy extra).Yields (mapItem c body vars item) =
      Results.map (fun after => (after.vars, after.stack))
        ((extendedBy extra).EndsWith body { c with stack := [item], vars, frozen := [] } true) := by
  have hfresh : ∀ after : Context, (after.underlay c.frozen).stack ++
      (after.underlay c.frozen).frozen.take
        ((after.underlay c.frozen).frozen.length - c.frozen.length) = after.unfreeze.stack := by
    intro after
    simp only [Context.underlay, Context.unfreeze, List.length_append, Nat.add_sub_cancel,
      List.take_left]
  have hunder : { c with stack := [item], vars } =
      ({ c with stack := [item], vars, frozen := [] } : Context).underlay c.frozen := rfl
  calc (extendedBy extra).Yields (mapItem c body vars item)
      = Results.map (fun after => (after.vars, after.stack ++
          after.frozen.take (after.frozen.length - c.frozen.length)))
          ((extendedBy extra).EndsWith body { c with stack := [item], vars } false) := by
        rw [mapItem, Dictionary.yields_bind_pure, Dictionary.yields_body]
    _ = Results.map (fun after => (after.unfreeze.vars, after.unfreeze.stack))
          ((extendedBy extra).EndsWith body
            { c with stack := [item], vars, frozen := [] } false) := by
        rw [hunder, endsWith_underlay_eq hx, Results.map_map]
        simp only [hfresh]
        rfl
    _ = _ := by rw [Dictionary.endsWith_true, Results.map_map]

theorem yields_mapItems (hx : ∀ w ∈ extra, w.IsMacro ∨ w.isSimple) (c : Context)
    (body items : List Value) (vars : Variables) (collected : Stack)
    (result : Except Error (Variables × Stack)) :
    (extendedBy extra).Yields (mapItems c body items vars collected) result ↔
      (∃ afters last, ItemRuns (extendedBy extra) body c vars items afters last ∧
        result = .ok (last, (afters.flatMap fun a => a.stack.reverse).reverse ++ collected)) ∨
      ∃ e, ItemFails (extendedBy extra) body c vars items e ∧ result = .error e := by
  induction items generalizing vars collected with
  | nil =>
    have hdone := congrFun ((extendedBy extra).yields_done (.ok (vars, collected))) result
    rw [mapItems]
    refine (iff_of_eq hdone).trans ?_
    constructor
    · rintro rfl
      exact Or.inl ⟨[], vars, .nil, rfl⟩
    · rintro (⟨_, _, hruns, rfl⟩ | ⟨e, hfail, -⟩)
      · cases hruns
        rfl
      · exact absurd hfail itemFails_nil
  | cons item items ih =>
    have hcollect : ∀ (after : Context) (afters : List Context),
        ((after :: afters).flatMap fun a => a.stack.reverse).reverse ++ collected =
          (afters.flatMap fun a => a.stack.reverse).reverse ++ (after.stack ++ collected) := by
      intro after afters
      simp only [List.flatMap_cons, List.reverse_append, List.reverse_reverse, List.append_assoc]
    rw [mapItems, Dictionary.yields_bind, yields_mapItem hx]
    constructor
    · rintro (⟨_, ⟨before, hbefore, hok⟩, hrest⟩ | ⟨e, ⟨before, hbefore, herr⟩, rfl⟩)
      · cases before with
        | error e => cases hok
        | ok after =>
          cases hok
          rcases (ih after.vars (after.stack ++ collected)).mp hrest with
            ⟨afters, last, hruns, rfl⟩ | ⟨e, hfail, rfl⟩
          · exact Or.inl ⟨after :: afters, last, .cons hbefore hruns, by rw [hcollect]⟩
          · exact Or.inr ⟨e, .tail hbefore hfail, rfl⟩
      · cases before with
        | ok after => cases herr
        | error e' =>
          cases herr
          exact Or.inr ⟨e, .head hbefore, rfl⟩
    · rintro (⟨_, last, hruns, rfl⟩ | ⟨e, hfail, rfl⟩)
      · cases hruns with
        | @cons _ _ _ _ after afters hhead htail =>
          refine Or.inl ⟨(after.vars, after.stack), ⟨.ok after, hhead, rfl⟩, ?_⟩
          exact (ih _ _).mpr (Or.inl ⟨afters, last, htail, by rw [hcollect]⟩)
      · rcases itemFails_cons hfail with hhead | ⟨after, hhead, htail⟩
        · exact Or.inr ⟨e, ⟨.error e, hhead, rfl⟩, rfl⟩
        · refine Or.inl ⟨(after.vars, after.stack), ⟨.ok after, hhead, rfl⟩, ?_⟩
          exact (ih _ _).mpr (Or.inr ⟨e, htail, rfl⟩)

theorem leads_map : Leads "map" topAreLists (.onContext map) := ⟨_, _, rfl, rfl, rfl, rfl⟩

/-- Mapping runs its list on each item as a program by itself, with nothing set aside before and
everything put back at the end. What these programs leave makes up one list, the variables pass from
one to the next, and the values that the caller has set aside stay as they are. The first failure of
a program is the failure of the word. -/
theorem map_runs_items_as_programs (hx : ∀ w ∈ extra, w.IsMacro ∨ w.isSimple) {c : Context}
    {body items : List Value} {below : Stack}
    (hstack : c.stack = .list body :: .list items :: below) (result : Except Error Context) :
    (extendedBy extra).EndsWith [.literal ":map"] c false result ↔
      (∃ afters last, ItemRuns (extendedBy extra) body c c.vars items afters last ∧
        result = .ok { c with stack := .list (afters.flatMap fun a => a.stack.reverse) :: below
                              vars := last }) ∨
      ∃ e, ItemFails (extendedBy extra) body c c.vars items e ∧ result = .error e := by
  have haccepts : topAreLists c.stack := topAreLists_iff.mpr ⟨body, items, below, hstack⟩
  have hmap : map c = mapItems c body items c.vars [] >>= fun p =>
      pure { c with stack := .list p.2.reverse :: below, vars := p.1 } := by
    simp only [map, hstack]
  have hword : (extendedBy extra).EndsWith [.literal ":map"] c false =
      Results.map (fun p => { c with stack := .list p.2.reverse :: below, vars := p.1 })
        ((extendedBy extra).Yields (mapItems c body items c.vars [])) := by
    have hlead := endsWith_word leads_map extra haccepts [] false
    simp only [Dictionary.endsWith_nil] at hlead
    rw [Action.apply, hmap, Dictionary.yields_bind_pure, Results.bind_ok _ fun next => next,
      Results.map_map] at hlead
    exact hlead
  rw [hword]
  constructor
  · rintro ⟨before, hbefore, rfl⟩
    rcases (yields_mapItems hx c body items c.vars [] before).mp hbefore with
      ⟨afters, last, hruns, rfl⟩ | ⟨e, hfail, rfl⟩
    · refine Or.inl ⟨afters, last, hruns, ?_⟩
      simp only [Except.map, List.append_nil, List.reverse_reverse]
    · exact Or.inr ⟨e, hfail, rfl⟩
  · rintro (⟨afters, last, hruns, rfl⟩ | ⟨e, hfail, rfl⟩)
    · refine ⟨_, (yields_mapItems hx c body items c.vars [] _).mpr
        (Or.inl ⟨afters, last, hruns, rfl⟩), ?_⟩
      simp only [Except.map, List.append_nil, List.reverse_reverse]
    · exact ⟨.error e, (yields_mapItems hx c body items c.vars [] _).mpr
        (Or.inr ⟨e, hfail, rfl⟩), rfl⟩

theorem map_of_freezing_list_resets_variables :
    let stash : Macro := ⟨"stash", [.literal "x", .literal ":freeze"]⟩
    let d := extendedBy [stash.toWord]
    let body := [":dup", ":get", ":drop", ":stash", "z"].map Value.literal
    let c := fun items : List Value => { stack := [.list body, .list items, .literal "s"]
                                         vars := .ofList [("n", .literal "1")]
                                         frozen := [.literal "f"] : Context }
    d.EndsWith [.literal ":map"] (c [.literal "n"]) false
        (.ok { stack := [.list (["n", "x", "z"].map Value.literal), .literal "s"]
               frozen := [.literal "f"] }) ∧
      d.EndsWith [.literal ":map"] (c [.literal "n", .literal "n"]) false
        (.error (Cause.unknownVariable "n")) := by
  intro stash d body c
  have hx : ∀ w ∈ [stash.toWord], w.IsMacro ∨ w.isSimple := by
    intro w hw
    cases List.mem_singleton.mp hw
    exact Or.inl ⟨stash, true, [], rfl⟩
  have hfirst : d.EndsWith body { stack := [.literal "n"], vars := (c []).vars } true
      (.ok { stack := ["z", "x", "n"].map Value.literal }) :=
    ⟨2, by decide +kernel⟩
  -- The list sets values aside, so the second item does not find the variable any more.
  have hruns : ∀ items, ItemRuns d body (c items) (c items).vars [.literal "n"]
      [{ stack := ["z", "x", "n"].map Value.literal }] .empty :=
    fun items => .cons hfirst .nil
  have hfails : ItemFails d body (c [.literal "n", .literal "n"]) (c []).vars
      [.literal "n", .literal "n"] (Cause.unknownVariable "n") :=
    ⟨[.literal "n"], .literal "n", [], _, _, rfl, hruns _, 2, by decide +kernel⟩
  constructor
  · exact (map_runs_items_as_programs hx rfl _).mpr (Or.inl ⟨_, _, hruns _, rfl⟩)
  · exact (map_runs_items_as_programs hx rfl _).mpr (Or.inr ⟨_, hfails, rfl⟩)

end Standard

end StackWords
