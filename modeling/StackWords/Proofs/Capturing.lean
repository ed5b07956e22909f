import StackWords.Proofs.Unfinished

/-! # What a list start takes

The tokens up to a list end are taken in one pass with a counter of the lists that
are open. It comes to what the grammar says: the tokens taken are balanced, and
no other way to cut them off is. While the pass goes on the counter is the number
of list starts less the number of list ends, and only literals are counted.
-/
namespace StackWords.Instruction

open Value

variable {depth : Nat} {ts front items rest : List Value}

/-- Tokens among which no list end comes too early are passed over, and the counter has gone up by
their list starts and down by their list ends. -/
theorem capture_append
    (h : ∀ part, part <+: front → part.count listEnd ≤ depth + part.count listStart)
    (more : List Value) :
    capture depth (front ++ more) =
      (capture (depth + front.count listStart - front.count listEnd) more).map
        (Prod.map (front ++ ·) id) := by
  have hcons : ∀ (t : Value) (front : List Value) (taken : Option (List Value × List Value)),
      (taken.map (Prod.map (front ++ ·) id)).map (Prod.map (t :: ·) id) =
        taken.map (Prod.map (t :: front ++ ·) id) := by
    intro t front taken
    cases taken <;> rfl
  induction front generalizing depth with
  | nil =>
    simp only [List.nil_append, List.count_nil, Nat.add_zero, Nat.sub_zero]
    cases capture depth more <;> rfl
  | cons t front ih =>
    have hrest : ∀ part, part <+: front →
        (t :: part).count listEnd ≤ depth + (t :: part).count listStart :=
      fun part hp => h (t :: part) (List.cons_prefix_cons.mpr ⟨rfl, hp⟩)
    by_cases hs : t = listStart
    · subst hs
      have hne : listStart ≠ listEnd := by decide
      simp only [List.count_cons_self, List.count_cons_of_ne hne] at hrest ⊢
      have hdeeper : ∀ part, part <+: front →
          part.count listEnd ≤ depth + 1 + part.count listStart := by
        intro part hp
        have hle := hrest part hp
        omega
      have hcount : depth + 1 + front.count listStart - front.count listEnd =
          depth + (front.count listStart + 1) - front.count listEnd := by omega
      rw [List.cons_append, capture_start, ih hdeeper, hcons, hcount]
    · by_cases he : t = listEnd
      · subst he
        simp only [List.count_cons_self, List.count_cons_of_ne hs] at hrest ⊢
        -- With no list open the prefix of this list end alone would have one too many.
        obtain _ | depth := depth
        · have hfirst := hrest [] List.nil_prefix
          simp at hfirst
        · have hlower : ∀ part, part <+: front →
              part.count listEnd ≤ depth + part.count listStart := by
            intro part hp
            have hle := hrest part hp
            omega
          have hcount : depth + front.count listStart - front.count listEnd =
              depth + 1 + front.count listStart - (front.count listEnd + 1) := by omega
          rw [List.cons_append, capture_end, ih hlower, hcons, hcount]
      · simp only [List.count_cons_of_ne hs, List.count_cons_of_ne he] at hrest ⊢
        rw [List.cons_append, capture_other hs he, ih hrest, hcons]

/-- As far as the pass goes no list end comes too early: the first one that does ends it. -/
theorem count_le_of_passed {more : List Value}
    (h : ∀ items rest, capture 0 (front ++ more) = some (items, rest) → front <+: items)
    {part : List Value} (hp : part <+: front) : part.count listEnd ≤ 0 + part.count listStart := by
  by_contra hearly
  obtain ⟨items, behind, rfl, hitems, -⟩ :=
    exists_stray_of_count ⟨part, hp, Nat.not_le.mp hearly⟩
  have htaken : capture 0 (items ++ listEnd :: behind ++ more) = some (items, behind ++ more) := by
    refine capture_eq_some_iff.mpr ⟨by simp, balanced_iff_unwind.mpr hitems⟩
  have hlength := (h items _ htaken).length_le
  simp only [List.length_append, List.length_cons] at hlength
  omega

theorem map_eq_literal_iff {f : Value → Value} (hliteral : ∀ text, f (.literal text) = .literal text)
    (hother : ∀ v, v.isLiteral = false → (f v).isLiteral = false) {t : Value} {text : String} :
    f t = .literal text ↔ t = .literal text := by
  cases hl : t.isLiteral with
  | true =>
    obtain ⟨other, rfl⟩ := Standard.isLiteral_iff.mp hl
    rw [hliteral]
  | false =>
    have hf := hother t hl
    have hne : ∀ v : Value, v.isLiteral = false → v ≠ .literal text := by
      rintro _ hv rfl
      cases hv
    exact iff_of_false (hne _ hf) (hne _ hl)

/-- What tokens hold or look like does not matter unless they are literals. -/
theorem capture_map {f : Value → Value} (hliteral : ∀ text, f (.literal text) = .literal text)
    (hother : ∀ v, v.isLiteral = false → (f v).isLiteral = false) (depth : Nat)
    (ts : List Value) :
    capture depth (ts.map f) = (capture depth ts).map (Prod.map (List.map f) (List.map f)) := by
  have hcons : ∀ (t : Value) (taken : Option (List Value × List Value)),
      (taken.map (Prod.map (List.map f) (List.map f))).map (Prod.map (f t :: ·) id) =
        (taken.map (Prod.map (t :: ·) id)).map (Prod.map (List.map f) (List.map f)) := by
    intro t taken
    cases taken <;> rfl
  fun_induction capture depth ts with
  | case1 depth => rfl
  | case2 depth ts ih =>
    have hf : f listStart = listStart := hliteral "("
    rw [List.map_cons, ← hcons, ← ih, hf, capture_start]
  | case3 ts hs =>
    have hf : f listEnd = listEnd := hliteral ")"
    rw [List.map_cons, hf, capture_zero_end]
    rfl
  | case4 ts depth hs ih =>
    have hf : f listEnd = listEnd := hliteral ")"
    rw [List.map_cons, ← hcons, ← ih, hf, capture_end]
  | case5 depth t ts hs he ih =>
    have hs' : f t ≠ listStart := mt (map_eq_literal_iff hliteral hother).mp hs
    have he' : f t ≠ listEnd := mt (map_eq_literal_iff hliteral hother).mp he
    rw [List.map_cons, ← hcons, ← ih, capture_other hs' he']

/-- Tokens behind a list start hold a list: its items, which are balanced, then a list end and the
tokens behind it. -/
def HoldsList (ts items rest : List Value) : Prop :=
  ts = items ++ .listEnd :: rest ∧ Value.Balanced items

theorem read_listStart_eq_ok {i : Instruction} :
    read .listStart ts = .ok (i, rest) ↔
      ∃ items, HoldsList ts items rest ∧ i = .push (.list items) := by
  constructor
  · intro hread
    cases hc : capture 0 ts with
    | none =>
      rw [read_openList hc] at hread
      cases hread
    | some list =>
      obtain ⟨items, behind⟩ := list
      obtain ⟨rfl, hitems⟩ := capture_eq_some_iff.mp hc
      rw [read_quoted hitems behind] at hread
      cases hread
      exact ⟨items, ⟨rfl, hitems⟩, rfl⟩
  · rintro ⟨items, ⟨rfl, hitems⟩, rfl⟩
    exact read_quoted hitems rest

theorem read_listStart_eq_error {e : Error} :
    read .listStart ts = .error e ↔
      (¬ ∃ items rest, HoldsList ts items rest) ∧ e = Cause.openList := by
  cases hc : capture 0 ts with
  | none =>
    have hnone : ¬ ∃ items rest, HoldsList ts items rest := by
      rintro ⟨items, rest, hlist⟩
      cases hc.symm.trans (capture_eq_some_iff.mpr hlist)
    rw [read_openList hc]
    simp [hnone, eq_comm]
  | some list =>
    obtain ⟨items, rest⟩ := list
    obtain ⟨rfl, hitems⟩ := capture_eq_some_iff.mp hc
    rw [read_quoted hitems rest]
    refine iff_of_false (by simp) ?_
    rintro ⟨hnone, -⟩
    exact hnone ⟨items, rest, rfl, hitems⟩

/-- A list start takes just the tokens that make up a list, of which there is one choice at most,
and fails if there is none. On the way the counter of open lists is the number of list starts less
the number of list ends, which never prevail, and only literals count. -/
theorem list_start_takes_balanced_tokens (ts : List Value) :
    (∀ items rest, capture 0 ts = some (items, rest) ↔ HoldsList ts items rest) ∧
    (∀ items rest items' rest', HoldsList ts items rest → HoldsList ts items' rest' →
      items' = items ∧ rest' = rest) ∧
    (∀ i rest, read .listStart ts = .ok (i, rest) ↔
      ∃ items, HoldsList ts items rest ∧ i = .push (.list items)) ∧
    (∀ e, read .listStart ts = .error e ↔
      (¬ ∃ items rest, HoldsList ts items rest) ∧ e = Cause.openList) ∧
    Error.message Cause.openList = "unmatched opening parenthesis" ∧
    (∀ front more, ts = front ++ more →
      (∀ items rest, capture 0 ts = some (items, rest) → front <+: items) →
      front.count listEnd ≤ front.count listStart ∧
      capture 0 ts = (capture (front.count listStart - front.count listEnd) more).map
        (Prod.map (front ++ ·) id)) ∧
    ∀ f : Value → Value, (∀ text, f (.literal text) = .literal text) →
      (∀ v, v.isLiteral = false → (f v).isLiteral = false) →
      capture 0 (ts.map f) = (capture 0 ts).map (Prod.map (List.map f) (List.map f)) := by
  refine ⟨fun items rest => capture_eq_some_iff, ?_, fun i rest => read_listStart_eq_ok,
    fun e => read_listStart_eq_error, rfl, ?_,
    fun f hliteral hother => capture_map hliteral hother 0 ts⟩
  · intro items rest items' rest' hlist hlist'
    have htaken := capture_eq_some_iff.mpr hlist
    rw [capture_eq_some_iff.mpr hlist'] at htaken
    simpa using htaken
  · rintro front more rfl hpassed
    have hcount : ∀ part, part <+: front → part.count listEnd ≤ 0 + part.count listStart :=
      fun part hp => count_le_of_passed hpassed hp
    have htaken := capture_append hcount more
    have hall := hcount front (List.prefix_refl front)
    rw [Nat.zero_add] at htaken hall
    exact ⟨hall, htaken⟩

theorem list_around_list_and_object_of_parens :
    let marks : Value := .list [.listStart, .listStart]
    let mark : Value := .object ⟨7, "Mark", ")"⟩
    let items := [.literal "a", .listStart, marks, mark, .listEnd, mark, .literal "(b"]
    let rest := [.listEnd, .literal "c"]
    let blur := fun v : Value => if v.isLiteral then v else .list []
    capture 0 (items ++ .listEnd :: rest) = some (items, rest) ∧
      (∀ items' rest', HoldsList (items ++ .listEnd :: rest) items' rest' →
        items' = items ∧ rest' = rest) ∧
      capture 0 ((items ++ .listEnd :: rest).map blur) = some (items.map blur, rest) ∧
      capture 0 (items ++ .listEnd :: rest) =
        (capture 1 (marks :: (items.drop 3 ++ .listEnd :: rest))).map
          (Prod.map ([.literal "a", .listStart] ++ ·) id) ∧
      (¬ ∃ items' rest', HoldsList (items ++ [marks]) items' rest') ∧
      read .listStart (items ++ [marks]) = .error Cause.openList := by
  intro marks mark items rest blur
  have htaken : capture 0 (items ++ .listEnd :: rest) = some (items, rest) := by decide +kernel
  obtain ⟨hlists, hunique, -, -, -, hcounter, hblur⟩ :=
    list_start_takes_balanced_tokens (items ++ .listEnd :: rest)
  have hopen : read .listStart (items ++ [marks]) = .error Cause.openList := by decide +kernel
  obtain ⟨-, -, -, hfails, -⟩ := list_start_takes_balanced_tokens (items ++ [marks])
  have hlist := (hlists items rest).mp htaken
  refine ⟨htaken, fun items' rest' hlist' => hunique items rest items' rest' hlist hlist', ?_, ?_,
    ((hfails _).mp hopen).1, hopen⟩
  · have hliteral : ∀ text, blur (.literal text) = .literal text := fun _ => rfl
    have hother : ∀ v, v.isLiteral = false → (blur v).isLiteral = false := by
      intro v hv
      simp only [blur, hv, Bool.false_eq_true, ↓reduceIte]
      rfl
    have hmap := hblur blur hliteral hother
    rw [htaken] at hmap
    exact hmap
  · refine (hcounter [.literal "a", .listStart] _ rfl ?_).2
    intro items' rest' hitems
    obtain ⟨rfl, -⟩ := hunique items rest items' rest' hlist ((hlists _ _).mp hitems)
    exact ⟨items.drop 2, rfl⟩

end StackWords.Instruction
