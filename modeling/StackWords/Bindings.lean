/-! # Bindings of names

A finite map from names to values, kept as a list in strictly increasing order
of the names. Two such maps are equal exactly when they bind the same names to
the same values.
-/
namespace StackWords

abbrev NamesIncrease {α : Type} (entries : List (String × α)) : Prop :=
  entries.Pairwise fun a b => a.1 < b.1

structure Bindings (α : Type) where
  entries : List (String × α)
  increasing : NamesIncrease entries

namespace Bindings

variable {α : Type}

instance [DecidableEq α] : DecidableEq (Bindings α) := fun a b =>
  decidable_of_iff (a.entries = b.entries) (by cases a; cases b; simp)

def empty : Bindings α := ⟨[], .nil⟩

instance : Inhabited (Bindings α) := ⟨empty⟩

def size (b : Bindings α) : Nat := b.entries.length

def names (b : Bindings α) : List String := b.entries.map Prod.fst

def get? (b : Bindings α) (name : String) : Option α := b.entries.lookup name

/-- Inserts an entry in order, in place of one with the same name. -/
def insertEntry (name : String) (value : α) : List (String × α) → List (String × α)
  | [] => [(name, value)]
  | (other, old) :: rest =>
    if name < other then (name, value) :: (other, old) :: rest
    else if name = other then (name, value) :: rest
    else (other, old) :: insertEntry name value rest

theorem mem_insertEntry {name : String} {value : α} {entries : List (String × α)}
    {entry : String × α} (h : entry ∈ insertEntry name value entries) :
    entry = (name, value) ∨ entry ∈ entries := by
  fun_induction insertEntry name value entries <;> grind

theorem namesIncrease_insertEntry (name : String) (value : α) {entries : List (String × α)}
    (h : NamesIncrease entries) : NamesIncrease (insertEntry name value entries) := by
  fun_induction insertEntry name value entries with
  | case1 => simp [NamesIncrease]
  | case2 other old rest hlt =>
    rw [NamesIncrease, List.pairwise_cons] at h ⊢
    refine ⟨fun entry hmem => ?_, List.pairwise_cons.mpr h⟩
    rcases List.mem_cons.mp hmem with rfl | hmem
    · exact hlt
    · exact String.lt_trans hlt (h.1 entry hmem)
  | case3 =>
    rw [NamesIncrease, List.pairwise_cons] at h ⊢
    exact h
  | case4 other old rest hlt hne ih =>
    rw [NamesIncrease, List.pairwise_cons] at h ⊢
    refine ⟨fun entry hmem => ?_, ih h.2⟩
    rcases mem_insertEntry hmem with rfl | hmem
    · exact String.not_le.mp fun hle => hne (String.le_antisymm hle (String.not_lt.mp hlt))
    · exact h.1 entry hmem

def insert (b : Bindings α) (name : String) (value : α) : Bindings α :=
  ⟨insertEntry name value b.entries, namesIncrease_insertEntry name value b.increasing⟩

def erase (b : Bindings α) (name : String) : Bindings α :=
  ⟨b.entries.filter fun entry => entry.1 != name, b.increasing.filter _⟩

/-- Binds names from the first entry to the last, so a later entry wins. -/
def ofList (entries : List (String × α)) : Bindings α :=
  entries.foldl (fun b entry => b.insert entry.1 entry.2) empty

@[simp] theorem get?_empty (name : String) : (empty : Bindings α).get? name = none := rfl

/-- Looking a name up compares it with the names from the first on. -/
theorem lookup_entry (name key : String) (value : α) (rest : List (String × α)) :
    ((key, value) :: rest).lookup name = if name = key then some value else rest.lookup name := by
  rw [List.lookup_cons]
  by_cases h : name = key
  · simp [h]
  · have hb : (name == key) = false := by simpa using h
    simp [h, hb]

theorem lookup_insertEntry (name other : String) (value : α) (entries : List (String × α)) :
    (insertEntry name value entries).lookup other =
      if other = name then some value else entries.lookup other := by
  fun_induction insertEntry name value entries <;> grind [lookup_entry]

/-- After a binding the name has the value, and every other name has what it had. -/
theorem get?_insert (b : Bindings α) (name other : String) (value : α) :
    (b.insert name value).get? other = if other = name then some value else b.get? other :=
  lookup_insertEntry name other value b.entries

theorem lookup_filter_ne (name other : String) (entries : List (String × α)) :
    (entries.filter fun entry => entry.1 != name).lookup other =
      if other = name then none else entries.lookup other := by
  induction entries with
  | nil => simp
  | cons entry rest ih =>
    obtain ⟨key, value⟩ := entry
    by_cases hk : key = name
    · subst hk
      simp only [bne_self_eq_false, Bool.false_eq_true, not_false_eq_true,
        List.filter_cons_of_neg, ih, lookup_entry]
      split <;> rfl
    · have hb : (key != name) = true := by simpa using hk
      simp only [hb, List.filter_cons_of_pos, lookup_entry, ih]
      split <;> grind

/-- After a removal the name has no value, and every other name has what it had. -/
theorem get?_erase (b : Bindings α) (name other : String) :
    (b.erase name).get? other = if other = name then none else b.get? other :=
  lookup_filter_ne name other b.entries

theorem get?_foldl_insert (b : Bindings α) (entries : List (String × α)) (name : String) :
    (entries.foldl (fun b entry => b.insert entry.1 entry.2) b).get? name =
      (entries.reverse.lookup name).or (b.get? name) := by
  induction entries generalizing b with
  | nil => rfl
  | cons entry rest ih =>
    rw [List.foldl_cons, ih, get?_insert, List.reverse_cons, List.lookup_append, lookup_entry,
      Option.or_assoc]
    split <;> rfl

/-- A name is bound to what its last entry says. -/
theorem get?_ofList (entries : List (String × α)) (name : String) :
    (ofList entries).get? name = entries.reverse.lookup name := by
  rw [ofList, get?_foldl_insert, get?_empty, Option.or_none]

theorem lookup_map_snd {β : Type} (f : α → β) (entries : List (String × α)) (name : String) :
    (entries.map fun entry => (entry.1, f entry.2)).lookup name =
      (entries.lookup name).map f := by
  induction entries with
  | nil => rfl
  | cons entry rest ih =>
    rw [List.map_cons, lookup_entry, lookup_entry, ih]
    split <;> rfl

end Bindings

end StackWords
