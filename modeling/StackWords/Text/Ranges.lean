/-! # Ranges of code points

Properties of characters are tables of ranges in increasing order. The tables
follow version 17 of Unicode.
-/
namespace StackWords.Text

def firstsIncrease : List (Nat × Nat) → Bool
  | a :: b :: rest => a.1 < b.1 && firstsIncrease (b :: rest)
  | _ => true

structure Ranges where
  ranges : List (Nat × Nat)
  increasing : firstsIncrease ranges

theorem firstsIncrease_cons {a : Nat × Nat} {rest : List (Nat × Nat)}
    (h : firstsIncrease (a :: rest)) :
    (∀ range ∈ rest, a.1 < range.1) ∧ firstsIncrease rest := by
  induction rest generalizing a with
  | nil => exact ⟨fun range hmem => absurd hmem List.not_mem_nil, rfl⟩
  | cons b rest ih =>
    rw [firstsIncrease, Bool.and_eq_true, decide_eq_true_eq] at h
    obtain ⟨hab, hrest⟩ := h
    refine ⟨fun range hmem => ?_, hrest⟩
    rcases List.mem_cons.mp hmem with rfl | hmem
    · exact hab
    · exact Nat.lt_trans hab ((ih hrest).1 range hmem)

namespace Ranges

/-- Looks a code point up. The first range above it ends the search. -/
def search : List (Nat × Nat) → Nat → Bool
  | [], _ => false
  | (first, last) :: rest, n => first ≤ n && (n ≤ last || search rest n)

def contain (table : Ranges) (n : Nat) : Bool := search table.ranges n

theorem search_iff {ranges : List (Nat × Nat)} (h : firstsIncrease ranges) (n : Nat) :
    search ranges n = true ↔ ∃ range ∈ ranges, range.1 ≤ n ∧ n ≤ range.2 := by
  induction ranges with
  | nil => simp [search]
  | cons range rest ih =>
    obtain ⟨first, last⟩ := range
    obtain ⟨hfirst, hrest⟩ := firstsIncrease_cons h
    simp only [search, Bool.and_eq_true, Bool.or_eq_true, decide_eq_true_eq, ih hrest,
      List.mem_cons, exists_eq_or_imp]
    constructor
    · rintro ⟨hle, hlast | hlater⟩
      · exact .inl ⟨hle, hlast⟩
      · exact .inr hlater
    · rintro (⟨hle, hlast⟩ | ⟨range, hmem, hrange⟩)
      · exact ⟨hle, .inl hlast⟩
      · exact ⟨Nat.le_trans (Nat.le_of_lt (hfirst range hmem)) hrange.1, .inr ⟨range, hmem, hrange⟩⟩

/-- Nothing is missed by ending the search early. -/
theorem contain_iff (table : Ranges) (n : Nat) :
    table.contain n = true ↔ ∃ range ∈ table.ranges, range.1 ≤ n ∧ n ≤ range.2 :=
  search_iff table.increasing n

end Ranges

end StackWords.Text
