import Mathlib.Data.List.Rotate
import StackWords.Proofs.Turning

/-! # Rotating a stack

Three words move a value to the other end: from the bottom to the top, from the top to
the bottom, and from a position to the top. Each rotates the values it moves among, so
repeating it often enough brings the stack back, and the values below a position stay
where they are.
-/
namespace StackWords.Standard

theorem leads_rotate : Leads "rot" (atLeast 1) (.onStack rotate) := ⟨_, _, rfl, rfl, rfl, rfl⟩

theorem leads_rotateBack : Leads "-rot" (atLeast 1) (.onStack rotateBack) :=
  ⟨_, _, rfl, rfl, rfl, rfl⟩

theorem leads_roll : Leads "roll" topIsPosition (.onStack roll) := ⟨_, _, rfl, rfl, rfl, rfl⟩

variable {stack top below : Stack} {k : Nat}

theorem rotate_eq (h : stack ≠ []) : rotate stack = .ok (stack.rotate (stack.length - 1)) := by
  rcases List.eq_nil_or_concat stack with rfl | ⟨init, bottom, rfl⟩
  · exact absurd rfl h
  · rw [List.concat_eq_append, rotate, Sequence.popLast?_concat]
    simp only [List.length_append, List.length_singleton, Nat.add_sub_cancel]
    rw [List.rotate_append_length_eq, List.singleton_append]

theorem rotateBack_eq (h : stack ≠ []) : rotateBack stack = .ok (stack.rotate 1) := by
  cases stack with
  | nil => exact absurd rfl h
  | cons a rest => rw [rotateBack, List.rotate_cons_succ, List.rotate_zero]

/-- The value at a position comes on top of those above it. -/
theorem roll_eq (hk : Text.IsWord k) (htop : top.length = k + 1) :
    roll (.numeral k :: (top ++ below)) = .ok (top.rotate k ++ below) := by
  rcases List.eq_nil_or_concat top with rfl | ⟨init, a, rfl⟩
  · cases htop
  · rw [List.concat_eq_append, List.length_append, List.length_singleton] at htop
    obtain rfl : init.length = k := Nat.succ.inj htop
    rw [List.concat_eq_append, roll, popCount_cons (Value.count?_numeral hk),
      List.rotate_append_length_eq]
    simp [Sequence.removeAt?, List.eraseIdx_append_of_length_le]

section Turning

variable (extra : List Word)

theorem turns_rotate (h : stack ≠ []) :
    (extendedBy extra).Turns [.literal ":rot"] stack (stack.rotate (stack.length - 1)) := by
  have haccepts := atLeast_one_iff.mpr (List.exists_cons_of_ne_nil h)
  exact turns_simple leads_rotate extra haccepts (rotate_eq h)

theorem turns_rotateBack (h : stack ≠ []) :
    (extendedBy extra).Turns [.literal ":-rot"] stack (stack.rotate 1) := by
  have haccepts := atLeast_one_iff.mpr (List.exists_cons_of_ne_nil h)
  exact turns_simple leads_rotateBack extra haccepts (rotateBack_eq h)

theorem turns_roll (hk : Text.IsWord k) (htop : top.length = k + 1) (below : Stack) :
    (extendedBy extra).Turns [.numeral k, .literal ":roll"] (top ++ below)
      (top.rotate k ++ below) := by
  refine .cons (Dictionary.turns_numeral _ k _) (turns_simple leads_roll extra ?_ (roll_eq hk htop))
  refine topIsPosition_iff.mpr ⟨_, k, _, rfl, Value.count?_numeral hk, ?_⟩
  rw [List.length_append]
  omega

theorem turns_rotate_repeated (h : stack ≠ []) (times : Nat) :
    (extendedBy extra).Turns (List.replicate times (.literal ":rot")) stack
      (stack.rotate (times * (stack.length - 1))) := by
  have hstep : ∀ i, (extendedBy extra).Turns [.literal ":rot"]
      (stack.rotate (i * (stack.length - 1))) (stack.rotate ((i + 1) * (stack.length - 1))) := by
    intro i
    have hne : stack.rotate (i * (stack.length - 1)) ≠ [] := mt List.rotate_eq_nil_iff.mp h
    have hturns := turns_rotate extra hne
    rwa [List.length_rotate, List.rotate_rotate, ← Nat.succ_mul] at hturns
  have hrun := Dictionary.Turns.repeated (fun i => stack.rotate (i * (stack.length - 1))) hstep
    times
  simpa using hrun

theorem turns_roll_repeated (hk : Text.IsWord k) (htop : top.length = k + 1) (below : Stack)
    (times : Nat) :
    (extendedBy extra).Turns (List.replicate times [.numeral k, .literal ":roll"]).flatten
      (top ++ below) (top.rotate (times * k) ++ below) := by
  have hstep : ∀ i, (extendedBy extra).Turns [.numeral k, .literal ":roll"]
      (top.rotate (i * k) ++ below) (top.rotate ((i + 1) * k) ++ below) := by
    intro i
    have hlength : (top.rotate (i * k)).length = k + 1 := by rw [List.length_rotate, htop]
    have hturns := turns_roll extra hk hlength below
    rwa [List.rotate_rotate, ← Nat.succ_mul] at hturns
  have hrun := Dictionary.Turns.repeated (fun i => top.rotate (i * k) ++ below) hstep times
  simpa using hrun

end Turning

/-- Rotating a stack to one side and back, or as often as it has values, restores it, and so does
rolling the value at a position to the top once for each value that this moves. The values below
the position stay in place on the way. Rolling from the bottom is rotating. -/
theorem rotations_restore_stack (extra : List Word) {c : Context} (hstack : c.stack ≠ [])
    (hfit : Text.IsWord c.stack.length) :
    let d := extendedBy extra
    let n := c.stack.length
    let rot := Value.literal ":rot"
    let back := Value.literal ":-rot"
    let roll := fun k : Nat => [Value.numeral k, Value.literal ":roll"]
    let rotated := { c with stack := c.stack.rotate (n - 1) }
    d.EndsWith [rot, back] c false (.ok c) ∧
    d.EndsWith [back, rot] c false (.ok c) ∧
    d.EndsWith (List.replicate n rot) c false (.ok c) ∧
    d.EndsWith [rot] c false (.ok rotated) ∧ d.EndsWith (roll (n - 1)) c false (.ok rotated) ∧
    ∀ k < n,
      (∀ times, d.EndsWith (List.replicate times (roll k)).flatten c false
        (.ok { c with stack := (c.stack.take (k + 1)).rotate (times * k) ++
                               c.stack.drop (k + 1) })) ∧
      d.EndsWith (List.replicate (k + 1) (roll k)).flatten c false (.ok c) := by
  intro d n rot back roll rotated
  have hpos : 0 < n := List.length_pos_of_ne_nil hstack
  have hword : ∀ k < n, Text.IsWord k := by
    intro k hk
    unfold Text.IsWord at hfit ⊢
    omega
  have hrot : d.Turns [rot] c.stack (c.stack.rotate (n - 1)) := turns_rotate extra hstack
  have hback : d.Turns [back] c.stack (c.stack.rotate 1) := turns_rotateBack extra hstack
  refine ⟨?_, ?_, ?_, hrot.endsWith, ?_, ?_⟩
  · have hne : c.stack.rotate (n - 1) ≠ [] := mt List.rotate_eq_nil_iff.mp hstack
    have hboth := hrot.append (turns_rotateBack extra hne)
    rw [List.rotate_rotate, Nat.sub_add_cancel hpos, List.rotate_length] at hboth
    exact hboth.endsWith
  · have hne : c.stack.rotate 1 ≠ [] := mt List.rotate_eq_nil_iff.mp hstack
    have hboth := hback.append (turns_rotate extra hne)
    rw [List.length_rotate, List.rotate_rotate, Nat.add_sub_cancel' hpos,
      List.rotate_length] at hboth
    exact hboth.endsWith
  · have hall := turns_rotate_repeated extra hstack n
    rw [List.rotate_length_mul] at hall
    exact hall.endsWith
  · have htop : c.stack.length = n - 1 + 1 := (Nat.sub_add_cancel hpos).symm
    have hroll := turns_roll extra (hword (n - 1) (Nat.sub_lt hpos Nat.one_pos)) htop []
    rw [List.append_nil, List.append_nil] at hroll
    exact hroll.endsWith
  · intro k hk
    have htop : (c.stack.take (k + 1)).length = k + 1 := List.length_take_of_le hk
    have hsplit := List.take_append_drop (k + 1) c.stack
    have hrolls := turns_roll_repeated extra (hword k hk) htop (c.stack.drop (k + 1))
    rw [hsplit] at hrolls
    have hround := List.rotate_length_mul (c.stack.take (k + 1)) k
    rw [htop] at hround
    refine ⟨fun times => (hrolls times).endsWith, ?_⟩
    have hall := hrolls (k + 1)
    rw [hround, hsplit] at hall
    exact hall.endsWith

theorem rolling_third_value_thrice_restores_stack :
    let roll : Macro := ⟨"roll", [.literal ":clear"]⟩
    let d := extendedBy [roll.toWord]
    let c : Context := { stack := [.literal ":rot", .list [.literal "a"], .literal "2",
                                   .literal ")"],
                         vars := .ofList [("k", .literal "v")], frozen := [.literal "f"] }
    c.stack ≠ [] ∧ Text.IsWord c.stack.length ∧
      d.EndsWith (["2", ":roll"].map .literal) c false
        (.ok { c with stack := [.literal "2", .literal ":rot", .list [.literal "a"],
                                .literal ")"] }) ∧
      d.EndsWith (["2", ":roll", "2", ":roll", "2", ":roll"].map .literal) c false (.ok c) := by
  intro roll d c
  have hstack : c.stack ≠ [] := by simp [c]
  have hfit : Text.IsWord c.stack.length := by decide
  obtain ⟨hrolls, hall⟩ :=
    (rotations_restore_stack [roll.toWord] hstack hfit).2.2.2.2.2 2 (by decide)
  exact ⟨hstack, hfit, hrolls 1, hall⟩

end StackWords.Standard
