/-! # Decimal numerals

Integers are read as an optional sign and digits, within 64 bits. Numbers also
have a fraction, an exponent, or a name for infinity and for no number.
-/
namespace StackWords.Text

/-- Whether a leading sign is a minus, and the text behind an optional sign. -/
def splitSign : List Char → Bool × List Char
  | '-' :: cs => (true, cs)
  | '+' :: cs => (false, cs)
  | cs => (false, cs)

def digitsValue (cs : List Char) : Nat := cs.foldl (fun n c => 10 * n + (c.toNat - '0'.toNat)) 0

def readNat? (cs : List Char) : Option Nat :=
  if cs.isEmpty || !cs.all Char.isDigit then none else some (digitsValue cs)

def readInt? (cs : List Char) : Option Int :=
  (readNat? (splitSign cs).2).map fun n => if (splitSign cs).1 then -(n : Int) else n

/-- The integers of 64 bits in two's complement. -/
def IsWord (i : Int) : Prop := -0x8000000000000000 ≤ i ∧ i < 0x8000000000000000

instance (i : Int) : Decidable (IsWord i) := inferInstanceAs (Decidable (_ ∧ _))

/-- Reads an integer, which has to fit in 64 bits. -/
def readWord? (cs : List Char) : Option Int := (readInt? cs).filter fun i => decide (IsWord i)

theorem digitsValue_toDigits (n : Nat) : digitsValue (Nat.toDigits 10 n) = n := by
  rw [digitsValue, ← Nat.ofDigitChars_eq_foldl, Nat.ofDigitChars_ten_toDigits]

theorem isDigit_of_mem_toDigits {n : Nat} {c : Char} (h : c ∈ Nat.toDigits 10 n) :
    c.isDigit = true :=
  Nat.isDigit_of_mem_toDigits (by decide) (by decide) h

theorem readNat?_toDigits (n : Nat) : readNat? (Nat.toDigits 10 n) = some n := by
  have hempty : (Nat.toDigits 10 n).isEmpty = false := by simp [Nat.toDigits_ne_nil]
  have hdigits : (Nat.toDigits 10 n).all Char.isDigit = true :=
    List.all_eq_true.mpr fun _ => isDigit_of_mem_toDigits
  simp only [readNat?, hempty, hdigits, Bool.not_true, Bool.or_self, Bool.false_eq_true,
    ↓reduceIte, digitsValue_toDigits]

theorem splitSign_toDigits (n : Nat) :
    splitSign (Nat.toDigits 10 n) = (false, Nat.toDigits 10 n) := by
  cases hn : Nat.toDigits 10 n with
  | nil => rfl
  | cons c cs =>
    have hc : c.isDigit = true := isDigit_of_mem_toDigits (hn ▸ List.mem_cons_self)
    unfold splitSign
    split
    · next heq =>
      obtain ⟨rfl, -⟩ := List.cons.inj heq
      exact absurd hc (by decide)
    · next heq =>
      obtain ⟨rfl, -⟩ := List.cons.inj heq
      exact absurd hc (by decide)
    · rfl

/-- The decimal digits of a number read as the number, if it fits in 64 bits. -/
theorem readWord?_toDigits {n : Nat} (h : IsWord n) : readWord? (Nat.toDigits 10 n) = some n := by
  simp [readWord?, readInt?, splitSign_toDigits, readNat?_toDigits, h]

/-- A number as written: its digits and a power of ten, or one of the named values. -/
inductive Number where
  | undefined
  | infinite (negative : Bool)
  | finite (negative : Bool) (digits : Nat) (scale : Int)
deriving DecidableEq, Repr

namespace Number

def readExponent? : List Char → Option Int
  | [] => some 0
  | c :: cs => if c = 'e' ∨ c = 'E' then readInt? cs else none

/-- Reads digits around an optional point, at least one of them, and an exponent. -/
def readFinite? (negative : Bool) (cs : List Char) : Option Number :=
  let whole := cs.takeWhile Char.isDigit
  let tail := cs.dropWhile Char.isDigit
  let fraction := match tail with
    | '.' :: rest => rest.takeWhile Char.isDigit
    | _ => []
  let tail := match tail with
    | '.' :: rest => rest.dropWhile Char.isDigit
    | _ => tail
  if whole.isEmpty && fraction.isEmpty then none
  else (readExponent? tail).map fun e =>
    .finite negative (digitsValue (whole ++ fraction)) (e - fraction.length)

def read? (cs : List Char) : Option Number :=
  let negative := (splitSign cs).1
  let body := (splitSign cs).2
  let name := String.ofList (body.map Char.toLower)
  if name = "inf" ∨ name = "infinity" then some (.infinite negative)
  else if name = "nan" then some .undefined
  else readFinite? negative body

/-- The magnitude of `digits * 10 ^ scale` as a double. Outside the range of the doubles the
result is decided by the order of magnitude alone, so no huge power is computed. -/
def magnitude (digits : Nat) (scale : Int) : Float :=
  let order := ((Nat.toDigits 10 digits).length : Int) + scale
  if digits = 0 ∨ order < -323 then 0.0
  else if order > 309 then 1.0 / 0.0
  else Float.ofScientific digits (decide (scale < 0)) scale.natAbs

def toFloat : Number → Float
  | .undefined => 0.0 / 0.0
  | .infinite negative => if negative then -(1.0 / 0.0) else 1.0 / 0.0
  | .finite negative digits scale =>
    if negative then -(magnitude digits scale) else magnitude digits scale

end Number

end StackWords.Text
