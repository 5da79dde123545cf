/-!
# Powers and digits

The scales of numbers, and numbers as they are written.
-/

/-!
## Powers

Powers of two and of ten, the scales of binary and of decimal numbers.

Main statements: `twoTo_succ` and `tenTo_succ`, the next power is twice or ten times as much.
-/

namespace Parley.Number

/-- The power of two with an exponent. -/
def twoTo (k : Nat) : Nat := Nat.pow 2 k

/-- The power of ten with an exponent. -/
def tenTo (k : Nat) : Nat := Nat.pow 10 k

theorem twoTo_zero : twoTo 0 = 1 := rfl

theorem twoTo_succ (k : Nat) : twoTo (k + 1) = 2 * twoTo k := Nat.mul_comm (Nat.pow 2 k) 2

/-- The powers of two are positive. -/
theorem twoTo_pos (k : Nat) : 0 < twoTo k := by
  induction k with
  | zero => exact Nat.one_pos
  | succ k ih => rw [twoTo_succ]; omega

/-- The powers of two turn sums into products. -/
theorem twoTo_add (a b : Nat) : twoTo (a + b) = twoTo a * twoTo b := Nat.pow_add 2 a b

/-- The powers of two grow. -/
theorem twoTo_le {a b : Nat} (h : a ≤ b) : twoTo a ≤ twoTo b := Nat.pow_le_pow_right (by decide) h

theorem tenTo_zero : tenTo 0 = 1 := rfl

theorem tenTo_succ (k : Nat) : tenTo (k + 1) = 10 * tenTo k := Nat.mul_comm (Nat.pow 10 k) 10

/-- The powers of ten are positive. -/
theorem tenTo_pos (k : Nat) : 0 < tenTo k := by
  induction k with
  | zero => exact Nat.one_pos
  | succ k ih => rw [tenTo_succ]; omega

/-- The powers of ten turn sums into products. -/
theorem tenTo_add (a b : Nat) : tenTo (a + b) = tenTo a * tenTo b := Nat.pow_add 10 a b

/-- The powers of ten grow. -/
theorem tenTo_le {a b : Nat} (h : a ≤ b) : tenTo a ≤ tenTo b := Nat.pow_le_pow_right (by decide) h

end Parley.Number

/-!
## Decimal digits

Natural and whole numbers as digit strings, and back. Conversions between whole numbers and text
stop at `digitLimit` digits in both directions.
-/

namespace Parley.Number

/-- The largest number of decimal digits that is converted. -/
def digitLimit : Nat := 4300

/-- The value of an ASCII digit. -/
def digit? (c : Char) : Option Nat :=
  if '0' ≤ c ∧ c ≤ '9' then some (c.toNat - '0'.toNat) else none

/-- An ASCII digit. -/
def isDigit (c : Char) : Bool := (digit? c).isSome

/-- The number whose digits are given, the most significant first. -/
def ofDigits (ds : List Nat) : Nat := ds.foldl (fun acc d => 10 * acc + d) 0

/-- The value of a string of ASCII digits; other characters are passed over. -/
def ofDigitChars (cs : List Char) : Nat := ofDigits (cs.filterMap digit?)

/-- The decimal text of a natural number. -/
def natText (n : Nat) : String := String.ofList (Nat.toDigits 10 n)

/-- The decimal text of a whole number. -/
def intText (n : Int) : String := if n < 0 then "-" ++ natText n.natAbs else natText n.natAbs

/-- The number has more digits than are converted. -/
@[irreducible]
def isTooLong (n : Int) : Bool := tenTo digitLimit ≤ n.natAbs

/-- The decimal text, filled with zeros on the left up to `width` characters. -/
def padZeros (width n : Nat) : String :=
  let ds := natText n
  "".pushn '0' (width - ds.length) ++ ds

end Parley.Number
