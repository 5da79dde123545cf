import Parley.Number.Digits

/-!
# Binary64 numbers

The binary floating-point numbers of 64 bits, as exact data. A finite number is a sign and a *rank*:
the place of its magnitude among the finite magnitudes in increasing order, zero having rank 0.
Order on ranks is order on magnitudes, so comparing needs no arithmetic, and the two neighbours of a
magnitude have the ranks next to its own.

`mantissa` and `lift` decode a rank: the magnitude is `mantissa · 2 ^ (lift - 1074)`. `round` goes
the other way, from an exact quotient to the nearest rank, ties to the even one.
-/

namespace Parley

/-- The number of finite magnitudes. -/
def Binary64.rankBound : Nat := 2047 * Number.twoTo 52

/-- A binary64 number; NaN carries no payload. -/
inductive Binary64 where
  | nan
  | infinite (negative : Bool)
  | finite (negative : Bool) (rank : Nat) (rank_lt : rank < Binary64.rankBound)
  deriving DecidableEq, Repr

namespace Binary64

open Number (twoTo tenTo)

/-- The significand of the magnitude of rank `r`. -/
def mantissa (r : Nat) : Nat :=
  if r < twoTo 52 then r else twoTo 52 + r % twoTo 52

/-- How far the exponent of rank `r` lies above the least one. -/
def lift (r : Nat) : Nat := r / twoTo 52 - 1

/-- The number of the given sign and rank; a rank beyond the finite ones is infinite. -/
def ofRank (negative : Bool) (r : Nat) : Binary64 :=
  if h : r < rankBound then .finite negative r h else .infinite negative

/-- Zero. -/
def zero : Binary64 := ofRank false 0

/-- Quotient to the nearest integer, a tie to the even one. -/
def roundDiv (num den : Nat) : Nat :=
  let q := num / den
  let twice := 2 * (num % den)
  if twice < den then q
  else if den < twice then q + 1
  else if q % 2 = 0 then q else q + 1

/-- The exponent, above the least one, at which `num / den` has a significand of 53 bits, or 0. -/
def liftOf (num den : Nat) : Nat :=
  let guess : Int := (Nat.log2 num : Int) - Nat.log2 den - 52 + 1074
  let k := guess.toNat
  if num * twoTo 1074 / (den * twoTo k) < twoTo 52 then k - 1 else k

/-- The rank nearest to `num / den`; at least `rankBound` when the quotient is beyond the finite
numbers. -/
def nearestRank (num den : Nat) : Nat :=
  if num = 0 then 0
  else
    let k := liftOf num den
    roundDiv (num * twoTo 1074) (den * twoTo k) + k * twoTo 52

/-- The number nearest to `± num / den`. -/
def round (negative : Bool) (num den : Nat) : Binary64 := ofRank negative (nearestRank num den)

/-- The integer as a number; none when it is beyond the finite numbers. -/
def ofInt? (n : Int) : Option Binary64 :=
  match round (decide (n < 0)) n.natAbs 1 with
  | .infinite _ => none
  | x => some x

/-- The number nearest to `± digits · 10 ^ exp10`. Exponents that cannot matter are cut short first.
-/
def ofDecimal (negative : Bool) (digits : Nat) (exp10 : Int) : Binary64 :=
  if digits = 0 then ofRank negative 0
  else
    let places : Int := (Nat.log2 digits * 30103 / 100000 : Nat) + exp10
    if 400 < places then .infinite negative
    else if places < -400 then ofRank negative 0
    else if 0 ≤ exp10 then round negative (digits * tenTo exp10.toNat) 1
    else round negative digits (tenTo (-exp10).toNat)

/-- Neither infinite nor NaN. -/
def isFinite : Binary64 → Bool
  | .finite .. => true
  | _ => false

/-- The position of a number on the line of all numbers but NaN: zero at 0, the infinities at the
ends. -/
def position? : Binary64 → Option Int
  | .nan => none
  | .infinite s => some (if s then -(rankBound : Int) else rankBound)
  | .finite s r _ => some (if s then -(r : Int) else r)

/-- `x < y`; false when either is NaN. -/
def lt (x y : Binary64) : Bool :=
  match x.position?, y.position? with
  | some a, some b => decide (a < b)
  | _, _ => false

/-- Equality of numbers: both zeros are equal and NaN equals nothing. -/
def same (x y : Binary64) : Bool :=
  match x.position?, y.position? with
  | some a, some b => decide (a = b)
  | _, _ => false

/-- The exact numerator and denominator of the magnitude of rank `r`. -/
def fraction (r : Nat) : Nat × Nat :=
  if 1074 ≤ lift r then (mantissa r * twoTo (lift r - 1074), 1)
    else (mantissa r, twoTo (1074 - lift r))

/-- The number is finite and a whole number. -/
def isIntegral : Binary64 → Bool
  | .finite _ r _ => (fraction r).1 % (fraction r).2 = 0
  | _ => false

/-- The whole part, towards zero. -/
def truncate? : Binary64 → Option Int
  | .finite s r _ =>
    let whole : Int := ((fraction r).1 / (fraction r).2 : Nat)
    some (if s then -whole else whole)
  | _ => none

/-- The exact value of a finite number. -/
def toRat? : Binary64 → Option Rat
  | .finite s r _ =>
    let q : Rat := (fraction r).1 / (fraction r).2
    some (if s then -q else q)
  | _ => none

/-- The integer compares with the number as exact numbers do. -/
def compareInt? (n : Int) : Binary64 → Option Ordering
  | .nan => none
  | .infinite s => some (if s then .gt else .lt)
  | .finite s r _ =>
    let signed : Int := if s then -((fraction r).1 : Int) else (fraction r).1
    some (compare (n * ((fraction r).2 : Int)) signed)

/-- No number is less than itself. -/
theorem lt_irrefl (x : Binary64) : x.lt x = false := by
  unfold lt
  cases x.position? <;> simp

/-- The order of numbers is transitive. -/
theorem lt_trans {x y z : Binary64} (hxy : x.lt y = true) (hyz : y.lt z = true) :
    x.lt z = true := by
  unfold lt at *
  cases hx : x.position? <;> cases hy : y.position? <;> cases hz : z.position? <;> simp_all
  omega

end Binary64
end Parley
