import Parley.Number.Binary64
import Parley.Number.Digits

/-!
# Shortest decimal text

A finite number is written with the fewest digits that read back as the same number, and of those
texts with the one nearest to it. The digits come from exact arithmetic on the interval of quotients
that round to the number; `Binary64.text` lays them out, positionally when the leading digit stands
between `10 ^ -4` and `10 ^ 15`, and otherwise with an exponent of at least two digits.
-/

namespace Parley.Binary64

open Number (twoTo tenTo)

/-- The quotients that round to a magnitude, all over the denominator `scale`: the ends belong to
the interval when the significand is even. -/
structure Interval where
  low : Nat
  value : Nat
  high : Nat
  scale : Nat
  closed : Bool

/-- The interval of the magnitude of rank `r`. Below a power of two the gap is half as wide. -/
def interval (r : Nat) : Interval :=
  let m := 4 * mantissa r
  let below := if mantissa r = twoTo 52 ∧ 0 < lift r then 1 else 2
  let num := twoTo (lift r - 1076)
  { low := (m - below) * num, value := m * num, high := (m + 2) * num
    scale := twoTo (1076 - lift r), closed := mantissa r % 2 = 0 }

namespace Interval

/-- `digits · 10 ^ exp10` lies in the interval. -/
def holds (i : Interval) (digits : Nat) (exp10 : Int) : Bool :=
  let point := digits * tenTo exp10.toNat * i.scale
  let unit := tenTo (-exp10).toNat
  if i.closed then i.low * unit ≤ point && point ≤ i.high * unit
  else i.low * unit < point && point < i.high * unit

/-- The least `e` with value below `10 ^ e`. -/
def magnitude (i : Interval) : Int :=
  ((Nat.toDigits 10 (i.value * tenTo 350 / i.scale)).length : Int) - 350

/-- The point of the grid `10 ^ exp10` that lies in the interval, the nearer of two. -/
def point? (i : Interval) (exp10 : Int) : Option Nat :=
  let num := i.value * tenTo (-exp10).toNat
  let den := i.scale * tenTo exp10.toNat
  let q := num / den
  match i.holds q exp10, i.holds (q + 1) exp10 with
  | true, true => some (roundDiv num den)
  | true, false => some q
  | false, true => some (q + 1)
  | false, false => none

/-- The fewest digits with their exponent, tried on grids of 1 to `fuel` digits. -/
def search (i : Interval) (places : Nat) : Nat → Nat × Int
  | 0 => (roundDiv (i.value * tenTo 17) i.scale, -17)
  | fuel + 1 =>
    let exp10 := i.magnitude - places
    match i.point? exp10 with
    | some digits => (digits, exp10)
    | none => i.search (places + 1) fuel

end Interval

/-- The shortest digits of a magnitude and the exponent of the last of them. -/
def shortest (r : Nat) : Nat × Int := (interval r).search 1 17

/-- The digits without trailing zeros; at least one digit stays. -/
def trimZeros (ds : List Char) : List Char :=
  match (ds.reverse.dropWhile (· == '0')).reverse with
  | [] => ['0']
  | kept => kept

/-- The layout of digits whose point stands after the first `point` of them. -/
def layout (ds : List Char) (point : Int) : String :=
  let count : Int := ds.length
  if -4 < point ∧ point ≤ 16 then
    if point ≤ 0 then "0." ++ "".pushn '0' (-point).toNat ++ String.ofList ds
    else if count ≤ point then String.ofList ds ++ "".pushn '0' (point - count).toNat ++ ".0"
    else String.ofList (ds.take point.toNat) ++ "." ++ String.ofList (ds.drop point.toNat)
  else
    let exp := point - 1
    let head := String.ofList (ds.take 1)
    let tail := if ds.length ≤ 1 then "" else "." ++ String.ofList (ds.drop 1)
    head ++ tail ++ (if exp < 0 then "e-" else "e+") ++ Number.padZeros 2 exp.natAbs

/-- The text of a magnitude. -/
def magnitudeText (r : Nat) : String :=
  if r = 0 then "0.0"
  else
    let (digits, exp10) := shortest r
    let ds := Nat.toDigits 10 digits
    layout (trimZeros ds) ((ds.length : Int) + exp10)

/-- The text of a number: shortest digits, always with a point or an exponent. -/
def text : Binary64 → String
  | .nan => "nan"
  | .infinite s => if s then "-inf" else "inf"
  | .finite s r _ => (if s then "-" else "") ++ magnitudeText r

end Parley.Binary64
