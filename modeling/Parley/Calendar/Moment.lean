import Parley.Calendar.Date
import Parley.Number.Digits

/-!
# Moments

A moment is a reading of a calendar and a clock, with the offset from universal time where it is
known. Readings with an offset compare as points of time, readings without one by themselves; one of
each kind does not compare.

`Moment.text` is the form in which moments are stored: a fraction has six digits, an offset has
hours and minutes only, and offset zero is written `Z`. `Moment.textWithOffset` writes offset zero
as `+00:00` and leaves nothing of an offset out.
-/

namespace Parley.Calendar

/-- Microseconds in a second. -/
def second : Nat := 1000000

/-- Microseconds in a day. -/
def day : Nat := 86400 * second

/-- A reading of calendar and clock. -/
structure Moment where
  date : Date
  /-- Microseconds since midnight. -/
  clock : Nat
  /-- Microseconds ahead of universal time. -/
  offset : Option Int
  deriving DecidableEq, Repr

namespace Moment

/-- Microseconds of the reading since the start of year 1. -/
def reading (m : Moment) : Int := (m.date.ordinal - 1 : Nat) * day + m.clock

/-- The order of two moments; none when only one of them has an offset. -/
def compare? (a b : Moment) : Option Ordering :=
  match a.offset, b.offset with
  | some x, some y => some (compare (a.reading - x) (b.reading - y))
  | none, none => some (compare a.reading b.reading)
  | _, _ => none

/-- The moment of universal time so many microseconds after the start of year 1. -/
def ofReading (n : Nat) : Moment := ⟨Date.ofOrdinal (n / day + 1), n % day, some 0⟩

/-- Date and clock, with a fraction of six digits unless it is zero. -/
def localText (m : Moment) : String :=
  let seconds := m.clock / second
  let micros := m.clock % second
  let pad := Number.padZeros
  pad 4 m.date.year ++ "-" ++ pad 2 m.date.month ++ "-" ++ pad 2 m.date.day ++ "T" ++
    pad 2 (seconds / 3600) ++ ":" ++ pad 2 (seconds / 60 % 60) ++ ":" ++ pad 2 (seconds % 60) ++
    (if micros = 0 then "" else "." ++ pad 6 micros)

/-- An offset with its sign, hours and minutes, and with seconds and a fraction where it has any. -/
def offsetText (offset : Int) : String :=
  let seconds := offset.natAbs / second
  let micros := offset.natAbs % second
  let pad := Number.padZeros
  (if offset < 0 then "-" else "+") ++ pad 2 (seconds / 3600) ++ ":" ++ pad 2 (seconds / 60 % 60) ++
    (if seconds % 60 = 0 ∧ micros = 0 then "" else ":" ++ pad 2 (seconds % 60)) ++
    (if micros = 0 then "" else "." ++ pad 6 micros)

/-- The form with a signed offset. -/
def textWithOffset (m : Moment) : String :=
  m.localText ++ match m.offset with
    | some offset => offsetText offset
    | none => ""

/-- The stored form of an offset: hours and minutes, of which the seconds are left out, and `Z` for
an offset of no whole second. -/
def zoneText (offset : Int) : String :=
  let seconds := offset / second
  let pad := Number.padZeros
  if seconds = 0 then "Z"
  else (if seconds < 0 then "-" else "+") ++ pad 2 (seconds.natAbs / 3600) ++ ":" ++
    pad 2 (seconds.natAbs / 60 % 60)

/-- The stored form. -/
def text (m : Moment) : String :=
  m.localText ++ match m.offset with
    | some offset => zoneText offset
    | none => ""

/-- Comparing from the other side turns the order round. -/
theorem compare?_swap (a b : Moment) : (a.compare? b).map Ordering.swap = b.compare? a := by
  unfold compare?
  cases a.offset <;> cases b.offset <;> simp only [Option.map]
  all_goals exact congrArg some (Int.compare_swap _ _)

end Moment
end Parley.Calendar
