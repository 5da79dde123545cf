/-!
# Dates

Dates of the Gregorian calendar, carried back before its introduction. `Date.ordinal` counts days
from the first day of year 1, which is day 1; `Date.ofOrdinal` reads a count back. `Date.ofWeek?`
finds a date by year, week and weekday, where the first week of a year is the one with its first
Thursday.
-/

namespace Parley.Calendar

/-- A date, given by its numbers. -/
structure Date where
  year : Nat
  month : Nat
  day : Nat
  deriving DecidableEq, Repr

/-- The year has a 29th of February. -/
def isLeap (year : Nat) : Bool := year % 4 = 0 && (year % 100 != 0 || year % 400 = 0)

/-- The lengths of the months. -/
def monthLengths (year : Nat) : List Nat :=
  [31, if isLeap year then 29 else 28, 31, 30, 31, 30, 31, 31, 30, 31, 30, 31]

/-- The days of a month; none when there is no such month. -/
def daysInMonth (year month : Nat) : Nat := (monthLengths year).getD (month - 1) 0

/-- The days before the first of January. -/
def daysBeforeYear (year : Nat) : Nat :=
  let y := year - 1
  365 * y + y / 4 - y / 100 + y / 400

/-- The last year. -/
def lastYear : Nat := 9999

namespace Date

/-- There is such a date. -/
def isReal (d : Date) : Bool :=
  1 ≤ d.year && d.year ≤ lastYear && 1 ≤ d.month && d.month ≤ 12 && 1 ≤ d.day &&
    d.day ≤ daysInMonth d.year d.month

/-- The number of the day, of which the first of year 1 has number 1. -/
def ordinal (d : Date) : Nat :=
  daysBeforeYear d.year + ((monthLengths d.year).take (d.month - 1)).foldl (· + ·) 0 + d.day

/-- The date of the given day of a year, counted from 0 over the months that are left. -/
def inYear (year : Nat) : Nat → List Nat → Nat → Date
  | month, [], rest => ⟨year, month, rest + 1⟩
  | month, length :: more, rest =>
    if rest < length then ⟨year, month, rest + 1⟩ else inYear year (month + 1) more (rest - length)

/-- The date with a number. -/
def ofOrdinal (n : Nat) : Date :=
  let days := n - 1
  let quarters := days / 146097
  let days := days % 146097
  let centuries := min (days / 36524) 3
  let days := days - 36524 * centuries
  let fours := days / 1461
  let days := days % 1461
  let years := min (days / 365) 3
  let year := 400 * quarters + 100 * centuries + 4 * fours + years + 1
  inYear year 1 (monthLengths year) (days - 365 * years)

/-- The weekday, from 0 for Monday to 6 for Sunday. -/
def weekday (d : Date) : Nat := (d.ordinal + 6) % 7

end Date

/-- The number of the Monday of a year's first week. -/
def firstMonday (year : Nat) : Nat :=
  let first := Date.ordinal ⟨year, 1, 1⟩
  let monday := first - (first + 6) % 7
  if (first + 6) % 7 < 4 then monday else monday + 7

/-- The year has a 53rd week. -/
def hasLongCount (year : Nat) : Bool :=
  let first := Date.weekday ⟨year, 1, 1⟩
  first = 3 || (first = 2 && isLeap year)

/-- The date of a weekday, from 1 for Monday, of a week of a year. -/
def Date.ofWeek? (year week day : Nat) : Option Date :=
  let weeks := if hasLongCount year then 53 else 52
  if 1 ≤ year ∧ year ≤ lastYear ∧ 1 ≤ week ∧ week ≤ weeks ∧ 1 ≤ day ∧ day ≤ 7 then
    let date := Date.ofOrdinal (firstMonday year + 7 * (week - 1) + (day - 1))
    if date.isReal then some date else none
  else none

end Parley.Calendar
