import Parley.Calendar.Moment
import Parley.Number.Digits
import Parley.Schema.Reading

/-!
# Moments in documents

A moment in a document is a date with a clock, a date alone, or a count of seconds since the start
of 1970; counts beyond `secondsBound` are taken for milliseconds. A refused text is reported by what
keeps it from being a date.
-/

namespace Parley.Schema

/-- A number of exactly `width` digits at the front, and the rest. -/
def frontDigits? (width : Nat) (cs : List Char) : Option (Nat × List Char) :=
  let ds := cs.take width
  if ds.length = width && ds.all Number.isDigit
    then some (Number.ofDigitChars ds, cs.drop width) else none

/-- The digits of a part, or the complaint about it. -/
def digitsOr (width : Nat) (cs : List Char) (why : String) : Except String (Nat × List Char) :=
  match frontDigits? width cs with
  | some p => .ok p
  | none => .error why

/-- The hyphen between the parts of a date. -/
def hyphen : List Char → Except String (List Char)
  | '-' :: rest => .ok rest
  | _ => .error "invalid date separator, expected `-`"

/-- A date in front of other text. -/
def readDay (cs : List Char) : Except String (Calendar.Date × List Char) := do
  if cs.length < 10 then throw "input is too short"
  let (year, rest) ← digitsOr 4 cs "invalid character in year"
  let rest ← hyphen rest
  let (month, rest) ← digitsOr 2 rest "invalid character in month"
  let rest ← hyphen rest
  let (day, rest) ← digitsOr 2 rest "invalid character in day"
  if month < 1 || 12 < month then throw "month value is outside expected range of 1-12"
  let date : Calendar.Date := ⟨year, month, day⟩
  if !date.isReal then throw "day value is outside expected range"
  return (date, rest)

/-- Seconds with a fraction, in microseconds; digits of the fraction beyond six are passed over. -/
def readSeconds? (cs : List Char) : Option (Nat × List Char) := do
  let (seconds, rest) ← frontDigits? 2 cs
  if 60 ≤ seconds then none
  else match rest with
    | c :: more =>
      if c = '.' || c = ',' then
        let ds := more.takeWhile Number.isDigit
        let used := ds.take 6
        if ds.isEmpty then none
        else
          let micros := Number.ofDigitChars used * Number.tenTo (6 - used.length)
          return (seconds * Calendar.second + micros, more.drop ds.length)
      else return (seconds * Calendar.second, rest)
    | [] => return (seconds * Calendar.second, [])

/-- An offset at the end of a text. -/
def readZone? : List Char → Option (Option Int)
  | [] => some none
  | ['Z'] | ['z'] => some (some 0)
  | c :: rest => do
    let negative ← if c = '+' then some false else if c = '-' ||
      c = '\u2212' then some true else none
    let (hours, rest) ← frontDigits? 2 rest
    let rest := match rest with
      | ':' :: more => more
      | _ => rest
    let (minutes, rest) ← frontDigits? 2 rest
    let total : Int := ((hours * 60 + minutes) * 60 * Calendar.second : Nat)
    if !rest.isEmpty || 60 ≤ minutes || (Calendar.day : Int) ≤ total then none
    else return some (if negative then -total else total)

/-- The clock of a moment after its date: hours and minutes, seconds or none, an offset or none. -/
def readTime? (cs : List Char) : Option (Nat × Option Int) := do
  let (hour, rest) ← frontDigits? 2 cs
  match rest with
  | ':' :: rest =>
    let (minute, rest) ← frontDigits? 2 rest
    if 24 ≤ hour || 60 ≤ minute then none
    else
      let (seconds, rest) ← match rest with
        | ':' :: more => readSeconds? more
        | _ => some (0, rest)
      let zone ← readZone? rest
      return ((hour * 60 + minute) * 60 * Calendar.second + seconds, zone)
  | _ => none

/-- A date with a clock. -/
def readMoment? (cs : List Char) : Option Calendar.Moment := do
  match readDay cs with
  | .ok (date, c :: rest) =>
    if c = 'T' || c = 't' || c = ' ' || c = '_' then
      let (clock, offset) ← readTime? rest
      return ⟨date, clock, offset⟩
    else none
  | _ => none

/-- The count of seconds beyond which milliseconds are meant. -/
def secondsBound : Int := 20000000000

/-- The number of the first day of 1970. -/
def epoch : Nat := Calendar.Date.ordinal ⟨1970, 1, 1⟩ - 1

/-- The moment so many microseconds after the start of 1970. -/
def momentOfMicros (n : Int) : Checked Calendar.Moment :=
  let total := n + (epoch * Calendar.day : Nat)
  if 0 ≤ total && total < ((Calendar.daysBeforeYear 10000 * Calendar.day : Nat) : Int) then
    .ok (.ofReading total.toNat)
  else .refuse .notMoment

/-- The moment that a count denotes. -/
def momentOfCount (n : Int) : Checked Calendar.Moment :=
  if n.natAbs ≤ secondsBound.natAbs then momentOfMicros (n * Calendar.second)
  else momentOfMicros (n * 1000)

/-- A moment. -/
def moment : Reader Calendar.Moment
  | .text s =>
    let cs := s.toList
    match readMoment? cs with
    | some m => .ok m
    | none =>
      match Number.readIntField s with
      | .value n => momentOfCount n
      | _ =>
        match readDay cs with
        | .ok (date, []) => .ok ⟨date, 0, none⟩
        | .ok _ => .refuse (.unreadableMoment "unexpected extra characters at the end of the input")
        | .error why => .refuse (.unreadableMoment why)
  | .int n => momentOfCount n
  | .float x =>
    match x.truncate? with
    | some n => momentOfCount n
    | none => .refuse .notMoment
  | _ => .refuse .notMoment

end Parley.Schema
