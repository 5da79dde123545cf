import Parley.Calendar.Moment
import Parley.Number.Digits
import Parley.Text.Word

/-!
# Dates and moments read from text

`readIso?` takes the forms of ISO 8601: a date in the basic or the extended form or by weeks, then
any one character, then a time of up to three pairs of digits with a fraction, then an offset. How
long the date is follows from its first characters alone. `isWrittenDate` knows, beside these, four
forms in which people write dates.
-/

namespace Parley.Calendar

/-- A number of exactly `width` ASCII digits, and the rest. -/
def readDigits? (width : Nat) (cs : List Char) : Option (Nat × List Char) :=
  let ds := cs.take width
  if ds.length = width && ds.all Number.isDigit
    then some (Number.ofDigitChars ds, cs.drop width) else none

/-- The length of the date at the start of a text. In the basic form by weeks, an odd count of
digits after the week begins with the weekday, and pairs of a time may follow; in the extended form
a digit after a hyphen at place 10 makes that hyphen the separator. -/
def dateLength (cs : List Char) : Nat :=
  let at' : Nat → Char := fun n => cs.getD n '\x00'
  let total := cs.length
  if total = 7 then 7
  else if at' 4 = '-' then
    if at' 5 = 'W' then
      if 8 < total && at' 8 = '-' then if 10 < total && Number.isDigit (at' 10) then 8
        else 10 else 8
    else 10
  else if at' 4 = 'W' then
    let digits := ((cs.drop 7).takeWhile Number.isDigit).length
    if digits < 2 then 7 + digits else if (7 + digits) % 2 = 0 then 7 else 8
  else 8

/-- The character, or none of it, in front of the rest. -/
def dropSeparator? (extended : Bool) (cs : List Char) : Option (List Char) :=
  if !extended then some cs
  else match cs with
    | '-' :: rest => some rest
    | _ => none

/-- A date of the given length. -/
def readDate? (length : Nat) (cs : List Char) : Option Date := do
  let (year, rest) ← readDigits? 4 cs
  let extended := rest.head? == some '-'
  let rest := if extended then rest.drop 1 else rest
  match rest with
  | 'W' :: rest =>
    let (week, rest) ← readDigits? 2 rest
    let taken := cs.length - rest.length
    if taken < length then
      let rest ← dropSeparator? extended rest
      let (weekday, _) ← readDigits? 1 rest
      Date.ofWeek? year week weekday
    else Date.ofWeek? year week 1
  | _ =>
    let (month, rest) ← readDigits? 2 rest
    let rest ← dropSeparator? extended rest
    let (day, _) ← readDigits? 2 rest
    let date : Date := ⟨year, month, day⟩
    if date.isReal then some date else none

/-- The parts of a time, and whether text is left behind it. -/
structure Time where
  hour : Nat := 0
  minute : Nat := 0
  seconds : Nat := 0
  micros : Nat := 0
  /-- Text follows. -/
  more : Bool := false

/-- The parts of a time as microseconds. -/
def Time.total (t : Time) : Nat := ((t.hour * 60 + t.minute) * 60 + t.seconds) * second + t.micros

/-- The time with its part number `i`. -/
def Time.with (t : Time) (i value : Nat) : Time :=
  match i with
  | 0 => { t with hour := value }
  | 1 => { t with minute := value }
  | _ => { t with seconds := value }

/-- The fraction of a second: six digits, or all when there are fewer; digits beyond are passed
over. -/
def readFraction? (t : Time) (cs after : List Char) : Option Time := do
  let width := min 6 cs.length
  let (value, rest) ← readDigits? width cs
  let left := (rest ++ after).dropWhile Number.isDigit
  return { t with micros := value * Number.tenTo (6 - width), more := !left.isEmpty }

/-- The parts of a time that are left, in `cs`, before the text `after`. Pairs are separated by
colons, all or none of them, as the first separator tells; a fraction comes after a point, a comma
or a third separator. -/
def readParts? (colons : Bool) (t : Time) (cs after : List Char) : Nat → Option Time
  | 0 => none
  | left + 1 => do
    let i := 2 - left
    let (value, rest) ← readDigits? 2 cs
    let t := t.with i value
    match rest with
    | [] => return { t with more := !after.isEmpty }
    | c :: rest' =>
      let colons := if i = 0 then c = ':' else colons
      if rest'.isEmpty then return { t with more := true }
      else if colons && c = ':' then
        if left = 0 then readFraction? t rest' after else readParts? colons t rest' after left
      else if c = '.' || c = ',' then readFraction? t rest' after
      else if !colons then
        if left = 0 then readFraction? t rest after else readParts? colons t rest after left
      else none

/-- A time up to the text `after`. -/
def readTime? (cs after : List Char) : Option Time := readParts? false {} cs after 3

/-- The offset after its sign. -/
def readOffset? (negative : Bool) (cs : List Char) : Option Int := do
  let t ← readTime? cs []
  let whole : Int := (t.total - t.micros : Nat)
  let total : Int := if whole = 0 then 0 else t.total
  if t.more || (day : Int) ≤ total then none
  else return if negative then -total else total

/-- A time with its offset. -/
def readClock? (cs : List Char) : Option (Nat × Option Int) := do
  let isMark : Char → Bool := fun c => c = '+' || c = '-' || c = 'Z'
  let first := cs.takeWhile fun c => !isMark c
  let mark := cs.drop first.length
  let t ← readTime? first mark
  if !(t.hour < 24 && t.minute < 60 && t.seconds < 60) then none
  else match mark with
    | [] => if t.more then none else return (t.total, none)
    | ['Z'] => return (t.total, some 0)
    | 'Z' :: _ => none
    | c :: rest => return (t.total, some (← readOffset? (c = '-') rest))

/-- A moment in one of the forms of ISO 8601. -/
def readIso? (text : String) : Option Moment := do
  let cs := text.toList
  let length := dateLength cs
  let date ← readDate? length cs
  match cs.drop length with
  | [] => return ⟨date, 0, none⟩
  | _ :: rest =>
    let (clock, offset) ← readClock? rest
    return ⟨date, clock, offset⟩

/-- A digit from 1 to 9. -/
def isPositiveDigit (c : Char) : Bool := '1' ≤ c && c ≤ '9'

/-- The day of a written date: one digit, with a zero or a blank in front, or two digits. -/
def writtenDay? : List Char → Option Nat
  | [c] => if isPositiveDigit c then some (Number.ofDigitChars [c]) else none
  | [a, b] =>
    if a = '3' && (b = '0' || b = '1') then some (Number.ofDigitChars [a, b])
    else if a = '1' || a = '2' then (Text.decimalValue? b).map (Number.ofDigitChars [a] * 10 + ·)
    else if (a = '0' || a = ' ') && isPositiveDigit b then some (Number.ofDigitChars [b])
    else none
  | _ => none

/-- The month of a written date. -/
def writtenMonth? : List Char → Option Nat
  | [c] => if isPositiveDigit c then some (Number.ofDigitChars [c]) else none
  | [a, b] =>
    if a = '1' && '0' ≤ b && b ≤ '2' then some (Number.ofDigitChars [a, b])
    else if a = '0' && isPositiveDigit b then some (Number.ofDigitChars [b])
    else none
  | _ => none

/-- The year of a written date in `width` digits of any script. Of two digits, those up to 68 are of
this century. -/
def writtenYear? (width : Nat) (cs : List Char) : Option Nat :=
  let ds := cs.filterMap Text.decimalValue?
  if cs.length = width && ds.length = width then
    let n := Number.ofDigits ds
    some (if width = 2 then if n ≤ 68 then 2000 + n else 1900 + n else n)
  else none

/-- The three parts of a text that are separated by `mark`. -/
def threeParts? (mark : Char) (cs : List Char) : Option (List Char × List Char × List Char) :=
  match cs.dropWhile (· != mark) with
  | _ :: rest =>
    match rest.dropWhile (· != mark) with
    | _ :: last =>
      if last.contains mark then none
      else some (cs.takeWhile (· != mark), rest.takeWhile (· != mark), last)
    | [] => none
  | [] => none

/-- The parts of a date make one. -/
def isDateOf (year month day : Option Nat) : Bool :=
  match year, month, day with
  | some y, some m, some d => Date.isReal ⟨y, m, d⟩
  | _, _, _ => false

/-- Day, month and year after one another, or with slashes the year first. -/
def isPlainDate (cs : List Char) : Bool :=
  (match threeParts? '/' cs with
    | some (a, b, c) =>
      isDateOf (writtenYear? 4 c) (writtenMonth? b) (writtenDay? a) ||
        isDateOf (writtenYear? 2 c) (writtenMonth? b) (writtenDay? a) ||
        isDateOf (writtenYear? 4 a) (writtenMonth? b) (writtenDay? c)
    | none => false) ||
  match threeParts? '-' cs with
  | some (a, b, c) => isDateOf (writtenYear? 4 c) (writtenMonth? b) (writtenDay? a)
  | none => false

/-- The text is a date. -/
def isWrittenDate (text : String) : Bool := (readIso? text).isSome || isPlainDate text.toList

end Parley.Calendar
