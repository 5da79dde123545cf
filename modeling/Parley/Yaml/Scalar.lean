import Parley.Calendar.Date
import Parley.Fault
import Parley.Json.Reader
import Parley.Number.Reading
import Parley.Number.Shortest
import Parley.Text.Case
import Parley.Text.Split

/-!
# What words of YAML stand for

A plain word stands for null, a truth value, a number or a moment where it is written like one, and
for itself otherwise; `<<` and `=` are marks. Whole numbers are binary after `0b`, hexadecimal after
`0x`, octal after `0`, and to base 60 where colons part them. Underscores do not count. A tag
overrules how a word is written (`ofTag`).

A moment is written with a date that must be real, but it is no value.
-/

namespace Parley.Yaml

/-- Why a text is refused. -/
inductive ReadFault where
  | malformed
  /-- A word is written like something that cannot be made of it. -/
  | failed (fault : Fault)
  deriving DecidableEq, Repr

/-- The words for null. -/
def nullWords : List String := ["", "~", "null", "Null", "NULL"]

/-- The words for true. -/
def trueWords : List String := ["yes", "Yes", "YES", "true", "True", "TRUE", "on", "On", "ON"]

/-- The words for false. -/
def falseWords : List String := ["no", "No", "NO", "false", "False", "FALSE", "off", "Off", "OFF"]

/-- Without underscores. -/
def joined (cs : List Char) : List Char := cs.filter (· != '_')

/-! ### Whole numbers -/

/-- Digits below a base, or underscores; at least one character. -/
def isNumeral (base : Nat) (cs : List Char) : Bool :=
  !cs.isEmpty && cs.all fun c => c = '_' || (Text.hexDigit? c).any (· < base)

/-- The number that a numeral denotes. -/
def numeral (base : Nat) (cs : List Char) : Nat :=
  (cs.filterMap Text.hexDigit?).foldl (fun n d => n * base + d) 0

/-- The number that a numeral after a mark of its base denotes; one without digits denotes none. -/
def markedNumeral (base : Nat) (cs : List Char) : Except ReadFault Nat :=
  if (joined cs).isEmpty then
    .error (.failed (.impossible ("invalid literal for int() with base " ++
      Number.natText base ++ ": ''")))
  else .ok (numeral base cs)

/-- A digit of base 60 after the first: below 60, in one or two digits. -/
def isSixtieth : List Char → Bool
  | [a] => Number.isDigit a
  | [a, b] => '0' ≤ a && a ≤ '5' && Number.isDigit b
  | _ => false

/-- A decimal numeral that does not begin with zero. -/
def isDecimal (cs : List Char) : Bool :=
  match cs with
  | c :: _ => c != '0' && Number.isDigit c && isNumeral 10 cs
  | [] => false

/-- A decimal number, unless it is too long. -/
def decimal (cs : List Char) : Except ReadFault Nat :=
  let digits := (joined cs).length
  if Number.digitLimit < digits then .error (.failed (.tooLongToRead digits))
    else .ok (numeral 10 cs)

/-- The number of digits to base 60. -/
def sixtieths (first : Nat) (rest : List (List Char)) : Nat :=
  rest.foldl (fun n part => n * 60 + numeral 10 part) first

/-- The magnitude of a whole number. -/
def magnitude? (cs : List Char) : Option (Except ReadFault Nat) :=
  match cs with
  | ['0'] => some (.ok 0)
  | '0' :: 'b' :: rest => if isNumeral 2 rest then some (markedNumeral 2 rest) else none
  | '0' :: 'x' :: rest => if isNumeral 16 rest then some (markedNumeral 16 rest) else none
  | '0' :: rest => if isNumeral 8 rest then some (.ok (numeral 8 rest)) else none
  | cs =>
    if isDecimal cs then some (decimal cs)
    else
      match Text.splitAt ':' cs with
      | first :: rest =>
        if isDecimal first && !rest.isEmpty && rest.all isSixtieth then
          some ((decimal first).map (sixtieths · rest))
        else none
      | [] => none

/-- A whole number. -/
def whole? (cs : List Char) : Option (Except ReadFault Int) :=
  let (negative, body) := Number.readSign cs
  (magnitude? body).map (·.map fun n => if negative then -(n : Int) else n)

/-! ### Fractions -/

/-- An exponent, which must have a sign; it may be missing. -/
def isExponent : List Char → Bool
  | [] => true
  | e :: sign :: ds => (e = 'e' || e = 'E') && (sign = '+' || sign = '-') && !ds.isEmpty &&
      ds.all Number.isDigit
  | _ => false

/-- A digit or an underscore. -/
def isDigitMark (c : Char) : Bool := Number.isDigit c || c = '_'

/-- A decimal fraction: digits, a point, digits and an exponent. Only one with digits before its
point may have a sign. -/
def isFraction (signed : Bool) (cs : List Char) : Bool :=
  let front := cs.takeWhile isDigitMark
  match cs.dropWhile isDigitMark with
  | '.' :: rest =>
    let back := rest.takeWhile isDigitMark
    isExponent (rest.dropWhile isDigitMark) &&
      (match front with
        | c :: _ => Number.isDigit c
        | [] => !signed && back.head?.any Number.isDigit)
  | _ => false

/-- A fraction to base 60: digits that colons part, and a point with decimal digits after the last.
-/
def sixtiethFraction? (negative : Bool) (cs : List Char) : Option Binary64 :=
  let front := cs.takeWhile (· != '.')
  match Text.splitAt ':' front, cs.dropWhile (· != '.') with
  | first :: rest, '.' :: back =>
    if first.head?.any Number.isDigit && first.all isDigitMark && !rest.isEmpty &&
      rest.all isSixtieth &&
        back.all isDigitMark then
      let places := Number.tenTo (joined back).length
      some (Binary64.round negative
        (sixtieths (numeral 10 first) rest * places + numeral 10 back) places)
    else none
  | _, _ => none

/-- A number with a point, or one of the names of infinity and NaN. -/
def fraction? (cs : List Char) : Option Binary64 :=
  let (negative, body) := Number.readSign cs
  let signed := body.length < cs.length
  if [".inf", ".Inf", ".INF"].contains (String.ofList body) then some (.infinite negative)
  else if !signed && [".nan", ".NaN", ".NAN"].contains (String.ofList body) then some .nan
  else if isFraction signed body then Number.readMagnitude? negative (joined body)
  else sixtiethFraction? negative body

/-! ### Moments -/

/-- A number of so many digits, and what follows. -/
def digits? (least most : Nat) (cs : List Char) : Option (Nat × List Char) :=
  let ds := (cs.take most).takeWhile Number.isDigit
  if ds.length < least then none else some (numeral 10 ds, cs.drop ds.length)

/-- What follows a character that must come first. -/
def after? (c : Char) : List Char → Option (List Char)
  | d :: rest => if d = c then some rest else none
  | [] => none

/-- A moment as it is written. -/
structure Stamp where
  date : Calendar.Date
  /-- Hours, minutes and seconds. -/
  clock : Option (Nat × Nat × Nat) := none
  /-- Minutes ahead of universal time. -/
  zone : Option Int := none

/-- The offset at the end of a moment: none when nothing stands there. -/
def zone? (cs : List Char) : Option (Option Int) :=
  match cs, cs.dropWhile fun c => c = ' ' || c = '\t' with
  | [], _ => some none
  | _, ['Z'] => some (some 0)
  | _, sign :: rest => do
    if sign != '+' && sign != '-' then none
    let (hours, rest) ← digits? 1 2 rest
    let minutes ← match rest with
      | [] => some 0
      | ':' :: rest => do
        let (minutes, rest) ← digits? 2 2 rest
        if rest.isEmpty then some minutes else none
      | _ => none
    let ahead : Int := hours * 60 + minutes
    return some (if sign = '-' then -ahead else ahead)
  | _, [] => none

/-- The time of day after a date: `T` or blanks, hours, minutes, seconds and a fraction, and an
offset. -/
def clock? (cs : List Char) : Option ((Nat × Nat × Nat) × Option Int) := do
  let cs ← match cs with
    | 'T' :: rest | 't' :: rest => some rest
    | ' ' :: rest | '\t' :: rest => some (rest.dropWhile fun c => c = ' ' || c = '\t')
    | _ => none
  let (hours, cs) ← digits? 1 2 cs
  let (minutes, cs) ← digits? 2 2 (← after? ':' cs)
  let (seconds, cs) ← digits? 2 2 (← after? ':' cs)
  let cs := match cs with
    | '.' :: rest => rest.dropWhile Number.isDigit
    | cs => cs
  return ((hours, minutes, seconds), ← zone? cs)

/-- A word that is written like a moment. A date alone has two digits for its month and its day. -/
def stamp? (cs : List Char) : Option Stamp := do
  let (year, rest) ← digits? 4 4 cs
  let (month, rest) ← digits? 1 2 (← after? '-' rest)
  let (day, rest) ← digits? 1 2 (← after? '-' rest)
  if rest.isEmpty then
    if cs.length = 10 then return { date := ⟨year, month, day⟩ } else none
  else
    let (clock, zone) ← clock? rest
    return { date := ⟨year, month, day⟩, clock := some clock, zone := zone }

/-- How a span of minutes is shown, in days and seconds. -/
def spanText (minutes : Int) : String :=
  let days := minutes / 1440
  let seconds := minutes % 1440 * 60
  let parts := (if days = 0 then [] else ["days=" ++ Number.intText days]) ++
    (if seconds = 0 then [] else ["seconds=" ++ Number.intText seconds])
  "datetime.timedelta(" ++ ", ".intercalate parts ++ ")"

/-- Why there is no such moment. -/
def Stamp.flaw? (s : Stamp) : Option String :=
  let (hours, minutes, seconds) := s.clock.getD (0, 0, 0)
  if s.zone.any (1440 ≤ ·.natAbs) then
    some
      ("offset must be a timedelta strictly between -timedelta(hours=24) and " ++
        "timedelta(hours=24), not " ++ spanText (s.zone.getD 0))
  else if s.date.year = 0 then some "year 0 is out of range"
  else if s.date.month = 0 || 12 < s.date.month then some "month must be in 1..12"
  else if !s.date.isReal then some "day is out of range for month"
  else if 23 < hours then some "hour must be in 0..23"
  else if 59 < minutes then some "minute must be in 0..59"
  else if 59 < seconds then some "second must be in 0..59"
  else none

/-! ### Words -/

/-- What a plain word stands for. -/
inductive Word where
  | value (v : Value)
  /-- A moment, which is no value. -/
  | moment
  /-- The mark of mappings whose entries are taken over. -/
  | merge
  /-- The mark of a standard value. -/
  | standard

/-- What a plain word stands for. -/
def ofWord (word : String) : Except ReadFault Word :=
  let cs := word.toList
  if nullWords.contains word then .ok (.value .null)
  else if trueWords.contains word then .ok (.value (.bool true))
  else if falseWords.contains word then .ok (.value (.bool false))
  else if word = "<<" then .ok .merge
  else if word = "=" then .ok .standard
  else
    match fraction? cs, whole? cs, stamp? cs with
    | some x, _, _ => .ok (.value (.float x))
    | none, some n, _ => n.map fun n => .value (.int n)
    | none, none, some s =>
      match s.flaw? with
      | some flaw => .error (.failed (.impossible flaw))
      | none => .ok .moment
    | none, none, none => .ok (.value (.text word))

/-- A word under the tag of a kind of values; none where there is no such kind. -/
def ofTag (kind word : String) : Option (Except ReadFault Value) :=
  match kind with
  | "str" => some (.ok (.text word))
  | "null" => some (.ok .null)
  | "bool" =>
    let word := Text.lower word
    some (if trueWords.contains word then .ok (.bool true)
      else if falseWords.contains word then .ok (.bool false)
      else .error (.failed (.missingKey (Text.quoted word))))
  | "int" => some (match whole? word.toList with
    | some n => n.map .int
    | none => .error (.failed (.notWhole word)))
  | "float" =>
    let cs := word.toList
    some (match (fraction? cs).or (Number.readLoose? (String.ofList (joined cs))) with
    | some x => .ok (.float x)
    | none => .error (.failed (.notNumber (Text.lower word))))
  | _ => none

/-- The name that a value makes as a key; lists and objects make none. -/
def keyOf : Value → Except ReadFault String
  | .text s => .ok s
  | .null => .ok "null"
  | .bool b => .ok (if b then "true" else "false")
  | .int n => .ok (Number.intText n)
  | .float x => .ok x.text
  | _ => .error .malformed

end Parley.Yaml
