import Parley.Number.Reading
import Parley.Text.Bases
import Parley.Value.Basic

/-!
# Values read from JSON text

The reader takes the JSON grammar and the names `NaN`, `Infinity` and `-Infinity`. A number with a
point or an exponent is a binary64 number, any other a whole number. Of entries with one name the
last counts, at the place of the first.
-/

namespace Parley.Json

/-- What is wrong with a text. -/
inductive Defect where
  | noValue
  | noName
  | noColon
  | noComma
  /-- Something follows the value. -/
  | extra
  | unterminated
  | controlCharacter
  | unknownEscape
  /-- An escape of a code unit lacks digits. -/
  | brokenUnit
  deriving DecidableEq, Repr

/-- The text of a defect. -/
def Defect.message : Defect → String
  | .noValue => "Expecting value"
  | .noName => "Expecting property name enclosed in double quotes"
  | .noColon => "Expecting ':' delimiter"
  | .noComma => "Expecting ',' delimiter"
  | .extra => "Extra data"
  | .unterminated => "Unterminated string starting at"
  | .controlCharacter => "Invalid control character at"
  | .unknownEscape => "Invalid \\escape"
  | .brokenUnit => "Invalid \\uXXXX escape"

/-- Why a text is refused. -/
inductive ReadFault where
  /-- The text has a defect, at the place from which so many characters are left. -/
  | malformed (what : Defect) (left : Nat)
  /-- A whole number has more digits than are read. -/
  | tooLong (digits : Nat)
  deriving DecidableEq, Repr

/-- White space between tokens. -/
def isBlank (c : Char) : Bool := c = ' ' || c = '\t' || c = '\n' || c = '\r'

/-- The text from the next token on. -/
def skip (cs : List Char) : List Char := cs.dropWhile isBlank

/-- The character of a one-letter escape. -/
def shortEscape? : Char → Option Char
  | '"' => some '"'
  | '\\' => some '\\'
  | '/' => some '/'
  | 'b' => some '\x08'
  | 'f' => some '\x0c'
  | 'n' => some '\n'
  | 'r' => some '\r'
  | 't' => some '\t'
  | _ => none

/-- The code units of a string up to its closing quote, and the text after it. A string that does
not end is a defect of the whole string. -/
def readUnits : List Char → Except ReadFault (List Nat × List Char)
  | [] | ['\\'] => .error (.malformed .unterminated 0)
  | '"' :: rest => .ok ([], rest)
  | '\\' :: 'u' :: rest =>
    match rest with
    | a :: b :: c :: d :: rest' =>
      match Text.hexDigit? a, Text.hexDigit? b, Text.hexDigit? c, Text.hexDigit? d,
          rest'.isEmpty with
      | some a, some b, some c, some d, false =>
        (readUnits rest').map fun p => ((((a * 16 + b) * 16 + c) * 16 + d) :: p.1, p.2)
      | _, _, _, _, _ => .error (.malformed .brokenUnit (rest.length + 1))
    | _ => .error (.malformed .brokenUnit (rest.length + 1))
  | '\\' :: c :: rest =>
    match shortEscape? c with
    | some e => (readUnits rest).map fun p => (e.toNat :: p.1, p.2)
    | none => .error (.malformed .unknownEscape (rest.length + 2))
  | c :: rest =>
    if c.toNat < 0x20 then .error (.malformed .controlCharacter (rest.length + 1))
    else (readUnits rest).map fun p => (c.toNat :: p.1, p.2)

/-- Code units to characters: two surrogates that follow each other make one, a lone one is
replaced. -/
def joinUnits : List Nat → List Char
  | [] => []
  | hi :: lo :: rest =>
    if 0xD800 ≤ hi ∧ hi < 0xDC00 ∧ 0xDC00 ≤ lo ∧ lo < 0xE000 then
      Char.ofNat (0x10000 + (hi - 0xD800) * 0x400 + (lo - 0xDC00)) :: joinUnits rest
    else (if 0xD800 ≤ hi ∧ hi < 0xE000 then '\ufffd' else Char.ofNat hi) :: joinUnits (lo :: rest)
  | [u] => [if 0xD800 ≤ u ∧ u < 0xE000 then '\ufffd' else Char.ofNat u]

/-- A string after its opening quote. -/
def readText (cs : List Char) : Except ReadFault (String × List Char) :=
  match readUnits cs with
  | .ok (units, rest) => .ok (String.ofList (joinUnits units), rest)
  | .error (.malformed .unterminated _) => .error (.malformed .unterminated (cs.length + 1))
  | .error e => .error e

/-- The digits at the front, and the rest. -/
def digitsOf (cs : List Char) : List Char × List Char :=
  (cs.takeWhile Number.isDigit, cs.dropWhile Number.isDigit)

/-- A point with at least one digit after it; otherwise nothing is taken. -/
def readFraction : List Char → List Char × List Char
  | '.' :: rest =>
    let (ds, after) := digitsOf rest
    if ds.isEmpty then ([], '.' :: rest) else (ds, after)
  | cs => ([], cs)

/-- An exponent with at least one digit; otherwise nothing is taken. -/
def readPower (cs : List Char) : Option Int × List Char :=
  match cs with
  | c :: rest =>
    if c = 'e' || c = 'E' then
      let (negative, body) := Number.readSign rest
      let (ds, after) := digitsOf body
      if ds.isEmpty then (none, cs)
      else (some (if negative then -(Number.ofDigitChars ds : Int) else Number.ofDigitChars ds),
        after)
    else (none, cs)
  | [] => (none, [])

/-- A number, of which `negative` tells whether a minus sign has been read. A number without digits
is no value at all. -/
def readNumber (negative : Bool) (cs : List Char) : Except ReadFault (Value × List Char) :=
  let (whole, rest) := match cs with
    | '0' :: rest => (['0'], rest)
    | _ => digitsOf cs
  if whole.isEmpty then .error (.malformed .noValue (cs.length + negative.toNat))
  else
    let (fraction, rest) := readFraction rest
    let (power, rest) := readPower rest
    if fraction.isEmpty && power.isNone then
      if Number.digitLimit < whole.length then .error (.tooLong whole.length)
      else
        let n : Int := Number.ofDigitChars whole
        .ok (.int (if negative then -n else n), rest)
    else
      let x := Binary64.ofDecimal negative (Number.ofDigitChars (whole ++ fraction))
        (power.getD 0 - fraction.length)
      .ok (.float x, rest)

/-- The rest after a fixed word. -/
def after? (word : String) (cs : List Char) : Option (List Char) :=
  if word.toList.isPrefixOf cs then some (cs.drop word.length) else none

/-- A value that is one token: a name or a number. -/
def readAtom (cs : List Char) : Except ReadFault (Value × List Char) :=
  match after? "null" cs, after? "true" cs, after? "false" cs, after? "NaN" cs,
      after? "Infinity" cs, after? "-Infinity" cs with
  | some rest, _, _, _, _, _ => .ok (.null, rest)
  | _, some rest, _, _, _, _ => .ok (.bool true, rest)
  | _, _, some rest, _, _, _ => .ok (.bool false, rest)
  | _, _, _, some rest, _, _ => .ok (.float .nan, rest)
  | _, _, _, _, some rest, _ => .ok (.float (.infinite false), rest)
  | _, _, _, _, _, some rest => .ok (.float (.infinite true), rest)
  | _, _, _, _, _, _ =>
    match cs with
    | '-' :: rest => readNumber true rest
    | _ => readNumber false cs

mutual

/-- A value at the front of the text, nested no deeper than `fuel`. -/
def readValue : Nat → List Char → Except ReadFault (Value × List Char)
  | 0, cs => .error (.malformed .noValue cs.length)
  | fuel + 1, cs =>
    match cs with
    | '"' :: rest => (readText rest).map fun p => (.text p.1, p.2)
    | '[' :: rest =>
      match skip rest with
      | ']' :: after => .ok (.list [], after)
      | body => (readItems fuel body).map fun p => (.list p.1, p.2)
    | '{' :: rest =>
      match skip rest with
      | '}' :: after => .ok (.object [], after)
      | body => (readPairs fuel body).map fun p => (.object (Entries.ofPairs p.1), p.2)
    | _ => readAtom cs

/-- The items of a list up to its bracket; there is at least one. -/
def readItems : Nat → List Char → Except ReadFault (List Value × List Char)
  | 0, cs => .error (.malformed .noValue cs.length)
  | fuel + 1, cs => do
    let (v, rest) ← readValue fuel cs
    match skip rest with
    | ']' :: after => .ok ([v], after)
    | ',' :: more => (readItems fuel (skip more)).map fun p => (v :: p.1, p.2)
    | other => .error (.malformed .noComma other.length)

/-- The entries of an object up to its brace; there is at least one. -/
def readPairs : Nat → List Char → Except ReadFault (List (String × Value) × List Char)
  | 0, cs => .error (.malformed .noName cs.length)
  | fuel + 1, cs =>
    match cs with
    | '"' :: body => do
      let (name, rest) ← readText body
      match skip rest with
      | ':' :: more => do
        let (v, rest) ← readValue fuel (skip more)
        match skip rest with
        | '}' :: after => .ok ([(name, v)], after)
        | ',' :: more => (readPairs fuel (skip more)).map fun p => ((name, v) :: p.1, p.2)
        | other => .error (.malformed .noComma other.length)
      | other => .error (.malformed .noColon other.length)
    | other => .error (.malformed .noName other.length)

end

/-- The value that a whole text denotes. Every level and every item takes a character, so the length
of the text bounds the nesting. -/
def read (s : String) : Except ReadFault Value := do
  let cs := s.toList
  let (v, rest) ← readValue (2 * cs.length + 2) (skip cs)
  if (skip rest).isEmpty then .ok v else .error (.malformed .extra (skip rest).length)

end Parley.Json
