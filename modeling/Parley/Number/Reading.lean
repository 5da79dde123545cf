import Parley.Number.Binary64
import Parley.Number.Digits
import Parley.Text.Classes
import Parley.Text.Word

/-!
# Numbers read from text

One grammar of decimal numbers (`readPlain?`): a sign, digits with a point, an exponent, or the
names of infinity and NaN in any case. Two readers stand on it. `readLoose?` takes the digits of
every script and single underscores between digits, as answers of people are read. `readField?`
takes ASCII digits and underscores that neither double nor stand at an end, as fields of a document
are read; `readIntField` is its counterpart for whole numbers.
-/

namespace Parley.Number

/-- An ASCII letter in lower case. -/
def asciiLower (c : Char) : Char :=
  if 'A' ≤ c ∧ c ≤ 'Z' then Char.ofNat (c.toNat + 32) else c

/-- A sign in front, and the rest. -/
def readSign : List Char → Bool × List Char
  | '-' :: rest => (true, rest)
  | '+' :: rest => (false, rest)
  | cs => (false, cs)

/-- An exponent: nothing, or `e` with a sign and at least one digit. -/
def readExponent? : List Char → Option Int
  | [] => some 0
  | c :: rest =>
    if asciiLower c ≠ 'e' then none
    else
      let (negative, ds) := readSign rest
      if ds.isEmpty || !ds.all isDigit then none
      else some (if negative then -(ofDigitChars ds : Int) else ofDigitChars ds)

/-- Digits with an optional point and exponent; at least one digit before the exponent. -/
def readMagnitude? (negative : Bool) (cs : List Char) : Option Binary64 :=
  let whole := cs.takeWhile isDigit
  let rest := cs.dropWhile isDigit
  let (fraction, rest) := match rest with
    | '.' :: more => (more.takeWhile isDigit, more.dropWhile isDigit)
    | _ => ([], rest)
  if whole.isEmpty && fraction.isEmpty then none
  else (readExponent? rest).map fun exp10 =>
    Binary64.ofDecimal negative (ofDigitChars (whole ++ fraction)) (exp10 - fraction.length)

/-- A number in ASCII without blanks and underscores. -/
def readPlain? (cs : List Char) : Option Binary64 :=
  let (negative, body) := readSign cs
  let name := body.map asciiLower
  if name = ['i', 'n', 'f'] || name = ['i', 'n', 'f', 'i', 'n', 'i', 't', 'y'] then
    some (.infinite negative)
  else if name = ['n', 'a', 'n'] then some .nan
  else readMagnitude? negative body

/-- Underscores taken out, each of which must stand between two digits. -/
def joinDigits? : List Char → Option (List Char)
  | [] => some []
  | '_' :: _ => none
  | c :: '_' :: d :: rest =>
    if isDigit c && isDigit d then (joinDigits? (d :: rest)).map (c :: ·) else none
  | [_, '_'] => none
  | c :: rest => (joinDigits? rest).map (c :: ·)

/-- Decimal digits of every script become ASCII digits. -/
def toAsciiDigit (c : Char) : Char :=
  match Text.decimalValue? c with
  | some d => Char.ofNat ('0'.toNat + d)
  | none => c

/-- The blanks around a number: all but the information separators. -/
def isNumberBlank (c : Char) : Bool := Text.isBlank c && !(0x1c ≤ c.toNat && c.toNat ≤ 0x1f)

/-- A number as people write it: digits of any script, single underscores between digits, blanks
around. -/
def readLoose? (s : String) : Option Binary64 :=
  (joinDigits? ((Text.stripBy isNumberBlank s.toList).map toAsciiDigit)).bind readPlain?

/-- Underscores stand neither at an end nor side by side. -/
def underscoresApart : List Char → Bool
  | [] => true
  | '_' :: _ => false
  | [_] => true
  | _ :: '_' :: [] => false
  | _ :: '_' :: '_' :: _ => false
  | _ :: '_' :: rest => underscoresApart rest
  | _ :: rest => underscoresApart rest

/-- A number in a document field. -/
def readField? (s : String) : Option Binary64 :=
  let cs := Text.stripBy isNumberBlank s.toList
  match readPlain? cs with
  | some x => some x
  | none =>
    if s.toList.contains '_' && underscoresApart s.toList then
      readPlain? (Text.stripBy isNumberBlank (s.toList.filter (· != '_')))
    else none

/-- What a whole number in a document field may turn out to be. -/
inductive IntField where
  | value (n : Int)
  | tooLong
  | malformed
  deriving DecidableEq

/-- A whole number in a document field; a point followed by zeros only is passed over. -/
def readIntField (s : String) : IntField :=
  let cs := Text.stripBy isNumberBlank s.toList
  if digitLimit < cs.length then .tooLong
  else
    let (negative, body) := readSign cs
    let digits := body.takeWhile (· != '.')
    let pointless := match body.dropWhile (· != '.') with
      | [] => true
      | _ :: zeros => !zeros.isEmpty && zeros.all (· == '0')
    match joinDigits? digits with
    | some ds =>
      if pointless && !ds.isEmpty && ds.all isDigit then
        .value (if negative then -(ofDigitChars ds : Int) else ofDigitChars ds)
      else .malformed
    | none => .malformed

/-- Why a text of digits is no index. -/
inductive IndexFault where
  | tooLong (digits : Nat)
  | malformed
  deriving DecidableEq

/-- A natural number written in decimal digits of any script. -/
def readIndex (s : String) : Except IndexFault Nat :=
  let count := (s.toList.takeWhile Text.isDecimal).length
  if digitLimit < count then .error (.tooLong count)
  else if s.isEmpty || count < s.length then .error .malformed
  else .ok (ofDigits (s.toList.filterMap Text.decimalValue?))

end Parley.Number
