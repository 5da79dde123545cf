import Parley.Calendar.Reading
import Parley.Fault
import Parley.Number.Reading
import Parley.Pattern.Match
import Parley.Pattern.Reader
import Parley.Text.Case

/-!
# Answers

What counts as an answer of a kind: an e-mail address, a tax number, a telephone number, a number, a
date, a full name, any text, or a text of a given pattern. Blanks at the ends do not count. The
numbers of persons are known by how many digits they have.

`lookupKey` is the form in which an answer is looked up among contracts.
-/

namespace Parley.Answer

/-- The decimal digits of a text, of every script, in order. -/
def digits (s : String) : String := String.ofList (s.toList.filter Text.isDecimal)

/-- How many digits a text has. -/
def digitCount (s : String) : Nat := (s.toList.filter Text.isDecimal).length

/-- A part of an e-mail address: characters that are neither blank nor `@`, at least one. -/
def addressPart :
    Pattern.Node := .repetition true 1 none (.oneOf true [.one '@'.toNat, .category .blank false])

/-- The pattern of e-mail addresses: a part, `@`, a part, a dot and a part. -/
def emailPattern : Pattern :=
  ⟨{}, .sequence (.anchor .lineStart) <| .sequence addressPart <|
    .sequence (.oneOf false [.one '@'.toNat]) <|
    .sequence addressPart <| .sequence (.oneOf false [.one '.'.toNat]) <| .sequence addressPart <|
    .sequence (.anchor .lineEnd) .empty⟩

/-- The tree is what the reader makes of the pattern as it is written. -/
theorem read_emailPattern :
    (Pattern.read "^[^\\s@]+@[^\\s@]+\\.[^\\s@]+$").toOption = some emailPattern := by
  decide +kernel

/-- An e-mail address. -/
def isEmail (s : String) : Bool := emailPattern.begins (Text.strip s)

/-- A tax number: eleven digits. -/
def isTaxNumber (s : String) : Bool := digitCount s = 11

/-- A telephone number: ten or eleven digits. -/
def isPhone (s : String) : Bool := 10 ≤ digitCount s && digitCount s ≤ 11

/-- The text with points for its commas. -/
def withPoints (s : String) : String := s.map fun c => if c = ',' then '.' else c

/-- A number, with a point or a comma. -/
def isNumber (s : String) : Bool := (Number.readLoose? (withPoints (Text.strip s))).isSome

/-- A date. -/
def isDate (s : String) : Bool := Calendar.isWrittenDate (Text.strip s)

/-- A full name: at least two characters, one of which is a space. -/
def isFullName (s : String) : Bool :=
  let name := Text.strip s
  2 ≤ name.length && name.contains ' '

/-- Anything but blanks. -/
def isGiven (s : String) : Bool := Text.strip s != ""

/-- The test of a kind of answer; kinds without a test of their own only ask for text. -/
def test (kind : String) : String → Bool :=
  match kind with
  | "email" => isEmail
  | "cpf" => isTaxNumber
  | "phone" => isPhone
  | "number" => isNumber
  | "date" => isDate
  | _ => isGiven

/-- The test of a field of a lead. -/
def fieldTest (field : String) : String → Bool :=
  match field with
  | "nome" => isFullName
  | "cpf" => isTaxNumber
  | "email" => isEmail
  | "celular" | "telefone" => isPhone
  | _ => isGiven

/-- The answer is of the kind. Answers of a custom kind have the given pattern; none has a malformed
one. -/
def isValid (answer kind pattern : String) : Except Fault Bool :=
  if kind = "custom" && pattern != "" then
    match Pattern.read pattern with
    | .ok p => .ok (p.covers (Text.strip answer))
    | .error .malformed => .ok false
    | .error .countTooLarge => .error .countTooLarge
    | .error (.countTooLong digits) => .error (.tooLongToRead digits)
  else .ok (test kind answer)

/-- The form of an answer under which contracts are looked up. -/
def lookupKey (kind answer : String) : String :=
  if kind = "cpf" || kind = "phone" then digits answer else Text.lower (Text.strip answer)

end Parley.Answer
