import Parley.Answer
import Parley.Value.Display

/-!
# Conditions

A rule compares a variable with a value. Texts compare without regard to case and to blanks at their
ends; greater and less compare numbers. A comparison whose operands have no text or no number is
false. Only two faults are left: a whole number beyond the binary64 numbers, and a pattern that
counts too far.
-/

namespace Parley.Condition

/-- A comparison. -/
inductive Operator where
  | equals
  | notEquals
  | contains
  | startsWith
  | endsWith
  | greaterThan
  | lessThan
  | isEmpty
  | isNotEmpty
  | matchesPattern
  deriving DecidableEq, Repr

/-- The comparison of a name. -/
def Operator.ofName? : String → Option Operator
  | "equals" => some .equals
  | "not_equals" => some .notEquals
  | "contains" => some .contains
  | "starts_with" => some .startsWith
  | "ends_with" => some .endsWith
  | "greater_than" => some .greaterThan
  | "less_than" => some .lessThan
  | "is_empty" => some .isEmpty
  | "is_not_empty" => some .isNotEmpty
  | "matches_regex" => some .matchesPattern
  | _ => none

/-- The text of an operand, without blanks at its ends. -/
def trimmed (v : Value) : Except Fault String := v.display.map Text.strip

/-- The text of an operand in lower case. -/
def folded (v : Value) : Except Fault String := (trimmed v).map Text.lower

/-- The number of an operand: a number itself, or the one that a text denotes. Truth values have
none. -/
def number (v : Value) : Except Fault Binary64 :=
  match v with
  | .int n =>
    match Binary64.ofInt? n with
    | some x => .ok x
    | none => .error .beyondFloat
  | .float x => .ok x
  | .text s =>
    match Number.readLoose? (Answer.withPoints (Text.strip s)) with
    | some x => .ok x
    | none => .error (.notNumber s)
  | v => .error (.notNumeric v.kindWord)

/-- A comparison of two texts. -/
def compareTexts (a b : Value) (test : String → String → Bool) : Except Fault Bool := do
  let x ← folded a
  let y ← folded b
  return test x y

/-- A comparison of two numbers. -/
def compareNumbers (a b : Value) (test : Binary64 → Binary64 → Bool) : Except Fault Bool := do
  let x ← number a
  let y ← number b
  return test x y

/-- The pattern that the second operand denotes occurs in the text of the first. -/
def occurs (a b : Value) : Except Fault Bool := do
  let pattern ← b.plain
  let text ← a.display
  match Pattern.read pattern with
  | .ok p => return p.occursIn text
  | .error .malformed => return false
  | .error .countTooLarge => throw .countTooLarge
  | .error (.countTooLong digits) => throw (.tooLongToRead digits)

/-- The comparison of two operands. -/
def Operator.apply (a b : Value) : Operator → Except Fault Bool
  | .equals => compareTexts a b (· == ·)
  | .notEquals => compareTexts a b (· != ·)
  | .contains => compareTexts a b fun x y => Text.contains y x
  | .startsWith => compareTexts a b fun x y => y.toList.isPrefixOf x.toList
  | .endsWith => compareTexts a b fun x y => y.toList.isSuffixOf x.toList
  | .greaterThan => compareNumbers a b fun x y => y.lt x
  | .lessThan => compareNumbers a b fun x y => x.lt y
  | .isEmpty => (trimmed a).map (· == "")
  | .isNotEmpty => (trimmed a).map (· != "")
  | .matchesPattern => occurs a b

/-- A comparison of a variable with a value. -/
structure Rule where
  id : String := ""
  subject : String
  operator : String
  value : Value := .text ""
  handleId : String := ""

/-- The rule holds for the variables. A variable that is missing counts as null, and an operator
without a meaning never holds. -/
def Rule.holds (r : Rule) (vars : Fields) : Except Fault Bool :=
  match Operator.ofName? r.operator with
  | none => .ok false
  | some op =>
    match op.apply ((vars.get? r.subject).getD .null) r.value with
    | .ok b => .ok b
    | .error .beyondFloat => .error .beyondFloat
    | .error .countTooLarge => .error .countTooLarge
    | .error _ => .ok false

/-- All rules hold; the first that does not settles it. -/
def allHold (vars : Fields) : List Rule → Except Fault Bool
  | [] => .ok true
  | r :: rest => do
    if ← r.holds vars then allHold vars rest else return false

end Parley.Condition
