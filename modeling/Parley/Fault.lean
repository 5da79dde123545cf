import Parley.Number.Digits
import Parley.Text.Quoted

/-!
# Faults

The causes for which evaluating a node, a condition or a conversion fails, with their texts and the
names of their classes. `Fault.report` is what is shown when a fault may have no text of its own.
-/

namespace Parley

/-- Why an evaluation failed. -/
inductive Fault where
  /-- A whole number has more digits than are written. -/
  | tooLongToWrite
  /-- A text has more digits than are read. -/
  | tooLongToRead (digits : Nat)
  /-- A text is no whole number. -/
  | notWhole (text : String)
  /-- A text is no number. -/
  | notNumber (text : String)
  /-- A value of this kind cannot be a number. -/
  | notNumeric (kind : String)
  /-- A whole number lies beyond the binary64 numbers. -/
  | beyondFloat
  /-- A text is no moment. -/
  | notMoment (text : String)
  /-- A text is written like a moment or a number, but there is no such. -/
  | impossible (text : String)
  /-- A text is no status of a session. -/
  | notStatus (text : String)
  /-- Of two moments only one has an offset. -/
  | incomparableMoments
  /-- A file cannot be written. -/
  | cannotWrite
  /-- A value nests too deep to be written. -/
  | tooDeep
  /-- A pattern counts its turns further than is allowed. -/
  | countTooLarge
  /-- A value of this kind has no items. -/
  | notIterable (kind : String)
  /-- A value of this kind has no named entries. -/
  | notMapping (kind : String)
  /-- A value of this kind has no length. -/
  | noLength (kind : String)
  /-- A value of this kind has no such attribute. -/
  | noAttribute (kind name : String)
  /-- Values of this kind are not asked for entries by name. -/
  | notSubscriptable (kind : String)
  /-- A value of this kind cannot be looked up. -/
  | notHashable (kind : String)
  /-- A value of this kind is no name of a variable. -/
  | notName (kind : String)
  /-- A value of this kind is no path. -/
  | notPath (kind : String)
  /-- An object has no such entry. -/
  | missingKey (shown : String)
  /-- An index points beyond a list. -/
  | indexOutOfRange
  /-- Under strict routing, a node has no edge for a handle. -/
  | noRoute (node handle : String)
  /-- An index is beyond every list. -/
  | indexBeyondLists
  /-- A node cannot be run, for the reason stated. -/
  | stated (text : String)
  /-- A collaborator failed with a text. -/
  | collaborator (text : String)
  /-- A collaborator did not answer in time. -/
  | timedOut
  deriving DecidableEq, Repr

namespace Fault

/-- The text of a fault. -/
def message : Fault → String
  | .tooLongToWrite =>
    "Exceeds the limit (4300 digits) for integer string conversion; " ++
      "use sys.set_int_max_str_digits() to increase the limit"
  | .tooLongToRead digits =>
    "Exceeds the limit (4300 digits) for integer string conversion: value has " ++
      Number.natText digits ++
      " digits; use sys.set_int_max_str_digits() to increase the limit"
  | .notWhole text =>
    "invalid literal for int() with base 10: " ++ String.ofList ((Text.quoted text).toList.take 200)
  | .notNumber text => "could not convert string to float: " ++ Text.quoted text
  | .notMoment text => "Invalid isoformat string: " ++ Text.quoted text
  | .notStatus text => Text.quoted text ++ " is not a valid SessionStatus"
  | .impossible text => text
  | .incomparableMoments => "can't compare offset-naive and offset-aware datetimes"
  | .cannotWrite => "the file cannot be written"
  | .tooDeep => "Circular reference detected (depth exceeded)"
  | .notNumeric kind => "float() argument must be a string or a real number, not '" ++ kind ++ "'"
  | .beyondFloat => "int too large to convert to float"
  | .countTooLarge => "the repetition number is too large"
  | .notIterable kind => "'" ++ kind ++ "' object is not iterable"
  | .notMapping kind => "'" ++ kind ++ "' object is not a mapping"
  | .noLength kind => "object of type '" ++ kind ++ "' has no len()"
  | .noAttribute kind name => "'" ++ kind ++ "' object has no attribute '" ++ name ++ "'"
  | .notSubscriptable kind =>
    if kind = "str" then "string indices must be integers, not 'str'"
    else if kind = "list" then "list indices must be integers or slices, not str"
    else "'" ++ kind ++ "' object is not subscriptable"
  | .notHashable kind => "unhashable type: '" ++ kind ++ "'"
  | .notName _ => "Input should be a valid string"
  | .notPath kind => "expected str, bytes or os.PathLike object, not " ++ kind
  | .missingKey shown => shown
  | .indexOutOfRange => "list index out of range"
  | .noRoute node handle => "node '" ++ node ++ "' has no edge for handle '" ++ handle ++ "'"
  | .indexBeyondLists => "cannot fit 'int' into an index-sized integer"
  | .stated text => text
  | .collaborator text => text
  | .timedOut => ""

/-- The name of a fault's class. -/
def className : Fault → String
  | .tooLongToWrite | .tooLongToRead _ | .notWhole _ | .notNumber _ | .notMoment _ | .notStatus _
  | .impossible _ | .tooDeep => "ValueError"
  | .beyondFloat | .countTooLarge => "OverflowError"
  | .notNumeric _ | .notIterable _ | .notMapping _ | .noLength _ | .notSubscriptable _
  | .notHashable _ | .notPath _ | .incomparableMoments => "TypeError"
  | .cannotWrite => "OSError"
  | .noAttribute .. => "AttributeError"
  | .missingKey _ => "KeyError"
  | .notName _ => "ValidationError"
  | .indexOutOfRange | .indexBeyondLists => "IndexError"
  | .noRoute .. => "RoutingError"
  | .stated _ | .collaborator _ => "RuntimeError"
  | .timedOut => "TimeoutError"

/-- The text of a fault, or the name of its class when the text is empty. -/
def report (f : Fault) : String := if f.message = "" then f.className else f.message

/-- A report is never empty. -/
theorem report_ne_empty (f : Fault) : f.report ≠ "" := by
  unfold report
  split
  · cases f <;> simp [className]
  · assumption

end Fault
end Parley
