import Parley.Number.Digits

/-!
# Checked values

The outcome of reading a document: a value, or all complaints about it. A complaint names the part
of the document by its path from the whole. Reading a document of several parts reads all of them,
so one document yields the complaints of every part, in the order of the parts.

Main statement: `isOk_seq`, a value of two parts is read exactly when both parts are.
-/

namespace Parley.Schema

/-- What is wrong with a part. -/
inductive Problem where
  | missing
  | notText
  | notInt
  | fractionalInt
  | unreadableInt
  | oversizedInt
  | notFinite
  | notFloat
  | unreadableFloat
  | notBool
  | unclearBool
  | notList
  | notObject
  /-- A block of the named kind is expected. -/
  | notBlock (name : String)
  /-- One of the texts is expected; they are given as they are listed. -/
  | notChoice (listed : String)
  | notMoment
  | unreadableMoment (why : String)
  /-- Something that has fields is expected. -/
  | fieldless
  /-- A number lies above the largest that is allowed. -/
  | above (bound : Int)
  deriving DecidableEq, Repr

/-- The text of a problem. -/
def Problem.message : Problem → String
  | .missing => "Field required"
  | .notText => "Input should be a valid string"
  | .notInt => "Input should be a valid integer"
  | .fractionalInt => "Input should be a valid integer, got a number with a fractional part"
  | .unreadableInt => "Input should be a valid integer, unable to parse string as an integer"
  | .oversizedInt => "Unable to parse input string as an integer, exceeded maximum size"
  | .notFinite => "Input should be a finite number"
  | .notFloat => "Input should be a valid number"
  | .unreadableFloat => "Input should be a valid number, unable to parse string as a number"
  | .notBool => "Input should be a valid boolean"
  | .unclearBool => "Input should be a valid boolean, unable to interpret input"
  | .notList => "Input should be a valid list"
  | .notObject => "Input should be a valid dictionary"
  | .notBlock name => "Input should be a valid dictionary or instance of " ++ name
  | .notChoice listed => "Input should be " ++ listed
  | .notMoment => "Input should be a valid datetime"
  | .unreadableMoment why => "Input should be a valid datetime or date, " ++ why
  | .fieldless => "Input should be a valid dictionary or object to extract fields from"
  | .above bound => "Input should be less than or equal to " ++ Number.intText bound

/-- A problem with its place. -/
structure Complaint where
  path : List String
  problem : Problem
  deriving DecidableEq, Repr

/-- The text of a complaint. -/
def Complaint.text (c : Complaint) : String :=
  ".".intercalate c.path ++ ": " ++ c.problem.message

/-- A value that was read, or the complaints. -/
inductive Checked (α : Type) where
  | ok (value : α)
  | refused (complaints : List Complaint)

namespace Checked

variable {α β : Type}

/-- Apply a function to what is read. -/
def map (f : α → β) : Checked α → Checked β
  | .ok a => .ok (f a)
  | .refused cs => .refused cs

/-- Read a function and its argument. -/
def seq : Checked (α → β) → Checked α → Checked β
  | .ok f, .ok a => .ok (f a)
  | .ok _, .refused ds => .refused ds
  | .refused cs, .ok _ => .refused cs
  | .refused cs, .refused ds => .refused (cs ++ ds)

instance : Applicative Checked where
  pure := .ok
  seq f x := seq f (x ())

/-- A value was read. -/
def isOk : Checked α → Bool
  | .ok _ => true
  | .refused _ => false

/-- Complaints about a part are complaints about the whole, one step further away. -/
def under (key : String) : Checked α → Checked α
  | .ok a => .ok a
  | .refused cs => .refused (cs.map fun c => { c with path := key :: c.path })

/-- A single problem with the whole. -/
def refuse (p : Problem) : Checked α := .refused [⟨[], p⟩]

/-- The value or the complaints. -/
def toExcept : Checked α → Except (List Complaint) α
  | .ok a => .ok a
  | .refused cs => .error cs

theorem isOk_seq (f : Checked (α → β)) (x : Checked α) :
    (seq f x).isOk = (f.isOk && x.isOk) := by
  cases f <;> cases x <;> rfl

theorem isOk_under (key : String) (x : Checked α) : (x.under key).isOk = x.isOk := by
  cases x <;> rfl

end Checked
end Parley.Schema
