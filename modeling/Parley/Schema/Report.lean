import Parley.Schema.Checked
import Parley.Value.Basic

/-!
# Complaints as documents

A complaint is reported with the code of its problem, its place below where the document came from,
its text and what was given there. Something that is missing is reported with what it is missing
from.

Main statement: `given_missing`, as said.
-/

namespace Parley.Schema

/-- The code of a problem. -/
def Problem.code : Problem → String
  | .missing => "missing"
  | .notText => "string_type"
  | .notInt => "int_type"
  | .fractionalInt => "int_from_float"
  | .unreadableInt => "int_parsing"
  | .oversizedInt => "int_parsing_size"
  | .notFinite => "finite_number"
  | .notFloat => "float_type"
  | .unreadableFloat => "float_parsing"
  | .notBool => "bool_type"
  | .unclearBool => "bool_parsing"
  | .notList => "list_type"
  | .notObject => "dict_type"
  | .notBlock _ => "model_type"
  | .notChoice _ => "enum"
  | .notMoment => "datetime_type"
  | .unreadableMoment _ => "datetime_from_date_parsing"
  | .fieldless => "model_attributes_type"
  | .above _ => "less_than_equal"

/-- What a problem tells besides its text. -/
def Problem.context : Problem → Fields
  | .notChoice listed => [("expected", .text listed)]
  | .unreadableMoment why => [("error", .text why)]
  | .above bound => [("le", .int bound)]
  | _ => []

/-- The part of a document at a place. -/
def part (document : Value) : List String → Value
  | [] => document
  | name :: rest => part ((document.field? name).getD .null) rest

/-- What a complaint is about. -/
def Complaint.given (document : Value) (c : Complaint) : Value :=
  match c.problem with
  | .missing => part document c.path.dropLast
  | _ => part document c.path

/-- A report; `source` is where the document came from. -/
def report (source : List Value) (code text : String) (given : Value) (context : Fields) : Value :=
  .object ([("type", .text code), ("loc", .list source), ("msg", .text text), ("input", given)] ++
    if context.isEmpty then [] else [("ctx", .object context)])

/-- A complaint about a document. -/
def Complaint.report (source : String) (document : Value) (c : Complaint) : Value :=
  Schema.report (.text source :: c.path.map .text) c.problem.code c.problem.message
    (c.given document)
    c.problem.context

/-- What is missing is told with the whole document. -/
theorem given_missing (document : Value) (name : String) :
    Complaint.given document ⟨[name], .missing⟩ = document := rfl

end Parley.Schema
