import Parley.Fault
import Parley.Session.Basic
import Parley.Value.Access

/-!
# Outcomes of steps

What running one node yields: a failure, or what the node says, the variables it writes and the
course that the conversation takes from there. Variables are changes; the session is not touched.

`Outcome.toValue` lays an outcome out as a document, and `Outcome.dump` is the document that is
written.
-/

namespace Parley

/-- How urgent a hand-off is. -/
inductive Priority where
  | low
  | normal
  | high
  | urgent
  deriving DecidableEq, Repr

/-- The name of a priority. -/
def Priority.name : Priority → String
  | .low => "low"
  | .normal => "normal"
  | .high => "high"
  | .urgent => "urgent"

/-- The priority of a name. -/
def Priority.ofName? : String → Option Priority
  | "low" => some .low
  | "normal" => some .normal
  | "high" => some .high
  | "urgent" => some .urgent
  | _ => none

/-- A person must take over. -/
structure Handoff where
  targetId : String := ""
  priority : Priority := .normal
  reason : String := ""
  metadata : Fields := []

/-- The layout of a hand-off as a document. -/
def Handoff.toValue (h : Handoff) : Value :=
  .object [("target_id", .text h.targetId), ("priority", .text h.priority.name),
    ("reason", .text h.reason), ("metadata", .object h.metadata)]

/-- The hand-off as a dump has it. -/
def Handoff.dumped (h : Handoff) : Handoff := { h with metadata := Value.dumpedFields h.metadata }

/-- The hand-off can be written. -/
def Handoff.fits (h : Handoff) : Bool := Value.fieldsFit h.metadata

namespace Step

/-- What a node says. -/
inductive Output where
  | silence
  | one (text : String)
  | several (texts : List String)

/-- The messages that an output makes; empty ones are not sent. -/
def Output.messages : Output → List String
  | .silence => []
  | .one text => if text = "" then [] else [text]
  | .several texts => texts.filter (· != "")

/-- An output as a document. -/
def Output.toValue : Output → Value
  | .silence => .null
  | .one text => .text text
  | .several texts => .texts texts

/-- How the conversation goes on. -/
inductive Course where
  /-- At the next node, if there is one. -/
  | proceed (next : Option String)
  /-- At the same node, with the next message. -/
  | wait
  | handoff (h : Handoff)
  | finish

/-- The effect of a node. -/
structure Effect where
  output : Output := .silence
  course : Course
  changes : Fields := []
  metadata : Fields := []

/-- The outcome of a node. -/
inductive Outcome where
  | failed (error : String)
  | done (effect : Effect)

/-- The messages that an outcome makes. -/
def Outcome.messages : Outcome → List String
  | .failed _ => []
  | .done e => e.output.messages

/-- The course as a dump has it. -/
def Course.dumped : Course → Course
  | .handoff h => .handoff h.dumped
  | c => c

/-- The course can be written. -/
def Course.fits : Course → Bool
  | .handoff h => h.fits
  | _ => true

/-- The effect as a dump has it. -/
def Effect.dumped (e : Effect) : Effect :=
  { e with course := e.course.dumped, changes := Value.dumpedFields e.changes
           metadata := Value.dumpedFields e.metadata }

/-- The effect can be written. -/
def Effect.fits (e : Effect) : Bool :=
  e.course.fits && Value.fieldsFit e.changes && Value.fieldsFit e.metadata

/-- The layout of an outcome as a document. -/
def Outcome.toValue (r : Outcome) : Value :=
  let (error, e) : String × Effect := match r with
    | .failed error => (error, { course := .proceed none })
    | .done e => ("", e)
  let next : Option String := match e.course with
    | .proceed n => n
    | _ => none
  let handoff : Option Handoff := match e.course with
    | .handoff h => some h
    | _ => none
  let waits := match e.course with
    | .wait => true
    | _ => false
  let ends := match e.course with
    | .finish => true
    | _ => false
  let failed := match r with
    | .failed _ => true
    | .done _ => false
  .object [("success", .bool !failed), ("output", e.output.toValue),
    ("next_node_id", .ofOption .text next), ("variables", .object e.changes),
    ("wait_for_input", .bool waits), ("terminal", .bool ends),
    ("handoff", .ofOption Handoff.toValue handoff), ("error", .text error),
    ("metadata", .object e.metadata)]

/-- The document that is written of an outcome. -/
def Outcome.dump : Outcome → Except Fault Value
  | .failed error => .ok (Outcome.failed error).toValue
  | .done e => Value.written e.fits (Outcome.done e.dumped).toValue

end Step
end Parley
