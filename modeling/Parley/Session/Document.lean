import Parley.Fault
import Parley.Schema.Moment
import Parley.Session.Basic
import Parley.Value.Access

/-!
# Sessions as documents

`Session.toValue` lays out every field of a session under its stored name, and `Session.dump` is the
document that is written. The two differ in the variables: a dump has null for a number that is not
finite, and there is none when a variable nests too deep. `Session.ofValue` reads a session; fields
that are not given take what a new session has.
-/

namespace Parley

open Schema

/-- A contact as a document. -/
def Contact.toValue (c : Contact) : Value :=
  .object [("id", .text c.id), ("phone", .text c.phone), ("name", .text c.name)]

/-- A contact from its entries. -/
def Contact.read (o : Fields) : Checked Contact :=
  Contact.mk <$> required o (.only "id") text <*> optional o (.only "phone") text ""
    <*> optional o (.only "name") text ""

/-- A contact from a document. -/
def Contact.ofValue : Reader Contact := block "ContactInfo" Contact.read

namespace Session

/-- A visit as a document. -/
def Visit.toValue (v : Visit) : Value :=
  .object [("node_id", .text v.nodeId), ("node_type", .text v.nodeKind), ("action", .text v.action),
    ("timestamp", .text v.moment.text)]

/-- A visit from its entries; `now` stands in for its moment. -/
def Visit.read (now : Calendar.Moment) (o : Fields) : Checked Visit :=
  Visit.mk <$> required o (.only "node_id") text <*> required o (.only "node_type") text
    <*> optional o (.only "action") text "executed" <*>
      optional o (.only "timestamp") Schema.moment now

/-- The texts of all statuses, as they are listed. -/
def statusNames : String := "'active', 'waiting_input', 'completed', 'handoff' or 'error'"

/-- A status. -/
def readStatus : Reader Status
  | .text s =>
    match Status.ofName? s with
    | some st => .ok st
    | none => .refuse (.notChoice statusNames)
  | _ => .refuse (.notChoice statusNames)

/-- The status that a text names, outside of documents. -/
def Status.read (text : String) : Except Fault Status :=
  match Status.ofName? text with
  | some st => .ok st
  | none => .error (.notStatus text)

/-- The layout of a session as a document. -/
def toValue (s : Session) : Value :=
  .object [("session_id", .text s.id), ("flow_id", .text s.flowId),
    ("flow_version", .int s.flowVersion), ("contact", s.contact.toValue),
    ("current_node_id", .text s.currentNodeId), ("status", .text s.status.name),
    ("variables", .object s.vars), ("history", .list (s.history.map Visit.toValue)),
    ("turn_count", .int s.turnCount), ("started_at", .text s.startedAt.text),
    ("last_activity_at", .text s.lastActivityAt.text)]

/-- The session can be written, or why not. -/
def checkFit (s : Session) : Except Fault Unit := if s.fits then .ok () else .error .tooDeep

/-- The document that is written of a session. -/
def dump (s : Session) : Except Fault Value := Value.written s.fits s.dumped.toValue

/-- A session from its entries, begun now under a new id as far as they leave that open. -/
def read (now : Calendar.Moment) (newId : String) (o : Fields) : Checked Session :=
  Session.mk <$> optional o (.only "session_id") text newId
    <*> required o (.only "flow_id") text
    <*> optional o (.only "flow_version") int 1
    <*> required o (.only "contact") Contact.ofValue
    <*> optional o (.only "current_node_id") text ""
    <*> optional o (.only "status") readStatus .active
    <*> optional o (.only "variables") (object any) []
    <*> optional o (.only "history") (list (block "HistoryEntry" (Visit.read now))) []
    <*> optional o (.only "turn_count") int 0
    <*> optional o (.only "started_at") moment now
    <*> optional o (.only "last_activity_at") moment now

/-- A session from a document. -/
def ofValue (now : Calendar.Moment) (newId : String) : Reader Session :=
  block "SessionContext" (read now newId)

end Session
end Parley
