import Parley.Schema.Reading
import Parley.Schema.Report
import Parley.Session.Document

/-!
# What the service is told

Messages of contacts, flows to publish and the bounds of listings, as they come with requests. What
cannot be read is reported in full.
-/

namespace Parley.Service

/-- A message of a contact. -/
structure Message where
  contact : Contact
  text : String
  flowId : String
  sessionId : String

namespace Message

open Schema (Checked required optional nullable)

/-- A message from named values. -/
def ofFields (fields : Fields) : Checked Message :=
  let word := fun name => optional fields (.only name) Schema.text ""
  let choice := fun name =>
    (optional fields (.only name) (nullable Schema.text) none).map (·.getD "")
  (fun id text flowId sessionId name phone => ⟨⟨id, phone, name⟩, text, flowId, sessionId⟩) <$>
    required fields (.only "contact_id") Schema.text <*> word "text" <*> choice "flow_id" <*>
    choice "session_id" <*> word "contact_name" <*> word "contact_phone"

/-- A message from a document. -/
def read : Schema.Reader Message
  | .object fields => ofFields fields
  | _ => .refuse .fieldless

end Message

/-- A document with named values. -/
def readObject : Schema.Reader Value
  | .object fields => .ok (.object fields)
  | _ => .refuse .notObject

/-- A status and a number of sessions that a listing is bounded by. -/
structure Bounds where
  status : Option Session.Status
  limit : Int

namespace Bounds

/-- The largest number of sessions that may be asked for. -/
def largest : Int := 1000

/-- The number of sessions that is listed when none is stated. -/
def standard : Int := 100

/-- A number of sessions. -/
def readLimit : Schema.Reader Int := fun v =>
  match Schema.int v with
  | .ok n => if n ≤ largest then .ok n else .refuse (.above largest)
  | .refused cs => .refused cs

/-- Bounds from the texts of a query. -/
def read (params : Fields) : Schema.Checked Bounds :=
  Bounds.mk <$> Schema.optional params (.only "status")
    (Schema.nullable Session.readStatus) none <*>
    Schema.optional params (.only "limit") readLimit standard

end Bounds
end Parley.Service
