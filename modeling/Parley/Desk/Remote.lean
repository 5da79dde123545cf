import Parley.Answer
import Parley.Calendar.Moment
import Parley.Gateway
import Parley.Http.Url
import Parley.Text.Split
import Parley.Value.Access

/-!
# A back office on the web

The requests of conversations to a back office that is reached over the web. Each has an address of
its own, in which names in braces stand for the contract or the table that is meant; a request
without an address goes by its own name. Answers may come in an envelope.

Main statement: `unwrap_list`, contracts that come without an envelope are taken as they are.
-/

namespace Parley.Desk

/-- A back office on the web. -/
structure Remote where
  gateway : Gateway
  /-- The addresses of requests. -/
  addresses : Entries Value := []

namespace Remote

/-- The entry of a section that is asked for; none of a section that is no object. -/
def part (held : Value) (name : String) (standard : String) : String :=
  match (held.field? name).getD (.text standard) with
  | .text s => s
  | v => v.literal

/-- The headers that tell who asks. -/
def credentials (config : Fields) : Entries String :=
  let held := (config.get? "auth_credentials").getD .null
  match config.get? "auth_type" with
  | some (.text "bearer") => [("Authorization", "Bearer " ++ part held "token" "")]
  | some (.text "api_key") => [(part held "header_name" "X-API-Key", part held "api_key" "")]
  | _ => []

/-- The back office of a section of the settings. -/
def ofConfig (config : Fields) : Remote :=
  { gateway := { client := { base := ((config.get? "base_url").bind Value.asText?).getD "",
                             headers := credentials config, timeout :=
                               .float (Binary64.round false 30 1) },
                 allowsEmpty := true },
    addresses := ((config.get? "endpoints").bind Value.asObject?).getD [] }

/-- The address of a request, with the places it names. -/
def address (d : Remote) (request : String) (places : Fields) : Except Fault String :=
  match d.addresses.get? request with
  | none => places.foldlM fill request
  | some (.text s) => places.foldlM fill s
  | some v => .error (.noAttribute v.kindWord "replace")
where
  fill (text : String) (place : String × Value) : Except Fault String := do
    return Text.replace ("\x7b" ++ place.1 ++ "\x7d") (← place.2.plain) text

/-- A request and its document. -/
def ask (d : Remote) (method request : String) (places : Fields) (params : Option (Entries String))
    (body : Http.Body) : Http.Exchange (Except Gateway.Failure Value) :=
  d.gateway.ask request method (d.address request places) params body

/-- The list that an answer holds, in an envelope or without one. -/
def unwrap : Value → Except Fault Value
  | .list items => .ok (.list items)
  | v => do
    let fields ← v.entriesFor "get"
    return match fields.get? "data" with
      | some data => data
      | none => (fields.get? "results").getD (.list [])

/-- The contracts of a contact. -/
def findContracts (d : Remote) (identifyBy value : String) :
    Http.Exchange (Except Gateway.Failure Value) :=
  Gateway.use unwrap <| d.ask "GET" "find_contracts" []
    (some [("by", identifyBy), ("value", Answer.lookupKey identifyBy value)]) .empty

/-- The type of a client that an answer tells. -/
def typeOf : Value → Except Fault Value
  | .object fields =>
    let told := (Entries.get? fields "client_type").getD .null
    .ok (if told.isTruthy then told else (Entries.get? fields "tipo_cliente").getD .null)
  | v => if v.isTruthy then v.plain.map .text else .ok .null

/-- The type of the client of a contract. -/
def clientType (d : Remote) (contract : String) : Http.Exchange (Except Gateway.Failure Value) :=
  Gateway.use typeOf <| d.ask "GET" "get_client_type" [("contract_id", .text contract)] none .empty

/-- Whether an answer tells of a duplicate. -/
def tellsDuplicate : Value → Bool
  | .object fields =>
    match Entries.get? fields "exists" with
    | some v => v.isTruthy
    | none => ((Entries.get? fields "duplicate").getD (.bool false)).isTruthy
  | v => v.isTruthy

/-- A table has a lead with the value in a field. -/
def checkDuplicate (d : Remote) (value : Value) (field table : String) :
    Http.Exchange (Except Gateway.Failure Bool) :=
  Gateway.use (fun v => .ok (tellsDuplicate v)) <|
    match Http.Url.paramsOf [("field", .text field), ("value", value)] with
    | .error e => d.gateway.ask "check_duplicate" "GET" (.error e) none .empty
    | .ok params => d.ask "GET" "check_duplicate" [("table", .text table)] (some params) .empty

/-- A lead as it is sent. -/
def lead (fields : Fields) (source : String) (tags : List String) (now : Calendar.Moment) : Value :=
  .object (fields.update [("source", .text source), ("tags", .texts tags),
    ("created_at", .text now.textWithOffset)])

/-- Keep a lead in a table. -/
def saveLead (d : Remote) (table : String) (fields : Fields) (source : String) (tags : List String)
    (now : Calendar.Moment) : Http.Exchange (Except Gateway.Failure Unit) :=
  Gateway.use (fun _ => .ok ()) <| d.ask "POST" "save_lead" [("table", .text table)] none
    (.json (lead fields source tags now))

/-- Send a lead on to an address. -/
def sendLead (d : Remote) (url : String) (fields : Fields) (source : String) (tags : List String)
    (now : Calendar.Moment) : Http.Exchange (Except Gateway.Failure Unit) :=
  Gateway.use (fun _ => .ok ()) <| d.ask "POST" url [] none (.json (lead fields source tags now))

/-- Open a ticket for a hand-off. -/
def createTicket (d : Remote) (target priority reason : String) (metadata : Fields) :
    Http.Exchange (Except Gateway.Failure Value) :=
  d.ask "POST" "create_handoff_ticket" [] none (.json (.object [("target_id", .text target),
    ("priority", .text priority), ("reason", .text reason), ("metadata", .object metadata)]))

theorem unwrap_list (items : List Value) : unwrap (.list items) = .ok (.list items) := rfl

end Remote
end Parley.Desk
