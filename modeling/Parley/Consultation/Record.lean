import Parley.Consultation
import Parley.Value.Display

/-!
# Records of consultations

A request to a collaborator has a label and named arguments, and so it can be noted as a value and
be read from named values. Those of the model and of webhooks are noted by the names of their
arguments, all others by their order.

Main statement: `label_ofEntries?`, a request that is read from values has the label that it was
read by.
-/

namespace Parley.Consultation

/-- What a request is called. -/
def label : Consultation → String
  | .complete .. => "complete"
  | .callWebhook .. => "webhook"
  | .findContracts .. => "find_contracts"
  | .clientType _ => "get_client_type"
  | .checkDuplicate .. => "check_duplicate"
  | .saveLead .. => "save_lead"
  | .sendLead .. => "send_lead_webhook"
  | .createTicket .. => "create_handoff_ticket"
  | .transcribe .. => "transcribe"
  | .extractFields .. => "extract_fields"
  | .describeImage _ => "describe_image"
  | .readDocument _ => "read_document"

/-- The names of the arguments of a back office or a reader of media, by the label. -/
def parameters : String → List String
  | "find_contracts" => ["identify_by", "value"]
  | "get_client_type" => ["contract_id"]
  | "check_duplicate" => ["value", "field", "table"]
  | "save_lead" => ["table", "fields", "source", "tags"]
  | "send_lead_webhook" => ["url", "fields", "source", "tags"]
  | "create_handoff_ticket" => ["target_id", "priority", "reason", "metadata"]
  | "transcribe" => ["audio_ref", "provider"]
  | "extract_fields" => ["media_ref", "provider", "fields"]
  | "describe_image" => ["image_ref"]
  | "read_document" => ["document_ref"]
  | _ => []

/-- A value as a word: a text as itself, nothing as no text, any other value as a literal. -/
def word (v : Option Value) : String :=
  match v with
  | none => ""
  | some (.text s) => s
  | some v => v.literal

/-- The words of a list. -/
def words (v : Option Value) : List String :=
  ((v.bind Value.asList?).getD []).map fun w => word (some w)

/-- The request of a label with named arguments. -/
def ofEntries? (label : String) (args : Fields) : Option Consultation :=
  let word := fun name => word (args.get? name)
  let fields := fun name => ((args.get? name).bind Value.asObject?).getD []
  let words := fun name => words (args.get? name)
  match label with
  | "find_contracts" => some (.findContracts (word "identify_by") (word "value"))
  | "get_client_type" => some (.clientType (word "contract_id"))
  | "check_duplicate" =>
    some (.checkDuplicate ((args.get? "value").getD .null) (word "field") (word "table"))
  | "save_lead" => some (.saveLead (word "table") (fields "fields") (word "source") (words "tags"))
  | "send_lead_webhook" =>
      some (.sendLead (word "url") (fields "fields") (word "source") (words "tags"))
  | "create_handoff_ticket" =>
    some (.createTicket (word "target_id") (word "priority") (word "reason") (fields "metadata"))
  | "transcribe" => some (.transcribe (word "audio_ref") (word "provider"))
  | "extract_fields" => some (.extractFields (word "media_ref") (word "provider") (words "fields"))
  | "describe_image" => some (.describeImage (word "image_ref"))
  | "read_document" => some (.readDocument (word "document_ref"))
  | _ => none

/-- The arguments of a request by their order. -/
def arguments : Consultation → List Value
  | .complete system user tools _ _ _ => [.text system, .text user, .texts tools]
  | .callWebhook url method body .. => [.text url, .text method, body]
  | .findContracts identifyBy value => [.text identifyBy, .text value]
  | .clientType contract => [.text contract]
  | .checkDuplicate value field table => [value, .text field, .text table]
  | .saveLead table fields source tags => [.text table, .object fields, .text source, .texts tags]
  | .sendLead url fields source tags => [.text url, .object fields, .text source, .texts tags]
  | .createTicket target priority reason metadata =>
    [.text target, .text priority, .text reason, .object metadata]
  | .transcribe payload provider => [.text payload, .text provider]
  | .extractFields payload provider fields => [.text payload, .text provider, .texts fields]
  | .describeImage payload => [.text payload]
  | .readDocument payload => [.text payload]

/-- A request as a value. -/
def toValue (q : Consultation) : Value :=
  .object <| ("call", .text q.label) :: match q with
  | .complete system user tools model temperature maxTokens =>
    [("system_prompt", .text system), ("user_message", .text user), ("tool_names", .texts tools),
      ("model", .ofOption .text model), ("temperature", .ofOption .float temperature),
      ("max_tokens", .ofOption .int maxTokens)]
  | .callWebhook url method body headers timeout retries =>
    [("url", .text url), ("method", .text method), ("body", body),
      ("headers", .object (headers.map fun e => (e.1, .text e.2))),
      ("timeout", .ofOption .float timeout), ("retries", .ofOption .int retries)]
  | q => [("args", .list q.arguments)]

/-- An answer as a value. -/
def answerValue : (q : Consultation) → q.Answer → Value
  | .complete .., reply => .text reply
  | .callWebhook .., a => .object [("status_code", .int a.status), ("body", a.body)]
  | .findContracts .., v => v
  | .clientType _, v => v
  | .checkDuplicate .., b => .bool b
  | .saveLead .., _ => .null
  | .sendLead .., _ => .null
  | .createTicket .., v => v
  | .transcribe .., v => v
  | .extractFields .., v => v
  | .describeImage _, v => v
  | .readDocument _, v => v

/-- A consultation that is read has the label that it was read by. -/
theorem label_ofEntries? {label : String} {args : Fields} {q : Consultation}
    (h : ofEntries? label args = some q) : q.label = label := by
  unfold ofEntries? at h
  split at h <;> cases h <;> rfl

end Parley.Consultation
