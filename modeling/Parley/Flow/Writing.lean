import Parley.Flow.Basic
import Parley.Value.Access

/-!
# Flows written as documents

`Flow.toValue` lays out every field of a flow under the name that designers use, and `Flow.dump` is
the document that is written. The two differ in the loosely typed values of a flow (`Flow.loose`):
the values of rules, the fields of request bodies, the data of nodes of unknown kinds and the
default values of variables. A dump has null for a number in them that is not finite, and there is
none when one of them nests too deep. Numbers of other fields are written as they are.
-/

namespace Parley.Flow

/-- Entries of one kind as an object. -/
def objectOf {α : Type} (f : α → Value) (es : Entries α) : Value :=
  .object (es.map fun e => (e.1, f e.2))

/-- The entries of a block after those of its caption. -/
def captioned (c : Caption) (fields : Fields) : Value :=
  .object (("label", .text c.label) :: ("description", .text c.description) :: fields)

/-- A button. -/
def Button.toValue (b : Button) : Value :=
  .object [("id", .text b.id), ("label", .text b.label), ("value", .text b.value)]

/-- A choice of a menu. -/
def Choice.toValue (c : Choice) : Value :=
  .object [("id", .text c.id), ("label", .text c.label), ("value", .text c.value),
    ("description", .text c.description)]

/-- A rule of a condition. -/
def ruleToValue (r : Condition.Rule) : Value :=
  .object [("id", .text r.id), ("variable", .text r.subject), ("operator", .text r.operator),
    ("value", r.value), ("handleId", .text r.handleId)]

/-- What a welcoming assistant takes. -/
def Capabilities.toValue (c : Capabilities) : Value :=
  .object [("handleAudio", .bool c.handleAudio), ("handleText", .bool c.handleText),
    ("handlePaymentProof", .bool c.handlePaymentProof), ("handleImages", .bool c.handleImages),
    ("handleDocuments", .bool c.handleDocuments)]

/-- An assistant of one sector. -/
def Sector.toValue (s : Sector) : Value :=
  .object [("id", .text s.id), ("name", .text s.name), ("description", .text s.description),
    ("keywords", .texts s.keywords)]

/-- The body of a request. -/
def RequestBody.toValue : RequestBody → Value
  | .text s => .text s
  | .fields fs => .object fs

/-- How a field of a lead is asked for. -/
def CaptureField.toValue (c : CaptureField) : Value :=
  .object [("enabled", .bool c.enabled), ("required", .bool c.required),
    ("question", .text c.question)]

/-- The data of a node. -/
def Block.data : Block → Value
  | .start d => captioned d.toCaption [("triggerType", .text d.triggerType),
      ("keywords", .texts d.keywords), ("scheduleExpression", .text d.scheduleExpression)]
  | .message d => captioned d.toCaption [("message", .text d.message),
      ("mediaUrl", .text d.mediaUrl), ("mediaType", .text d.mediaType),
      ("buttons", .list (d.buttons.map Button.toValue))]
  | .input d => captioned d.toCaption [("question", .text d.question),
      ("variableName", .text d.variableName), ("validationType", .text d.validationType),
      ("customValidation", .text d.customValidation), ("errorMessage", .text d.errorMessage),
      ("timeout", .ofOption .int d.timeout), ("timeoutMessage", .text d.timeoutMessage)]
  | .menu d => captioned d.toCaption [("menuTitle", .text d.menuTitle),
      ("options", .list (d.options.map Choice.toValue)), ("invalidMessage", .text d.invalidMessage),
      ("allowText", .bool d.allowText)]
  | .condition d => captioned d.toCaption [("conditions", .list (d.conditions.map ruleToValue)),
      ("defaultHandleId", .text d.defaultHandleId)]
  | .assistant d => captioned d.toCaption [("systemPrompt", .text d.systemPrompt),
      ("model", .text d.model), ("temperature", .ofOption .float d.temperature),
      ("maxTokens", .ofOption .int d.maxTokens), ("tools", .texts d.tools),
      ("fallbackMessage", .text d.fallbackMessage), ("contextVariables", .texts d.contextVariables)]
  | .welcome d => captioned d.toCaption [("greetingMessage", .text d.greetingMessage),
      ("model", .text d.model), ("temperature", .ofOption .float d.temperature),
      ("capabilities", d.capabilities.toValue),
      ("audioTranscriptionProvider", .text d.audioTranscriptionProvider),
      ("audioResponseType", .text d.audioResponseType), ("ocrProvider", .text d.ocrProvider),
      ("paymentProofFields", .texts d.paymentProofFields),
      ("enableSmartRouting", .bool d.enableSmartRouting),
      ("sectorAIs", .list (d.sectors.map Sector.toValue)),
      ("humanHandoffTriggers", .texts d.humanHandoffTriggers),
      ("humanHandoffMessage", .text d.humanHandoffMessage),
      ("humanHandoffDepartment", .text d.humanHandoffDepartment),
      ("systemPrompt", .text d.systemPrompt), ("contextVariables", .texts d.contextVariables),
      ("fallbackMessage", .text d.fallbackMessage)]
  | .handoff d => captioned d.toCaption [("transferType", .text d.transferType),
      ("targetId", .text d.targetId), ("transferMessage", .text d.transferMessage),
      ("priority", .text d.priority), ("metadata", objectOf .text d.metadata)]
  | .webhook d => captioned d.toCaption [("url", .text d.url), ("method", .text d.method),
      ("headers", objectOf .text d.headers), ("body", .ofOption RequestBody.toValue d.body),
      ("responseVariable", .text d.responseVariable), ("timeout", .ofOption .float d.timeout),
      ("retryCount", .ofOption .int d.retryCount)]
  | .delay d => captioned d.toCaption [("delaySeconds", .float d.delaySeconds),
      ("showTyping", .bool d.showTyping)]
  | .tag d => captioned d.toCaption [("tagName", .text d.tagName), ("action", .text d.action)]
  | .assignment d => captioned d.toCaption [("variableName", .text d.variableName),
      ("value", .text d.value), ("valueType", .text d.valueType),
      ("sourceVariable", .text d.sourceVariable)]
  | .contractSearch d => captioned d.toCaption [("identifyBy", .text d.identifyBy),
      ("lockContract", .bool d.lockContract), ("askForSelection", .bool d.askForSelection),
      ("selectionMessage", .text d.selectionMessage), ("notFoundMessage", .text d.notFoundMessage),
      ("variableName", .text d.variableName)]
  | .clientTag d => captioned d.toCaption [("clientTagType", .text d.clientTagType),
      ("customTag", .text d.customTag), ("action", .text d.action),
      ("autoDetectFromContract", .bool d.autoDetectFromContract),
      ("contractField", .text d.contractField)]
  | .leadCapture d => captioned d.toCaption [
      ("captureFields", objectOf CaptureField.toValue d.captureFields),
      ("captureOrder", .texts d.captureOrder), ("saveToDatabase", .bool d.saveToDatabase),
      ("databaseTable", .text d.databaseTable), ("sendToWebhook", .bool d.sendToWebhook),
      ("webhookUrl", .text d.webhookUrl), ("autoTags", .texts d.autoTags),
      ("leadSource", .text d.leadSource), ("leadCampaign", .text d.leadCampaign),
      ("introMessage", .text d.introMessage), ("successMessage", .text d.successMessage),
      ("errorMessage", .text d.errorMessage), ("validateDuplicates", .bool d.validateDuplicates),
      ("duplicateField", .text d.duplicateField), ("duplicateMessage", .text d.duplicateMessage)]
  | .ending d => captioned d.toCaption [("endType", .text d.endType),
      ("finalMessage", .text d.finalMessage), ("markAsResolved", .bool d.markAsResolved)]
  | .unknown _ data => .object data

/-- A node. -/
def Node.toValue (n : Node) : Value :=
  .object [("id", .text n.id), ("position", objectOf .float n.position), ("type", .text n.kind),
    ("data", n.block.data)]

/-- An edge. -/
def Edge.toValue (e : Edge) : Value :=
  .object [("id", .text e.id), ("source", .text e.source), ("target", .text e.target),
    ("sourceHandle", .ofOption .text e.sourceHandle), ("label", .text e.label)]

/-- A declared variable. -/
def Declaration.toValue (d : Declaration) : Value :=
  .object [("name", .text d.name), ("type", .text d.type), ("defaultValue", d.defaultValue),
    ("description", .text d.description)]

/-- The layout of a flow as a document. -/
def toValue (f : Flow) : Value :=
  .object [("id", .text f.id), ("name", .text f.name), ("description", .text f.description),
    ("departmentId", .text f.departmentId), ("isActive", .bool f.isActive),
    ("isDefault", .bool f.isDefault), ("triggerType", .text f.triggerType),
    ("nodes", .list (f.nodes.map Node.toValue)), ("edges", .list (f.edges.map Edge.toValue)),
    ("variables", .list (f.declarations.map Declaration.toValue)), ("version", .int f.version)]

/-! ### Dumps -/

/-- The body of a request as a dump has it. -/
def RequestBody.dumped : RequestBody → RequestBody
  | .text s => .text s
  | .fields fs => .fields (Value.dumpedFields fs)

/-- The block as a dump has it. -/
def Block.dumped : Block → Block
  | .condition d => .condition
      { d with conditions := d.conditions.map fun r => { r with value := r.value.dumped } }
  | .webhook d => .webhook { d with body := d.body.map RequestBody.dumped }
  | .unknown kind data => .unknown kind (Value.dumpedFields data)
  | b => b

/-- The loosely typed values of the body of a request. -/
def RequestBody.loose : RequestBody → List Value
  | .text _ => []
  | .fields fs => fs.map (·.2)

/-- The loosely typed values of a block. -/
def Block.loose : Block → List Value
  | .condition d => d.conditions.map (·.value)
  | .webhook d => d.body.elim [] RequestBody.loose
  | .unknown _ data => data.map (·.2)
  | _ => []

/-- The flow as a dump has it. -/
def dumped (f : Flow) : Flow :=
  { f with nodes := f.nodes.map fun n => { n with block := n.block.dumped }
           declarations := f.declarations.map fun d =>
             { d with defaultValue := d.defaultValue.dumped } }

/-- The loosely typed values of a flow. -/
def loose (f : Flow) : List Value :=
  f.nodes.flatMap (·.block.loose) ++ f.declarations.map (·.defaultValue)

/-- The flow can be written. -/
def fits (f : Flow) : Bool := f.loose.all Value.fits

/-- The document that is written of a flow. -/
def dump (f : Flow) : Except Fault Value := Value.written f.fits f.dumped.toValue

end Parley.Flow
