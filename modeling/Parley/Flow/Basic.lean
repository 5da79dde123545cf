import Parley.Condition
import Parley.Value.Basic

/-!
# Flows

A flow is a directed graph that is drawn in a designer: nodes of sixteen kinds, each with a block of
its own, joined by edges. Edges that leave a node from one of its handles name the handle. A node of
any other kind is kept as `Block.unknown`.
-/

namespace Parley.Flow

/-- What every block says about itself. -/
structure Caption where
  label : String := ""
  description : String := ""

/-- The block of a start node. -/
structure Start extends Caption where
  triggerType : String := "new_conversation"
  keywords : List String := []
  scheduleExpression : String := ""

/-- A button below a message. -/
structure Button where
  id : String
  label : String
  value : String := ""

/-- The block of a message node. -/
structure Message extends Caption where
  message : String := ""
  mediaUrl : String := ""
  mediaType : String := ""
  buttons : List Button := []

/-- The block of an input node. -/
structure Question extends Caption where
  question : String := ""
  variableName : String := "input"
  validationType : String := "text"
  customValidation : String := ""
  errorMessage : String := ""
  timeout : Option Int := none
  timeoutMessage : String := ""

/-- A choice of a menu. -/
structure Choice where
  id : String
  label : String
  value : String := ""
  description : String := ""

/-- The block of a menu node. -/
structure Menu extends Caption where
  menuTitle : String := ""
  options : List Choice := []
  invalidMessage : String := ""
  allowText : Bool := true

/-- The block of a condition node. -/
structure Branch extends Caption where
  conditions : List Condition.Rule := []
  defaultHandleId : String := ""

/-- The block of an assistant node. -/
structure Assistant extends Caption where
  systemPrompt : String := ""
  model : String := ""
  temperature : Option Binary64 := none
  maxTokens : Option Int := none
  tools : List String := []
  fallbackMessage : String := ""
  contextVariables : List String := []

/-- What a welcoming assistant takes. -/
structure Capabilities where
  handleAudio : Bool := false
  handleText : Bool := true
  handlePaymentProof : Bool := false
  handleImages : Bool := false
  handleDocuments : Bool := false

/-- An assistant of one sector. -/
structure Sector where
  id : String
  name : String
  description : String := ""
  keywords : List String := []

/-- The block of a welcoming assistant's node. -/
structure Welcome extends Caption where
  greetingMessage : String := "Olá! Como posso ajudar?"
  model : String := ""
  temperature : Option Binary64 := none
  capabilities : Capabilities := {}
  audioTranscriptionProvider : String := "whisper"
  audioResponseType : String := "text"
  ocrProvider : String := "google_vision"
  paymentProofFields : List String := ["valor", "data", "banco"]
  enableSmartRouting : Bool := false
  sectors : List Sector := []
  humanHandoffTriggers : List String := []
  humanHandoffMessage : String := "Transferindo para um atendente..."
  humanHandoffDepartment : String := ""
  systemPrompt : String := ""
  contextVariables : List String := []
  fallbackMessage : String := "Entendi sua mensagem! Como posso ajudá-lo hoje?"

/-- The block of a hand-off node. -/
structure Transfer extends Caption where
  transferType : String := "department"
  targetId : String := ""
  transferMessage : String := "Transferindo para um atendente..."
  priority : String := "normal"
  metadata : Entries String := []

/-- The body of a request: a text or named values. -/
inductive RequestBody where
  | text (s : String)
  | fields (fs : Fields)

/-- The block of a webhook node. -/
structure Webhook extends Caption where
  url : String := ""
  method : String := "GET"
  headers : Entries String := []
  body : Option RequestBody := none
  responseVariable : String := "webhook_response"
  timeout : Option Binary64 := none
  retryCount : Option Int := none

/-- The block of a delay node. -/
structure Delay extends Caption where
  delaySeconds : Binary64 := Binary64.round false 5 1
  showTyping : Bool := true

/-- The block of a tag node. -/
structure Tag extends Caption where
  tagName : String := ""
  action : String := "add"

/-- The block of a variable node. -/
structure Assignment extends Caption where
  variableName : String := "var"
  value : String := ""
  valueType : String := "static"
  sourceVariable : String := ""

/-- The block of a node that looks for contracts. -/
structure ContractSearch extends Caption where
  identifyBy : String := "cpf"
  lockContract : Bool := false
  askForSelection : Bool := false
  selectionMessage : String := "Encontrei mais de um contrato. Digite o número para selecionar:"
  notFoundMessage : String := "Não encontrei nenhum contrato vinculado a este dado."
  variableName : String := ""

/-- The block of a client tag node. -/
structure ClientTag extends Caption where
  clientTagType : String := "novo"
  customTag : String := ""
  action : String := "add"
  autoDetectFromContract : Bool := false
  contractField : String := "tipo_cliente"

/-- How a field of a lead is asked for. -/
structure CaptureField where
  enabled : Bool := false
  required : Bool := true
  question : String := ""

/-- The block of a node that captures a lead. -/
structure LeadCapture extends Caption where
  captureFields : Entries CaptureField := []
  captureOrder : List String := ["nome", "cpf", "email", "celular"]
  saveToDatabase : Bool := false
  databaseTable : String := "leads"
  sendToWebhook : Bool := false
  webhookUrl : String := ""
  autoTags : List String := []
  leadSource : String := "whatsapp"
  leadCampaign : String := ""
  introMessage : String := ""
  successMessage : String := "Dados registrados com sucesso!"
  errorMessage : String := "Erro ao salvar dados."
  validateDuplicates : Bool := false
  duplicateField : String := "cpf"
  duplicateMessage : String := "Você já está cadastrado!"

namespace LeadCapture

/-- The fields that are asked for, in order. -/
def enabledFields (d : LeadCapture) : List String :=
  d.captureOrder.filter fun f =>
    match d.captureFields.get? f with
    | some c => c.enabled
    | none => false

/-- The question that asks for a field. -/
def questionFor (d : LeadCapture) (field : String) : String :=
  match d.captureFields.get? field with
  | some c => if c.question = "" then standard else c.question
  | none => standard
where
  /-- The question for a field without one. -/
  standard : String := "Qual é o seu " ++ field ++ "?"

end LeadCapture

/-- The block of an end node. -/
structure Ending extends Caption where
  endType : String := "complete"
  finalMessage : String := ""
  markAsResolved : Bool := false

/-- The kind of a node with its block. -/
inductive Block where
  | start (d : Start)
  | message (d : Message)
  | input (d : Question)
  | menu (d : Menu)
  | condition (d : Branch)
  | assistant (d : Assistant)
  | welcome (d : Welcome)
  | handoff (d : Transfer)
  | webhook (d : Webhook)
  | delay (d : Delay)
  | tag (d : Tag)
  | assignment (d : Assignment)
  | contractSearch (d : ContractSearch)
  | clientTag (d : ClientTag)
  | leadCapture (d : LeadCapture)
  | ending (d : Ending)
  /-- A kind that this library does not know. -/
  | unknown (kind : String) (data : Fields)

/-- The name of a block's kind. -/
def Block.kind : Block → String
  | .start _ => "start"
  | .message _ => "message"
  | .input _ => "input"
  | .menu _ => "menu"
  | .condition _ => "condition"
  | .assistant _ => "ai_agent"
  | .welcome _ => "welcome_ai"
  | .handoff _ => "handoff"
  | .webhook _ => "webhook"
  | .delay _ => "delay"
  | .tag _ => "tag"
  | .assignment _ => "variable"
  | .contractSearch _ => "identify_contract"
  | .clientTag _ => "client_tag"
  | .leadCapture _ => "lead_capture"
  | .ending _ => "end"
  | .unknown kind _ => kind

/-- A node of the graph. -/
structure Node where
  id : String
  position : Entries Binary64 := []
  block : Block

/-- The name of a node's kind. -/
def Node.kind (n : Node) : String := n.block.kind

/-- The node starts conversations. -/
def Node.isStart (n : Node) : Bool :=
  match n.block with
  | .start _ => true
  | _ => false

/-- An edge of the graph. -/
structure Edge where
  id : String := ""
  source : String
  target : String
  sourceHandle : Option String := none
  label : String := ""

/-- A declared variable. -/
structure Declaration where
  name : String
  type : String := "string"
  defaultValue : Value := .null
  description : String := ""

end Parley.Flow

namespace Parley

/-- A conversation flow. -/
structure Flow where
  id : String
  name : String := ""
  description : String := ""
  departmentId : String := ""
  isActive : Bool := true
  isDefault : Bool := false
  triggerType : String := "new_conversation"
  nodes : List Flow.Node := []
  edges : List Flow.Edge := []
  declarations : List Flow.Declaration := []
  version : Int := 1

namespace Flow

/-- The variables with a default value. -/
def defaultVariables (f : Flow) : Fields :=
  Entries.ofPairs (f.declarations.filterMap fun d =>
    match d.defaultValue with
    | .null => none
    | v => some (d.name, v))

/-- The keywords of the start nodes that wait for one. -/
def startKeywords (f : Flow) : List String :=
  f.nodes.flatMap fun n =>
    match n.block with
    | .start d => if d.triggerType = "keyword" then d.keywords else []
    | _ => []

end Flow
end Parley
