import Parley.Flow.Basic
import Parley.Schema.Reading

/-!
# Flows read from documents

`Flow.ofValue` reads a flow, with the complaints about all its parts. The kind of a node decides
which block its data hold; a node of a kind without a block of its own, or one that is no object, is
read as an unknown one. A kind that is a list or an object cannot be looked up at all, and then
nothing is read.
-/

namespace Parley.Flow

open Schema

/-- A field with an authored and a plain name. -/
def key (authored plain : String) : Key := ⟨authored, plain⟩

/-- A field with one name. -/
def only (name : String) : Key := .only name

/-- The caption of a block. -/
def Caption.read (o : Fields) : Checked Caption :=
  Caption.mk <$> optional o (only "label") text "" <*> optional o (only "description") text ""

/-- The block of a start node. -/
def Start.read (o : Fields) : Checked Start :=
  Start.mk <$> Caption.read o
    <*> optional o (key "triggerType" "trigger_type") text "new_conversation"
    <*> optional o (only "keywords") (list text) []
    <*> optional o (key "scheduleExpression" "schedule_expression") text ""

/-- A button. -/
def Button.read (o : Fields) : Checked Button :=
  Button.mk <$> required o (only "id") text <*> required o (only "label") text
    <*> optional o (only "value") text ""

/-- The block of a message node. -/
def Message.read (o : Fields) : Checked Message :=
  Message.mk <$> Caption.read o
    <*> optional o (only "message") text ""
    <*> optional o (key "mediaUrl" "media_url") text ""
    <*> optional o (key "mediaType" "media_type") text ""
    <*> optional o (only "buttons") (list (block "MessageButton" Button.read)) []

/-- The block of an input node. -/
def Question.read (o : Fields) : Checked Question :=
  Question.mk <$> Caption.read o
    <*> optional o (only "question") text ""
    <*> optional o (key "variableName" "variable_name") text "input"
    <*> optional o (key "validationType" "validation_type") text "text"
    <*> optional o (key "customValidation" "custom_validation") text ""
    <*> optional o (key "errorMessage" "error_message") text ""
    <*> optional o (only "timeout") (nullable int) none
    <*> optional o (key "timeoutMessage" "timeout_message") text ""

/-- A choice of a menu. -/
def Choice.read (o : Fields) : Checked Choice :=
  Choice.mk <$> required o (only "id") text <*> required o (only "label") text
    <*> optional o (only "value") text "" <*> optional o (only "description") text ""

/-- The block of a menu node. -/
def Menu.read (o : Fields) : Checked Menu :=
  Menu.mk <$> Caption.read o
    <*> optional o (key "menuTitle" "menu_title") text ""
    <*> optional o (only "options") (list (block "MenuOption" Choice.read)) []
    <*> optional o (key "invalidMessage" "invalid_message") text ""
    <*> optional o (key "allowText" "allow_text") bool true

/-- A rule of a condition. -/
def readRule (o : Fields) : Checked Condition.Rule :=
  Condition.Rule.mk <$> optional o (only "id") text ""
    <*> required o (only "variable") text
    <*> required o (only "operator") text
    <*> optional o (only "value") any (.text "")
    <*> optional o (key "handleId" "handle_id") text ""

/-- A rule of a condition as a part of a document. -/
def rule : Reader Condition.Rule := block "ConditionRule" readRule

/-- The block of a condition node. -/
def Branch.read (o : Fields) : Checked Branch :=
  Branch.mk <$> Caption.read o
    <*> optional o (only "conditions") (list rule) []
    <*> optional o (key "defaultHandleId" "default_handle_id") text ""

/-- The block of an assistant node. -/
def Assistant.read (o : Fields) : Checked Assistant :=
  Assistant.mk <$> Caption.read o
    <*> optional o (key "systemPrompt" "system_prompt") text ""
    <*> optional o (only "model") text ""
    <*> optional o (only "temperature") (nullable float) none
    <*> optional o (key "maxTokens" "max_tokens") (nullable int) none
    <*> optional o (only "tools") (list text) []
    <*> optional o (key "fallbackMessage" "fallback_message") text ""
    <*> optional o (key "contextVariables" "context_variables") (list text) []

/-- What a welcoming assistant takes. -/
def Capabilities.read (o : Fields) : Checked Capabilities :=
  Capabilities.mk <$> optional o (key "handleAudio" "handle_audio") bool false
    <*> optional o (key "handleText" "handle_text") bool true
    <*> optional o (key "handlePaymentProof" "handle_payment_proof") bool false
    <*> optional o (key "handleImages" "handle_images") bool false
    <*> optional o (key "handleDocuments" "handle_documents") bool false

/-- An assistant of one sector. -/
def Sector.read (o : Fields) : Checked Sector :=
  Sector.mk <$> required o (only "id") text <*> required o (only "name") text
    <*> optional o (only "description") text ""
    <*> optional o (only "keywords") (list text) []

/-- The block of a welcoming assistant's node. -/
def Welcome.read (o : Fields) : Checked Welcome :=
  let standard : Welcome := {}
  Welcome.mk <$> Caption.read o
    <*> optional o (key "greetingMessage" "greeting_message") text standard.greetingMessage
    <*> optional o (only "model") text ""
    <*> optional o (only "temperature") (nullable float) none
    <*> optional o (only "capabilities") (block "WelcomeCapabilities" Capabilities.read) {}
    <*> optional o (key "audioTranscriptionProvider" "audio_transcription_provider") text
      standard.audioTranscriptionProvider
    <*> optional o (key "audioResponseType" "audio_response_type") text standard.audioResponseType
    <*> optional o (key "ocrProvider" "ocr_provider") text standard.ocrProvider
    <*> optional o (key "paymentProofFields" "payment_proof_fields") (list text)
      standard.paymentProofFields
    <*> optional o (key "enableSmartRouting" "enable_smart_routing") bool false
    <*> optional o (key "sectorAIs" "sector_ais") (list (block "SectorAI" Sector.read)) []
    <*> optional o (key "humanHandoffTriggers" "human_handoff_triggers") (list text) []
    <*> optional o (key "humanHandoffMessage" "human_handoff_message") text
      standard.humanHandoffMessage
    <*> optional o (key "humanHandoffDepartment" "human_handoff_department") text ""
    <*> optional o (key "systemPrompt" "system_prompt") text ""
    <*> optional o (key "contextVariables" "context_variables") (list text) []
    <*> optional o (key "fallbackMessage" "fallback_message") text standard.fallbackMessage

/-- The block of a hand-off node. -/
def Transfer.read (o : Fields) : Checked Transfer :=
  let standard : Transfer := {}
  Transfer.mk <$> Caption.read o
    <*> optional o (key "transferType" "transfer_type") text standard.transferType
    <*> optional o (key "targetId" "target_id") text ""
    <*> optional o (key "transferMessage" "transfer_message") text standard.transferMessage
    <*> optional o (only "priority") text standard.priority
    <*> optional o (only "metadata") (object text) []

/-- The body of a request; what is neither a text nor named values is refused as both. -/
def RequestBody.read : Reader (Option RequestBody)
  | .null => .ok none
  | .text s => .ok (some (.text s))
  | .object named => .ok (some (.fields named))
  | _ => .refused [⟨["str"], .notText⟩, ⟨["dict[str,any]"], .notObject⟩]

/-- The block of a webhook node. -/
def Webhook.read (o : Fields) : Checked Webhook :=
  Webhook.mk <$> Caption.read o
    <*> optional o (only "url") text ""
    <*> optional o (only "method") text "GET"
    <*> optional o (only "headers") (object text) []
    <*> optional o (only "body") RequestBody.read none
    <*> optional o (key "responseVariable" "response_variable") text "webhook_response"
    <*> optional o (only "timeout") (nullable float) none
    <*> optional o (key "retryCount" "retry_count") (nullable int) none

/-- The block of a delay node. -/
def Delay.read (o : Fields) : Checked Delay :=
  let standard : Delay := {}
  Delay.mk <$> Caption.read o
    <*> optional o (key "delaySeconds" "delay_seconds") float standard.delaySeconds
    <*> optional o (key "showTyping" "show_typing") bool true

/-- The block of a tag node. -/
def Tag.read (o : Fields) : Checked Tag :=
  Tag.mk <$> Caption.read o
    <*> optional o (key "tagName" "tag_name") text ""
    <*> optional o (only "action") text "add"

/-- The block of a variable node. -/
def Assignment.read (o : Fields) : Checked Assignment :=
  Assignment.mk <$> Caption.read o
    <*> optional o (key "variableName" "variable_name") text "var"
    <*> optional o (only "value") text ""
    <*> optional o (key "valueType" "value_type") text "static"
    <*> optional o (key "sourceVariable" "source_variable") text ""

/-- The block of a node that looks for contracts. -/
def ContractSearch.read (o : Fields) : Checked ContractSearch :=
  let standard : ContractSearch := {}
  ContractSearch.mk <$> Caption.read o
    <*> optional o (key "identifyBy" "identify_by") text standard.identifyBy
    <*> optional o (key "lockContract" "lock_contract") bool false
    <*> optional o (key "askForSelection" "ask_for_selection") bool false
    <*> optional o (key "selectionMessage" "selection_message") text standard.selectionMessage
    <*> optional o (key "notFoundMessage" "not_found_message") text standard.notFoundMessage
    <*> optional o (key "variableName" "variable_name") text ""

/-- The block of a client tag node. -/
def ClientTag.read (o : Fields) : Checked ClientTag :=
  let standard : ClientTag := {}
  ClientTag.mk <$> Caption.read o
    <*> optional o (key "clientTagType" "client_tag_type") text standard.clientTagType
    <*> optional o (key "customTag" "custom_tag") text ""
    <*> optional o (only "action") text standard.action
    <*> optional o (key "autoDetectFromContract" "auto_detect_from_contract") bool false
    <*> optional o (key "contractField" "contract_field") text standard.contractField

/-- How a field of a lead is asked for. -/
def CaptureField.read (o : Fields) : Checked CaptureField :=
  CaptureField.mk <$> optional o (only "enabled") bool false
    <*> optional o (only "required") bool true
    <*> optional o (only "question") text ""

/-- The block of a node that captures a lead. -/
def LeadCapture.read (o : Fields) : Checked LeadCapture :=
  let standard : LeadCapture := {}
  LeadCapture.mk <$> Caption.read o
    <*> optional o (key "captureFields" "capture_fields")
      (object (block "CaptureField" CaptureField.read)) []
    <*> optional o (key "captureOrder" "capture_order") (list text) standard.captureOrder
    <*> optional o (key "saveToDatabase" "save_to_database") bool false
    <*> optional o (key "databaseTable" "database_table") text standard.databaseTable
    <*> optional o (key "sendToWebhook" "send_to_webhook") bool false
    <*> optional o (key "webhookUrl" "webhook_url") text ""
    <*> optional o (key "autoTags" "auto_tags") (list text) []
    <*> optional o (key "leadSource" "lead_source") text standard.leadSource
    <*> optional o (key "leadCampaign" "lead_campaign") text ""
    <*> optional o (key "introMessage" "intro_message") text ""
    <*> optional o (key "successMessage" "success_message") text standard.successMessage
    <*> optional o (key "errorMessage" "error_message") text standard.errorMessage
    <*> optional o (key "validateDuplicates" "validate_duplicates") bool false
    <*> optional o (key "duplicateField" "duplicate_field") text standard.duplicateField
    <*> optional o (key "duplicateMessage" "duplicate_message") text standard.duplicateMessage

/-- The block of an end node. -/
def Ending.read (o : Fields) : Checked Ending :=
  Ending.mk <$> Caption.read o
    <*> optional o (key "endType" "end_type") text "complete"
    <*> optional o (key "finalMessage" "final_message") text ""
    <*> optional o (key "markAsResolved" "mark_as_resolved") bool false

/-- The data of a node. -/
def data {α : Type} (o : Fields) (name : String) (read : Fields → Checked α) (standard : α)
    (make : α → Block) : Checked Block :=
  (optional o (only "data") (block name read) standard).map make

/-- The block of a node of a known kind. -/
def Block.read? (kind : String) (o : Fields) : Option (Checked Block) :=
  match kind with
  | "start" => some (data o "StartData" Start.read {} .start)
  | "message" => some (data o "MessageData" Message.read {} .message)
  | "input" => some (data o "InputData" Question.read {} .input)
  | "menu" => some (data o "MenuData" Menu.read {} .menu)
  | "condition" => some (data o "ConditionData" Branch.read {} .condition)
  | "ai_agent" => some (data o "AIAgentData" Assistant.read {} .assistant)
  | "welcome_ai" => some (data o "WelcomeAIData" Welcome.read {} .welcome)
  | "handoff" => some (data o "HandoffData" Transfer.read {} .handoff)
  | "webhook" => some (data o "WebhookData" Webhook.read {} .webhook)
  | "delay" => some (data o "DelayData" Delay.read {} .delay)
  | "tag" => some (data o "TagData" Tag.read {} .tag)
  | "variable" => some (data o "VariableData" Assignment.read {} .assignment)
  | "identify_contract" =>
    some (data o "IdentifyContractData" ContractSearch.read {} .contractSearch)
  | "client_tag" => some (data o "ClientTagData" ClientTag.read {} .clientTag)
  | "lead_capture" => some (data o "LeadCaptureData" LeadCapture.read {} .leadCapture)
  | "end" => some (data o "EndData" Ending.read {} .ending)
  | _ => none

/-- The block of a node of an unknown kind. -/
def Block.readUnknown (o : Fields) : Checked Block :=
  Block.unknown <$> required o (only "type") text <*> optional o (only "data") (object any) []

/-- The kind that a node states, when it is one of the known kinds. -/
def knownKind? (o : Fields) : Option (String × Checked Block) :=
  match o.get? "type" with
  | some (.text kind) => (Block.read? kind o).map (kind, ·)
  | _ => none

/-- A node. -/
def Node.ofValue : Reader Node
  | .object o =>
    let (tag, found) := (knownKind? o).getD ("unknown", Block.readUnknown o)
    (Node.mk <$> required o (only "id") text
      <*> optional o (only "position") (object float) [] <*> found).under tag
  | _ => (Checked.refuse (.notBlock "UnknownNode")).under "unknown"

/-- An edge. -/
def Edge.read (o : Fields) : Checked Edge :=
  Edge.mk <$> optional o (only "id") text ""
    <*> required o (only "source") text
    <*> required o (only "target") text
    <*> optional o (key "sourceHandle" "source_handle") (nullable text) none
    <*> optional o (only "label") text ""

/-- A declared variable. -/
def Declaration.read (o : Fields) : Checked Declaration :=
  Declaration.mk <$> required o (only "name") text
    <*> optional o (only "type") text "string"
    <*> optional o (key "defaultValue" "default_value") any .null
    <*> optional o (only "description") text ""

/-- A flow from its entries. -/
def read (o : Fields) : Checked Flow :=
  Flow.mk <$> required o (only "id") text
    <*> optional o (only "name") text ""
    <*> optional o (only "description") text ""
    <*> optional o (key "departmentId" "department_id") text ""
    <*> optional o (key "isActive" "is_active") bool true
    <*> optional o (key "isDefault" "is_default") bool false
    <*> optional o (key "triggerType" "trigger_type") text "new_conversation"
    <*> optional o (only "nodes") (list Node.ofValue) []
    <*> optional o (only "edges") (list (block "Edge" Edge.read)) []
    <*> optional o (only "variables") (list (block "FlowVariable" Declaration.read)) []
    <*> optional o (only "version") int 1

/-- The kind of a node is a list or an object. -/
def hasCompoundKind (node : Value) : Bool :=
  match node.field? "type" with
  | some (.list _) | some (.object _) => true
  | _ => false

/-- Why a document is no flow. -/
inductive ReadFault where
  /-- The kind of a node is a list or an object. -/
  | compoundKind
  | refused (complaints : List Complaint)

/-- A flow from a document. -/
def ofValue (v : Value) : Except ReadFault Flow :=
  let nodes := ((v.field? "nodes").bind Value.asList?).getD []
  if nodes.any hasCompoundKind then .error .compoundKind
  else match block "Flow" read v with
    | .ok f => .ok f
    | .refused cs => .error (.refused cs)

end Parley.Flow
