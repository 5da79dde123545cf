import Parley.Flow.Reading
import Parley.Proofs.Schema.Spelling
import Parley.Registry

/-!
# The two spellings of a flow

The fields of a flow and of the blocks in it, block by block. A flow means the same whether its
designer's names or the plain ones are used, or each here and there, as long as no block gives one
field under both.

The headers and the texts of a request, the metadata of a hand-off, the position of a node, the
default value of a variable and all data of a node of an unknown kind are data: their names are
kept.

Main statements: `read_alike` for each block, `Node.indifferent`, and `Registry.parse_respelled`,
that what is parsed of a document is parsed of all its spellings.
-/

namespace Parley.Flow

open Schema

variable {o o' : Fields}

/-! ### The blocks of nodes -/

/-- The fields of a caption. -/
def Caption.keys : List Key := [only "label", only "description"]

/-- The fields of a start node's block. -/
def Start.layout : Layout where
  data := Caption.keys ++
    [key "triggerType" "trigger_type", only "keywords",
      key "scheduleExpression" "schedule_expression"]
  apart := by decide

theorem Start.read_alike (h : Start.layout.Alike o o') :
    (Start.read o).value? = (Start.read o').value? := by
  simp (disch := decide) only [Start.read, Caption.read, Checked.value?_seq, Checked.value?_mapped,
    h.optional_data]

/-- The fields of a button. -/
def Button.layout : Layout where
  data := [only "id", only "label", only "value"]
  apart := by decide

theorem Button.read_alike (h : Button.layout.Alike o o') :
    (Button.read o).value? = (Button.read o').value? := by
  simp (disch := decide) only [Button.read, Checked.value?_seq, Checked.value?_mapped,
    h.required_data, h.optional_data]

/-- The fields of a message node's block. -/
def Message.layout : Layout where
  data := Caption.keys ++ [only "message", key "mediaUrl" "media_url", key "mediaType" "media_type"]
  parts := [(only "buttons", Button.layout.spelling.items)]
  apart := by decide

theorem Message.read_alike (h : Message.layout.Alike o o') :
    (Message.read o).value? = (Message.read o').value? := by
  have hbuttons : Indifferent
      (list (block "MessageButton" Button.read)) Button.layout.spelling.items :=
    .list (.block _ Button.read_alike)
  simp (disch := decide) only [Message.read, Caption.read, Checked.value?_seq,
    Checked.value?_mapped, h.optional_data, h.optional_part List.mem_cons_self hbuttons]

/-- The fields of an input node's block. -/
def Question.layout : Layout where
  data := Caption.keys ++
    [only "question", key "variableName" "variable_name", key "validationType" "validation_type",
      key "customValidation" "custom_validation", key "errorMessage" "error_message",
      only "timeout", key "timeoutMessage" "timeout_message"]
  apart := by decide

theorem Question.read_alike (h : Question.layout.Alike o o') :
    (Question.read o).value? = (Question.read o').value? := by
  simp (disch := decide) only [Question.read, Caption.read, Checked.value?_seq,
    Checked.value?_mapped, h.optional_data]

/-- The fields of a menu's choice. -/
def Choice.layout : Layout where
  data := [only "id", only "label", only "value", only "description"]
  apart := by decide

theorem Choice.read_alike (h : Choice.layout.Alike o o') :
    (Choice.read o).value? = (Choice.read o').value? := by
  simp (disch := decide) only [Choice.read, Checked.value?_seq, Checked.value?_mapped,
    h.required_data, h.optional_data]

/-- The fields of a menu node's block. -/
def Menu.layout : Layout where
  data := Caption.keys ++
    [key "menuTitle" "menu_title", key "invalidMessage" "invalid_message",
      key "allowText" "allow_text"]
  parts := [(only "options", Choice.layout.spelling.items)]
  apart := by decide

theorem Menu.read_alike (h : Menu.layout.Alike o o') :
    (Menu.read o).value? = (Menu.read o').value? := by
  have hoptions : Indifferent
      (list (block "MenuOption" Choice.read)) Choice.layout.spelling.items :=
    .list (.block _ Choice.read_alike)
  simp (disch := decide) only [Menu.read, Caption.read, Checked.value?_seq, Checked.value?_mapped,
    h.optional_data, h.optional_part List.mem_cons_self hoptions]

/-- The fields of a rule. -/
def ruleLayout : Layout where
  data := [only "id", only "variable", only "operator", only "value", key "handleId" "handle_id"]
  apart := by decide

theorem readRule_alike (h : ruleLayout.Alike o o') :
    (readRule o).value? = (readRule o').value? := by
  simp (disch := decide) only [readRule, Checked.value?_seq, Checked.value?_mapped, h.required_data,
    h.optional_data]

/-- The fields of a condition node's block. -/
def Branch.layout : Layout where
  data := Caption.keys ++ [key "defaultHandleId" "default_handle_id"]
  parts := [(only "conditions", ruleLayout.spelling.items)]
  apart := by decide

theorem Branch.read_alike (h : Branch.layout.Alike o o') :
    (Branch.read o).value? = (Branch.read o').value? := by
  have hrules : Indifferent (list rule) ruleLayout.spelling.items := .list (.block _ readRule_alike)
  simp (disch := decide) only [Branch.read, Caption.read, Checked.value?_seq, Checked.value?_mapped,
    h.optional_data, h.optional_part List.mem_cons_self hrules]

/-- The fields of an assistant node's block. -/
def Assistant.layout : Layout where
  data := Caption.keys ++
    [key "systemPrompt" "system_prompt", only "model", only "temperature",
      key "maxTokens" "max_tokens", only "tools", key "fallbackMessage" "fallback_message",
      key "contextVariables" "context_variables"]
  apart := by decide

theorem Assistant.read_alike (h : Assistant.layout.Alike o o') :
    (Assistant.read o).value? = (Assistant.read o').value? := by
  simp (disch := decide) only [Assistant.read, Caption.read, Checked.value?_seq,
    Checked.value?_mapped, h.optional_data]

/-- The fields of what a welcoming assistant takes. -/
def Capabilities.layout : Layout where
  data := [key "handleAudio" "handle_audio", key "handleText" "handle_text",
    key "handlePaymentProof" "handle_payment_proof", key "handleImages" "handle_images",
    key "handleDocuments" "handle_documents"]
  apart := by decide

theorem Capabilities.read_alike (h : Capabilities.layout.Alike o o') :
    (Capabilities.read o).value? = (Capabilities.read o').value? := by
  simp (disch := decide) only [Capabilities.read, Checked.value?_seq, Checked.value?_mapped,
    h.optional_data]

/-- The fields of a sector's assistant. -/
def Sector.layout : Layout where
  data := [only "id", only "name", only "description", only "keywords"]
  apart := by decide

theorem Sector.read_alike (h : Sector.layout.Alike o o') :
    (Sector.read o).value? = (Sector.read o').value? := by
  simp (disch := decide) only [Sector.read, Checked.value?_seq, Checked.value?_mapped,
    h.required_data, h.optional_data]

/-- The fields of a welcoming assistant's block. -/
def Welcome.layout : Layout where
  data := Caption.keys ++
    [key "greetingMessage" "greeting_message", only "model", only "temperature",
      key "audioTranscriptionProvider" "audio_transcription_provider",
      key "audioResponseType" "audio_response_type", key "ocrProvider" "ocr_provider",
      key "paymentProofFields" "payment_proof_fields",
      key "enableSmartRouting" "enable_smart_routing", key "humanHandoffTriggers"
        "human_handoff_triggers", key "humanHandoffMessage" "human_handoff_message",
      key "humanHandoffDepartment" "human_handoff_department", key "systemPrompt" "system_prompt",
      key "contextVariables" "context_variables", key "fallbackMessage" "fallback_message"]
  parts := [(only "capabilities", Capabilities.layout.spelling),
    (key "sectorAIs" "sector_ais", Sector.layout.spelling.items)]
  apart := by decide

theorem Welcome.read_alike (h : Welcome.layout.Alike o o') :
    (Welcome.read o).value? = (Welcome.read o').value? := by
  have hcapabilities : Indifferent
      (block "WelcomeCapabilities" Capabilities.read) Capabilities.layout.spelling :=
    .block _ Capabilities.read_alike
  have hsectors : Indifferent (list (block "SectorAI" Sector.read)) Sector.layout.spelling.items :=
    .list (.block _ Sector.read_alike)
  simp (disch := decide) only [Welcome.read, Caption.read, Checked.value?_seq,
    Checked.value?_mapped, h.optional_data, h.optional_part List.mem_cons_self hcapabilities,
    h.optional_part (List.mem_cons_of_mem _ List.mem_cons_self) hsectors]

/-- The fields of a hand-off node's block. -/
def Transfer.layout : Layout where
  data := Caption.keys ++
    [key "transferType" "transfer_type", key "targetId" "target_id",
      key "transferMessage" "transfer_message", only "priority", only "metadata"]
  apart := by decide

theorem Transfer.read_alike (h : Transfer.layout.Alike o o') :
    (Transfer.read o).value? = (Transfer.read o').value? := by
  simp (disch := decide) only [Transfer.read, Caption.read, Checked.value?_seq,
    Checked.value?_mapped, h.optional_data]

/-- The fields of a webhook node's block. -/
def Webhook.layout : Layout where
  data := Caption.keys ++
    [only "url", only "method", only "headers", only "body",
      key "responseVariable" "response_variable", only "timeout", key "retryCount" "retry_count"]
  apart := by decide

theorem Webhook.read_alike (h : Webhook.layout.Alike o o') :
    (Webhook.read o).value? = (Webhook.read o').value? := by
  simp (disch := decide) only [Webhook.read, Caption.read, Checked.value?_seq,
    Checked.value?_mapped, h.optional_data]

/-- The fields of a delay node's block. -/
def Delay.layout : Layout where
  data := Caption.keys ++ [key "delaySeconds" "delay_seconds", key "showTyping" "show_typing"]
  apart := by decide

theorem Delay.read_alike (h : Delay.layout.Alike o o') :
    (Delay.read o).value? = (Delay.read o').value? := by
  simp (disch := decide) only [Delay.read, Caption.read, Checked.value?_seq, Checked.value?_mapped,
    h.optional_data]

/-- The fields of a tag node's block. -/
def Tag.layout : Layout where
  data := Caption.keys ++ [key "tagName" "tag_name", only "action"]
  apart := by decide

theorem Tag.read_alike (h : Tag.layout.Alike o o') :
    (Tag.read o).value? = (Tag.read o').value? := by
  simp (disch := decide) only [Tag.read, Caption.read, Checked.value?_seq, Checked.value?_mapped,
    h.optional_data]

/-- The fields of a variable node's block. -/
def Assignment.layout : Layout where
  data := Caption.keys ++
    [key "variableName" "variable_name", only "value", key "valueType" "value_type",
      key "sourceVariable" "source_variable"]
  apart := by decide

theorem Assignment.read_alike (h : Assignment.layout.Alike o o') :
    (Assignment.read o).value? = (Assignment.read o').value? := by
  simp (disch := decide) only [Assignment.read, Caption.read, Checked.value?_seq,
    Checked.value?_mapped, h.optional_data]

/-- The fields of the block of a node that looks for contracts. -/
def ContractSearch.layout : Layout where
  data := Caption.keys ++
    [key "identifyBy" "identify_by", key "lockContract" "lock_contract",
      key "askForSelection" "ask_for_selection", key "selectionMessage" "selection_message",
      key "notFoundMessage" "not_found_message", key "variableName" "variable_name"]
  apart := by decide

theorem ContractSearch.read_alike (h : ContractSearch.layout.Alike o o') :
    (ContractSearch.read o).value? = (ContractSearch.read o').value? := by
  simp (disch := decide) only [ContractSearch.read, Caption.read, Checked.value?_seq,
    Checked.value?_mapped, h.optional_data]

/-- The fields of a client tag node's block. -/
def ClientTag.layout : Layout where
  data := Caption.keys ++
    [key "clientTagType" "client_tag_type", key "customTag" "custom_tag", only "action",
      key "autoDetectFromContract" "auto_detect_from_contract",
      key "contractField" "contract_field"]
  apart := by decide

theorem ClientTag.read_alike (h : ClientTag.layout.Alike o o') :
    (ClientTag.read o).value? = (ClientTag.read o').value? := by
  simp (disch := decide) only [ClientTag.read, Caption.read, Checked.value?_seq,
    Checked.value?_mapped, h.optional_data]

/-- The fields of how a lead's field is asked for. -/
def CaptureField.layout : Layout where
  data := [only "enabled", only "required", only "question"]
  apart := by decide

theorem CaptureField.read_alike (h : CaptureField.layout.Alike o o') :
    (CaptureField.read o).value? = (CaptureField.read o').value? := by
  simp (disch := decide) only [CaptureField.read, Checked.value?_seq, Checked.value?_mapped,
    h.optional_data]

/-- The fields of the block of a node that captures a lead; the names of the lead's fields are data.
-/
def LeadCapture.layout : Layout where
  data := Caption.keys ++
    [key "captureOrder" "capture_order", key "saveToDatabase" "save_to_database",
      key "databaseTable" "database_table", key "sendToWebhook" "send_to_webhook",
      key "webhookUrl" "webhook_url", key "autoTags" "auto_tags", key "leadSource" "lead_source",
      key "leadCampaign" "lead_campaign", key "introMessage" "intro_message",
      key "successMessage" "success_message", key "errorMessage" "error_message",
      key "validateDuplicates" "validate_duplicates", key "duplicateField" "duplicate_field",
      key "duplicateMessage" "duplicate_message"]
  parts := [(key "captureFields" "capture_fields", CaptureField.layout.spelling.named)]
  apart := by decide

theorem LeadCapture.read_alike (h : LeadCapture.layout.Alike o o') :
    (LeadCapture.read o).value? = (LeadCapture.read o').value? := by
  have hfields : Indifferent
      (object (block "CaptureField" CaptureField.read)) CaptureField.layout.spelling.named :=
    .object (.block _ CaptureField.read_alike)
  simp (disch := decide) only [LeadCapture.read, Caption.read, Checked.value?_seq,
    Checked.value?_mapped, h.optional_data, h.optional_part List.mem_cons_self hfields]

/-- The fields of an end node's block. -/
def Ending.layout : Layout where
  data := Caption.keys ++
    [key "endType" "end_type", key "finalMessage" "final_message",
      key "markAsResolved" "mark_as_resolved"]
  apart := by decide

theorem Ending.read_alike (h : Ending.layout.Alike o o') :
    (Ending.read o).value? = (Ending.read o').value? := by
  simp (disch := decide) only [Ending.read, Caption.read, Checked.value?_seq, Checked.value?_mapped,
    h.optional_data]

/-! ### Nodes -/

/-- How the data of a node of a kind are spelled; those of an unknown kind are data throughout. -/
def Block.spelling (kind : String) : Spelling :=
  match kind with
  | "start" => Start.layout.spelling
  | "message" => Message.layout.spelling
  | "input" => Question.layout.spelling
  | "menu" => Menu.layout.spelling
  | "condition" => Branch.layout.spelling
  | "ai_agent" => Assistant.layout.spelling
  | "welcome_ai" => Welcome.layout.spelling
  | "handoff" => Transfer.layout.spelling
  | "webhook" => Webhook.layout.spelling
  | "delay" => Delay.layout.spelling
  | "tag" => Tag.layout.spelling
  | "variable" => Assignment.layout.spelling
  | "identify_contract" => ContractSearch.layout.spelling
  | "client_tag" => ClientTag.layout.spelling
  | "lead_capture" => LeadCapture.layout.spelling
  | "end" => Ending.layout.spelling
  | _ => .exact

/-- The fields of a node whose data are spelled as `s` says. -/
def Node.layout (s : Spelling) : Layout where
  data := [only "id", only "type", only "position"]
  parts := [(only "data", s)]
  apart := by
    have happart : [only "id", only "type", only "position", only "data"].Pairwise Key.Apart := by
      decide
    exact happart

/-- How the data of a node are spelled. -/
def Node.dataSpelling (node : Value) : Spelling :=
  match node.field? "type" with
  | some (.text kind) => Block.spelling kind
  | _ => .exact

/-- Nodes are respelled by their kind. -/
def Node.spelling : Spelling := .depending fun node => (Node.layout (dataSpelling node)).spelling

section

variable {s : Spelling}

/-- The kind of a node is data. -/
theorem Node.type_alike (h : (Node.layout s).Alike o o') : o.get? "type" = o'.get? "type" := by
  have htype : (only "type").get? o = (only "type").get? o' := h.get?_data (by simp [Node.layout])
  rwa [only, Key.get?_only, Key.get?_only] at htype

/-- The data of a node mean the same in both spellings when the block in them does. -/
theorem data_alike {α : Type} {name : String} {read : Fields → Checked α} {standard : α}
    {make : α → Block} (h : (Node.layout s).Alike o o') (hr : Indifferent (block name read) s) :
    (data o name read standard make).value? = (data o' name read standard make).value? := by
  rw [data, data, Checked.value?_map, Checked.value?_map, h.optional_part List.mem_cons_self hr]

/-- A block of a known kind means the same in both spellings. -/
theorem Block.read?_alike {kind : String} (h : (Node.layout (Block.spelling kind)).Alike o o') :
    (Block.read? kind o).map Checked.value? = (Block.read? kind o').map Checked.value? := by
  unfold Block.read?
  split
  · exact congrArg some (data_alike h (.block _ Start.read_alike))
  · exact congrArg some (data_alike h (.block _ Message.read_alike))
  · exact congrArg some (data_alike h (.block _ Question.read_alike))
  · exact congrArg some (data_alike h (.block _ Menu.read_alike))
  · exact congrArg some (data_alike h (.block _ Branch.read_alike))
  · exact congrArg some (data_alike h (.block _ Assistant.read_alike))
  · exact congrArg some (data_alike h (.block _ Welcome.read_alike))
  · exact congrArg some (data_alike h (.block _ Transfer.read_alike))
  · exact congrArg some (data_alike h (.block _ Webhook.read_alike))
  · exact congrArg some (data_alike h (.block _ Delay.read_alike))
  · exact congrArg some (data_alike h (.block _ Tag.read_alike))
  · exact congrArg some (data_alike h (.block _ Assignment.read_alike))
  · exact congrArg some (data_alike h (.block _ ContractSearch.read_alike))
  · exact congrArg some (data_alike h (.block _ ClientTag.read_alike))
  · exact congrArg some (data_alike h (.block _ LeadCapture.read_alike))
  · exact congrArg some (data_alike h (.block _ Ending.read_alike))
  · rfl

/-- The data of a node of an unknown kind have one spelling. -/
theorem Block.spelling_of_unknown {kind : String} (h : Block.read? kind o = none) :
    Block.spelling kind = .exact := by
  fun_cases Block.spelling kind
  case case17 => rfl
  all_goals cases h

/-- A block of an unknown kind is its data. -/
theorem Block.readUnknown_alike (h : (Node.layout .exact).Alike o o') :
    (Block.readUnknown o).value? = (Block.readUnknown o').value? := by
  simp (disch := decide) only [Block.readUnknown, Checked.value?_seq, Checked.value?_mapped,
    h.required_data, h.optional_part List.mem_cons_self (.exact _)]

/-- The block of a node is read alike, under whichever kind it is looked up. -/
theorem knownKind?_alike (h : (Node.layout (Node.dataSpelling (.object o))).Alike o o') :
    ((knownKind? o).getD ("unknown", Block.readUnknown o)).2.value? =
      ((knownKind? o').getD ("unknown", Block.readUnknown o')).2.value? := by
  have hfield : (Value.object o).field? "type" = o.get? "type" := rfl
  rw [knownKind?, knownKind?, ← Node.type_alike h]
  rw [Node.dataSpelling, hfield] at h
  split
  · next kind hkind =>
    rw [hkind] at h
    have hread := Block.read?_alike h
    cases hfound : Block.read? kind o with
    | some found =>
      rw [hfound] at hread
      obtain ⟨found', hfound', heq⟩ := Option.map_eq_some_iff.mp hread.symm
      rw [hfound']
      exact heq.symm
    | none =>
      rw [hfound] at hread
      rw [Option.map_eq_none_iff.mp hread.symm]
      exact Block.readUnknown_alike (Block.spelling_of_unknown hfound ▸ h)
  · next hno =>
    split at h
    · next kind hkind => exact absurd hkind (hno kind)
    · exact Block.readUnknown_alike h

/-- Nodes are read alike, each by its kind. -/
theorem Node.indifferent : Indifferent Node.ofValue Node.spelling := by
  intro v w hvw hv
  rcases (layout (dataSpelling v)).spelling_cases hvw hv with ⟨o, o', rfl, rfl, h⟩ | rfl
  · have hid : only "id" ∈ (layout (dataSpelling (.object o))).data := List.mem_cons_self
    have hposition : only "position" ∈ (layout (dataSpelling (.object o))).data := by simp [layout]
    simp only [Node.ofValue, Checked.value?_under, Checked.value?_seq, Checked.value?_mapped,
      h.required_data hid, h.optional_data hposition, knownKind?_alike h]
  · rfl

/-- Whether the kind of a node can be looked up does not depend on its spelling. -/
theorem hasCompoundKind_respelled {v w : Value} (hvw : Node.spelling.Respells v w)
    (hv : Node.spelling.Single v) :
    hasCompoundKind v = hasCompoundKind w := by
  rcases (Node.layout (Node.dataSpelling v)).spelling_cases hvw hv with ⟨o, o', rfl, rfl, h⟩ | rfl
  · have htype : (Value.object o).field? "type" = (Value.object o').field? "type" :=
      Node.type_alike h
    rw [hasCompoundKind, hasCompoundKind, htype]
  · rfl

end

/-! ### Flows -/

/-- The fields of an edge. -/
def Edge.layout : Layout where
  data := [only "id", only "source", only "target", key "sourceHandle" "source_handle",
    only "label"]
  apart := by decide

theorem Edge.read_alike (h : Edge.layout.Alike o o') :
    (Edge.read o).value? = (Edge.read o').value? := by
  simp (disch := decide) only [Edge.read, Checked.value?_seq, Checked.value?_mapped,
    h.required_data, h.optional_data]

/-- The fields of a declared variable. -/
def Declaration.layout : Layout where
  data := [only "name", only "type", key "defaultValue" "default_value", only "description"]
  apart := by decide

theorem Declaration.read_alike (h : Declaration.layout.Alike o o') :
    (Declaration.read o).value? = (Declaration.read o').value? := by
  simp (disch := decide) only [Declaration.read, Checked.value?_seq, Checked.value?_mapped,
    h.required_data, h.optional_data]

/-- The fields of a flow. -/
def layout : Layout where
  data := [only "id", only "name", only "description", key "departmentId" "department_id",
    key "isActive" "is_active", key "isDefault" "is_default", key "triggerType" "trigger_type",
    only "version"]
  parts := [(only "nodes", Node.spelling.items), (only "edges", Edge.layout.spelling.items),
    (only "variables", Declaration.layout.spelling.items)]
  apart := by decide

/-- The fields of a flow mean the same in both spellings. -/
theorem read_alike (h : layout.Alike o o') : (read o).value? = (read o').value? := by
  have hnodes : Indifferent (list Node.ofValue) Node.spelling.items := Node.indifferent.list
  have hedges : Indifferent (list (block "Edge" Edge.read)) Edge.layout.spelling.items :=
    .list (.block _ Edge.read_alike)
  have hvariables : Indifferent
      (list (block "FlowVariable" Declaration.read)) Declaration.layout.spelling.items :=
    .list (.block _ Declaration.read_alike)
  simp (disch := decide) only [Flow.read, Checked.value?_seq, Checked.value?_mapped,
    h.required_data, h.optional_data, h.optional_part (k := only "nodes") List.mem_cons_self hnodes,
    h.optional_part (k := only "edges") (List.mem_cons_of_mem _ List.mem_cons_self) hedges,
    h.optional_part (k := only "variables")
      (List.mem_cons_of_mem _ (List.mem_cons_of_mem _ List.mem_cons_self)) hvariables]

/-- How a flow is spelled. -/
def spelling : Spelling := layout.spelling

/-- The nodes that a document gives. -/
def givenNodes (v : Value) : List Value := ((v.field? "nodes").bind Value.asList?).getD []

/-- Whether the kind of a node is a list or an object does not depend on the spelling. -/
theorem any_hasCompoundKind_respelled {v w : Value} (hvw : spelling.Respells v w)
    (hv : spelling.Single v) :
    (givenNodes v).any hasCompoundKind = (givenNodes w).any hasCompoundKind := by
  rcases layout.spelling_cases hvw hv with ⟨o, o', rfl, rfl, h⟩ | rfl
  · have hrel := h.get? (k := only "nodes") (Layout.mem_fields_of_parts List.mem_cons_self)
    rw [only, Key.get?_only, Key.get?_only] at hrel
    have hgiven (o : Fields) :
      givenNodes (.object o) = ((o.get? "nodes").bind Value.asList?).getD [] := rfl
    rw [hgiven, hgiven]
    generalize Entries.get? o "nodes" = given, Entries.get? o' "nodes" = given' at hrel ⊢
    cases hrel with
    | none => rfl
    | some hnodes => exact Spelling.any_items hasCompoundKind_respelled hnodes.1 hnodes.2
  · rfl

/-- A document is a flow when its fields are read and no kind of a node is a list or an object. -/
theorem toOption_ofValue (v : Value) :
    (ofValue v).toOption = if (givenNodes v).any hasCompoundKind then none
      else (block "Flow" read v).value? := by
  rw [ofValue, ← givenNodes]
  split
  · rfl
  · cases block "Flow" read v <;> rfl

end Parley.Flow

namespace Parley.Registry

open Schema

/-- What is parsed is what is read; faults are told otherwise. -/
theorem toOption_parse (raw : Value) : (parse raw).toOption = (Flow.ofValue raw).toOption := by
  unfold parse
  split <;> simp_all [Except.toOption]

/-- **Both spellings mean the same flow.**  Of a document in which no block gives a field twice, and
of any other that differs from it in the names of fields only, wherever it does, the same flow is
parsed, or no flow of either. -/
theorem parse_respelled {raw raw' : Value} (h : Flow.spelling.Respells raw raw')
    (hsingle : Flow.spelling.Single raw) :
    (parse raw').toOption = (parse raw).toOption := by
  rw [toOption_parse, toOption_parse, Flow.toOption_ofValue, Flow.toOption_ofValue,
    Flow.any_hasCompoundKind_respelled h hsingle,
    Indifferent.block "Flow" Flow.read_alike h hsingle]

/-- What a welcoming node holds, when two of its fields go by the given names. -/
def welcomeData (audio sectors : String) : Value :=
  .object [("capabilities", .object [(audio, .bool true)]),
    (sectors, .list [.object [("id", .text "v"), ("name", .text "Vendas")]])]

/-- A welcoming node. -/
def welcomer (audio sectors : String) : Value :=
  .object [("id", .text "ola"), ("type", .text "welcome_ai"), ("data", welcomeData audio sectors)]

/-- A node of an unknown kind, whose data are kept. -/
def film : Value :=
  .object [("id", .text "filme"), ("type", .text "video"),
    ("data", .object [("mediaUrl", .text "u")])]

/-- A flow in which four fields go by the given names. -/
def storefront (department audio sectors handle : String) : Value :=
  .object [("id", .text "vendas"), (department, .text "loja"),
    ("nodes", .list [welcomer audio sectors, film]),
    ("edges", .list [.object [("source", .text "ola"), ("target", .text "filme"),
      (handle, .text "h")]])]

theorem welcomeData_respells :
    Flow.Welcome.layout.spelling.Respells (welcomeData "handleAudio" "sectorAIs")
    (welcomeData "handle_audio" "sector_ais") := by
  have hcapabilities : Flow.Capabilities.layout.spelling.Respells
      (.object [("handleAudio", .bool true)]) (.object [("handle_audio", .bool true)]) :=
    .cons (.renamed (k := Flow.key "handleAudio" "handle_audio") (by decide) _) .nil
  have hsectors (v : Value) : Flow.Welcome.layout.Respells ("sectorAIs", v) ("sector_ais", v) :=
    .renamedWithin (k := Flow.key "sectorAIs" "sector_ais")
      (List.mem_cons_of_mem _ List.mem_cons_self)
      (Spelling.refl _ v)
  exact .cons (.within (k := Flow.only "capabilities") List.mem_cons_self hcapabilities)
    (.cons (hsectors _) .nil)

theorem welcomeData_single :
    Flow.Welcome.layout.spelling.Single (welcomeData "handleAudio" "sectorAIs") := by
  have hcapabilities : Flow.Capabilities.layout.spelling.Single
      (.object [("handleAudio", .bool true)]) :=
    Layout.single_iff.mpr ⟨by decide, by simp [Flow.Capabilities.layout]⟩
  have hsector : Flow.Sector.layout.spelling.Single
      (.object [("id", .text "v"), ("name", .text "Vendas")]) :=
    Layout.single_iff.mpr ⟨by decide, by simp [Flow.Sector.layout]⟩
  have hsectors : Flow.Sector.layout.spelling.items.Single (.list [_]) :=
    List.forall_mem_singleton.mpr hsector
  refine Layout.single_iff.mpr ⟨by decide, ?_⟩
  simpa [Flow.Welcome.layout, Key.Names, Flow.only, Key.only, Flow.key]
    using And.intro hcapabilities hsectors

/-- The two documents are one flow in two spellings. -/
theorem storefront_respells :
    Flow.spelling.Respells (storefront "departmentId" "handleAudio" "sectorAIs" "sourceHandle")
      (storefront "department_id" "handle_audio" "sector_ais" "source_handle") := by
  have hdata : (Flow.Node.layout Flow.Welcome.layout.spelling).Respells
      ("data", welcomeData "handleAudio" "sectorAIs")
          ("data", welcomeData "handle_audio" "sector_ais") :=
    .within (k := Flow.only "data") List.mem_cons_self welcomeData_respells
  have hwelcomer : Flow.Node.spelling.Respells (welcomer "handleAudio" "sectorAIs")
      (welcomer "handle_audio" "sector_ais") :=
    .cons (.refl _ _) (.cons (.refl _ _) (.cons hdata .nil))
  have hnodes : List.Forall₂ Flow.Node.spelling.Respells _ _ :=
    .cons hwelcomer (.cons (Flow.Node.spelling.refl film) .nil)
  have hhandle : Flow.Edge.layout.Respells ("sourceHandle", .text "h")
      ("source_handle", .text "h") :=
    .renamed (k := Flow.key "sourceHandle" "source_handle") (by decide) _
  have hedges : List.Forall₂ Flow.Edge.layout.spelling.Respells [.object [_, _, _]]
      [.object [_, _, _]] :=
    .cons (.cons (.refl _ ("source", .text "ola"))
      (.cons (.refl _ ("target", .text "filme")) (.cons hhandle .nil)))
      .nil
  exact .cons (.refl _ _)
    (.cons (.renamed (k := Flow.key "departmentId" "department_id") (by decide) _)
    (.cons (.within (k := Flow.only "nodes") List.mem_cons_self hnodes)
      (.cons (.within (k := Flow.only "edges")
        (List.mem_cons_of_mem _ List.mem_cons_self) hedges) .nil)))

/-- The document gives no field twice. -/
theorem storefront_single :
    Flow.spelling.Single (storefront "departmentId" "handleAudio" "sectorAIs" "sourceHandle") := by
  have hwelcome : (Flow.Node.layout Flow.Welcome.layout.spelling).Single
      [("id", .text "ola"), ("type", .text "welcome_ai"),
          ("data", welcomeData "handleAudio" "sectorAIs")] := by
    refine Layout.single_iff.mpr ⟨by decide, ?_⟩
    simpa [Flow.Node.layout, Key.Names, Flow.only, Key.only] using welcomeData_single
  have hfilm : (Flow.Node.layout .exact).Single
      [("id", .text "filme"), ("type", .text "video"),
          ("data", .object [("mediaUrl", .text "u")])] :=
    Layout.single_iff.mpr ⟨by decide, by simp [Flow.Node.layout, Spelling.exact]⟩
  have hnodes : Flow.Node.spelling.items.Single
      (.list [welcomer "handleAudio" "sectorAIs", film]) :=
    List.forall_mem_cons.mpr ⟨hwelcome, List.forall_mem_singleton.mpr hfilm⟩
  have hedge : Flow.Edge.layout.spelling.Single
      (.object [("source", .text "ola"), ("target", .text "filme"), ("sourceHandle", .text "h")]) :=
    Layout.single_iff.mpr ⟨by decide, by simp [Flow.Edge.layout]⟩
  have hedges : Flow.Edge.layout.spelling.items.Single (.list [_]) :=
    List.forall_mem_singleton.mpr hedge
  refine Layout.single_iff.mpr ⟨by decide, ?_⟩
  simpa [Flow.layout, Key.Names, Flow.only, Key.only] using And.intro hnodes hedges

/-- The designer's names of the four fields, and their plain ones. -/
theorem parse_respelled_storefront :
    Flow.spelling.Respells (storefront "departmentId" "handleAudio" "sectorAIs" "sourceHandle")
      (storefront "department_id" "handle_audio" "sector_ais" "source_handle") ∧
    Flow.spelling.Single (storefront "departmentId" "handleAudio" "sectorAIs" "sourceHandle") ∧
    (parse (storefront "departmentId" "handleAudio" "sectorAIs" "sourceHandle")).toOption.isSome =
      true ∧
    (parse (storefront "department_id" "handle_audio" "sector_ais" "source_handle")).toOption =
      (parse (storefront "departmentId" "handleAudio" "sectorAIs" "sourceHandle")).toOption :=
  ⟨storefront_respells, storefront_single, by
    decide +kernel, parse_respelled storefront_respells storefront_single⟩

end Parley.Registry
