import Parley.Flow.Reading
import Parley.Flow.Writing
import Parley.Proofs.Schema.Parts

/-!
# Flows read back from their documents

Every block is read back from its data, and so is every node, edge and declared variable.  The kind
that a node states decides which block its data hold, so a node of an unknown kind is read back when
its kind is no known one (`Block.Kept`), as is every node that was read.  So a flow that was read is
read back from its document (`ofValue_toValue`).
-/

namespace Parley.Flow

open Schema

/-! ### Blocks -/

theorem Button.read_toValue (b : Button) :
    block "MessageButton" Button.read b.toValue = .ok b := rfl

theorem Choice.read_toValue (c : Choice) : block "MenuOption" Choice.read c.toValue = .ok c := rfl

/-- A rule is read from its own document. -/
theorem rule_ruleToValue (r : Condition.Rule) : rule (ruleToValue r) = .ok r := rfl

theorem Capabilities.read_toValue (c : Capabilities) :
    block "WelcomeCapabilities" Capabilities.read c.toValue = .ok c := rfl

theorem Sector.read_toValue (s : Sector) : block "SectorAI" Sector.read s.toValue = .ok s := by
  unfold Sector.toValue block Sector.read
  dsimp only
  rw [optional_ok rfl (list_texts s.keywords)]
  rfl

/-- A body, or none, is read from its own document. -/
theorem RequestBody.read_toValue (body : Option RequestBody) :
    RequestBody.read (.ofOption RequestBody.toValue body) = .ok body := by
  rcases body with _ | _ | _ <;> rfl

theorem CaptureField.read_toValue (c : CaptureField) :
    block "CaptureField" CaptureField.read c.toValue = .ok c := rfl

theorem Start.read_data (d : Start) :
    block "StartData" Start.read (Block.start d).data = .ok d := by
  unfold Block.data captioned block Start.read
  dsimp only
  rw [optional_ok rfl (list_texts d.keywords)]
  rfl

theorem Message.read_data (d : Message) :
    block "MessageData" Message.read (Block.message d).data = .ok d := by
  unfold Block.data captioned block Message.read
  dsimp only
  rw [optional_ok rfl (list_map fun b _ => Button.read_toValue b)]
  rfl

theorem Question.read_data (d : Question) :
    block "InputData" Question.read (Block.input d).data = .ok d := by
  unfold Block.data captioned block Question.read
  dsimp only
  rw [optional_ok rfl (nullable_int d.timeout)]
  rfl

theorem Menu.read_data (d : Menu) : block "MenuData" Menu.read (Block.menu d).data = .ok d := by
  unfold Block.data captioned block Menu.read
  dsimp only
  rw [optional_ok rfl (list_map fun c _ => Choice.read_toValue c)]
  rfl

theorem Branch.read_data (d : Branch) :
    block "ConditionData" Branch.read (Block.condition d).data = .ok d := by
  unfold Block.data captioned block Branch.read
  dsimp only
  rw [optional_ok rfl (list_map fun r _ => rule_ruleToValue r)]
  rfl

theorem Assistant.read_data (d : Assistant) :
    block "AIAgentData" Assistant.read (Block.assistant d).data = .ok d := by
  unfold Block.data captioned block Assistant.read
  dsimp only
  rw [optional_ok rfl (nullable_float d.temperature), optional_ok rfl (nullable_int d.maxTokens),
    optional_ok rfl (list_texts d.tools), optional_ok rfl (list_texts d.contextVariables)]
  rfl

theorem Welcome.read_data (d : Welcome) :
    block "WelcomeAIData" Welcome.read (Block.welcome d).data = .ok d := by
  unfold Block.data captioned block Welcome.read
  dsimp only
  rw [optional_ok rfl (nullable_float d.temperature), optional_ok rfl d.capabilities.read_toValue,
    optional_ok rfl (list_texts d.paymentProofFields),
    optional_ok rfl (list_map fun s _ => Sector.read_toValue s),
    optional_ok rfl (list_texts d.humanHandoffTriggers),
    optional_ok rfl (list_texts d.contextVariables)]
  rfl

theorem Transfer.read_data (d : Transfer) :
    block "HandoffData" Transfer.read (Block.handoff d).data = .ok d := by
  unfold Block.data captioned block Transfer.read
  dsimp only
  rw [optional_ok rfl (object_map text_text d.metadata)]
  rfl

theorem Webhook.read_data (d : Webhook) :
    block "WebhookData" Webhook.read (Block.webhook d).data = .ok d := by
  unfold Block.data captioned block Webhook.read
  dsimp only
  rw [optional_ok rfl (object_map text_text d.headers),
    optional_ok rfl (RequestBody.read_toValue d.body), optional_ok rfl (nullable_float d.timeout),
    optional_ok rfl (nullable_int d.retryCount)]
  rfl

theorem Delay.read_data (d : Delay) :
    block "DelayData" Delay.read (Block.delay d).data = .ok d := rfl

theorem Tag.read_data (d : Tag) : block "TagData" Tag.read (Block.tag d).data = .ok d := rfl

theorem Assignment.read_data (d : Assignment) :
    block "VariableData" Assignment.read (Block.assignment d).data = .ok d := rfl

theorem ContractSearch.read_data (d : ContractSearch) :
    block "IdentifyContractData" ContractSearch.read (Block.contractSearch d).data = .ok d := rfl

theorem ClientTag.read_data (d : ClientTag) :
    block "ClientTagData" ClientTag.read (Block.clientTag d).data = .ok d := rfl

theorem LeadCapture.read_data (d : LeadCapture) :
    block "LeadCaptureData" LeadCapture.read (Block.leadCapture d).data = .ok d := by
  unfold Block.data captioned block LeadCapture.read
  dsimp only
  rw [optional_ok rfl (object_map CaptureField.read_toValue d.captureFields),
    optional_ok rfl (list_texts d.captureOrder), optional_ok rfl (list_texts d.autoTags)]
  rfl

theorem Ending.read_data (d : Ending) :
    block "EndData" Ending.read (Block.ending d).data = .ok d := rfl

/-! ### Nodes -/

variable {o : Fields}

/-- The data of a node are read when the block in them is. -/
theorem data_ok {α : Type} {name : String} {read : Fields → Checked α} {standard a : α}
    {make : α → Block} {v : Value} (hv : o.get? "data" = some v) (h : block name read v = .ok a) :
    data o name read standard make = .ok (make a) := by
  rw [data, optional_ok hv h]
  rfl

/-- The kind decides whether there is a block of its own, not what the node holds. -/
theorem Block.read?_eq_none {kind : String} {o : Fields} (h : Block.read? kind o = none)
    (other : Fields) :
    Block.read? kind other = none := by
  unfold Block.read? at h
  split at h
  case h_17 =>
    unfold Block.read?
    split <;> first | contradiction | rfl
  all_goals cases h

/-- Only a kind that has no block of its own is unknown. -/
def Block.Kept : Block → Prop
  | .unknown kind _ => ∀ o, Block.read? kind o = none
  | _ => True

/-- The block of a node is read back. -/
theorem Block.read_kind {b : Block} (h : b.Kept) (hkind : o.get? "type" = some (.text b.kind))
    (hdata : o.get? "data" = some b.data) :
    ((knownKind? o).getD ("unknown", Block.readUnknown o)).2 = .ok b := by
  unfold knownKind?
  rw [hkind]
  cases b with
  | start d => exact data_ok hdata d.read_data
  | message d => exact data_ok hdata d.read_data
  | input d => exact data_ok hdata d.read_data
  | menu d => exact data_ok hdata d.read_data
  | condition d => exact data_ok hdata d.read_data
  | assistant d => exact data_ok hdata d.read_data
  | welcome d => exact data_ok hdata d.read_data
  | handoff d => exact data_ok hdata d.read_data
  | webhook d => exact data_ok hdata d.read_data
  | delay d => exact data_ok hdata d.read_data
  | tag d => exact data_ok hdata d.read_data
  | assignment d => exact data_ok hdata d.read_data
  | contractSearch d => exact data_ok hdata d.read_data
  | clientTag d => exact data_ok hdata d.read_data
  | leadCapture d => exact data_ok hdata d.read_data
  | ending d => exact data_ok hdata d.read_data
  | unknown kind data =>
      dsimp only [Block.kind]
      rw [h o, Option.map_none, Option.getD_none]
      dsimp only [Block.readUnknown]
      rw [required_ok hkind (text_text kind), optional_ok hdata (object_any data)]
      rfl

/-- A node is read from its own document, when its kind is what the document says. -/
theorem Node.ofValue_toValue {n : Node} (h : n.block.Kept) : Node.ofValue n.toValue = .ok n := by
  unfold Node.toValue Node.ofValue
  dsimp only
  rw [Block.read_kind h rfl rfl, optional_ok rfl (object_map float_float n.position)]
  rfl

/-! ### Flows -/

/-- An edge is read from its own document. -/
theorem Edge.read_toValue (e : Edge) : block "Edge" Edge.read e.toValue = .ok e := by
  unfold Edge.toValue block Edge.read
  dsimp only
  rw [optional_ok rfl (nullable_text e.sourceHandle)]
  rfl

/-- A declaration is read from its own document. -/
theorem Declaration.read_toValue (d : Declaration) :
    block "FlowVariable" Declaration.read d.toValue = .ok d := rfl

/-- The fields of a flow are read from its own document. -/
theorem block_toValue {f : Flow} (h : ∀ n ∈ f.nodes, n.block.Kept) :
    block "Flow" read f.toValue = .ok f := by
  unfold toValue block read
  dsimp only
  rw [optional_ok rfl (list_map fun n hn => Node.ofValue_toValue (h n hn)),
    optional_ok rfl (list_map fun e _ => Edge.read_toValue e),
    optional_ok rfl (list_map fun d _ => Declaration.read_toValue d)]
  rfl

/-- A flow is read from its own document. -/
theorem ofValue_of_kept {f : Flow} (h : ∀ n ∈ f.nodes, n.block.Kept) :
    ofValue f.toValue = .ok f := by
  have hkinds : (f.nodes.map Node.toValue).any hasCompoundKind = false := by
    rw [List.any_map, List.any_eq_false]
    exact fun n _ => Bool.false_ne_true
  unfold ofValue
  rw [block_toValue h]
  exact if_neg (Bool.eq_false_iff.mp hkinds)

end Parley.Flow
