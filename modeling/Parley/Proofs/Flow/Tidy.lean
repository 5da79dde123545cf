import Parley.Proofs.Flow.Document
import Parley.Proofs.Schema.Legible

/-!
# Tidy flows

What a flow takes from its document as it is are names of entries, whole numbers and loose values.
From a legible document a tidy flow is read (`tidy_of_ofValue`), and the document of a tidy flow is
legible again (`Tidy.legible_toValue`).

Whatever the document is, each node that is read has a block of the kind that it states
(`kept_of_ofValue`).
-/

namespace Parley

open Schema

/-! ### Parts of legible documents -/

namespace Value

/-- An optional value is legible when it is null or legible itself. -/
theorem legible_ofOption {α : Type} {write : α → Value} {o : Option α} :
    (ofOption write o).Legible ↔ ∀ a ∈ o, (write a).Legible := by
  cases o with
  | none => exact iff_of_true legible_null nofun
  | some a => simp [ofOption]

/-- A list of texts is legible. -/
theorem legible_texts (ss : List String) : (texts ss).Legible := by
  simp [texts, legible_list, legible_text]

/-- An object of entries is legible when no name is repeated and all that is written is legible. -/
theorem legible_objectOf {α : Type} {write : α → Value} {es : Entries α} :
    (Flow.objectOf write es).Legible ↔ es.names.Nodup ∧ ∀ e ∈ es, (write e.2).Legible := by
  simp only [Flow.objectOf, legible_object, Entries.names, List.map_map, List.forall_mem_map]
  rfl

end Value

/-! ### Tidy flows -/

namespace Flow

/-- The number can be written, if one is given. -/
def Short (o : Option Int) : Prop := ∀ n ∈ o, Number.isTooLong n = false

/-- What the block takes from its document as it is, is tidy. -/
def Block.Tidy : Block → Prop
  | .input d => Short d.timeout
  | .condition d => ∀ r ∈ d.conditions, r.value.Legible
  | .assistant d => Short d.maxTokens
  | .handoff d => d.metadata.names.Nodup
  | .webhook d => d.headers.names.Nodup ∧ (∀ body ∈ d.body, body.toValue.Legible) ∧
      Short d.retryCount
  | .leadCapture d => d.captureFields.names.Nodup
  | .unknown _ data => (Value.object data).Legible
  | _ => True

/-- What the node takes from its document as it is, is tidy. -/
structure Node.Tidy (n : Node) : Prop where
  position : n.position.names.Nodup
  block : n.block.Tidy

/-- What the flow takes from its document as it is, is tidy. -/
structure Tidy (f : Flow) : Prop where
  nodes : ∀ n ∈ f.nodes, n.Tidy
  declarations : ∀ d ∈ f.declarations, d.defaultValue.Legible
  version : Number.isTooLong f.version = false

section Writing

attribute [local simp] Value.legible_bool Value.legible_float Value.legible_text Value.legible_int
  Value.legible_list Value.legible_object Value.legible_ofOption Value.legible_texts
    Value.legible_objectOf
  Entries.names captioned Block.Tidy Short

/-- The data of a tidy block are legible. -/
theorem Block.Tidy.legible_data {b : Block} (h : b.Tidy) : b.data.Legible := by
  unfold Block.data
  cases b with
  | message d => simp [Button.toValue]
  | menu d => simp [Choice.toValue]
  | welcome d => simp [Capabilities.toValue, Sector.toValue]
  | condition d => simpa [ruleToValue] using h
  | leadCapture d => simpa [CaptureField.toValue] using h
  | input d | assistant d | handoff d | webhook d => simpa using h
  | unknown _ data => exact h
  | _ => simp

/-- The document of a tidy node is legible. -/
theorem Node.Tidy.legible_toValue {n : Node} (h : n.Tidy) : n.toValue.Legible := by
  simpa [Node.toValue, h.block.legible_data] using h.position

/-- **The document of a tidy flow is legible.** -/
theorem Tidy.legible_toValue {f : Flow} (h : f.Tidy) : f.toValue.Legible := by
  have hnodes : ∀ n ∈ f.nodes, n.toValue.Legible := fun n hn => (h.nodes n hn).legible_toValue
  simpa [toValue, Edge.toValue, Declaration.toValue] using ⟨hnodes, h.declarations, h.version⟩

end Writing

/-! ### Flows that are read -/

variable {o : Fields} {kind : String} {found : Checked Block}

theorem Question.yields_read (h : (Value.object o).Legible) :
    (Question.read o).Yields fun d => (Block.input d).Tidy :=
  .any (.seq (.any (.any (.any (.any (.any (.map_any fun _ _ _ _ _ _ _ htimeout _ => htimeout))))))
    (Reads.int.nullable.optional h nofun))

/-- A legible document is read as a rule with a legible value. -/
theorem reads_rule : Reads rule fun r => r.value.Legible :=
  .block fun h => .any (.seq (.any (.any (.map_any fun _ _ _ _ hvalue _ => hvalue)))
    (Reads.any.optional h (Value.legible_text _)))

theorem Branch.yields_read (h : (Value.object o).Legible) :
    (Branch.read o).Yields fun d => (Block.condition d).Tidy :=
  .any (.seq (.map_any fun _ _ hrules _ => hrules)
    (reads_rule.list.optional h (List.forall_mem_nil _)))

theorem Assistant.yields_read (h : (Value.object o).Legible) :
    (Assistant.read o).Yields fun d => (Block.assistant d).Tidy :=
  .any (.any (.any (.seq (.any (.any (.any (.map_any fun _ _ _ _ _ htokens _ _ _ => htokens))))
    (Reads.int.nullable.optional h nofun))))

theorem Transfer.yields_read (h : (Value.object o).Legible) :
    (Transfer.read o).Yields fun d => (Block.handoff d).Tidy :=
  .seq (.any (.any (.any (.any (.map_any fun _ _ _ _ _ _ hmetadata => hmetadata)))))
    (Reads.object.optional h List.nodup_nil)

/-- A legible document is read as a legible body, or as none. -/
theorem reads_body : Reads RequestBody.read fun body => ∀ b ∈ body, b.toValue.Legible := by
  rintro v hv body hbody b rfl
  unfold RequestBody.read at hbody
  split at hbody <;> cases hbody
  · exact Value.legible_text _
  · exact hv

theorem Webhook.yields_read (h : (Value.object o).Legible) :
    (Webhook.read o).Yields fun d => (Block.webhook d).Tidy :=
  .seq (.any (.any (.seq
    (.seq (.any (.any (.map_any fun _ _ _ _ hheaders _ hbody _ _ _ hretries =>
      ⟨hheaders, hbody, hretries⟩)))
      (Reads.object.optional h List.nodup_nil))
    (reads_body.optional h nofun)))) (Reads.int.nullable.optional h nofun)

theorem LeadCapture.yields_read (h : (Value.object o).Legible) :
    (LeadCapture.read o).Yields fun d => (Block.leadCapture d).Tidy := by
  unfold LeadCapture.read
  -- the fields come second of sixteen
  iterate 14 refine .any ?_
  exact .seq (.map_any fun _ _ hnames _ _ _ _ _ _ _ _ _ _ _ _ _ _ => hnames)
    (Reads.object.optional h List.nodup_nil)

/-- The data of a node are read as a tidy block when the block in them is, and so is the standard
one. -/
theorem yields_data {α : Type} {name : String} {read : Fields → Checked α} {standard : α}
    {make : α → Block} (h : (Value.object o).Legible)
    (hread : ∀ {o : Fields}, (Value.object o).Legible → (read o).Yields fun a => (make a).Tidy)
    (hstandard : (make standard).Tidy) : (data o name read standard make).Yields Block.Tidy :=
  .mapped ((Reads.block hread).optional h hstandard)

/-- A legible block of a known kind is read as a tidy one. -/
theorem tidy_of_read? (h : Block.read? kind o = some found) (ho : (Value.object o).Legible) :
    found.Yields Block.Tidy := by
  unfold Block.read? at h
  split at h <;> cases h
  -- the blocks that take nothing as it is
  all_goals try exact .mapped fun _ _ => trivial
  · exact yields_data ho Question.yields_read nofun
  · exact yields_data ho Branch.yields_read (List.forall_mem_nil _)
  · exact yields_data ho Assistant.yields_read nofun
  · exact yields_data ho Transfer.yields_read List.nodup_nil
  · exact yields_data ho Webhook.yields_read ⟨List.nodup_nil, nofun, nofun⟩
  · exact yields_data ho LeadCapture.yields_read List.nodup_nil

/-- A block of a known kind keeps that kind. -/
theorem kept_of_read? (h : Block.read? kind o = some found) : found.Yields Block.Kept := by
  unfold Block.read? at h
  split at h <;> cases h
  all_goals exact .mapped fun _ _ => trivial

theorem of_knownKind? {tag : String} (h : knownKind? o = some (tag, found)) :
    Block.read? tag o = some found := by
  unfold knownKind? at h
  split at h
  · obtain ⟨_, hread, he⟩ := Option.map_eq_some_iff.mp h
    obtain ⟨rfl, rfl⟩ := Prod.mk.inj he
    exact hread
  · cases h

theorem reads_loose : Reads (object any) fun fs => (Value.object fs).Legible := by
  intro v hv fs hfs
  cases v with
  | object es =>
      rw [object_any] at hfs
      exact Checked.ok.inj hfs ▸ hv
  | _ => exact nomatch hfs

/-- Whatever the kind of a legible node, its block is read as a tidy one. -/
theorem tidy_found (h : (Value.object o).Legible) :
    ((knownKind? o).getD ("unknown", Block.readUnknown o)).2.Yields Block.Tidy := by
  cases hkind : knownKind? o with
  | some entry => exact tidy_of_read? (of_knownKind? hkind) h
  | none =>
      have hempty : (Value.object []).Legible := ⟨⟨List.nodup_nil, trivial⟩, rfl⟩
      exact .seq (.map_any fun _ _ hdata => hdata) (reads_loose.optional h hempty)

/-- The kind that is read is the one that was looked up. -/
theorem unknown_of_required (h : knownKind? o = none) :
    (required o (only "type") text).Yields fun kind => ∀ other, Block.read? kind other = none := by
  intro kind hread
  have hget : (only "type").get? o = o.get? "type" := Option.or_self
  rw [required, hget] at hread
  unfold knownKind? at h
  cases hkind : o.get? "type" with
  | none =>
      rw [hkind] at hread
      cases hread
  | some v =>
      rw [hkind] at hread h
      cases v with
      | text s =>
          cases hread
          exact Block.read?_eq_none (Option.map_eq_none_iff.mp h)
      | _ => cases hread

/-- Whatever the kind of a node, its block keeps it. -/
theorem kept_found :
    ((knownKind? o).getD ("unknown", Block.readUnknown o)).2.Yields Block.Kept := by
  cases hkind : knownKind? o with
  | some entry => exact kept_of_read? (of_knownKind? hkind)
  | none => exact .any (.map (fun _ h _ => h) (unknown_of_required hkind))

/-- A node is read in its parts. -/
theorem Node.ofValue_object (o : Fields) :
    Node.ofValue (.object o) = (Node.mk <$> required o (only "id") text
      <*> optional o (only "position") (object float) []
      <*> ((knownKind? o).getD ("unknown", Block.readUnknown o)).2).under
        ((knownKind? o).getD ("unknown", Block.readUnknown o)).1 := rfl

/-- A legible document is read as a tidy node. -/
theorem reads_node : Reads Node.ofValue Node.Tidy := by
  intro v hv
  cases v with
  | object o =>
      rw [Node.ofValue_object]
      refine .under ?_ _
      exact .seq (.seq (.map_any fun _ _ hposition _ hblock => ⟨hposition, hblock⟩)
        (Reads.object.optional hv List.nodup_nil)) (tidy_found hv)
  | _ => exact .under (.refuse _) _

/-- The block of a node that was read keeps the node's kind. -/
theorem kept_of_node (v : Value) : (Node.ofValue v).Yields fun n => n.block.Kept := by
  cases v with
  | object o =>
      rw [Node.ofValue_object]
      refine .under ?_ _
      exact .seq (.any (.map_any fun _ _ _ hblock => hblock)) kept_found
  | _ => exact .under (.refuse _) _

/-- A legible document is read as a declaration with a legible default value. -/
theorem reads_declaration :
    Reads (block "FlowVariable" Declaration.read) fun d => d.defaultValue.Legible :=
  .block fun h => .any (.seq (.any (.map_any fun _ _ _ hvalue _ => hvalue))
    (Reads.any.optional h Value.legible_null))

/-- A legible document is read as a tidy flow. -/
theorem reads_flow : Reads (block "Flow" read) Tidy := by
  have hone : Number.isTooLong 1 = false := @Number.isTooLong_eq_false 1 1 (by decide) (by decide)
  refine .block fun h =>
    .seq (.seq (.any (.seq ?_ (reads_node.list.optional h (List.forall_mem_nil _))))
    (reads_declaration.list.optional h (List.forall_mem_nil _))) (Reads.int.optional h hone)
  exact .any (.any (.any
      (.any (.any (.any (.map_any fun _ _ _ _ _ _ _ _ hnodes _ _ hdeclarations _ hversion =>
    ⟨hnodes, hdeclarations, hversion⟩))))))

theorem block_of_ofValue {v : Value} {f : Flow} (h : ofValue v = .ok f) :
    block "Flow" read v = .ok f := by
  unfold ofValue at h
  dsimp only at h
  split at h
  · cases h
  · split at h
    · next hread => exact hread.trans (congrArg _ (Except.ok.inj h))
    · cases h

/-- **From a legible document a tidy flow is read.** -/
theorem tidy_of_ofValue {v : Value} {f : Flow} (hv : v.Legible) (h : ofValue v = .ok f) : f.Tidy :=
  reads_flow v hv f (block_of_ofValue h)

/-- Every node that is read has a block of the kind that it states. -/
theorem kept_of_ofValue {v : Value} {f : Flow} (h : ofValue v = .ok f) :
    ∀ n ∈ f.nodes, n.block.Kept := by
  have hread := block_of_ofValue h
  cases v with
  | object o =>
      have hnodes : (optional o (only "nodes") (list Node.ofValue) []).Yields fun ns => ∀ n ∈ ns,
          n.block.Kept := by
        intro ns hns n hn
        rcases of_optional hns with rfl | ⟨v, hv⟩
        · cases hn
        · obtain ⟨w, hw⟩ := of_list hv n hn
          exact kept_of_node w n hw
      have hflow : (read o).Yields fun f => ∀ n ∈ f.nodes, n.block.Kept :=
        .any (.any (.any (.seq (.any (.any (.any (.any (.any (.any (.map_any
          fun _ _ _ _ _ _ _ _ hnodes _ _ _ => hnodes))))))) hnodes)))
      exact hflow f hread
  | _ => exact nomatch hread

end Flow
end Parley
