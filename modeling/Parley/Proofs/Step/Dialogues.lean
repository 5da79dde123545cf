import Parley.Proofs.Step.Prompt
import Parley.Proofs.Value.Entries

/-!
# Dialogues kept in the variables

A lead capture and a contract search may take several messages, and what they have come to is kept
in variables of the session.  `Dialogue` is what the two have in common: the nodes that lead such a
dialogue, the variables that it is kept in, the one of them that names the node whose dialogue it
is, and whether the dialogue of a node is open.

A step at a node that leads the dialogue opens it at that node, closes it at every node, or leaves
it as it stands, and which of the three can be told from its effect: whether it writes the owner,
and whether it waits (`Dialogue.Turns`).  That is so for captures (`capture_lawful`) and for
selections (`selection_lawful`), as long as what others have written does not interfere
(`Dialogue.Sound`).
-/

namespace Parley.Step

open Template (fill)

/-- The step waits for an answer. -/
def Effect.waits (e : Effect) : Bool :=
  match e.course with
  | .wait => true
  | _ => false

theorem Effect.waits_eq_true_iff {e : Effect} : e.waits = true ↔ e.course = .wait := by
  unfold Effect.waits
  cases e.course <;> simp

theorem Effect.waits_eq_false_iff {e : Effect} : e.waits = false ↔ e.course ≠ .wait := by
  rw [Ne, ← waits_eq_true_iff, Bool.not_eq_true]

/-- A dialogue over several messages that nodes of a kind lead. -/
structure Dialogue where
  /-- The node leads such a dialogue. -/
  leads : Flow.Node → Bool
  /-- The variable that names the node whose dialogue it is. -/
  owner : String
  /-- The variables in which it is kept. -/
  names : List String
  /-- The dialogue of the node is open. -/
  isOpen : Fields → String → Bool
  /-- Only nodes that lead such a dialogue have written its variables. -/
  Sound : Fields → Prop

namespace Dialogue

/-- What a step at a node that leads the dialogue does to it. -/
inductive Turns (k : Dialogue) (id : String) (vars : Fields) (e : Effect) : Prop where
  | opens (ho : e.changes.has k.owner = true) (hw : e.waits = true)
      (h : ∀ other, k.isOpen (vars.update e.changes) other = true ↔ other = id)
  | closes (ho : e.changes.has k.owner = true) (hw : e.waits = false)
      (h : ∀ other, k.isOpen (vars.update e.changes) other = false)
  | stays (ho : e.changes.has k.owner = false)
      (h : ∀ other, k.isOpen (vars.update e.changes) other = k.isOpen vars other)

/-- What is asked of a dialogue: it depends on its variables alone, which are none of those that
turns and hand-offs write; where they have no value it is not open; and a step of its nodes turns it
one way or the other. -/
structure Lawful (k : Dialogue) : Prop where
  free : "last_user_message" ∉ k.names ∧ "handoff_ticket_id" ∉ k.names
  isOpen_congr {vars vars' : Fields} (h : ∀ name ∈ k.names, vars'.get? name = vars.get? name)
    (id : String) : k.isOpen vars' id = k.isOpen vars id
  sound_congr {vars vars' : Fields} (h : ∀ name ∈ k.names, vars'.get? name = vars.get? name)
    (hs : k.Sound vars) : k.Sound vars'
  closed {vars : Fields} (h : ∀ name ∈ k.names, vars.get? name = none) (id : String) :
    k.isOpen vars id = false
  sound {vars : Fields} (h : ∀ name ∈ k.names, vars.get? name = none) : k.Sound vars
  turns {s : Setting} {n : Flow.Node} {session : Session} {answer : Option String} {e : Effect}
    (hn : k.leads n = true) (hs : k.Sound session.vars)
    (h : (run s n session answer).Ends (.done e)) :
    k.Turns n.id session.vars e ∧ k.Sound (session.vars.update e.changes)

end Dialogue

variable {s : Setting} {id : String} {vars : Fields}

/-! ### Captures -/

/-- All the values are texts. -/
def AllTexts (fields : Fields) : Prop := ∀ e ∈ fields, ∃ t, e.2 = .text t

/-- Entries stay texts when a text is put. -/
theorem AllTexts.put {fields : Fields} (h : AllTexts fields) (name answer : String) :
    AllTexts (fields.put name (.text answer)) := by
  intro e he
  rcases Entries.mem_of_mem_put he with he | rfl
  · exact h e he
  · exact ⟨answer, rfl⟩

/-- What has been captured so far is texts. -/
def CaptureSound (vars : Fields) : Prop :=
  ∀ fields, vars.get? "lead_capture_data" = some (.object fields) → AllTexts fields

/-- The capture of a lead, field by field. -/
def capture : Dialogue where
  leads n := match n.block with
    | .leadCapture _ => true
    | _ => false
  owner := "lead_capture_node"
  names := ["lead_capture_node", "lead_capture_index", "lead_capture_data"]
  isOpen vars id := (cursor? id vars).isSome
  Sound := CaptureSound

/-- A capture is open at the node that owns it when the cursor is a number. -/
theorem capture_isOpen_iff {vars : Fields} {id : String} :
    capture.isOpen vars id = true ↔ ∃ node, vars.get? "lead_capture_node" = some node ∧
      node.same (.text id) = true ∧
      ((vars.get? "lead_capture_index").bind Value.asWhole?).isSome := by
  unfold capture cursor?
  dsimp only
  cases vars.get? "lead_capture_node" with
  | none => simp
  | some node =>
      cases (vars.get? "lead_capture_index").bind Value.asWhole? with
      | none => simp
      | some i => by_cases hs : node.same (.text id) = true <;> simp [hs]

/-- What was captured so far are texts, where the capture is sound. -/
theorem capturedSoFar_texts {captured : Fields} (hs : CaptureSound vars)
    (h : capturedSoFar vars = .ok captured) : AllTexts captured := by
  have hnil : AllTexts [] := nofun
  unfold capturedSoFar at h
  split at h
  · cases h
    exact hnil
  · next v hv =>
    split at h
    · cases h
      exact hnil
    · split at h
      · cases h
        exact hs _ hv
      · cases h

/-- What a step of a lead capture changes. -/
inductive Captures (id : String) (vars : Fields) (e : Effect) : Prop where
  | begins (field : String) (ho : cursor? id vars = none) (hw : e.course = .wait)
      (h : e.changes = [("lead_capture_node", .text id), ("lead_capture_index", .int 0),
        ("lead_capture_data", .object []), ("lead_capture_field", .text field)])
  | repeats (ho : (cursor? id vars).isSome) (hw : e.course = .wait) (h : e.changes = [])
  | advances (i : Int) (captured : Fields) (field : String) (ho : (cursor? id vars).isSome)
      (hw : e.course = .wait) (ht : CaptureSound vars → AllTexts captured)
      (h : e.changes = [("lead_capture_index", .int i), ("lead_capture_data", .object captured),
        ("lead_capture_field", .text field)])
  | closes (hw : e.course ≠ .wait) (ho : e.changes.has "lead_capture_node" = true)
      (hn : e.changes.names.Nodup)
      (hi : CaptureSound vars → ∃ v, e.changes.get? "lead_capture_index" = some v ∧
        v.asWhole? = none)
      (hd : CaptureSound vars → ∀ v, e.changes.get? "lead_capture_data" = some v → ∃ t, v = .text t)

/-- A capture ends with a lead that is known, saved, or could not be saved. -/
theorem gives_finishLead {d : Flow.LeadCapture} {captured : Fields} {e : Effect}
    (h : Gives (finishLead s id vars d captured) e) :
    Gives (leadKnown s id vars d captured) e ∨ leadSaved s id vars d captured = .ok e ∨
      ∃ f, leadFailed s id vars d captured f = .ok e := by
  obtain ⟨settled, hs, h⟩ := gives_bind.mp h
  rcases settled with f | known | known
  · exact .inr (.inr ⟨f, gives_lift.mp h⟩)
  · exact .inr (.inl (gives_lift.mp h))
  · obtain rfl := gives_pure.mp h
    refine .inl ?_
    rcases gives_tryCatch.mp hs with hs | ⟨f, -, hs⟩
    · obtain ⟨r, hr, hs⟩ := gives_bind.mp hs
      obtain rfl := Except.ok.inj (gives_pure.mp hs)
      obtain ⟨known, -, hr⟩ := gives_bind.mp hr
      cases known with
      | true =>
          obtain ⟨e', he', hr⟩ := gives_bind.mp hr
          obtain rfl := Option.some.inj (gives_pure.mp hr)
          exact he'
      | false =>
          obtain ⟨_, -, hr⟩ := gives_bind.mp hr
          cases gives_pure.mp hr
    · cases gives_pure.mp hs

/-- The changes of a lead that was saved: a captured field may have any name, but its value is text.
-/
theorem leadSaved_captures {d : Flow.LeadCapture} {captured : Fields} {e : Effect}
    (hw : e.course ≠ .wait) (ht : CaptureSound vars → AllTexts captured)
    (h : leadSaved s id vars d captured = .ok e) : Captures id vars e := by
  obtain ⟨said, -, h⟩ := bind_eq_ok.mp h
  obtain ⟨course, -, h⟩ := bind_eq_ok.mp h
  obtain rfl := pure_eq_ok.mp h
  let named : Fields := captured.map fun e => ("lead_" ++ e.1, e.2)
  let reset : Fields := Entries.put leadReset "lead_data" (.object captured)
  let kept : Fields := reset.update named
  have hreset : reset.names.Nodup := Entries.nodup_names_put (by decide) _ _
  have hkept : kept.names.Nodup := Entries.nodup_names_update hreset named
  have hget (name : String) (hname : name ≠ "lead_is_duplicate" ∧ name ≠ "lead_saved") :
      (kept.update [("lead_is_duplicate", .bool false), ("lead_saved", .bool true)]).get? name =
        kept.get? name :=
    Entries.get?_update_of_notMem (by simp [Entries.names, hname])
  -- what the reset wrote, or a field that was captured
  have hread {name : String} {v : Value} (hname : name ≠ "lead_data") (hs : CaptureSound vars)
      (hv : kept.get? name = some v) : Entries.get? leadReset name = some v ∨ ∃ t, v = .text t := by
    rcases Entries.of_get?_update hv with hv | hv
    · obtain ⟨f, hf, heq⟩ := List.mem_map.mp hv
      obtain ⟨t, hft⟩ := ht hs f hf
      exact .inr ⟨t, by rw [← hft]; exact (congrArg Prod.snd heq).symm⟩
    · rw [Entries.get?_put, if_neg hname.symm] at hv
      exact .inl hv
  have hmem {name : String} (hname : name ∈ Entries.names leadReset) :
      ∃ v, kept.get? name = some v := by
    refine Option.isSome_iff_exists.mp ?_
    rw [Entries.get?_update]
    cases named.reverse.find? (·.1 == name) with
    | some p => rfl
    | none =>
        rw [Option.map_none, Option.none_or, Entries.get?_put]
        split
        · rfl
        · exact Entries.has_eq_true_iff.mpr hname
  refine .closes hw ?_ (Entries.nodup_names_update hkept _) (fun hs => ?_) fun hs v hv => ?_
  · obtain ⟨v, hv⟩ := @hmem "lead_capture_node" (by decide)
    refine Option.isSome_iff_exists.mpr ⟨v, ?_⟩
    rw [← hv]
    exact hget _ (by decide)
  · obtain ⟨v, hv⟩ := @hmem "lead_capture_index" (by decide)
    refine ⟨v, (hget _ (by decide)).trans hv, ?_⟩
    rcases hread (by decide) hs hv with hr | ⟨t, rfl⟩
    · obtain rfl : Value.null = v := by simpa [leadReset, Entries.get?] using hr
      rfl
    · rfl
  · rcases hread (by decide) hs ((hget "lead_capture_data" (by decide)).symm.trans hv) with hr | hr
    · simp [leadReset, Entries.get?] at hr
    · exact hr

/-- The changes of a lead that is known already, or that could not be kept. -/
theorem reset_captures {e : Effect} {data extra : Value} {name : String} (hw : e.course ≠ .wait)
    (hname : name = "lead_is_duplicate" ∨ name = "lead_error")
    (h : e.changes = leadReset ++ [("lead_data", data), (name, extra)]) : Captures id vars e := by
  refine .closes hw ?_ ?_ (fun _ => ⟨.null, ?_, rfl⟩) fun _ v hv => ?_
  · rw [h]
    rfl
  · rw [h]
    rcases hname with rfl | rfl <;> simp [Entries.names, leadReset]
  · rw [h]
    rfl
  · rw [h] at hv
    rcases hname with rfl | rfl <;> simp [leadReset, Entries.get?] at hv

/-- The end of a capture changes what a step of a capture may. -/
theorem finishLead_captures {d : Flow.LeadCapture} {captured : Fields} {e : Effect}
    (ht : CaptureSound vars → AllTexts captured) (h : Gives (finishLead s id vars d captured) e) :
    Captures id vars e := by
  have hw := finishLead_moves d captured e h
  rcases gives_finishLead h with h | h | ⟨f, h⟩
  · obtain ⟨said, -, h⟩ := gives_bind.mp h
    obtain ⟨course, -, h⟩ := gives_bind.mp h
    obtain rfl := gives_pure.mp h
    exact reset_captures hw (.inl rfl) rfl
  · exact leadSaved_captures hw ht h
  · obtain ⟨said, -, h⟩ := bind_eq_ok.mp h
    obtain ⟨course, -, h⟩ := bind_eq_ok.mp h
    obtain rfl := pure_eq_ok.mp h
    exact reset_captures hw (.inr rfl) rfl

/-- A lead capture changes what a step of a capture may. -/
theorem runLeadCapture_captures {d : Flow.LeadCapture} {answer : Option String} {e : Effect}
    (h : Gives (runLeadCapture s id vars d answer) e) : Captures id vars e := by
  unfold runLeadCapture at h
  split at h
  · exact absurd h gives_throw
  · next first rest _ =>
    dsimp only at h
    split at h
    · next hc =>
      obtain ⟨question, -, h⟩ := bind_eq_ok.mp (gives_lift.mp h)
      obtain ⟨intro, -, h⟩ := bind_eq_ok.mp h
      obtain rfl := pure_eq_ok.mp h
      exact .begins first hc rfl rfl
    · next i hc =>
      -- the capture is open, so it asks again, goes on to the next field or is finished
      have ho : (cursor? id vars).isSome := Option.isSome_iff_exists.mpr ⟨i, hc⟩
      split at h
      · obtain ⟨_, h, -⟩ := gives_bind.mp h
        exact absurd h gives_throw
      · obtain ⟨field, -, h⟩ := gives_bind.mp h
        obtain ⟨question, -, h⟩ := gives_bind.mp h
        cases answer with
        | none =>
            obtain rfl := gives_pure.mp h
            exact .repeats ho rfl rfl
        | some a =>
            unfold answerLead at h
            dsimp only at h
            split at h
            · obtain rfl := gives_pure.mp h
              exact .repeats ho rfl rfl
            · obtain ⟨soFar, hs, h⟩ := gives_bind.mp h
              have ht (hsound : CaptureSound vars) : AllTexts (soFar.put field (.text a)) :=
                (capturedSoFar_texts hsound (gives_lift.mp hs)).put field a
              split at h
              · obtain ⟨next, -, h⟩ := gives_bind.mp h
                obtain ⟨question', -, h⟩ := gives_bind.mp h
                obtain rfl := gives_pure.mp h
                exact .advances _ _ next ho rfl ht rfl
              · exact finishLead_captures ht h

/-- A step of a lead capture turns its capture one way or the other. -/
theorem Captures.turns {e : Effect} (h : Captures id vars e) (hs : CaptureSound vars) :
    capture.Turns id vars e ∧ CaptureSound (vars.update e.changes) := by
  cases h with
  | begins field ho hw h =>
      refine ⟨.opens (by rw [h]; rfl) (Effect.waits_eq_true_iff.mpr hw) fun other => ?_, ?_⟩
      · rw [capture_isOpen_iff, h]
        simp only [Entries.update, List.foldl, Entries.get?_put]
        simpa [Value.same, Value.asWhole?] using eq_comm
      · intro fields hf
        rw [h] at hf
        obtain rfl : [] = fields := by simpa [Entries.update, Entries.get?_put] using hf
        exact fun _ h => absurd h List.not_mem_nil
  | repeats ho hw h => exact ⟨.stays (by rw [h]; rfl) fun other => by rw [h]; rfl, h ▸ hs⟩
  | advances i captured field ho hw ht h =>
      refine ⟨.stays (by rw [h]; rfl) fun other => ?_, ?_⟩
      -- the cursor was a number and is one
      · obtain ⟨-, -, -, hi⟩ := capture_isOpen_iff.mp ho
        rw [Bool.eq_iff_iff, capture_isOpen_iff, capture_isOpen_iff, h]
        simp [Entries.update, Entries.get?_put, Value.asWhole?, hi]
      · intro fields hf
        rw [h] at hf
        obtain rfl : captured = fields := by simpa [Entries.update, Entries.get?_put] using hf
        exact ht hs
  | closes hw ho hn hi hd =>
      refine ⟨.closes ho (Effect.waits_eq_false_iff.mpr hw) fun other => ?_, fun fields hf => ?_⟩
      · obtain ⟨v, hv, hwhole⟩ := hi hs
        rw [Bool.eq_false_iff, Ne, capture_isOpen_iff,
          Entries.get?_update_of_nodup hn _ "lead_capture_index", hv]
        simp [hwhole]
      · rw [Entries.get?_update_of_nodup hn] at hf
        cases hv : e.changes.get? "lead_capture_data" with
        | none =>
            rw [hv] at hf
            exact hs fields hf
        | some v =>
            obtain ⟨t, rfl⟩ := hd hs v hv
            simp [hv] at hf

/-- Captures obey the laws of dialogues. -/
theorem capture_lawful : capture.Lawful where
  free := by decide
  isOpen_congr h id := by
    show (cursor? _ _).isSome = (cursor? _ _).isSome
    unfold cursor?
    rw [h "lead_capture_node" (by decide), h "lead_capture_index" (by decide)]
  sound_congr h hs fields hf := hs fields ((h "lead_capture_data" (by decide)) ▸ hf)
  closed h id := by
    rw [Bool.eq_false_iff, Ne, capture_isOpen_iff, h "lead_capture_node" (by decide)]
    simp
  sound h fields hf := by
    rw [h "lead_capture_data" (by decide)] at hf
    cases hf
  turns := by
    intro s n session answer e hn hs h
    replace h := run_gives h
    unfold effectOf at h
    unfold capture at hn
    dsimp only at hn h
    cases hb : n.block with
    | leadCapture d =>
        rw [hb] at h
        exact (runLeadCapture_captures h).turns hs
    | _ => simp [hb] at hn

/-! ### Selections -/

/-- The selection of a contract among several. -/
def selection : Dialogue where
  leads n := match n.block with
    | .contractSearch _ => true
    | _ => false
  owner := "identify_contract_node"
  names := ["identify_contract_node", "pending_contracts"]
  isOpen vars id := (pending? id vars).isSome
  Sound _ := True

/-- A selection is open at the node that owns it when contracts wait. -/
theorem selection_isOpen_iff {vars : Fields} {id : String} :
    selection.isOpen vars id = true ↔ ∃ contracts node,
      vars.get? "pending_contracts" = some contracts ∧ contracts.isTruthy = true ∧
      vars.get? "identify_contract_node" = some node ∧ node.same (.text id) = true := by
  unfold selection pending?
  dsimp only
  cases vars.get? "pending_contracts" with
  | none => simp
  | some contracts =>
      cases vars.get? "identify_contract_node" with
      | none => simp
      | some node =>
          cases contracts.isTruthy <;> cases node.same (.text id) <;> simp

/-- What a step of a contract search changes. -/
inductive Selects (id : String) (e : Effect) : Prop where
  | asks (contracts : Value) (ht : contracts.isTruthy = true) (hw : e.course = .wait)
      (h : e.changes = [("pending_contracts", contracts), ("identify_contract_node", .text id)])
  | finds (hw : e.course ≠ .wait) (ho : e.changes.has "identify_contract_node" = true)
      (hn : e.changes.names.Nodup) (hp : e.changes.get? "pending_contracts" = some .null)
  | leaves (ho : "identify_contract_node" ∉ e.changes.names)
      (hp : "pending_contracts" ∉ e.changes.names)

theorem contractFound_selects {d : Flow.ContractSearch} {contract : Value} {count : Nat}
    {e : Effect} (h : contractFound s id d contract count = .ok e) : Selects id e := by
  have hw := contractFound_moves d contract count e (gives_lift.mpr h)
  obtain ⟨fields, -, h⟩ := bind_eq_ok.mp h
  obtain ⟨course, -, h⟩ := bind_eq_ok.mp h
  obtain rfl := pure_eq_ok.mp h
  refine .finds hw ?_ (Entries.nodup_names_update (Entries.nodup_names_ofPairs _) _) ?_
  · rw [Entries.has]
    simp only [Entries.update, List.foldl, Entries.get?_put]
    simp
  · simp only [Entries.update, List.foldl, Entries.get?_put]
    simp

/-- An answer chooses one of the contracts that wait, or the list is shown again. -/
theorem chooseContract_cases {d : Flow.ContractSearch} {message : String} {waiting : Value}
    {answer : Option String} {e : Effect}
    (h : chooseContract s id d message waiting answer = .ok e) :
    e.changes = [] ∨ ∃ item count, contractFound s id d item count = .ok e := by
  rw [chooseContract_eq] at h
  obtain ⟨chosen, -, h⟩ := bind_eq_ok.mp h
  cases chosen with
  | none =>
      obtain ⟨list, -, h⟩ := bind_eq_ok.mp h
      obtain rfl := pure_eq_ok.mp h
      exact .inl rfl
  | some i =>
      obtain ⟨item, -, h⟩ := bind_eq_ok.mp h
      obtain ⟨count, -, h⟩ := bind_eq_ok.mp h
      exact .inr ⟨item, count, h⟩

/-- An answer to a selection changes what a step of a search may. -/
theorem chooseContract_selects {d : Flow.ContractSearch} {message : String} {waiting : Value}
    {answer : Option String} {e : Effect}
    (h : chooseContract s id d message waiting answer = .ok e) : Selects id e := by
  rcases chooseContract_cases h with h | ⟨item, count, h⟩
  · exact .leaves (by simp [h, Entries.names]) (by simp [h, Entries.names])
  · exact contractFound_selects h

theorem settleSearch_selects {d : Flow.ContractSearch} {message : String} {contracts : Value}
    {e : Effect} (h : settleSearch s id vars d message contracts = .ok e) : Selects id e := by
  unfold settleSearch at h
  split at h
  · obtain ⟨said, -, h⟩ := bind_eq_ok.mp h
    obtain ⟨course, -, h⟩ := bind_eq_ok.mp h
    obtain rfl := pure_eq_ok.mp h
    exact .leaves (by simp [Entries.names]) (by simp [Entries.names])
  · next ht =>
    obtain ⟨count, -, h⟩ := bind_eq_ok.mp h
    split at h
    · obtain ⟨list, -, h⟩ := bind_eq_ok.mp h
      obtain rfl := pure_eq_ok.mp h
      exact .asks contracts (by simpa using ht) rfl rfl
    · obtain ⟨item, -, h⟩ := bind_eq_ok.mp h
      exact contractFound_selects h

/-- A search for a contract changes what a step of a search may. -/
theorem runContractSearch_selects {contact : Contact} {d : Flow.ContractSearch}
    {answer : Option String} {e : Effect}
    (h : Gives (runContractSearch s id vars contact d answer) e) : Selects id e := by
  obtain ⟨message, -, h⟩ := gives_bind.mp h
  split at h
  · exact chooseContract_selects (gives_lift.mp h)
  · obtain ⟨value, -, h⟩ := gives_bind.mp h
    obtain ⟨contracts, -, h⟩ := gives_bind.mp h
    exact settleSearch_selects (gives_lift.mp h)

/-- A step of a contract search turns its selection one way or the other. -/
theorem Selects.turns {e : Effect} (h : Selects id e) (vars : Fields) :
    selection.Turns id vars e := by
  cases h with
  | asks contracts ht hw h =>
      refine .opens (by rw [h]; rfl) (Effect.waits_eq_true_iff.mpr hw) fun other => ?_
      rw [selection_isOpen_iff, h]
      simp only [Entries.update, List.foldl, Entries.get?_put]
      simpa [Value.same, ht] using eq_comm
  | finds hw ho hn hp =>
      refine .closes ho (Effect.waits_eq_false_iff.mpr hw) fun other => ?_
      rw [Bool.eq_false_iff, Ne, selection_isOpen_iff,
        Entries.get?_update_of_nodup hn _ "pending_contracts", hp]
      simp [Value.isTruthy]
  | leaves ho hp =>
      refine .stays (Entries.has_eq_false_iff.mpr ho) fun other => ?_
      rw [Bool.eq_iff_iff, selection_isOpen_iff, selection_isOpen_iff,
        Entries.get?_update_of_notMem ho, Entries.get?_update_of_notMem hp]

/-- Selections obey the laws of dialogues. -/
theorem selection_lawful : selection.Lawful where
  free := by decide
  isOpen_congr h id := by
    show (pending? _ _).isSome = (pending? _ _).isSome
    unfold pending?
    rw [h "identify_contract_node" (by decide), h "pending_contracts" (by decide)]
  sound_congr _ _ := trivial
  closed h id := by
    rw [Bool.eq_false_iff, Ne, selection_isOpen_iff, h "pending_contracts" (by decide)]
    simp
  sound _ := trivial
  turns := by
    intro s n session answer e hn _ h
    replace h := run_gives h
    unfold effectOf at h
    unfold selection at hn
    dsimp only at hn h
    cases hb : n.block with
    | contractSearch d =>
        rw [hb] at h
        exact ⟨(runContractSearch_selects h).turns _, trivial⟩
    | _ => simp [hb] at hn

/-! ### Beginning, and going on -/

variable {n : Flow.Node} {session : Session} {answer : Option String}

/-- **A lead capture whose dialogue is not open begins**, whatever it is handed. -/
theorem run_of_capture_closed {d : Flow.LeadCapture} {field : String} {rest : List String}
    (hn : n.block = .leadCapture d) (hd : d.enabledFields = field :: rest)
    (h : capture.isOpen session.vars n.id = false) :
    run s n session answer = .done (.ofResult (beginLead n.id session.vars d field)) := by
  have hc : cursor? n.id session.vars = none := by
    simpa [capture, Option.isSome_eq_false_iff] using h
  unfold run effectOf
  rw [hn]
  dsimp only
  unfold runLeadCapture
  rw [hd]
  dsimp only
  rw [hc]
  rfl

/-- A lead capture whose dialogue is open does not begin it: no step of it that waits names the
owner. -/
theorem not_owns_of_capture_open {e : Effect} (hn : capture.leads n = true)
    (h : capture.isOpen session.vars n.id = true) (hr : (run s n session answer).Ends (.done e))
    (hw : e.waits = true) : e.changes.has "lead_capture_node" = false := by
  replace hr := run_gives hr
  unfold effectOf at hr
  unfold capture at hn
  dsimp only at hn hr
  cases hb : n.block with
  | leadCapture d =>
      rw [hb] at hr
      cases runLeadCapture_captures hr with
      | begins field ho =>
          have hsome : (cursor? n.id session.vars).isSome = true := h
          rw [ho] at hsome
          cases hsome
      | repeats _ _ h => rw [h]; rfl
      | advances _ _ _ _ _ _ h => rw [h]; rfl
      | closes hc => exact absurd (Effect.waits_eq_true_iff.mp hw) hc
  | _ => simp [hb] at hn

/-- **A contract search whose selection is not open looks contracts up**, whatever it is handed. -/
theorem run_of_selection_closed {d : Flow.ContractSearch} {message value : String}
    (hn : n.block = .contractSearch d) (hm : fill d.selectionMessage session.vars = .ok message)
    (hl : lookupValue session.vars session.contact d = .ok value) (hv : value ≠ "")
    (hb : s.team.backend = true) (h : selection.isOpen session.vars n.id = false) :
    ∃ next, run s n session answer =
      .request (.consult (.findContracts d.identifyBy value) s.policy.callBound) next := by
  have hp : pending? n.id session.vars = none := by
    simpa [selection, Option.isSome_eq_false_iff] using h
  have hf : findContracts s d value =
      tryCatch (s.consult (.findContracts d.identifyBy value)) fun f =>
        throw (.stated ("contract lookup failed: " ++ f.message)) := by
    unfold findContracts
    rw [if_neg hv, hb]
    rfl
  unfold run effectOf
  rw [hn]
  dsimp only
  unfold runContractSearch
  rw [hm, hp, hl]
  change ∃ next, (ExceptT.run (findContracts s d value >>= fun contracts =>
    liftM (settleSearch s n.id session.vars d message contracts))).bind _ = _
  rw [hf]
  exact ⟨_, rfl⟩

/-- A contract search whose selection is open asks the back office nothing. -/
theorem quiet_of_selection_open {d : Flow.ContractSearch} (hn : n.block = .contractSearch d)
    (h : selection.isOpen session.vars n.id = true) : (run s n session answer).Quiet := by
  obtain ⟨waiting, hw⟩ := Option.isSome_iff_exists.mp h
  refine run_quiet ?_
  unfold effectOf
  rw [hn]
  dsimp only
  unfold runContractSearch
  rw [hw]
  exact (still_lift _).bind fun _ => still_lift _

end Parley.Step
