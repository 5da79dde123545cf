import Parley.Proofs.Requests
import Parley.Proofs.Step.Routing
import Parley.Proofs.Step.Saving
import Parley.Proofs.Turn.Saving

/-!
# Clearing leads

Nodes, and the turns that run them, ask whether a lead is known before they ask for it to be saved.
-/

/-!
## Leads that are cleared before they are saved

A table of leads is to hold no value of a field twice.  The rule `clearing field table` is what each
lead capture does about that: it asks for a lead to be saved in the table only when the last answer
it was given is that the table does not have the lead's value yet.  Values that are empty are not
asked about.

A node keeps to the rule if, being a lead capture that saves in the table, it looks out for
duplicates by the field (`Flow.Node.Guards`, `run_heeds`).
-/

namespace Parley

/-- The value of a lead in a field. -/
def Desk.valueAt (field : String) (lead : Fields) : Value := (lead.get? field).getD .null

/-- A lead capture that saves in the table looks out for duplicates by the field. -/
def Flow.Node.Guards (field table : String) (n : Flow.Node) : Prop :=
  ∀ d, n.block = .leadCapture d → d.saveToDatabase = true → d.databaseTable = table →
    d.validateDuplicates = true ∧ d.duplicateField = field

/-- The value that has been found new, after a request and its answer, if there was one. -/
def Consultation.cleared (field table : String) (m : Option Value) :
    (c : Consultation) → Option c.Answer → Option Value
  | .checkDuplicate v f t, some false => if f = field ∧ t = table then some v else m
  | .saveLead .., _ => none
  | _, _ => m

/-- The lead that the request is to save in the table, if any, has a value that was found new. -/
def Consultation.IsCleared (field table : String) (m : Option Value) : Consultation → Prop
  | .saveLead t lead _ _ => t = table → (Desk.valueAt field lead).isTruthy = true →
      m = some (Desk.valueAt field lead)
  | _ => True

namespace Step

/-- Leads are saved in the table when their value in the field has been found new. -/
def clearing (field table : String) : Program.Rule (Option Value) Op Op.Reply where
  may m
    | .consult c _ => c.IsCleared field table m
    | .sleep _ => True
  notes m
    | .consult c _, reply => c.cleared field table m reply.toOption
    | .sleep _, _ => m

variable {α β : Type} {field table : String} {s : Setting} {id : String} {vars : Fields}
  {m : Option Value}

theorem may_clearing {op : Op} (h : op.savesLead = false) : (clearing field table).may m op := by
  cases op with
  | sleep => trivial
  | consult c bound =>
      cases c with
      | saveLead => cases h
      | _ => trivial

/-! ### Actions -/

/-- The action keeps to the rule, and its value is as `Q` says. -/
def Clears (field table : String) (m : Option Value) (a : Action α) (Q : Option Value → α → Prop) :
    Prop :=
  Program.Heeds (clearing field table) m (fun m r => ∀ x, r = .ok x → Q m x) a.run

/-- What may fail clears nothing. -/
theorem clears_lift {r : Except Fault α} {Q : Option Value → α → Prop}
    (h : ∀ x, r = .ok x → Q m x) : Clears field table m (liftM r) Q := h

/-- A chain clears what its first part has cleared and what its second part does. -/
theorem Clears.bind {a : Action α} {g : α → Action β} {Q : Option Value → β → Prop}
    (h : Clears field table m a fun m x => Clears field table m (g x) Q) :
    Clears field table m (a >>= g) Q := by
  refine Program.Heeds.bind (Program.Heeds.mono h fun m r hr => ?_)
  cases r with
  | ok x => exact hr x rfl
  | error f => exact fun x hx => nomatch hx

/-- What clears up to an end clears up to a weaker one. -/
theorem Clears.mono {a : Action α} {Q Q' : Option Value → α → Prop}
    (h : Clears field table m a Q) (hQ : ∀ m x, Q m x → Q' m x) : Clears field table m a Q' :=
  Program.Heeds.mono h fun m _ hr x hx => hQ m x (hr x hx)

theorem Clears.ite {c : Prop} [Decidable c] {a b : Action α} {Q : Option Value → α → Prop}
    (ha : c → Clears field table m a Q) (hb : ¬ c → Clears field table m b Q) :
    Clears field table m (if c then a else b) Q := by
  split
  · next h => exact ha h
  · next h => exact hb h

theorem clears_needs {present : Bool} {otherwise : String} {Q : Option Value → Unit → Prop}
    (h : Q m ()) : Clears field table m (needs present otherwise) Q :=
  .ite (fun _ => clears_lift fun _ _ => h) fun _ => clears_lift fun _ hx => nomatch hx

/-- An action that saves no lead keeps to the rule. -/
theorem Saves.clears {a : Action α} (h : Saves 0 a) :
    Clears field table m a fun _ _ => True :=
  (Program.AsksAtMost.heeds h fun _ _ => may_clearing).mono fun _ _ _ _ _ => trivial

/-! ### Lead captures -/

/-- A lead that is not known has an empty value, or its value has been found new. -/
theorem isKnown_clears (s : Setting) {d : Flow.LeadCapture} (hv : d.validateDuplicates = true)
    (captured : Fields) :
    Clears d.duplicateField d.databaseTable m (isKnown s d captured) fun m known => known = false →
      (Desk.valueAt d.duplicateField captured).isTruthy = true →
        m = some (Desk.valueAt d.duplicateField captured) := by
  unfold isKnown
  refine .ite (fun _ => ?_) fun hempty => ?_
  · refine .bind (clears_needs ⟨trivial, fun r => ?_⟩)
    rintro _ rfl rfl -
    exact if_pos ⟨rfl, rfl⟩
  · exact clears_lift fun _ _ _ ht => absurd (Bool.and_eq_true_iff.mpr ⟨hv, ht⟩) hempty

/-- A lead with an empty value, or one that has been found new, may be saved. -/
theorem keepLead_clears (d : Flow.LeadCapture) (captured : Fields)
    (hm : d.saveToDatabase = true → d.databaseTable = table →
      (Desk.valueAt field captured).isTruthy = true → m = some (Desk.valueAt field captured)) :
    Clears field table m (keepLead s vars d captured) fun _ _ => True := by
  have hsend : Saves 0 (if (d.sendToWebhook && d.webhookUrl != "") = true then do
      s.consult (.sendLead (← Template.fill d.webhookUrl vars) captured d.leadSource d.autoTags)
      else pure ()) := by
    exact .ite (.lift_bind fun _ => saves_consult rfl) (still_pure _).saves
  have hsave : Clears field table m (if d.saveToDatabase = true then do
      s.consult (.saveLead d.databaseTable captured d.leadSource d.autoTags)
      if (d.sendToWebhook && d.webhookUrl != "") = true then do
        s.consult (.sendLead (← Template.fill d.webhookUrl vars) captured d.leadSource d.autoTags)
        else pure ()
      else if (d.sendToWebhook && d.webhookUrl != "") = true then do
        s.consult (.sendLead (← Template.fill d.webhookUrl vars) captured d.leadSource d.autoTags)
        else pure ()) fun _ _ => True := by
    exact .ite (fun hd => .bind ⟨hm hd, fun _ _ _ => hsend.clears⟩) fun _ => hsend.clears
  exact .ite (fun _ => .bind (clears_needs hsave)) fun _ => hsave

/-- A lead is cleared before it is saved. -/
theorem settleLead_clears (d : Flow.LeadCapture) (captured : Fields)
    (hg : d.saveToDatabase = true → d.databaseTable = table →
      d.validateDuplicates = true ∧ d.duplicateField = field) :
    Clears field table m (settleLead s id vars d captured) fun _ _ => True := by
  have hknown (m : Option Value) : Clears field table m
      (leadKnown s id vars d captured >>= fun e => pure (some e)) fun _ _ => True :=
    (Saves.bind (leadKnown_saves d captured) fun _ => (still_pure _).saves).clears
  have hkeep (m : Option Value) (hm : d.saveToDatabase = true → d.databaseTable = table →
      (Desk.valueAt field captured).isTruthy = true → m = some (Desk.valueAt field captured)) :
      Clears field table m
        (keepLead s vars d captured >>= fun _ => (pure none : Action (Option Effect)))
        fun _ _ => True :=
    .bind ((keepLead_clears d captured hm).mono fun _ _ _ => clears_lift fun _ _ => trivial)
  by_cases hd : d.saveToDatabase = true ∧ d.databaseTable = table
  · obtain ⟨hsave, rfl⟩ := hd
    obtain ⟨hv, rfl⟩ := hg hsave rfl
    refine .bind ((isKnown_clears s hv captured).mono fun m known hm => ?_)
    cases known with
    | true => exact hknown m
    | false => exact hkeep m fun _ _ => hm rfl
  · refine .bind ((isKnown_saves d captured).clears.mono fun m known _ => ?_)
    cases known with
    | true => exact hknown m
    | false => exact hkeep m fun hsave ht => absurd ⟨hsave, ht⟩ hd

/-- So it is at the end of a capture. -/
theorem finishLead_clears (d : Flow.LeadCapture) (captured : Fields)
    (hg : d.saveToDatabase = true → d.databaseTable = table →
      d.validateDuplicates = true ∧ d.duplicateField = field) :
    Clears field table m (finishLead s id vars d captured) fun _ _ => True := by
  unfold Clears
  rw [finishLead_run]
  refine Program.Heeds.bind (Program.Heeds.mono (settleLead_clears d captured hg) fun m r _ => ?_)
  rcases r with f | known | e <;> exact fun _ _ => trivial

theorem runLeadCapture_clears (d : Flow.LeadCapture) (answer : Option String)
    (hg : d.saveToDatabase = true → d.databaseTable = table →
      d.validateDuplicates = true ∧ d.duplicateField = field) :
    Clears field table m (runLeadCapture s id vars d answer) fun _ _ => True := by
  rcases runLeadCapture_settling d answer with h | ⟨captured, h⟩
  · exact h.saves.clears
  · rw [h]
    exact finishLead_clears d captured hg

/-- **A node keeps to the rule** of the table. -/
theorem run_heeds {n : Flow.Node} (hg : n.Guards field table) (session : Session)
    (answer : Option String) :
    (run s n session answer).Heeds (clearing field table) m fun _ _ => True := by
  have h : Clears field table m (effectOf s n session (givenAnswer answer)) fun _ _ => True := by
    by_cases hn : ∃ d, n.block = .leadCapture d
    · obtain ⟨d, hd⟩ := hn
      unfold effectOf
      rw [hd]
      exact runLeadCapture_clears d _ (hg d hd)
    · exact (effectOf_saves (not_exists.mp hn)).clears
  exact Program.Heeds.bind (Program.Heeds.mono h fun _ _ _ => trivial)

end Step
end Parley

/-!
## Turns that clear their leads

A turn keeps to the rule `clearing field table` when the lead captures of its flow do
(`run_heeds_clearing`).  It saves a lead only at the first node it comes to, and where a request is
not answered, for an interruption or a failure, nothing has been found new.
-/

namespace Parley.Turn

variable {α : Type} {field table : String} {m : Option Value}

/-- The answer to a request, if there was one. -/
def told {A : Type} : Except Interruption (Except Parley.Fault A) → Option A
  | .ok (.ok a) => some a
  | _ => none

/-- Leads are saved in the table when their value in the field has been found new. -/
def clearing (field table : String) : Program.Rule (Option Value) Op Op.Reply where
  may m
    | .act (.consult c _) _ => c.IsCleared field table m
    | _ => True
  notes m
    | .act (.consult c _) _, reply => c.cleared field table m (told reply)
    | _, _ => m

theorem may_clearing {op : Op} (h : op.savesLead = false) : (clearing field table).may m op := by
  cases op with
  | act op deadline =>
      cases op with
      | sleep => trivial
      | consult c bound => exact Step.may_clearing h
  | _ => trivial

/-- A step under a deadline clears as the step does. -/
theorem guarded_heeds {deadline : Option Rat} {p : Step.StepProgram α} {Q : Option Value → α → Prop}
    (h : p.Heeds (Step.clearing field table) m Q) :
    (guarded deadline p).Heeds (clearing field table) m fun _ _ => True := by
  induction p generalizing m with
  | done a => trivial
  | request op next ih =>
      rw [guarded]
      cases op with
      | sleep seconds =>
          refine ⟨trivial, fun r => ?_⟩
          cases r with
          | error i => trivial
          | ok r => exact ih r (h.2 r)
      | consult c bound =>
          refine ⟨h.1, fun r => ?_⟩
          cases r with
          | error i => trivial
          | ok r =>
              have hr := ih r (h.2 r)
              cases r <;> exact hr

/-- A node that guards the table is run so that leads are cleared before they are saved. -/
theorem step_heeds {f : Frame} {session : Session} {n : Flow.Node} {answer : Option String}
    (hg : n.Guards field table) :
    (step f session n answer).Heeds (clearing field table) m fun _ _ => True := by
  refine .bind ((guarded_heeds (Step.run_heeds hg session answer)).mono fun m r _ => ?_)
  cases r with
  | error i => trivial
  | ok o =>
      refine ⟨trivial, fun left => ?_⟩
      cases left <;> trivial

/-- So is every node of a tour. -/
theorem travel_heeds {f : Frame} {left : Nat} {w : Walk} {n : Flow.Node} {resumed : Bool}
    {answer : Option String} (hg : n.Guards field table) :
    (travel f left w n resumed answer).Heeds (clearing field table) m fun _ _ => True := by
  cases left with
  | zero => trivial
  | succ left =>
      refine ⟨trivial, fun entry => ?_⟩
      cases entry with
      | abandoned | cancelled => trivial
      | go =>
          refine .bind ((step_heeds hg).mono fun m r _ => ?_)
          cases r with
          | error i => trivial
          | ok o =>
              dsimp only
              split
              · trivial
              · exact .bind ((travel_saves_nothing.heeds fun _ _ => may_clearing).mono
                  fun _ _ _ => trivial)

/-- **A turn keeps to the rule** of a table, if the lead captures of its flow do. -/
theorem run_heeds_clearing {setting : Step.Setting}
    (hg : ∀ n ∈ setting.flow.nodes, n.Guards field table) (now : Calendar.Moment)
    (session : Session) (message : Option String) (timeout : Option Binary64) :
    (run setting now session message timeout).Heeds (clearing field table) m fun _ _ => True := by
  rw [run_eq_tour]
  refine .bind ⟨trivial, fun start => ?_⟩
  dsimp only
  split
  · trivial
  · split
    · trivial
    · next he => exact travel_heeds (hg _ (enters_of_entry he).mem_nodes)

end Parley.Turn
