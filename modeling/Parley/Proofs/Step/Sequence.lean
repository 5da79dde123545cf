import Parley.Proofs.Step.Replies
import Parley.Proofs.Step.Saving

/-!
# Lead captures, field by field

Where a capture stands is told by the replies that were accepted so far: there is one for each field
before the one that is asked for now, and the cursor, the field and the lead in the variables are
what they make them (`Stage`).  Before the capture has begun there are none, which is another thing
than that none was accepted yet (`Standing`).

`served_of_stage` is all that a step can do from a stage, as a program.  What is to be known of a
step is read off it: the stage that it leaves, the question that it puts, what it asks of the
collaborators, and that its cursor is within the fields (`Orderly`, `orderly_of_standing`).
-/

namespace Parley

/-! ### What cannot be shown -/

/-- What fails, fails for a whole number that is too long to write. -/
def FailsOnLength {α : Type} (r : Except Fault α) : Prop := ∀ f, r = .error f → f = .tooLongToWrite

theorem failsOnLength_ok {α : Type} (x : α) : FailsOnLength (.ok x) := nofun

/-- What fails because a number is too long fails on length only. -/
theorem failsOnLength_ite {α : Type} (c : Bool) (x : α) :
    FailsOnLength (if c = true then .error .tooLongToWrite else .ok x) := by
  cases c with
  | true => exact fun f h => (Except.error.inj h).symm
  | false => exact failsOnLength_ok x

/-- A chain fails on length only when its parts do. -/
theorem FailsOnLength.bind {α β : Type} {r : Except Fault α} {g : α → Except Fault β}
    (h : FailsOnLength r) (hg : ∀ x, FailsOnLength (g x)) : FailsOnLength (r >>= g) := by
  cases r with
  | ok x => exact hg x
  | error f =>
      intro f' hf
      exact h f' (congrArg Except.error (Except.error.inj hf))

theorem FailsOnLength.map {α β : Type} {r : Except Fault α} (h : FailsOnLength r) (g : α → β) :
    FailsOnLength (r.map g) := by
  cases r with
  | ok x => exact failsOnLength_ok (g x)
  | error f =>
      intro f' hf
      exact h f' (congrArg Except.error (Except.error.inj hf))

/-- A value is displayed, or a number in it is too long. -/
theorem Value.display_fails (v : Value) : FailsOnLength v.display := by
  cases v with
  | null | bool | text => exact failsOnLength_ok _
  | int n => exact failsOnLength_ite _ _
  | float x =>
      unfold display
      dsimp only
      split <;> exact failsOnLength_ok _
  | list items => exact failsOnLength_ite _ _
  | object fields => exact failsOnLength_ite _ _

/-- **A template cannot be filled only for a whole number that is too long.** -/
theorem Template.fill_fails (text : String) (vars : Fields) : FailsOnLength (fill text vars) := by
  have hpiece (p : Piece) : FailsOnLength (p.filled vars) := by
    cases p with
    | char c => exact failsOnLength_ok _
    | slot name =>
        rw [Piece.filled]
        split
        · exact (Value.display_fails _).map _
        · exact failsOnLength_ok _
  have hpieces (ps : List Piece) : FailsOnLength (fillPieces vars ps) := by
    induction ps with
    | nil => exact failsOnLength_ok _
    | cons p rest ih => exact (hpiece p).bind fun here => ih.bind fun after => failsOnLength_ok _
  exact (hpieces _).map _

namespace Step

open Template (fill)

/-! ### The lead that replies make -/

/-- The lead that these replies to the fields make, one after the other. -/
def leadOf (fields accepted : List String) : Fields :=
  Entries.ofPairs ((fields.zip accepted).map fun p => (p.1, .text p.2))

/-- One more answer is one for the next field. -/
theorem zip_snoc {fields accepted : List String} (h : accepted.length < fields.length)
    (a : String) :
    fields.zip (accepted ++ [a]) = fields.zip accepted ++ [(fields[accepted.length], a)] := by
  induction accepted generalizing fields with
  | nil =>
      cases fields with
      | nil => cases h
      | cons f rest => simp
  | cons b accepted ih =>
      cases fields with
      | nil => cases h
      | cons f rest => exact congrArg ((f, b) :: ·) (ih (Nat.lt_of_succ_lt_succ h))

/-- One more reply is put in the lead. -/
theorem leadOf_snoc {fields accepted : List String} (h : accepted.length < fields.length)
    (a : String) :
    leadOf fields (accepted ++ [a]) = (leadOf fields accepted).put fields[accepted.length]
      (.text a) := by
  unfold leadOf
  rw [zip_snoc h, List.map_append]
  exact List.foldl_append

/-! ### Where a capture stands -/

variable {s : Setting} {n : Flow.Node} {d : Flow.LeadCapture} {id : String} {vars vars' : Fields}
  {accepted : List String} {answer : Option String} {e : Effect}

/-- The capture asks for the field after those that these replies were accepted for. -/
structure Stage (d : Flow.LeadCapture) (id : String) (accepted : List String) (vars : Fields) :
    Prop where
  short : accepted.length < d.enabledFields.length
  node : vars.get? "lead_capture_node" = some (.text id)
  index : vars.get? "lead_capture_index" = some (.int accepted.length)
  field : vars.get? "lead_capture_field" = some (.text d.enabledFields[accepted.length])
  data : vars.get? "lead_capture_data" = some (.object (leadOf d.enabledFields accepted))
  valid : ∀ p ∈ d.enabledFields.zip accepted, Answer.fieldTest p.1 p.2 = true

/-- A capture has not begun, or stands after these replies. -/
def Standing (d : Flow.LeadCapture) (id : String) (vars : Fields) : Option (List String) → Prop
  | none => cursor? id vars = none
  | some accepted => Stage d id accepted vars

/-- The reply that a step accepts: it is of the field that is asked for. -/
def accepts? (d : Flow.LeadCapture) (accepted : List String) (answer : Option String) :
    Option String :=
  match givenAnswer answer, d.enabledFields[accepted.length]? with
  | some a, some field => if Answer.fieldTest field a then some a else none
  | _, _ => none

/-- The replies that were accepted when a step has been taken. -/
def progress (d : Flow.LeadCapture) (answer : Option String) :
    Option (List String) → Option (List String)
  | none => some []
  | some accepted => some (accepted ++ (accepts? d accepted answer).toList)

/-- The variables in which a capture is kept. -/
def captureNames : List String :=
  ["lead_capture_node", "lead_capture_index", "lead_capture_field", "lead_capture_data"]

/-- Where a capture stands depends on its variables alone. -/
theorem Standing.congr {p : Option (List String)} (h : Standing d id vars p)
    (hv : ∀ name ∈ captureNames, vars'.get? name = vars.get? name) : Standing d id vars' p := by
  have hnode := hv "lead_capture_node" (by decide)
  have hindex := hv "lead_capture_index" (by decide)
  cases p with
  | none =>
      unfold Standing cursor? at h ⊢
      rwa [hnode, hindex]
  | some accepted =>
      obtain ⟨short, node, index, field, data, valid⟩ := h
      exact ⟨short, hnode.trans node, hindex.trans index, (hv _ (by decide)).trans field,
        (hv _ (by decide)).trans data, valid⟩

/-- The cursor is at the first field without an answer. -/
theorem Stage.cursor (h : Stage d id accepted vars) :
    cursor? id vars = some (accepted.length : Int) := by
  unfold cursor?
  rw [h.node, h.index]
  simp [Value.same, Value.asWhole?]

theorem capturedSoFar_of_object {lead : Fields}
    (h : vars.get? "lead_capture_data" = some (.object lead)) :
    capturedSoFar vars = .ok lead := by
  unfold capturedSoFar
  rw [h]
  cases lead <;> rfl

theorem fieldAt_eq {fields : List String} {i : Nat} (h : i < fields.length) :
    fieldAt fields i = .ok fields[i] := by
  have hlow : ¬ (i : Int) < -(Number.twoTo 63 : Int) := by omega
  have hpos : ¬ (i : Int) < 0 := by omega
  unfold fieldAt
  rw [if_neg hlow]
  dsimp only
  rw [if_neg hpos, if_neg hpos, Int.toNat_natCast, List.getElem?_eq_getElem h]

/-! ### What a step can do -/

/-- All that a step can do from a stage: what it asks of the collaborators, and what it comes to. -/
inductive Serves (s : Setting) (n : Flow.Node) (d : Flow.LeadCapture) (accepted : List String)
    (vars : Fields) (answer : Option String) (short : accepted.length < d.enabledFields.length) :
    StepProgram Outcome → Prop where
  /-- A question cannot be shown. -/
  | unshown : Serves s n d accepted vars answer short (.done (.failed Fault.tooLongToWrite.report))
  /-- Without a reply the question is put again. -/
  | repeats {question : String} (ha : givenAnswer answer = none)
      (hq : fill (d.questionFor d.enabledFields[accepted.length]) vars = .ok question) :
      Serves s n d accepted vars answer short
        (.done (.done { output := .one question, course := .wait }))
  /-- A reply that is not of the field is refused. -/
  | refuses {a question : String} (ha : givenAnswer answer = some a)
      (ht : Answer.fieldTest d.enabledFields[accepted.length] a = false)
      (hq : fill (d.questionFor d.enabledFields[accepted.length]) vars = .ok question) :
      Serves s n d accepted vars answer short (.done (.done
        { output := .one ("Entrada inválida para " ++ d.enabledFields[accepted.length] ++
          ". " ++ question),
          course := .wait, metadata :=
            [("validation_failed", .text d.enabledFields[accepted.length])] }))
  /-- A reply is accepted, and the next field is asked for. -/
  | advances {a question : String} (ha : givenAnswer answer = some a)
      (ht : Answer.fieldTest d.enabledFields[accepted.length] a = true)
      (hnext : accepted.length + 1 < d.enabledFields.length)
      (hq : fill (d.questionFor d.enabledFields[accepted.length + 1]) vars = .ok question) :
      Serves s n d accepted vars answer short (.done (.done
        { output := .one question, course := .wait,
          changes := [("lead_capture_index", .int (accepted.length + 1)),
            ("lead_capture_data", .object (leadOf d.enabledFields (accepted ++ [a]))),
            ("lead_capture_field", .text d.enabledFields[accepted.length + 1])] }))
  /-- The reply to the last field is accepted, and the lead is settled. -/
  | settles {a : String} (ha : givenAnswer answer = some a)
      (ht : Answer.fieldTest d.enabledFields[accepted.length] a = true)
      (hlast : accepted.length + 1 = d.enabledFields.length) :
      Serves s n d accepted vars answer short
        ((finishLead s n.id vars d (leadOf d.enabledFields (accepted ++ [a]))).run.bind fun r =>
          .done (.ofResult r))

/-- **A step from a stage** does one of these. -/
theorem served_of_stage {session : Session} (hn : n.block = .leadCapture d)
    (h : Stage d n.id accepted session.vars) (answer : Option String) :
    Serves s n d accepted session.vars answer h.short (run s n session answer) := by
  have hshort := h.short
  have hopen := runLeadCapture_open (s := s) h.cursor (Int.ofNat_lt.mpr hshort) (fieldAt_eq hshort)
  unfold run effectOf
  rw [hn]
  dsimp only
  rw [hopen]
  cases hq : fill (d.questionFor d.enabledFields[accepted.length]) session.vars with
  | error f =>
      obtain rfl := Template.fill_fails _ _ f hq
      exact .unshown
  | ok question =>
      cases ha : givenAnswer answer with
      | none => exact .repeats ha hq
      | some a =>
          change Serves s n d accepted session.vars answer hshort (Program.bind (ExceptT.run
            (answerLead s n.id session.vars d d.enabledFields accepted.length _ question a)) _)
          -- the answer is refused, or the capture goes on to the next field, or it is finished
          unfold answerLead
          dsimp only
          cases ht : Answer.fieldTest d.enabledFields[accepted.length] a with
          | false => exact .refuses ha ht hq
          | true =>
              rw [if_neg (by simp), capturedSoFar_of_object h.data]
              change Serves s n d accepted session.vars answer hshort (Program.bind (ExceptT.run
                (if (accepted.length : Int) + 1 < d.enabledFields.length then _ else
                  finishLead s n.id session.vars d
                    ((leadOf d.enabledFields accepted).put _ (.text a)))) _)
              rw [← leadOf_snoc hshort]
              split
              · next hnext =>
                have hnext' : accepted.length + 1 < d.enabledFields.length := by omega
                have hfield : fieldAt d.enabledFields ((accepted.length : Int) + 1) =
                    .ok d.enabledFields[accepted.length + 1] :=
                  fieldAt_eq hnext'
                rw [hfield]
                change Serves s n d accepted session.vars answer hshort (Program.bind (ExceptT.run
                  ((liftM (fill (d.questionFor d.enabledFields[accepted.length + 1]) session.vars) :
                    Action String) >>= _)) _)
                cases hq' : fill (d.questionFor d.enabledFields[accepted.length + 1])
                    session.vars with
                | error f =>
                    obtain rfl := Template.fill_fails _ _ f hq'
                    exact .unshown
                | ok question' => exact .advances ha ht hnext' hq'
              · next hlast => exact .settles ha ht (by omega)

/-- **A step of a capture that has not begun** puts the first question, whatever it is handed. -/
theorem opened_of_closed {session : Session} (hn : n.block = .leadCapture d)
    (hd : 0 < d.enabledFields.length) (h : cursor? n.id session.vars = none)
    (answer : Option String) :
    run s n session answer = .done (.failed Fault.tooLongToWrite.report) ∨
      ∃ question intro, fill (d.questionFor d.enabledFields[0]) session.vars = .ok question ∧
        fill d.introMessage session.vars = .ok intro ∧
        run s n session answer = .done (.done
          { output := .one (if intro = "" then question else intro ++ "\n\n" ++ question),
            course := .wait,
            changes := [("lead_capture_node", .text n.id), ("lead_capture_index", .int 0),
              ("lead_capture_data", .object []),
              ("lead_capture_field", .text d.enabledFields[0])] }) := by
  have hfields : d.enabledFields = d.enabledFields[0] :: d.enabledFields.tail := by
    rw [← List.head_eq_getElem (List.ne_nil_of_length_pos hd), List.cons_head_tail]
  have hclosed : capture.isOpen session.vars n.id = false := by
    simp [capture, h]
  rw [run_of_capture_closed hn hfields hclosed]
  unfold beginLead
  cases hq : fill (d.questionFor d.enabledFields[0]) session.vars with
  | error f =>
      obtain rfl := Template.fill_fails _ _ f hq
      exact .inl rfl
  | ok question =>
      cases hi : fill d.introMessage session.vars with
      | error f =>
          obtain rfl := Template.fill_fails _ _ f hi
          exact .inl rfl
      | ok intro => exact .inr ⟨question, intro, rfl, rfl, rfl⟩

/-! ### The stages that steps leave -/

/-- A capture that has begun asks for the first field. -/
theorem stage_opened (hd : 0 < d.enabledFields.length) : Stage d id []
    (vars.update [("lead_capture_node", .text id), ("lead_capture_index", .int 0),
      ("lead_capture_data", .object []), ("lead_capture_field", .text d.enabledFields[0])]) where
  short := hd
  node := by simp [Entries.update, Entries.get?_put]
  index := by simp [Entries.update, Entries.get?_put]
  field := by simp [Entries.update, Entries.get?_put]
  data := by simp [Entries.update, Entries.get?_put, leadOf, Entries.ofPairs]
  valid := by simp

/-- **A reply that is accepted leads to the next field.** -/
theorem Stage.advanced (h : Stage d id accepted vars) {a : String}
    (hnext : accepted.length + 1 < d.enabledFields.length)
    (ht : Answer.fieldTest d.enabledFields[accepted.length] a = true) : Stage d id (accepted ++ [a])
    (vars.update [("lead_capture_index", .int (accepted.length + 1)),
      ("lead_capture_data", .object (leadOf d.enabledFields (accepted ++ [a]))),
      ("lead_capture_field", .text d.enabledFields[accepted.length + 1])]) where
  short := by simpa using hnext
  node := by simp [Entries.update, Entries.get?_put, h.node]
  index := by simp [Entries.update, Entries.get?_put]
  field := by simp [Entries.update, Entries.get?_put]
  data := by simp [Entries.update, Entries.get?_put]
  valid := by
    rw [zip_snoc h.short]
    intro p hp
    rcases List.mem_append.mp hp with hp | hp
    · exact h.valid p hp
    · obtain rfl := List.mem_singleton.mp hp
      exact ht

/-- An answer is accepted when it passes the test of its field. -/
theorem accepts?_eq (h : accepted.length < d.enabledFields.length) {a : String}
    (ha : givenAnswer answer = some a) :
    accepts? d accepted answer =
      if Answer.fieldTest d.enabledFields[accepted.length] a = true then some a else none := by
  unfold accepts?
  rw [ha, List.getElem?_eq_getElem h]

theorem accepts?_none (ha : givenAnswer answer = none) : accepts? d accepted answer = none := by
  unfold accepts?
  rw [ha]

/-! ### What a lead is settled with -/

/-- The request settles the lead, and the node asks for it. -/
def Op.Settles (d : Flow.LeadCapture) (lead : Fields) : Op → Prop
  | .consult (.checkDuplicate value field table) _ => d.validateDuplicates = true ∧
      value = (lead.get? d.duplicateField).getD .null ∧ field = d.duplicateField ∧
        table = d.databaseTable
  | .consult (.saveLead table fields source tags) _ => d.saveToDatabase = true ∧
      table = d.databaseTable ∧ fields = lead ∧ source = d.leadSource ∧ tags = d.autoTags
  | .consult (.sendLead _ fields source tags) _ => d.sendToWebhook = true ∧
      fields = lead ∧ source = d.leadSource ∧ tags = d.autoTags
  | _ => False

/-- The action asks only for what settles the lead. -/
def OnlySettles (d : Flow.LeadCapture) (lead : Fields) {α : Type} (a : Action α) : Prop :=
  Program.AsksOnly (Op.Settles d lead) a.run

section

variable {α β : Type} {lead : Fields}

/-- What asks for nothing does no more than settle the lead. -/
theorem Still.onlySettles {a : Action α} (h : Still a) :
    OnlySettles d lead a := Program.Quiet.asksOnly h

/-- A chain does no more than settle the lead when its parts do not. -/
theorem OnlySettles.bind {a : Action α} {g : α → Action β} (h : OnlySettles d lead a)
    (hg : ∀ x, OnlySettles d lead (g x)) : OnlySettles d lead (a >>= g) :=
  Program.AsksOnly.bind h fun r => by
    cases r with
    | ok x => exact hg x
    | error f => trivial

/-- So it is with a request that settles it. -/
theorem onlySettles_consult {c : Consultation}
    (h : (Op.consult c s.policy.callBound).Settles d lead) :
    OnlySettles d lead (s.consult c) := ⟨h, fun _ => trivial⟩

theorem onlySettles_needs {present : Bool} {otherwise : String} :
    OnlySettles d lead (needs present otherwise) := by
  unfold needs
  split
  · exact (still_pure _).onlySettles
  · exact (still_throw _).onlySettles

theorem onlySettles_ite {c : Bool} {a b : Action α} (ha : c = true → OnlySettles d lead a)
    (hb : OnlySettles d lead b) : OnlySettles d lead (if c = true then a else b) := by
  split
  · next h => exact ha h
  · exact hb

end

/-- **A lead is settled with itself**, and with what the node asks for. -/
theorem finishLead_settles (lead : Fields) : OnlySettles d lead (finishLead s id vars d lead) := by
  -- part by part: the check, the webhook, the save, and what they come to
  have hknown : OnlySettles d lead (isKnown s d lead) := by
    unfold isKnown
    dsimp only
    refine onlySettles_ite (fun h => ?_) (still_pure _).onlySettles
    exact onlySettles_needs.bind fun _ =>
      ⟨⟨(Bool.and_eq_true_iff.mp h).1, rfl, rfl, rfl⟩, fun _ => trivial⟩
  have hsend : OnlySettles d lead (if (d.sendToWebhook && d.webhookUrl != "") = true then do
      s.consult (.sendLead (← fill d.webhookUrl vars) lead d.leadSource d.autoTags)
          else pure ()) := by
    refine onlySettles_ite (fun h => ?_) (still_pure _).onlySettles
    exact .bind (still_lift _).onlySettles fun _ =>
      onlySettles_consult ⟨(Bool.and_eq_true_iff.mp h).1, rfl, rfl, rfl⟩
  have hask (h : d.saveToDatabase = true) :
      OnlySettles d lead (s.consult (.saveLead d.databaseTable lead d.leadSource d.autoTags)) :=
    onlySettles_consult ⟨h, rfl, rfl, rfl, rfl⟩
  have hsave : OnlySettles d lead (if d.saveToDatabase = true then do
      s.consult (.saveLead d.databaseTable lead d.leadSource d.autoTags)
      if (d.sendToWebhook && d.webhookUrl != "") = true then do
        s.consult (.sendLead (← fill d.webhookUrl vars) lead d.leadSource d.autoTags)
        else pure ()
      else if (d.sendToWebhook && d.webhookUrl != "") = true then do
        s.consult (.sendLead (← fill d.webhookUrl vars) lead d.leadSource d.autoTags)
        else pure ()) :=
    onlySettles_ite (fun h => (hask h).bind fun _ => hsend) hsend
  have hkeep : OnlySettles d lead (keepLead s vars d lead) :=
    onlySettles_ite (fun _ => onlySettles_needs.bind fun _ => hsave) hsave
  have hsettle : OnlySettles d lead (settleLead s id vars d lead) := by
    refine hknown.bind fun known => ?_
    cases known with
    | true =>
        refine OnlySettles.bind ?_ fun e => (still_pure _).onlySettles
        exact (still_lift _).onlySettles.bind fun _ => (still_lift _).onlySettles.bind fun _ =>
          (still_pure _).onlySettles
    | false => exact hkeep.bind fun _ => (still_pure _).onlySettles
  unfold OnlySettles
  rw [finishLead_run]
  refine Program.AsksOnly.bind hsettle fun r => ?_
  rcases r with f | known | e <;> trivial

/-! ### The cursor is within the fields -/

/-- What a node fails with whose cursor is beyond its fields. -/
def cursorBeyond : String := "lead capture cursor out of range"

/-- A fault of routing is told otherwise than a cursor beyond the fields. -/
theorem report_noRoute_ne (id handle : String) :
    (Fault.noRoute id handle).report ≠ cursorBeyond := by
  have hfirst (rest : String) : ("node '" ++ rest).toList.head? ≠ cursorBeyond.toList.head? := by
    have hn : ("node '" ++ rest).toList.head? = some 'n' := by
      rw [String.toList_append, List.head?_append]
      rfl
    have hl : cursorBeyond.toList.head? = some 'l' := by decide
    rw [hn, hl]
    decide
  have hmessage : (Fault.noRoute id handle).message =
      "node '" ++ id ++ "' has no edge for handle '" ++ handle ++ "'" := rfl
  unfold Fault.report
  rw [hmessage, String.append_assoc, String.append_assoc, String.append_assoc]
  split
  · exact fun h => absurd (show "RoutingError" = cursorBeyond from h) (by decide)
  · exact fun h => hfirst _ (congrArg (fun t => t.toList.head?) h)

/-- Only strict routing knows no way on. -/
theorem onward_error {handle : String} {f : Fault} (h : s.onward id handle = .error f) :
    f = .noRoute id handle := by
  have heq := onward_eq s id handle s.policy.strictRouting
  rw [s.routing_self, h] at heq
  split at heq
  · exact Except.error.inj heq
  · cases heq

/-- A lead that is settled fails only for a text that cannot be shown or for want of a way on. -/
theorem finishLead_error {lead : Fields} {f : Fault}
    (h : Program.Ends (finishLead s id vars d lead).run (.error f)) :
    f = .tooLongToWrite ∨ ∃ handle, f = .noRoute id handle := by
  have htold {text handle : String} {g : String → Course → Effect}
      (h : (fill text vars >>= fun said => s.onward id handle >>=
        fun course => pure (g said course)) =
        Except.error f) : f = .tooLongToWrite ∨ ∃ handle, f = .noRoute id handle := by
    cases hsaid : fill text vars with
    | error f' =>
        rw [hsaid] at h
        cases h
        exact .inl (Template.fill_fails _ _ _ hsaid)
    | ok said =>
        cases hcourse : s.onward id handle with
        | error f' =>
            rw [hsaid, hcourse] at h
            cases h
            exact .inr ⟨handle, onward_error hcourse⟩
        | ok course =>
            rw [hsaid, hcourse] at h
            cases h
  rw [finishLead_run] at h
  obtain ⟨settled, -, h⟩ := Program.ends_bind_iff.mp h
  rcases settled with x | known | e
  · exact htold (Program.ends_done_iff.mp h).symm
  · exact htold (Program.ends_done_iff.mp h).symm
  · cases Program.ends_done_iff.mp h

/-! ### Every step of a capture -/

/-- What is said before a question: the introduction, or that a reply was refused. -/
inductive Before (d : Flow.LeadCapture) (vars : Fields) :
    Option (List String) → Option String → String → Prop where
  | introduction {intro : String} {answer : Option String}
      (h : fill d.introMessage vars = .ok intro) :
      Before d vars none answer (if intro = "" then "" else intro ++ "\n\n")
  | refusal {accepted : List String} {answer : Option String} {a : String}
      (short : accepted.length < d.enabledFields.length) (ha : givenAnswer answer = some a)
      (ht : Answer.fieldTest d.enabledFields[accepted.length] a = false) :
      Before d vars (some accepted) answer
        ("Entrada inválida para " ++ d.enabledFields[accepted.length] ++ ". ")
  | nothing {accepted : List String} {answer : Option String}
      (h : accepts? d accepted answer = givenAnswer answer) :
      Before d vars (some accepted) answer ""

/-- The effect puts the question of the field that follows on these replies. -/
def Puts (d : Flow.LeadCapture) (vars : Fields) (before : String) (accepted : List String)
    (e : Effect) : Prop :=
  ∃ short : accepted.length < d.enabledFields.length, ∃ question,
    fill (d.questionFor d.enabledFields[accepted.length]) vars = .ok question ∧
      e.output = .one (before ++ question)

/-- A step of the capture, which stands where it is said to stand. -/
structure Orderly (s : Setting) (n : Flow.Node) (d : Flow.LeadCapture) (p : Option (List String))
    (session : Session) (answer : Option String) : Prop where
  stands : Standing d n.id session.vars p
  /-- The lead is settled only with a reply to the last field, and as a whole. -/
  asks : (run s n session answer).AsksOnly fun op => ∃ accepted a, p = some accepted ∧
    accepts? d accepted answer = some a ∧ accepted.length + 1 = d.enabledFields.length ∧
    op.Settles d (leadOf d.enabledFields (accepted ++ [a]))
  /-- The cursor is within the fields. -/
  within : ¬ (run s n session answer).Ends (.failed cursorBeyond)
  /-- The question put is that of the field that follows on the replies accepted. -/
  puts : ∀ e, (run s n session answer).Ends (.done e) → e.course = .wait →
    ∃ accepted before, progress d answer p = some accepted ∧ Before d session.vars p answer before ∧
      Puts d session.vars before accepted e
  /-- A blank reply or one that is refused changes nothing. -/
  keeps : ∀ e, (run s n session answer).Ends (.done e) → progress d answer p = p → e.changes = []
  /-- The stage that is left is that of the replies accepted. -/
  leaves : ∀ e, (run s n session answer).Ends (.done e) → e.course = .wait →
    Standing d n.id (session.vars.update e.changes) (progress d answer p)

/-- A number that is too long is told otherwise than a cursor beyond the fields. -/
theorem report_tooLongToWrite_ne : Fault.tooLongToWrite.report ≠ cursorBeyond := by decide

/-- A step that has failed for a text that cannot be shown. -/
theorem orderly_of_unshown {session : Session} {p : Option (List String)}
    (h : Standing d n.id session.vars p)
    (hrun : run s n session answer = .done (.failed Fault.tooLongToWrite.report)) :
    Orderly s n d p session answer := by
  have hnone {e : Effect} : ¬ (run s n session answer).Ends (.done e) := by
    rw [hrun]
    exact fun h => nomatch Program.ends_done_iff.mp h
  refine ⟨h, ?_, ?_, fun e he => absurd he hnone, fun e he => absurd he hnone,
    fun e he => absurd he hnone⟩
  · rw [hrun]
    trivial
  · rw [hrun]
    intro h
    exact report_tooLongToWrite_ne (Outcome.failed.inj (Program.ends_done_iff.mp h)).symm

/-- A step that waits without having asked for anything. -/
theorem orderly_of_done {session : Session} {p : Option (List String)} {accepted : List String}
    {before : String} (h : Standing d n.id session.vars p)
    (hrun : run s n session answer = .done (.done e)) (hp : progress d answer p = some accepted)
    (hb : Before d session.vars p answer before) (hq : Puts d session.vars before accepted e)
    (hk : p = some accepted → e.changes = [])
    (hs : Stage d n.id accepted (session.vars.update e.changes)) :
    Orderly s n d p session answer := by
  have hdone {e' : Effect} (he : (run s n session answer).Ends (.done e')) : e' = e := by
    rw [hrun] at he
    exact Outcome.done.inj (Program.ends_done_iff.mp he)
  refine ⟨h, ?_, ?_, fun e' he _ => ?_, fun e' he heq => ?_, fun e' he _ => ?_⟩
  · rw [hrun]
    trivial
  · rw [hrun]
    exact fun h => nomatch Program.ends_done_iff.mp h
  · rw [hdone he]
    exact ⟨accepted, before, hp, hb, hq⟩
  · rw [hdone he]
    exact hk (heq.symm.trans hp)
  · rw [hdone he, hp]
    exact hs

/-- A step that settles the lead with the reply to its last field. -/
theorem orderly_of_settled {session : Session} {a : String} (h : Stage d n.id accepted session.vars)
    (ha : accepts? d accepted answer = some a)
    (hlast : accepted.length + 1 = d.enabledFields.length)
    (hrun : run s n session answer = (finishLead s n.id session.vars d
      (leadOf d.enabledFields (accepted ++ [a]))).run.bind fun r => .done (.ofResult r)) :
    Orderly s n d (some accepted) session answer := by
  -- a lead that is finished does not wait
  have hmoves {e : Effect} (he : (run s n session answer).Ends (.done e)) : e.course ≠ .wait := by
    rw [hrun] at he
    obtain ⟨r, hr, he⟩ := Program.ends_bind_iff.mp he
    cases r with
    | error f => cases Program.ends_done_iff.mp he
    | ok e' =>
        cases Program.ends_done_iff.mp he
        exact finishLead_moves d _ e hr
  have hmore : progress d answer (some accepted) ≠ some accepted := fun heq => by
    simpa [progress, ha] using congrArg List.length (Option.some.inj heq)
  refine ⟨h, ?_, ?_, fun e he hw => absurd hw (hmoves he), fun e he heq => absurd heq hmore,
    fun e he hw => absurd hw (hmoves he)⟩
  · rw [hrun]
    refine Program.AsksOnly.bind (Program.AsksOnly.mono (finishLead_settles _) fun op hop => ?_)
      fun _ => trivial
    exact ⟨accepted, a, rfl, ha, hlast, hop⟩
  · rw [hrun]
    intro hends
    obtain ⟨r, hr, hends⟩ := Program.ends_bind_iff.mp hends
    cases r with
    | ok e => cases Program.ends_done_iff.mp hends
    | error f =>
        have heq := Outcome.failed.inj (Program.ends_done_iff.mp hends)
        rcases finishLead_error hr with rfl | ⟨handle, rfl⟩
        · exact report_tooLongToWrite_ne heq.symm
        · exact report_noRoute_ne n.id handle heq.symm

/-- **Every step of a capture is orderly**, from wherever the capture stands. -/
theorem orderly_of_standing {session : Session} {p : Option (List String)}
    (hn : n.block = .leadCapture d) (hd : 0 < d.enabledFields.length)
    (h : Standing d n.id session.vars p) : Orderly s n d p session answer := by
  cases p with
  | none =>
      rcases opened_of_closed (s := s) hn hd h answer with hrun | ⟨question, intro, hq, hi, hrun⟩
      · exact orderly_of_unshown h hrun
      · refine orderly_of_done h hrun rfl (.introduction hi) ⟨hd, question, hq, ?_⟩ nofun
          (stage_opened hd)
        split <;> simp
  | some accepted =>
      have hserved := served_of_stage (s := s) hn h answer
      have hshort := h.short
      generalize hrun : run s n session answer = program at hserved
      cases hserved with
      | unshown => exact orderly_of_unshown h hrun
      | @repeats question ha hq =>
          have hp : progress d answer (some accepted) = some accepted := by
            simp [progress, accepts?_none ha]
          exact orderly_of_done h hrun hp (.nothing ((accepts?_none ha).trans ha.symm))
            ⟨hshort, question, hq, by simp⟩
            (fun _ => rfl) h
      | @refuses a question ha ht hq =>
          have hp : progress d answer (some accepted) = some accepted := by
            simp [progress, accepts?_eq hshort ha, ht]
          exact orderly_of_done h hrun hp (.refusal hshort ha ht) ⟨hshort, question, hq, rfl⟩
            (fun _ => rfl) h
      | @advances a question ha ht hnext hq =>
          have ha' : accepts? d accepted answer = some a := by rw [accepts?_eq hshort ha, if_pos ht]
          have hp : progress d answer (some accepted) = some (accepted ++ [a]) := by
            simp [progress, ha']
          refine orderly_of_done h hrun hp (.nothing (ha'.trans ha.symm))
            ⟨by simpa using hnext, question, ?_, by simp⟩
            (fun heq => ?_) (h.advanced hnext ht)
          · simpa using hq
          · simpa using congrArg List.length (Option.some.inj heq)
      | @settles a ha ht hlast =>
          have ha' : accepts? d accepted answer = some a := by rw [accepts?_eq hshort ha, if_pos ht]
          exact orderly_of_settled h ha' hlast hrun

end Step
end Parley
