import Parley.Desk.Remote
import Parley.Proofs.Desk.Shared
import Parley.Proofs.Step.Replies
import Parley.Proofs.Step.Saving

/-!
# How a lead is recorded

A lead that is saved goes to the table as a row, and to the variables of the session as a whole and
field by field: the field `f` under the name `lead_f`.  The names of the fields are the author's,
and they share these spaces with names that are not: the variables in which the capture is kept and
marked as saved, and the entries that a back office adds to a row.

What is read under a name is told exactly, whatever the names of the fields (`Recorded`, `Kept`).
The marks and the entries of the back office go before a field, and a field goes before what closes
the capture.  So the lead is recorded faithfully just when no field has such a name with another
value (`saved_lead_faithful_iff`).
-/

namespace Parley

/-! ### Names in common -/

/-- Where both have a name they have the same value. -/
def Entries.Agree {α : Type} (es other : Entries α) : Prop :=
  ∀ name v w, es.get? name = some v → other.get? name = some w → v = w

/-- Of two that agree it does not matter which goes first. -/
theorem Entries.Agree.get?_or {α : Type} {es other : Entries α} (h : es.Agree other) {name : String}
    {v : α} (hv : es.get? name = some v) : (other.get? name).or (es.get? name) = some v := by
  rw [hv]
  cases hw : other.get? name with
  | none => rfl
  | some w => rw [h name v w hv hw, Option.some_or]

namespace Step

variable {s : Setting} {n : Flow.Node} {d : Flow.LeadCapture} {id : String}
  {vars lead own row : Fields} {answer : Option String} {e : Effect}
  {log : List (Program.Exchange Op Op.Reply)}

/-! ### The reply that completes a lead -/

/-- The reply is accepted for the last field, and the lead has it. -/
inductive Completes (d : Flow.LeadCapture) (id : String) (vars : Fields) (answer : Option String)
    (lead : Fields) :
    Prop where
  | mk {a field : String} {i : Int} {soFar : Fields} (ha : givenAnswer answer = some a)
      (hi : cursor? id vars = some i)
      (hlast : i + 1 = d.enabledFields.length) (hf : fieldAt d.enabledFields i = .ok field)
      (ht : Answer.fieldTest field a = true) (hs : capturedSoFar vars = .ok soFar)
      (hl : lead = soFar.put field (.text a))

/-- A capture is left by a handle only when its lead is complete, and is settled. -/
theorem completes_of_left (h : Reaches (runLeadCapture s id vars d (givenAnswer answer)) log e)
    (he : e.handle ≠ "") :
    ∃ lead, Completes d id vars answer lead ∧ Reaches (finishLead s id vars d lead) log e := by
  unfold runLeadCapture at h
  -- every way through the capture but the last one leaves without a handle
  split at h
  · exact absurd h.gives gives_throw
  · next first rest hfields =>
    rw [← hfields] at h
    dsimp only at h
    split at h
    · obtain ⟨question, -, h⟩ := bind_eq_ok.mp (gives_lift.mp h.gives)
      obtain ⟨intro, -, h⟩ := bind_eq_ok.mp h
      obtain rfl := pure_eq_ok.mp h
      exact absurd rfl he
    · next i hi =>
      split at h
      · obtain ⟨_, h, -⟩ := gives_bind.mp h.gives
        exact absurd h gives_throw
      · next hlt =>
        obtain ⟨field, hf, h⟩ := reaches_lift_bind.mp h
        obtain ⟨question, -, h⟩ := reaches_lift_bind.mp h
        cases ha : givenAnswer answer with
        | none =>
            rw [ha] at h
            obtain ⟨-, rfl⟩ := reaches_pure.mp h
            exact absurd rfl he
        | some a =>
            rw [ha] at h
            dsimp only at h
            unfold answerLead at h
            dsimp only at h
            split at h
            · obtain ⟨-, rfl⟩ := reaches_pure.mp h
              exact absurd rfl he
            · next ht =>
              obtain ⟨soFar, hs, h⟩ := reaches_lift_bind.mp h
              split at h
              · obtain ⟨next, -, h⟩ := reaches_lift_bind.mp h
                obtain ⟨question, -, h⟩ := reaches_lift_bind.mp h
                obtain ⟨-, rfl⟩ := reaches_pure.mp h
                exact absurd rfl he
              · next hlast => exact ⟨_, .mk ha hi (by omega) hf (by simpa using ht) hs rfl, h⟩

theorem Completes.nodup (h : Completes d id vars answer lead)
    (hd : ∀ soFar, capturedSoFar vars = .ok soFar → soFar.names.Nodup) : lead.names.Nodup := by
  obtain ⟨_, _, _, _, _, hs, rfl⟩ := h
  exact Entries.nodup_names_put (hd _ hs) _ _

/-! ### The lead is saved -/

/-- The request to save the lead in the node's table. -/
def saving (d : Flow.LeadCapture) (lead : Fields) : Consultation :=
  .saveLead d.databaseTable lead d.leadSource d.autoTags

/-- A lead that is kept was saved, where the node asks for it. -/
theorem saved_of_kept (hd : d.saveToDatabase = true) (h : Reaches (keepLead s vars d lead) log ()) :
    answered s (saving d lead) () ∈ log := by
  unfold keepLead at h
  dsimp only at h
  rw [if_pos (by rw [hd, Bool.true_or]), if_pos hd] at h
  obtain ⟨_, log₂, _, rfl, -, h'⟩ := reaches_bind.mp h
  obtain ⟨log₁, _, _, rfl, hsave, -⟩ := reaches_bind.mp h'
  rw [reaches_consult hsave]
  exact List.mem_append_right _ (List.mem_append_left _ (List.mem_singleton_self _))

/-- Settling a lead finds it known, or keeps it. -/
theorem settleLead_cases {r : Option Effect} (h : Reaches (settleLead s id vars d lead) log r) :
    (∃ e, r = some e ∧ e.handle = "duplicate") ∨
      r = none ∧ ∃ before after, log = before ++ after ∧
        Reaches (keepLead s vars d lead) after () := by
  obtain ⟨before, rest, known, rfl, -, h'⟩ := reaches_bind.mp h
  cases known with
  | true =>
      obtain ⟨_, _, e, -, hknown, h⟩ := reaches_bind.mp h'
      obtain ⟨said, -, hknown⟩ := reaches_lift_bind.mp hknown
      obtain ⟨course, -, hknown⟩ := reaches_lift_bind.mp hknown
      obtain ⟨-, rfl⟩ := reaches_pure.mp hknown
      exact .inl ⟨_, (reaches_pure.mp h).2, rfl⟩
  | false =>
      obtain ⟨after, _, _, rfl, hkept, h⟩ := reaches_bind.mp h'
      obtain ⟨rfl, rfl⟩ := reaches_pure.mp h
      rw [List.append_nil]
      exact .inr ⟨rfl, before, after, rfl, hkept⟩

/-- **A lead that leaves by the handle for success** was saved, where the node asks for it, and
changes the variables as a lead that was saved. -/
theorem finishLead_success (hd : d.saveToDatabase = true)
    (h : Reaches (finishLead s id vars d lead) log e) (he : e.handle = "success") :
    answered s (saving d lead) () ∈ log ∧ leadSaved s id vars d lead = .ok e := by
  unfold Reaches at h
  rw [finishLead_run] at h
  obtain ⟨log₁, log₂, settled, rfl, hsettled, h'⟩ := Program.comes_bind_iff.mp h
  rcases settled with f | r
  · have hfailed : leadFailed s id vars d lead f = .ok e := (Program.comes_done_iff.mp h').2.symm
    obtain ⟨said, -, h⟩ := bind_eq_ok.mp hfailed
    obtain ⟨course, -, h⟩ := bind_eq_ok.mp h
    obtain rfl := pure_eq_ok.mp h
    exact absurd (show "error" = "success" from he) (by decide)
  · rcases settleLead_cases hsettled with ⟨e', rfl, hknown⟩ | ⟨rfl, before, after, rfl, hkept⟩
    · obtain rfl := Except.ok.inj (Program.comes_done_iff.mp h').2
      rw [hknown] at he
      exact absurd he (by decide)
    · have hsaved := saved_of_kept hd hkept
      exact ⟨List.mem_append_left _ (List.mem_append_right _ hsaved),
        (Program.comes_done_iff.mp h').2.symm⟩

/-! ### What the variables tell -/

/-- What marks a lead as saved, but for the `lead_` before the names. -/
def marks : Fields := [("is_duplicate", .bool false), ("saved", .bool true)]

/-- What closes the capture of a lead, but for the `lead_` before the names. -/
def closing (lead : Fields) : Fields :=
  [("capture_node", .null), ("capture_index", .null), ("capture_field", .null),
    ("data", .object lead)]

/-- Entries with `lead_` before their names. -/
def prefixed (es : Fields) : Fields := es.map fun e => ("lead_" ++ e.1, e.2)

theorem nodup_prefixed {es : Fields} (h : es.names.Nodup) : (prefixed es).names.Nodup :=
  Entries.nodup_names_map_append "lead_" h

theorem get?_prefixed (es : Fields) (name : String) :
    (prefixed es).get? ("lead_" ++ name) = es.get? name :=
  Entries.get?_map_append "lead_" es name

/-- The variables tell of the lead: the marks first, then its fields, then what closes the capture.
-/
def Recorded (lead vars vars' : Fields) : Prop :=
  ∀ name, vars'.get? ("lead_" ++ name) =
    ((marks.get? name).or ((lead.get? name).or ((closing lead).get? name))).or
      (vars.get? ("lead_" ++ name))

theorem leadSaved_recorded (vars : Fields) (hl : lead.names.Nodup)
    (h : leadSaved s id vars d lead = .ok e) :
    Recorded lead vars (vars.update e.changes) := by
  obtain ⟨said, -, h⟩ := bind_eq_ok.mp h
  obtain ⟨course, -, h⟩ := bind_eq_ok.mp h
  obtain rfl := pure_eq_ok.mp h
  intro name
  change (vars.update (((prefixed (closing lead)).update (prefixed lead)).update
    (prefixed marks))).get? _ = _
  have hclosing : (prefixed (closing lead)).names.Nodup :=
    nodup_prefixed (by simp [closing, Entries.names])
  have hkept := Entries.nodup_names_update hclosing (prefixed lead)
  have hmarks : (prefixed marks).names.Nodup := nodup_prefixed (by decide)
  rw [Entries.get?_update_of_nodup (Entries.nodup_names_update hkept _),
    Entries.get?_update_of_nodup hmarks, Entries.get?_update_of_nodup (nodup_prefixed hl),
    get?_prefixed, get?_prefixed, get?_prefixed]

/-! ### Faithful records -/

/-- The lead is told by the variables, as a whole and field by field, and by the row. -/
structure Faithful (lead vars row : Fields) : Prop where
  data : vars.get? "lead_data" = some (.object lead)
  fields : ∀ field v, lead.get? field = some v → vars.get? ("lead_" ++ field) = some v
  saved : vars.get? "lead_saved" = some (.bool true)
  closed : ∀ name ∈ ["lead_capture_node", "lead_capture_index", "lead_capture_field"],
    vars.get? name = some .null
  row : ∀ field v, lead.get? field = some v → row.get? field = some v

/-- The row is the lead with entries of the back office's own, which go before its fields. -/
def Kept (lead own row : Fields) :
    Prop := ∀ name, row.get? name = (own.get? name).or (lead.get? name)

/-- What closes the capture is told of a faithful record. -/
theorem Faithful.get?_closing (h : Faithful lead vars row) {name : String} {w : Value}
    (hw : (closing lead).get? name = some w) : vars.get? ("lead_" ++ name) = some w := by
  have hmem : (name, w) ∈ closing lead := Entries.mem_of_get? hw
  simp only [closing, List.mem_cons, Prod.mk.injEq, List.not_mem_nil, or_false] at hmem
  rcases hmem with ⟨rfl, rfl⟩ | ⟨rfl, rfl⟩ | ⟨rfl, rfl⟩ | ⟨rfl, rfl⟩
  · exact h.closed _ (by decide)
  · exact h.closed _ (by decide)
  · exact h.closed _ (by decide)
  · exact h.data

/-- **A record is faithful just when no field has the name of another entry with another value.** -/
theorem Recorded.faithful_iff {vars' : Fields} (h : Recorded lead vars vars')
    (hr : Kept lead own row) :
    Faithful lead vars' row ↔ lead.Agree marks ∧ lead.Agree (closing lead) ∧ lead.Agree own := by
  constructor
  · intro hf
    refine ⟨fun name v w hv hw => ?_, fun name v w hv hw => ?_, fun name v w hv hw => ?_⟩
    · have hmark := h name
      rw [hf.fields name v hv, hw] at hmark
      exact Option.some.inj hmark
    · exact Option.some.inj ((hf.fields name v hv).symm.trans (hf.get?_closing hw))
    · have hown := hr name
      rw [hf.row name v hv, hw] at hown
      exact Option.some.inj hown
  · rintro ⟨hmarks, hclosing, hown⟩
    -- an entry of the close is read through the lead: where both have it, they agree
    have hclosed (name : String) {w : Value} (hm : marks.get? name = none)
      (hw : (closing lead).get? name = some w) :
        vars'.get? ("lead_" ++ name) = some w := by
      rw [h name, hm, hw]
      cases hv : lead.get? name with
      | none => rfl
      | some v =>
          rw [hclosing name v w hv hw]
          rfl
    refine ⟨hclosed "data" rfl rfl, fun field v hv => ?_, h "saved", ?_, fun field v hv => ?_⟩
    · rw [h field, hv, Option.some_or, ← hv, hmarks.get?_or hv, Option.some_or, hv]
    · simp only [List.forall_mem_cons, List.not_mem_nil, false_imp_iff, implies_true, and_true]
      exact ⟨hclosed "capture_node" rfl rfl, hclosed "capture_index" rfl rfl,
        hclosed "capture_field" rfl rfl⟩
    · rw [hr field, hown.get?_or hv]

end Step

/-! ### What the back office keeps -/

namespace Desk

open Step

/-- The entries of a desk's own in a row. -/
def own (d : Flow.LeadCapture) :
    Fields := [("source", .text d.leadSource), ("tags", .texts d.autoTags)]

/-- The entries of its own that a back office on the web is sent. -/
def remoteOwn (d : Flow.LeadCapture) (now : Calendar.Moment) : Fields :=
  own d ++ [("created_at", .text now.textWithOffset)]

theorem nodup_own (d : Flow.LeadCapture) : (own d).names.Nodup := by
  simp [own, Entries.names]

theorem nodup_remoteOwn (d : Flow.LeadCapture) (now : Calendar.Moment) :
    (remoteOwn d now).names.Nodup := by
  simp [remoteOwn, own, Entries.names]

theorem kept_update {lead own : Fields} (h : own.names.Nodup) : Kept lead own (lead.update own) :=
  Entries.get?_update_of_nodup h lead

variable {s : Setting} {n : Flow.Node} {d : Flow.LeadCapture} {session : Session}
  {answer : Option String} {e : Effect} {log : List (Program.Exchange Op Op.Reply)}

/-- **A saved lead is recorded faithfully just when its names are its own.**  A step of a lead
capture that saves leaves by the handle for success.  Then it was handed the reply that completes
the lead, the lead was saved, and what the variables tell of it is told by `Recorded`.  A desk in
memory adds a row with its source and tags, and one on the web is sent a row with these and the time
(`Kept`).  The record is faithful just when no field of the lead has the name of a mark, of what
closes the capture or of such an entry, unless with its value. -/
theorem saved_lead_faithful_iff (hn : n.block = .leadCapture d) (hsave : d.saveToDatabase = true)
    (hdistinct : ∀ soFar, capturedSoFar session.vars = .ok soFar → soFar.names.Nodup)
    (h : (run s n session answer).Comes log (.done e)) (hsuccess : e.handle = "success") :
    ∃ lead, Completes d n.id session.vars answer lead ∧ answered s (saving d lead) () ∈ log ∧
      Recorded lead session.vars (session.vars.update e.changes) ∧
      (∀ desk : Desk, ∃ row, (desk.carryOut (saving d lead)).1 = .ok () ∧
        (desk.carryOut (saving d lead)).2.table d.databaseTable = desk.table d.databaseTable ++
          [.object row] ∧
        Kept lead (own d) row ∧ (Faithful lead (session.vars.update e.changes) row ↔
          lead.Agree marks ∧ lead.Agree (closing lead) ∧ lead.Agree (own d))) ∧
      ∀ (remote : Remote) now, ∃ row,
        remote.saveLead d.databaseTable lead d.leadSource d.autoTags now =
          Gateway.use (fun _ => .ok ())
          (remote.ask "POST" "save_lead" [("table", .text d.databaseTable)] none
            (.json (.object row))) ∧
        Kept lead (remoteOwn d now) row ∧ (Faithful lead (session.vars.update e.changes) row ↔
          lead.Agree marks ∧ lead.Agree (closing lead) ∧ lead.Agree (remoteOwn d now)) := by
  obtain ⟨log₁, log₂, r, rfl, hr, h'⟩ := Program.comes_bind_iff.mp h
  obtain ⟨rfl, ho⟩ := Program.comes_done_iff.mp h'
  cases r with
  | error f => cases ho
  | ok e' =>
      cases ho
      unfold effectOf at hr
      rw [hn] at hr
      obtain ⟨lead, hcomplete, hr⟩ := completes_of_left hr (by rw [hsuccess]; decide)
      obtain ⟨hsaved, hchanges⟩ := finishLead_success hsave hr hsuccess
      have hrecorded := leadSaved_recorded session.vars (hcomplete.nodup hdistinct) hchanges
      rw [List.append_nil]
      refine ⟨lead, hcomplete, hsaved, hrecorded, fun desk => ?_, fun remote now => ?_⟩
      · have hkept : Kept lead (own d) (row lead d.leadSource d.autoTags) :=
          kept_update (nodup_own d)
        exact ⟨_, rfl, table_saveLead desk _ _ _ _, hkept, hrecorded.faithful_iff hkept⟩
      · have hkept : Kept lead (remoteOwn d now) (lead.update (remoteOwn d now)) :=
          kept_update (nodup_remoteOwn d now)
        exact ⟨_, rfl, hkept, hrecorded.faithful_iff hkept⟩

/-- The way by which a contact came is asked for, under the name that a back office has for it. -/
def survey : Flow.LeadCapture :=
  { captureFields := [("source", { enabled := true, question := "How did you find us?" })]
    captureOrder := ["source"], saveToDatabase := true }

def surveyNode : Flow.Node := { id := "lead", block := .leadCapture survey }

def surveySetting : Setting :=
  ⟨{ id := "survey", nodes := [{ id := "start", block := .start {} }, surveyNode]
     edges := [{ source := "start", target := "lead" }] }, {}, { backend := true }⟩

/-- A session that was asked. -/
def surveyed : Session :=
  { id := "1", flowId := "survey", contact := { id := "c" }
    vars := [("lead_capture_node", .text "lead"), ("lead_capture_index", .int 0),
      ("lead_capture_data", .object []), ("lead_capture_field", .text "source")]
    startedAt := ⟨⟨2024, 1, 1⟩, 0, some 0⟩, lastActivityAt := ⟨⟨2024, 1, 1⟩, 0, some 0⟩ }

/-- The answer of the contact is saved, and the row does not have it. -/
theorem saved_lead_faithful_iff_survey : ∃ log e,
    (surveyNode.block = .leadCapture survey ∧ survey.saveToDatabase = true ∧
      (∀ soFar, capturedSoFar surveyed.vars = .ok soFar → soFar.names.Nodup) ∧
      (run surveySetting surveyNode surveyed (some "by a friend")).Comes log (.done e) ∧
        e.handle = "success") ∧
    ∃ lead, lead.get? "source" = some (.text "by a friend") ∧ ∀ desk : Desk, ∃ row,
      (desk.carryOut (saving survey lead)).2.table "leads" = desk.table "leads" ++ [.object row] ∧
        ¬ Faithful lead (surveyed.vars.update e.changes) row := by
  have hdistinct : ∀ soFar, capturedSoFar surveyed.vars = .ok soFar → soFar.names.Nodup := by
    intro soFar hs
    obtain rfl : [] = soFar := Except.ok.inj hs
    exact List.nodup_nil
  have hhandle : (match ((run surveySetting surveyNode surveyed (some "by a friend")).play
      Turn.obliging ()).1 with
      | .done e => e.handle
      | .failed _ => "") = "success" := by decide +kernel
  have hcomes := Program.comes_play Turn.obliging
    (run surveySetting surveyNode surveyed (some "by a friend")) ()
  split at hhandle
  · next e he =>
    rw [he] at hcomes
    obtain ⟨lead, hlead, -, -, hdesk, -⟩ := saved_lead_faithful_iff
      (d := survey) rfl rfl hdistinct hcomes hhandle
    have hsource : lead.get? "source" = some (.text "by a friend") := by
      obtain ⟨ha, hi, -, hf, -, -, rfl⟩ := hlead
      have hgiven : givenAnswer (some "by a friend") = some "by a friend" := by decide
      have hcursor : cursor? surveyNode.id surveyed.vars = some 0 := by decide
      have hfield : fieldAt survey.enabledFields 0 = .ok "source" := by rfl
      obtain rfl := Option.some.inj (hgiven.symm.trans ha)
      obtain rfl := Option.some.inj (hcursor.symm.trans hi)
      obtain rfl := Except.ok.inj (hfield.symm.trans hf)
      rw [Entries.get?_put, if_pos rfl]
    refine ⟨_, e, ⟨rfl, rfl, hdistinct, hcomes, hhandle⟩, lead, hsource, fun desk => ?_⟩
    obtain ⟨row, -, htable, -, hfaithful⟩ := hdesk desk
    refine ⟨row, htable, fun h => ?_⟩
    have hsame := (hfaithful.mp h).2.2 "source" _ (.text "whatsapp") hsource rfl
    exact absurd (Value.text.inj hsame) (by decide)
  · exact absurd hhandle (by decide)

end Desk
end Parley
