import Parley.Proofs.Session.Document
import Parley.Proofs.Turn.Conversation

/-!
# Whose session a turn leaves, and when

A turn does not change which session it takes, and it leaves the session active at the moment of the
turn, which is also the moment of every visit that the turn adds (`Stamped`).
-/

namespace Parley.Turn

/-- The session is the same one, stamped with the moment. -/
structure Stamped (now : Calendar.Moment) (s s' : Session) : Prop where
  id : s'.id = s.id
  contact : s'.contact = s.contact
  flowId : s'.flowId = s.flowId
  flowVersion : s'.flowVersion = s.flowVersion
  startedAt : s'.startedAt = s.startedAt
  active : s'.lastActivityAt = now
  history : ∀ v ∈ s'.history, v ∈ s.history ∨ v.moment = now

variable {now : Calendar.Moment}

theorem mem_of_mem_lastOf {α : Type} {limit : Int} {items : List α} {a : α}
    (h : a ∈ Session.lastOf limit items) : a ∈ items := by
  unfold Session.lastOf at h
  split at h
  · exact List.mem_of_mem_drop h
  · exact h

/-- A visit is recorded, and the session may stand elsewhere, with other variables and another
status. -/
theorem Stamped.record {s s' s'' : Session} {f : Frame} (h : Stamped f.now s s') (n : Flow.Node)
    (action : String) (hs : s''.id = s'.id ∧ s''.contact = s'.contact ∧ s''.flowId = s'.flowId ∧
      s''.flowVersion = s'.flowVersion ∧ s''.startedAt = s'.startedAt ∧
      s''.lastActivityAt = s'.lastActivityAt)
    (hh : s''.history = (f.record s' n action).history) : Stamped f.now s s'' := by
  obtain ⟨hid, hcontact, hflow, hversion, hstart, hactive⟩ := hs
  refine ⟨hid.trans h.id, hcontact.trans h.contact, hflow.trans h.flowId,
    hversion.trans h.flowVersion, hstart.trans h.startedAt, hactive.trans h.active, fun v hv => ?_⟩
  rw [hh] at hv
  rcases List.mem_append.mp (mem_of_mem_lastOf hv) with hv | hv
  · exact h.history v hv
  · exact .inr (congrArg Session.Visit.moment (List.mem_singleton.mp hv))

/-- The turn ends, and touches the session. -/
theorem Stamped.touched {s s' s'' : Session} (h : Stamped now s s')
    (hs : s''.id = s'.id ∧ s''.contact = s'.contact ∧ s''.flowId = s'.flowId ∧
      s''.flowVersion = s'.flowVersion ∧ s''.startedAt = s'.startedAt ∧ s''.history = s'.history)
    (ha : s''.lastActivityAt = now) : Stamped now s s'' := by
  obtain ⟨hid, hcontact, hflow, hversion, hstart, hhistory⟩ := hs
  exact ⟨hid.trans h.id, hcontact.trans h.contact, hflow.trans h.flowId,
    hversion.trans h.flowVersion, hstart.trans h.startedAt, ha, fun v hv =>
      h.history v (hhistory ▸ hv)⟩

theorem stamped_begun (session : Session) (message : Option String) :
    Stamped now session (begun now session message) := by
  rw [begun_eq]
  exact ⟨rfl, rfl, rfl, rfl, rfl, rfl, fun _ hv => .inl hv⟩

/-- An ending leaves the session so. -/
theorem stamped_of_settles {f : Frame} {w : Walk} {n : Flow.Node} {o : Step.Outcome} {e : Ending}
    {s : Session} (h : Stamped f.now s w.session) (hs : Settles f w n o (.inl e)) :
    Stamped f.now s e.session := by
  cases hs with
  | failed => exact h.record n "failed" ⟨rfl, rfl, rfl, rfl, rfl, h.active.symm⟩ rfl
  | @waits e | @handsOff e | @completes e | @strays e =>
      exact h.record n (Frame.actionOf e.course) ⟨rfl, rfl, rfl, rfl, rfl, h.active.symm⟩ rfl

theorem stamped_of_goes {f : Frame} {left : Nat} {w : Walk} {n : Flow.Node} {resumed : Bool}
    {answer : Option String} {stops : List Stop} {e : Ending} {s : Session}
    (hw : Stamped f.now s w.session) (h : Goes f left w n resumed answer stops e) :
    Stamped f.now s e.session := by
  induction h with
  | exhausted => exact hw.touched ⟨rfl, rfl, rfl, rfl, rfl, rfl⟩ rfl
  | spared w n => exact hw.record n "aborted" ⟨rfl, rfl, rfl, rfl, rfl, hw.active.symm⟩ rfl
  | deserted => exact hw
  | @cut _ w n _ _ i =>
      cases i with
      | abandoned => exact hw
      | deadline | cancelled =>
          exact hw.record n "aborted" ⟨rfl, rfl, rfl, rfl, rfl, hw.active.symm⟩ rfl
  | ended w n resumed answer _ hs => exact stamped_of_settles (w := w.stepped) hw hs
  | @onward _ w n _ _ _ _ _ _ _ _ hs _ ih =>
      cases hs with
      | @proceeds e => exact ih (hw.record n (Frame.actionOf e.course)
          ⟨rfl, rfl, rfl, rfl, rfl, rfl⟩ rfl)

/-- **A turn keeps whose session it is and stamps it with its moment.** -/
theorem stamped_of_ends {setting : Step.Setting} {session : Session} {message : Option String}
    {timeout : Option Binary64} {e : Ending}
    (h : (run setting now session message timeout).Ends e) : Stamped now session e.session := by
  obtain ⟨stops, ht⟩ := ends_run_iff.mp h
  obtain ⟨start, ht⟩ := Program.ends_request_iff.mp ht
  have hb : Stamped now session (begun now session message) := stamped_begun session message
  dsimp only at ht
  split at ht
  · cases Program.ends_done_iff.mp ht
    exact ⟨rfl, rfl, rfl, rfl, rfl, rfl, fun _ hv => .inl hv⟩
  · split at ht
    · cases Program.ends_done_iff.mp ht
      exact hb.touched ⟨rfl, rfl, rfl, rfl, rfl, rfl⟩ rfl
    · next he =>
      refine stamped_of_goes ?_ (goes_of_ends ht)
      cases enters_of_entry he with
      | again => exact hb
      | anew => exact hb.touched ⟨rfl, rfl, rfl, rfl, rfl, rfl⟩ hb.active

/-- A turn leaves a session that documents can hold, as it took one. -/
theorem Stamped.written {s s' : Session} (h : Stamped now s s') (hs : s.Written)
    (hnow : now.Written) :
    s'.Written where
  started := h.startedAt ▸ hs.started
  active := h.active ▸ hnow
  history v hv := (h.history v hv).elim (hs.history v) fun he => he ▸ hnow

end Parley.Turn

/-!
## What a result tells of the session

The result of a turn names the session and its flow, has its variables and its node, and its state
is the one that the status of the session belongs to (`Reports`).  There is a hand-off in it just
when that is its state (`handoff_of_ends`).
-/

namespace Parley.Turn

/-- The result is about the session as it is. -/
structure Reports (s : Session) (r : Result) : Prop where
  id : r.sessionId = s.id
  flowId : r.flowId = s.flowId
  vars : r.vars = s.vars
  node : r.currentNodeId = s.currentNodeId
  status : s.status = r.state.status

theorem reports_finish {f : Frame} {w : Walk} {state : State} {error : String}
    {handoff : Option Handoff} (h : w.session.status = state.status) :
    (f.finish w state error handoff).Leaves Reports :=
  ⟨rfl, rfl, rfl, rfl, h⟩

theorem reports_of_settles {f : Frame} {w : Walk} {n : Flow.Node} {o : Step.Outcome} {e : Ending}
    (hs : Settles f w n o (.inl e)) : e.Leaves Reports := by
  cases hs with
  | failed | waits | handsOff | completes | strays => exact reports_finish rfl

theorem reports_of_goes {f : Frame} {left : Nat} {w : Walk} {n : Flow.Node} {resumed : Bool}
    {answer : Option String} {stops : List Stop} {e : Ending}
    (h : Goes f left w n resumed answer stops e) : e.Leaves Reports := by
  induction h with
  | exhausted | spared => exact reports_finish rfl
  | deserted => trivial
  | @cut _ _ _ _ _ i =>
      cases i with
      | abandoned => trivial
      | deadline | cancelled => exact reports_finish rfl
  | ended _ _ _ _ _ hs => exact reports_of_settles hs
  | onward _ _ _ _ _ _ _ ih => exact ih

/-- **A turn ends with a result about the session that it leaves.** -/
theorem reports_of_ends {setting : Step.Setting} {now : Calendar.Moment} {session s : Session}
    {message : Option String} {timeout : Option Binary64} {r : Result}
    (h : (run setting now session message timeout).Ends (.finished s r)) : Reports s r := by
  obtain ⟨stops, ht⟩ := ends_run_iff.mp h
  have hleaves : (Ending.finished s r).Leaves Reports := by
    cases tours_of_ends ht with
    | refused | lost => exact reports_finish rfl
    | underway f _ _ _ t => exact reports_of_goes t
  exact hleaves

/-- The result has a hand-off just when it tells so. -/
def TellsHandoff (_ : Session) (r : Result) : Prop := r.handoff.isSome ↔ r.state = .handoff

theorem handoff_of_goes {f : Frame} {left : Nat} {w : Walk} {n : Flow.Node} {resumed : Bool}
    {answer : Option String} {stops : List Stop} {e : Ending}
    (h : Goes f left w n resumed answer stops e) : e.Leaves TellsHandoff := by
  induction h with
  | exhausted | spared => exact ⟨nofun, nofun⟩
  | deserted => trivial
  | @cut _ _ _ _ _ i =>
      cases i with
      | abandoned => trivial
      | deadline | cancelled => exact ⟨nofun, nofun⟩
  | ended _ _ _ _ _ hs =>
      cases hs with
      | handsOff => exact ⟨fun _ => rfl, fun _ => rfl⟩
      | failed | waits | completes | strays => exact ⟨nofun, nofun⟩
  | onward _ _ _ _ _ _ _ ih => exact ih

/-- **A result has a hand-off** just when its state is that. -/
theorem handoff_of_ends {setting : Step.Setting} {now : Calendar.Moment} {session s : Session}
    {message : Option String} {timeout : Option Binary64} {r : Result}
    (h : (run setting now session message timeout).Ends (.finished s r)) :
    r.handoff.isSome ↔ r.state = .handoff := by
  obtain ⟨stops, ht⟩ := ends_run_iff.mp h
  have hleaves : (Ending.finished s r).Leaves TellsHandoff := by
    cases tours_of_ends ht with
    | refused | lost => exact ⟨nofun, nofun⟩
    | underway f _ _ _ t => exact handoff_of_goes t
  exact hleaves

end Parley.Turn
