import Parley.Proofs.Step.Dialogues
import Parley.Proofs.Turn.Commit

/-!
# Dialogues over the restarts of a session

A session may begin its flow anew many times: it is completed or has failed and is addressed again,
or it is given back by a person.  Its variables stay, and so does what they keep of a dialogue.

`Career` is all that happens to a session, turn by turn and between the turns.
`standing k legs stops` is how a dialogue stands after the turns `legs` and the stops `stops` of one
more, told from the effects of the nodes alone: under way at a node, broken off there when the
session began anew before the dialogue was closed, or neither.  The variables keep just that
(`Kept`, `kept_of_career`).

So the first time a run comes to a lead capture it begins, and the first time it comes to a contract
search it looks contracts up, unless an earlier run was broken off in the dialogue of that very node
and none has been opened or closed since; then the dialogue goes on where it was broken off
(`restart_begins_afresh`).
-/

namespace Parley.Turn

open Step (Dialogue)
open Template (fill)

/-! ### The career of a session -/

/-- A turn that a session has taken: where it went, and the session as it left it. -/
structure Leg where
  stops : List Stop
  left : Session

/-- What becomes of a session.  It takes turns, each with a setting of its own and to a result; its
flow may be missing; and while a person has taken over, a ticket is noted, messages are noted, and
it is given back. -/
inductive Career (first : Session) : List Leg → Session → Prop where
  | opening : Career first [] first
  | turn {past : List Leg} {s s' : Session} {stops : List Stop} {r : Result}
      (h : Career first past s) (setting : Step.Setting) (now : Calendar.Moment)
      (message : Option String) (timeout : Option Binary64)
      (t : (tour setting now s message timeout).Ends (stops, .finished s' r)) :
      Career first (past ++ [⟨stops, s'⟩]) s'
  | orphaned {past : List Leg} {s : Session} (h : Career first past s) :
      Career first (past ++ [⟨[], { s with status := .error }⟩]) { s with status := .error }
  | ticketed {past : List Leg} {s : Session} (h : Career first past s) (hs : s.status = .handoff)
      (ticket : Value) : Career first past (s.assign "handoff_ticket_id" ticket)
  | noted {past : List Leg} {s : Session} (h : Career first past s) (hs : s.status = .handoff)
      (text : Value) (now : Calendar.Moment) :
      Career first past ((s.assign "last_user_message" text).touch now)
  | released {past : List Leg} {s : Session} (h : Career first past s) (hs : s.status = .handoff)
      (now : Calendar.Moment) : Career first past ({ s with status := .active }.touch now)

/-- A career goes on from where another has come to. -/
theorem Career.trans {first s s' : Session} {past run : List Leg} (h : Career first past s)
    (h' : Career s run s') : Career first (past ++ run) s' := by
  induction h' with
  | opening =>
      rw [List.append_nil]
      exact h
  | turn _ setting now message timeout t ih =>
      rw [← List.append_assoc]
      exact ih.turn setting now message timeout t
  | orphaned _ ih =>
      rw [← List.append_assoc]
      exact ih.orphaned
  | ticketed _ hs ticket ih => exact ih.ticketed hs ticket
  | noted _ hs text now ih => exact ih.noted hs text now
  | released _ hs now ih => exact ih.released hs now

/-! ### How a dialogue stands -/

/-- How a dialogue stands. -/
inductive Standing where
  | idle
  /-- It is open at a node. -/
  | underway (id : String)
  /-- It was open at a node when the session began its flow anew. -/
  | broken (id : String)
  deriving DecidableEq, Repr

namespace Standing

/-- The node at which it was opened and not closed. -/
def place? : Standing → Option String
  | .idle => none
  | .underway id | .broken id => some id

/-- The session begins its flow anew. -/
def breakOff : Standing → Standing
  | .underway id => .broken id
  | state => state

@[simp] theorem place?_breakOff (state : Standing) : state.breakOff.place? = state.place? := by
  cases state <;> rfl

theorem breakOff_ne_underway (state : Standing) (id : String) : state.breakOff ≠ .underway id := by
  cases state <;> simp [breakOff]

/-- After a stop: a step that names the owner opens the dialogue when it waits, and else closes it.
-/
def next (k : Dialogue) (state : Standing) (st : Stop) : Standing :=
  match st.effect? with
  | none => state
  | some e =>
    if k.leads st.node && e.changes.has k.owner then
      if e.waits then .underway st.node.id else .idle
    else state

/-- After a turn, which the next turn may take up or not. -/
def after (k : Dialogue) (state : Standing) (leg : Leg) : Standing :=
  let state := leg.stops.foldl (next k) state
  if takesUp leg.left then state else state.breakOff

end Standing

/-- How a dialogue stands after some turns and the stops of one more. -/
def standing (k : Dialogue) (legs : List Leg) (stops : List Stop) : Standing :=
  stops.foldl (Standing.next k) (legs.foldl (Standing.after k) .idle)

/-- One more turn goes on with a dialogue that it takes up, and breaks it off otherwise. -/
theorem standing_concat (k : Dialogue) (legs : List Leg) (leg : Leg) :
    standing k (legs ++ [leg]) [] =
      if takesUp leg.left then standing k legs leg.stops
        else (standing k legs leg.stops).breakOff := by
  simp only [standing, List.foldl_append, List.foldl_cons, List.foldl_nil, Standing.after]

/-- The node does not lead the dialogue and has written one of its variables. -/
def Stop.meddles (k : Dialogue) (st : Stop) : Bool :=
  match st.effect? with
  | none => false
  | some e => !k.leads st.node && k.names.any e.changes.has

/-- A stop at another node, or without an effect, does not open the dialogue at a node. -/
theorem Standing.next_ne_underway {k : Dialogue} {state : Standing} {st : Stop} {id : String}
    (h : state ≠ .underway id) (hst : st.node.id = id → st.effect? = none) :
    state.next k st ≠ .underway id := by
  unfold next
  cases he : st.effect? with
  | none => exact h
  | some e =>
      have hid : st.node.id ≠ id := fun hid => by
        rw [hst hid] at he
        cases he
      dsimp only
      split
      · split
        · simpa using hid
        · exact nofun
      · exact h

/-- A dialogue is not under way at a node that gave no effect. -/
theorem foldl_next_ne_underway {k : Dialogue} {stops : List Stop} {id : String}
    (hst : ∀ st ∈ stops, st.node.id = id → st.effect? = none) {state : Standing}
    (h : state ≠ .underway id) : stops.foldl (Standing.next k) state ≠ .underway id := by
  induction stops generalizing state with
  | nil => exact h
  | cons st rest ih =>
      exact ih (fun st' h' => hst st' (List.mem_cons_of_mem _ h'))
        (Standing.next_ne_underway h (hst st List.mem_cons_self))

/-- As long as a node has had no effect, no dialogue is under way there that was not before. -/
theorem standing_ne_underway {k : Dialogue} {past run : List Leg} {stops : List Stop} {id : String}
    (hst : ∀ st ∈ run.flatMap Leg.stops ++ stops, st.node.id = id → st.effect? = none)
    (h : standing k past [] ≠ .underway id) : standing k (past ++ run) stops ≠ .underway id := by
  refine foldl_next_ne_underway (fun st hs => hst st (List.mem_append_right _ hs)) ?_
  rw [List.foldl_append]
  replace hst : ∀ leg ∈ run, ∀ st ∈ leg.stops, st.node.id = id → st.effect? = none :=
    fun leg hleg st hs => hst st (List.mem_append_left _ (List.mem_flatMap.mpr ⟨leg, hleg, hs⟩))
  replace h : past.foldl (Standing.after k) .idle ≠ .underway id := h
  generalize past.foldl (Standing.after k) .idle = state at h ⊢
  -- over the turns since; none of them opens the dialogue at the node
  induction run generalizing state with
  | nil => exact h
  | cons leg rest ih =>
      refine ih (fun leg' h' => hst leg' (List.mem_cons_of_mem _ h')) _ ?_
      unfold Standing.after
      dsimp only
      split
      · exact foldl_next_ne_underway (hst leg List.mem_cons_self) h
      · exact Standing.breakOff_ne_underway _ _

/-! ### The variables keep it -/

/-- The variables keep how a dialogue stands: it is open at the node where it was opened and not
closed, and nowhere else. -/
structure Kept (k : Dialogue) (state : Standing) (vars : Fields) : Prop where
  sound : k.Sound vars
  isOpen (id : String) : k.isOpen vars id = true ↔ state.place? = some id

/-- Whether variables keep a dialogue depends on its own variables only. -/
theorem Kept.congr {k : Dialogue} (hk : k.Lawful) {state : Standing} {vars vars' : Fields}
    (h : Kept k state vars) (hv : ∀ name ∈ k.names, vars'.get? name = vars.get? name) :
    Kept k state vars' :=
  ⟨hk.sound_congr hv h.sound, fun id => by rw [hk.isOpen_congr hv id, h.isOpen]⟩

/-- A variable that does not belong to the dialogue may be written. -/
theorem Kept.put {k : Dialogue} (hk : k.Lawful) {state : Standing} {vars : Fields}
    (h : Kept k state vars) {name : String} (hn : name ∉ k.names) (v : Value) :
    Kept k state (vars.put name v) :=
  h.congr hk fun other ho => by
    have hne : name ≠ other := fun he => hn (he ▸ ho)
    rw [Entries.get?_put, if_neg hne]

/-- A dialogue that is broken off is kept. -/
theorem Kept.breakOff {k : Dialogue} {state : Standing} {vars : Fields} (h : Kept k state vars) :
    Kept k state.breakOff vars :=
  ⟨h.sound, fun id => by rw [h.isOpen, Standing.place?_breakOff]⟩

/-- **One stop.**  The effect of a node leaves the variables to keep how the dialogue stands then.
-/
theorem Kept.next {k : Dialogue} (hk : k.Lawful) {setting : Step.Setting} {state : Standing}
    (st : Stop) {e : Step.Effect} (h : Kept k state st.session.vars) (he : st.effect? = some e)
    (hr : (Step.run setting st.node st.session st.answer).Ends (.done e))
    (hm : st.meddles k = false) :
    Kept k (state.next k st) (st.session.vars.update e.changes) := by
  unfold Standing.next
  unfold Stop.meddles at hm
  rw [he] at hm ⊢
  dsimp only at hm ⊢
  cases hl : k.leads st.node with
  | false =>
      refine h.congr hk fun name hname => Entries.get?_update_of_notMem fun hmem => ?_
      rw [hl] at hm
      have := List.any_eq_false.mp (by simpa using hm) name hname
      exact this (Entries.has_eq_true_iff.mpr hmem)
  | true =>
      obtain ⟨ht, hs⟩ := hk.turns hl h.sound hr
      refine ⟨hs, fun id => ?_⟩
      cases ht with
      | opens ho hw hopen =>
          rw [ho, hw, hopen id]
          simp [Standing.place?, eq_comm]
      | closes ho hw hopen =>
          rw [ho, hw, hopen id]
          simp [Standing.place?]
      | stays ho hopen =>
          rw [ho, hopen id, h.isOpen]
          simp

/-- Every node finds variables that keep how the dialogue stands when the turn comes to it, as long
as no node before it has meddled. -/
def Finds (k : Dialogue) (state : Standing) (stops : List Stop) : Prop :=
  ∀ before st after, stops = before ++ st :: after → (∀ st ∈ before, st.meddles k = false) →
    Kept k (before.foldl (Standing.next k) state) st.session.vars

theorem finds_nil (k : Dialogue) (state : Standing) : Finds k state [] := by
  intro before st after h
  simp at h

theorem finds_cons {k : Dialogue} {state : Standing} {st : Stop} {rest : List Stop}
    (h : Kept k state st.session.vars)
    (hrest : st.meddles k = false → Finds k (state.next k st) rest) :
    Finds k state (st :: rest) := by
  intro before st' after hs hm
  rcases List.cons_eq_append_iff.mp hs with ⟨rfl, heq⟩ | ⟨before', rfl, heq⟩
  · cases heq
    exact h
  · exact hrest (hm st List.mem_cons_self) before' st' after heq fun st' h =>
      hm st' (List.mem_cons_of_mem _ h)

theorem finds_singleton {k : Dialogue} {state : Standing} {st : Stop}
    (h : Kept k state st.session.vars) : Finds k state [st] :=
  finds_cons h fun _ => finds_nil k _

/-- **The stops of a turn.**  Every node finds variables that keep how the dialogue stands, and so
does the turn leave them. -/
theorem kept_of_goes {k : Dialogue} (hk : k.Lawful) {f : Frame} {left : Nat} {w : Walk}
    {n : Flow.Node} {resumed : Bool} {answer : Option String} {stops : List Stop} {e : Ending}
    (h : Goes f left w n resumed answer stops e) {state : Standing}
    (hw : Kept k state w.session.vars) :
    Finds k state stops ∧ ((∀ st ∈ stops, st.meddles k = false) →
      e.Leaves fun s _ => Kept k (stops.foldl (Standing.next k) state) s.vars) := by
  -- a stop whose step is not committed leaves the variables, and `Standing.next` the state
  induction h generalizing state with
  | exhausted => exact ⟨finds_nil k state, fun _ => hw⟩
  | spared => exact ⟨finds_singleton hw, fun _ => hw⟩
  | deserted => exact ⟨finds_singleton hw, fun _ => trivial⟩
  | @cut _ w _ _ _ i =>
      refine ⟨finds_singleton hw, fun _ => ?_⟩
      cases i with
      | abandoned => trivial
      | deadline | cancelled => exact hw
  | @ended _ w n resumed answer r e hr hs =>
      refine ⟨finds_singleton hw, fun hm => ?_⟩
      cases hs with
      | failed => exact hw
      | @waits eff _ | @handsOff eff _ _ | @completes eff _ | @strays eff _ _ =>
          exact Kept.next hk ⟨n, resumed, w.session, answer, .over (.done eff)⟩ hw rfl hr
            (hm _ List.mem_cons_self)
  | @onward _ w n resumed answer r w' m rest e hr hs t ih =>
      cases hs with
      | @proceeds eff =>
          have hnext := Kept.next hk ⟨n, resumed, w.session, answer, .over (.done eff)⟩ hw rfl hr
          refine ⟨finds_cons hw fun hst => (ih (hnext hst)).1, fun hm => ?_⟩
          exact (ih (hnext (hm _ List.mem_cons_self))).2 fun st hst =>
            hm st (List.mem_cons_of_mem _ hst)

/-- A tour finds a dialogue as it was kept, and keeps it unless a node meddles. -/
theorem kept_of_tours {k : Dialogue} (hk : k.Lawful) {setting : Step.Setting}
    {now : Calendar.Moment} {session : Session} {message : Option String} {stops : List Stop}
    {e : Ending} (h : Tours setting now session message stops e) {state : Standing}
    (hs : Kept k state session.vars) :
    Finds k state stops ∧ ((∀ st ∈ stops, st.meddles k = false) →
      e.Leaves fun s _ => Kept k (stops.foldl (Standing.next k) state) s.vars) := by
  have hb : Kept k state (begun now session message).vars := by
    rw [vars_begun]
    unfold heard
    split
    · exact hs.put hk hk.free.1 _
    · exact hs
  cases h with
  | refused => exact ⟨finds_nil k state, fun _ => hs⟩
  | lost => exact ⟨finds_nil k state, fun _ => hb⟩
  | underway f _ _ he t => exact kept_of_goes hk t ((enters_of_entry he).vars ▸ hb)

theorem takesUp_of_status {s : Session} (h : s.status ≠ .waitingInput) : takesUp s = false := by
  simp [takesUp, Session.isWaiting, h]

/-- What a career keeps of a dialogue. -/
structure CareerKept (k : Dialogue) (legs : List Leg) (s : Session) : Prop where
  kept : Kept k (standing k legs []) s.vars
  /-- A dialogue is under way only while the session waits. -/
  underway (id : String) : standing k legs [] = .underway id → takesUp s = true

/-- Once a person has taken over no dialogue is under way. -/
theorem CareerKept.idle {k : Dialogue} {legs : List Leg} {s : Session} (h : CareerKept k legs s)
    (hs : takesUp s = false) (id : String) : standing k legs [] ≠ .underway id := fun hu => by
  rw [h.underway id hu] at hs
  cases hs

/-- **All that happens to a session.**  As long as nobody meddles, the variables keep how a dialogue
stands. -/
theorem kept_of_career {k : Dialogue} (hk : k.Lawful) {first s : Session} {legs : List Leg}
    (h : Career first legs s) (hfirst : ∀ name ∈ k.names, first.vars.get? name = none)
    (hm : ∀ st ∈ legs.flatMap Leg.stops, st.meddles k = false) : CareerKept k legs s := by
  induction h with
  | opening =>
      refine ⟨⟨hk.sound hfirst, fun id => ?_⟩, fun id h => nomatch h⟩
      rw [hk.closed hfirst id]
      simp [standing, Standing.place?]
  | @turn past s s' stops r h setting now message timeout t ih =>
      rw [List.flatMap_append, List.flatMap_singleton] at hm
      have hpast := ih fun st hst => hm st (List.mem_append_left _ hst)
      have hleft : Kept k (standing k past stops) s'.vars :=
        (kept_of_tours hk (tours_of_ends t) hpast.kept).2 fun st hst =>
          hm st (List.mem_append_right _ hst)
      -- when the session does not wait, whatever is open now is broken off
      refine ⟨?_, fun id hid => ?_⟩
      · rw [standing_concat]
        split
        · exact hleft
        · exact hleft.breakOff
      · rw [standing_concat] at hid
        split at hid
        · assumption
        · exact absurd hid (Standing.breakOff_ne_underway _ _)
  | @orphaned past s h ih =>
      have hpast := ih fun st hst => hm st (by simpa using hst)
      have hs : takesUp { s with status := .error } = false := takesUp_of_status nofun
      refine ⟨?_, fun id hid => ?_⟩
      · rw [standing_concat, hs]
        exact hpast.kept.breakOff
      · rw [standing_concat, hs] at hid
        exact absurd hid (Standing.breakOff_ne_underway _ _)
  | ticketed _ hs ticket ih =>
      have hpast := ih hm
      exact ⟨hpast.kept.put hk hk.free.2 ticket,
        fun id hid => absurd hid (hpast.idle (takesUp_of_status (by simp [hs])) id)⟩
  | noted _ hs text now ih =>
      have hpast := ih hm
      exact ⟨hpast.kept.put hk hk.free.1 text,
        fun id hid => absurd hid (hpast.idle (takesUp_of_status (by simp [hs])) id)⟩
  | released _ hs now ih =>
      have hpast := ih hm
      exact ⟨hpast.kept,
        fun id hid => absurd hid (hpast.idle (takesUp_of_status (by simp [hs])) id)⟩

/-! ### Restarts -/

/-- The dialogues that are kept in the variables. -/
def dialogues : List Dialogue := [Step.capture, Step.selection]

/-- What the first effect of a node in a run finds: its dialogue is open exactly when it was broken
off there. -/
theorem open_iff_broken {k : Dialogue} (hk : k.Lawful) {first s s₁ : Session} {past run : List Leg}
    (hfirst : ∀ name ∈ k.names, first.vars.get? name = none) (hpast : Career first past s)
    (hs : takesUp s = false) (hrun : Career s run s₁) {setting : Step.Setting}
    {now : Calendar.Moment} {message : Option String} {timeout : Option Binary64}
    {stops : List Stop} {e : Ending} (ht : (tour setting now s₁ message timeout).Ends (stops, e))
    {before after : List Stop} {st : Stop} (hst : stops = before ++ st :: after)
    (hm : ∀ st ∈ (past ++ run).flatMap Leg.stops ++ before, st.meddles k = false)
    (hnew : ∀ st' ∈ run.flatMap Leg.stops ++ before, st'.node.id = st.node.id →
      st'.effect? = none) :
    k.isOpen st.session.vars st.node.id = true ↔
      standing k (past ++ run) before = .broken st.node.id := by
  have hmeddle : ∀ st ∈ past.flatMap Leg.stops, st.meddles k = false := fun st h =>
    hm st (List.mem_append_left _ (by rw [List.flatMap_append]; exact List.mem_append_left _ h))
  have hrestart := kept_of_career hk hpast hfirst hmeddle
  have hcareer := kept_of_career hk (hpast.trans hrun) hfirst fun st h =>
    hm st (List.mem_append_left _ h)
  have hfinds := (kept_of_tours hk (tours_of_ends ht) hcareer.kept).1 before st after hst
      fun st h =>
    hm st (List.mem_append_right _ h)
  have hnot := standing_ne_underway hnew (hrestart.idle hs st.node.id)
  replace hfinds : Kept k (standing k (past ++ run) before) st.session.vars := hfinds
  rw [hfinds.isOpen]
  cases hstate : standing k (past ++ run) before with
  | idle => simp [Standing.place?]
  -- it is not open at this node, which would have had to open it since the restart
  | underway id =>
      have hid : id ≠ st.node.id := fun hid => hnot (hid ▸ hstate)
      simpa [Standing.place?] using hid
  | broken id => simp [Standing.place?]

/-- **A restart begins afresh, unless a dialogue was broken off.**  A session whose first variables
hold nothing of a dialogue has come through any career `past` to a turn that begins at the start
node (`hs`), and through `run` to a further turn, whatever the turns were told, whatever the
collaborators answered and whenever turns were cut short.  No node but lead captures and contract
searches has written the variables in which their dialogues are kept.  The turn comes to a node that
has had no effect since the restart.

A lead capture with a field to ask for begins: its introduction and the first question, the cursor
at zero, nothing captured.  The exception is exact: an earlier run was broken off in the capture of
that node, and none was opened or closed since; then the capture is not begun.

A contract search with a value to look up looks contracts up.  The exception is exact: an earlier
run was broken off in the selection of that node, and none was opened or closed since; then the back
office is asked nothing. -/
theorem restart_begins_afresh {first s s₁ : Session} {past run : List Leg}
    (hfirst : ∀ k ∈ dialogues, ∀ name ∈ k.names, first.vars.get? name = none)
    (hpast : Career first past s) (hs : takesUp s = false) (hrun : Career s run s₁)
    {setting : Step.Setting} {now : Calendar.Moment} {message : Option String}
    {timeout : Option Binary64} {stops : List Stop} {ending : Ending}
    (ht : (tour setting now s₁ message timeout).Ends (stops, ending)) {before after : List Stop}
    {st : Stop} (hst : stops = before ++ st :: after)
    (hm : ∀ k ∈ dialogues, ∀ st ∈ (past ++ run).flatMap Leg.stops ++ before, st.meddles k = false)
    (hnew : ∀ st' ∈ run.flatMap Leg.stops ++ before, st'.node.id = st.node.id →
      st'.effect? = none) :
    (∀ d field rest, st.node.block = .leadCapture d → d.enabledFields = field :: rest →
      (standing Step.capture (past ++ run) before ≠ .broken st.node.id →
        Step.run setting st.node st.session st.answer = .done (.ofResult do
          let question ← fill (d.questionFor field) st.session.vars
          let intro ← fill d.introMessage st.session.vars
          return { output := .one (if intro = "" then question else intro ++ "\n\n" ++ question),
                   course := .wait,
                   changes := [("lead_capture_node", .text st.node.id),
                     ("lead_capture_index", .int 0), ("lead_capture_data", .object []),
                     ("lead_capture_field", .text field)] })) ∧
      (standing Step.capture (past ++ run) before = .broken st.node.id →
        ∀ e, (Step.run setting st.node st.session st.answer).Ends (.done e) → e.waits = true →
          e.changes.has "lead_capture_node" = false)) ∧
    (∀ d message value, st.node.block = .contractSearch d →
      fill d.selectionMessage st.session.vars = .ok message →
      Step.lookupValue st.session.vars st.session.contact d = .ok value → value ≠ "" →
      setting.team.backend = true →
      (standing Step.selection (past ++ run) before ≠ .broken st.node.id →
        ∃ next, Step.run setting st.node st.session st.answer =
          .request (.consult (.findContracts d.identifyBy value) setting.policy.callBound) next) ∧
      (standing Step.selection (past ++ run) before = .broken st.node.id →
        (Step.run setting st.node st.session st.answer).Quiet)) := by
  have hcap : Step.capture ∈ dialogues := by simp [dialogues]
  have hsel : Step.selection ∈ dialogues := by simp [dialogues]
  -- each dialogue is open at the node exactly when it broke off there
  have hcapture := open_iff_broken Step.capture_lawful (hfirst _ hcap) hpast hs hrun ht hst
    (hm _ hcap) hnew
  have hselection := open_iff_broken Step.selection_lawful (hfirst _ hsel) hpast hs hrun ht
    hst (hm _ hsel) hnew
  refine ⟨fun d field rest hb hd => ⟨fun hne => ?_, fun hbroken e hr hw => ?_⟩,
    fun d message value hb hf hl hv hback => ⟨fun hne => ?_, fun hbroken => ?_⟩⟩
  · exact Step.run_of_capture_closed hb hd (Bool.eq_false_iff.mpr (mt hcapture.mp hne))
  · exact Step.not_owns_of_capture_open (by simp [Step.capture, hb]) (hcapture.mpr hbroken) hr hw
  · exact Step.run_of_selection_closed hb hf hl hv hback
      (Bool.eq_false_iff.mpr (mt hselection.mp hne))
  · exact Step.quiet_of_selection_open hb (hselection.mpr hbroken)

/-- A capture of the nickname, with a way on only for those who are known already. -/
def signup : Flow :=
  { id := "signup"
    nodes := [{ id := "start", block := .start {} },
      { id := "lead", block := .leadCapture { captureFields := [("nickname",
                                                { enabled := true, question := "Your nickname?" })],
                                              captureOrder := ["nickname"],
                                              introMessage := "Welcome." } },
      { id := "bye", block := .ending {} }]
    edges := [{ source := "start", target := "lead" },
      { source := "lead", target := "bye", sourceHandle := some "duplicate" }] }

/-- The capture under strict routing: without a way on for its handle a node fails. -/
def signupSetting : Step.Setting := ⟨signup, { strictRouting := true }, {}⟩

/-- A new session of the capture. -/
def applicant : Session := { newcomer with flowId := "signup" }

/-- A turn of the capture, with a message. -/
def signupTurn (s : Session) (message : String) : List Stop × Ending :=
  ((tour signupSetting newYear s (some message) none).play (undisturbed silent 0) ()).1

/-- The nickname is asked for. -/
def signupAsked : List Stop × Ending := signupTurn applicant "hi"

/-- The nickname is given, and the run fails for want of a way on. -/
def signupFailed : List Stop × Ending := signupTurn signupAsked.2.session "Ana"

/-- The run that begins anew. -/
def signupAgain : List Stop × Ending := signupTurn signupFailed.2.session "hello"

/-- The fields that a node asks for. -/
def fieldsOf : Flow.Block → List String
  | .leadCapture d => d.enabledFields
  | _ => []

/-- The leg of a turn. -/
def legOf (t : List Stop × Ending) : Leg := ⟨t.1, t.2.session⟩

/-- A turn that comes to a result, as part of a career. -/
theorem Career.played {first : Session} {past : List Leg} {s : Session} (h : Career first past s)
    {setting : Step.Setting} {now : Calendar.Moment} {message : Option String}
    {timeout : Option Binary64} {t : List Stop × Ending}
    (ht : (tour setting now s message timeout).Ends t) (hr : t.2.result?.isSome = true) :
    Career first (past ++ [legOf t]) t.2.session := by
  obtain ⟨stops, e⟩ := t
  cases e with
  | abandoned s' => cases hr
  | finished s' r => exact h.turn setting now message timeout ht

/-- The nickname is captured, the run fails, and the next run asks for it once more, without the
introduction. -/
theorem restart_begins_afresh_signup :
    ∃ past s stops ending before st after,
      ((∀ k ∈ dialogues, ∀ name ∈ k.names, applicant.vars.get? name = none) ∧
        Career applicant past s ∧ takesUp s = false ∧
        (tour signupSetting newYear s (some "hello") none).Ends (stops, ending) ∧
        stops = before ++ st :: after ∧
        (∀ k ∈ dialogues, ∀ st ∈ (past ++ []).flatMap Leg.stops ++ before, st.meddles k = false) ∧
        ∀ st' ∈ ([] : List Leg).flatMap Leg.stops ++ before, st'.node.id = st.node.id →
          st'.effect? = none) ∧
      ending.result?.map (·.messages) = some ["Your nickname?"] ∧
      (standing Step.capture (past ++ []) before = .broken st.node.id →
        ∀ e, (Step.run signupSetting st.node st.session st.answer).Ends (.done e) → e.waits = true →
          e.changes.has "lead_capture_node" = false) ∧
      standing Step.capture (past ++ []) before = .broken st.node.id := by
  have hfirst : ∀ k ∈ dialogues, ∀ name ∈ k.names, applicant.vars.get? name = none :=
    fun _ _ _ _ => rfl
  have hcareer : Career applicant [legOf signupAsked, legOf signupFailed] signupFailed.2.session :=
    (Career.opening.played (Program.ends_play _ _ _) (by decide +kernel)).played
      (Program.ends_play _ _ _) (by decide +kernel)
  have hs : takesUp signupFailed.2.session = false := by decide +kernel
  have ht : (tour signupSetting newYear signupFailed.2.session (some "hello") none).Ends
      (signupAgain.1, signupAgain.2) := Program.ends_play _ _ _
  have hm : ∀ k ∈ dialogues, ∀ st ∈ ([legOf signupAsked, legOf signupFailed] ++ []).flatMap
      Leg.stops ++ signupAgain.1.take 1, st.meddles k = false := by decide +kernel
  have hids : signupAgain.1.map (·.node.id) = ["start", "lead"] := by decide +kernel
  obtain ⟨start, lead, hstops⟩ := List.length_eq_two.mp (by simpa using congrArg List.length hids)
  rw [hstops] at hids
  obtain ⟨hstart, hlead⟩ : start.node.id = "start" ∧ lead.node.id = "lead" := by simpa using hids
  have hfields : signupAgain.1.map (fieldsOf ·.node.block) = [[], ["nickname"]] := by decide +kernel
  have hbroken : standing Step.capture ([legOf signupAsked, legOf signupFailed] ++ [])
      (signupAgain.1.take 1) = .broken "lead" := by decide +kernel
  have hsaid : signupAgain.2.result?.map (·.messages) = some ["Your nickname?"] := by
    decide +kernel
  rw [hstops] at ht hm hbroken
  have hnew : ∀ st' ∈ ([] : List Leg).flatMap Leg.stops ++ [start], st'.node.id = lead.node.id →
      st'.effect? = none := by
    intro st' h hid
    obtain rfl : st' = start := by simpa using h
    rw [hstart, hlead] at hid
    exact absurd hid (by decide)
  have hlast := restart_begins_afresh hfirst hcareer hs .opening ht
    (show [start, lead] = [start] ++ lead :: [] from rfl) hm hnew
  rw [← hlead] at hbroken
  obtain ⟨d, hb, hd⟩ : ∃ d, lead.node.block = .leadCapture d ∧ d.enabledFields = ["nickname"] := by
    rw [hstops] at hfields
    have hf : fieldsOf lead.node.block = ["nickname"] := by simpa using (List.cons.inj hfields).2
    revert hf
    cases lead.node.block with
    | leadCapture d => exact fun hf => ⟨d, rfl, hf⟩
    | _ => exact fun hf => nomatch hf
  exact ⟨_, _, _, _, _, _, _, ⟨hfirst, hcareer, hs, ht, rfl, hm, hnew⟩, hsaid,
    (hlast.1 d _ _ hb hd).2, hbroken⟩

end Parley.Turn
