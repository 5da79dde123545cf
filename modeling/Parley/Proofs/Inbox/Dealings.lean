import Parley.Proofs.Inbox.Course
import Parley.Proofs.Inbox.Makes
import Parley.Proofs.Store.Single

/-!
# All dealings with one session

What is done about a message with a session in hand is one of six things (`Attends`): it is noted
for the person who has taken over; there is no flow for it; the turn is abandoned; the turn ends and
no ticket is asked for; a ticket is asked for and there is an answer; or the task is abandoned while
the ticket is opened.  Each says all that is asked, all that is stored and how it ends.

`Dealings setting id reg st past reg' st'`: from `st` to `st'` messages were handled in the session
with the id, and it was released, in the order of `past` and one after the other; between them the
registry may change, and the store as well as far as it leaves the id alone.  A message is handled
in the session that its search comes to (`Handled.In`), however the message was addressed.
-/

namespace Parley.Inbox

open Calendar

variable {setting : Setting} {reg reg' : Registry} {st st' : Store} {log : List Exchange}
  {s : Session} {text : Option String} {id : String}

/-! ### With a session in hand -/

/-- The session with a message noted for the person who has taken over. -/
def noted (s : Session) (text : Option String) (now : Moment) : Session :=
  (s.assign "last_user_message" (.ofOption .text text)).touch now

/-- What is told of a session that a person has taken over. -/
def takenOver (s : Session) : Turn.Result :=
  { sessionId := s.id, flowId := s.flowId, state := .handoff, vars := s.vars,
    currentNodeId := s.currentNodeId }

/-- The request for the ticket of a hand-off. -/
def ticketOp (setting : Setting) (s : Session) (h : Handoff) : Op :=
  .ticket h.targetId h.priority.name h.reason (ticketMetadata s h) setting.policy.ticketBound

/-- A turn of the session on the flow of its version, with what it was replied. -/
inductive Turned (setting : Setting) (reg : Registry) (s : Session) (text : Option String) :
    List Exchange → List Turn.Stop → Turn.Ending → Prop where
  | mk {flow : Flow} {now : Moment} {turn : List (Program.Exchange Turn.Op Turn.Op.Reply)}
      {stops : List Turn.Stop} {e : Turn.Ending}
        (hv : reg.version? s.flowId s.flowVersion = some flow)
      (hutc : now.Utc)
      (ht : (Turn.tour ⟨flow, setting.policy, setting.team⟩ now s text none).Comes turn
        (stops, e)) :
      Turned setting reg s text
        (⟨.version s.flowId s.flowVersion, some flow⟩ :: ⟨.now, now⟩ :: turn.map inTurn) stops e

/-- What is done about a message with a session in hand: what is asked, the store then, and how it
ends. -/
inductive Attends (setting : Setting) (reg : Registry) (st : Store) (s : Session)
    (text : Option String) :
    List Exchange → Store → Outcome Turn.Result → Prop where
  /-- A person has taken over, and the message is noted. -/
  | noted (h : s.status = .handoff) {now : Moment} (hutc : now.Utc)
      (saved : Except Parley.Fault Unit) :
      Attends setting reg st s text [⟨.now, now⟩, ⟨.save (noted s text now), saved⟩]
        (st.save (noted s text now)) (.once saved (.done (takenOver (noted s text now))))
  /-- The version of the flow was never registered. -/
  | orphaned (h : s.status ≠ .handoff) (hv : reg.version? s.flowId s.flowVersion = none)
      (saved : Except Parley.Fault Unit) :
      Attends setting reg st s text
        [⟨.version s.flowId s.flowVersion, none⟩, ⟨.save { s with status := .error }, saved⟩]
        (st.save { s with status := .error })
        (.once saved (.refused (.notRegistered s.flowId s.flowVersion)))
  /-- The turn is abandoned. -/
  | deserted (h : s.status ≠ .handoff) {turned : List Exchange} {stops : List Turn.Stop}
      {s' : Session}
      (ht : Turned setting reg s text turned stops (.abandoned s')) :
      Attends setting reg st s text turned st .abandoned
  /-- The turn ends, and no ticket is asked for. -/
  | plain (h : s.status ≠ .handoff) {turned : List Exchange} {stops : List Turn.Stop} {s' : Session}
      {r : Turn.Result} (ht : Turned setting reg s text turned stops (.finished s' r))
      (hh : r.handoff = none ∨ setting.team.backend = false) (saved : Except Parley.Fault Unit) :
      Attends setting reg st s text (turned ++ [⟨.save s', saved⟩]) (st.save s')
        (.once saved (.done r))
  /-- The turn hands off, and there is an answer about the ticket. -/
  | ticketed (h : s.status ≠ .handoff) {turned : List Exchange} {stops : List Turn.Stop}
      {s' : Session}
      {r : Turn.Result} (ht : Turned setting reg s text turned stops (.finished s' r))
        {handoff : Handoff}
      (hh : r.handoff = some handoff) (hb : setting.team.backend = true)
        (answer : Except Parley.Fault Value)
      (saved : Except Parley.Fault Unit) :
      Attends setting reg st s text
        (turned ++ [⟨ticketOp setting s' handoff, some answer⟩,
          ⟨.save (writeTicket s' r (ticketId? answer)).1, saved⟩])
        (st.save (writeTicket s' r (ticketId? answer)).1)
        (.once saved (.done (writeTicket s' r (ticketId? answer)).2))
  /-- The turn hands off, and the task is abandoned before there is an answer about the ticket. -/
  | dropped (h : s.status ≠ .handoff) {turned : List Exchange} {stops : List Turn.Stop}
      {s' : Session}
      {r : Turn.Result} (ht : Turned setting reg s text turned stops (.finished s' r))
        {handoff : Handoff}
      (hh : r.handoff = some handoff) (hb : setting.team.backend = true) :
      Attends setting reg st s text (turned ++ [⟨ticketOp setting s' handoff, none⟩]) st .abandoned

/-- What leads a turn to its end leads its tour there. -/
theorem tour_of_comes {setting : Step.Setting} {now : Moment} {s : Session} {text : Option String}
    {timeout : Option Binary64} {turn : List (Program.Exchange Turn.Op Turn.Op.Reply)}
    {e : Turn.Ending} (h : (Turn.run setting now s text timeout).Comes turn e) :
    ∃ stops, (Turn.tour setting now s text timeout).Comes turn (stops, e) := by
  rw [Turn.run_eq_tour] at h
  obtain ⟨turn, none', ⟨stops, e'⟩, rfl, h, hdone⟩ := Program.comes_bind_iff.mp h
  obtain ⟨rfl, rfl⟩ := Program.comes_done_iff.mp hdone
  exact ⟨stops, (List.append_nil turn).symm ▸ h⟩

/-- **All that may be done about a message** with a session in hand. -/
theorem attends_of_makes {o : Outcome Turn.Result}
    (h : Makes reg st (attend setting text s) log st' (.done o)) :
    Attends setting reg st s text log st' o := by
  unfold attend at h
  split at h
  · next hs =>
    obtain ⟨now, rest, rfl, hutc, h⟩ := Makes.of_request h
    obtain ⟨saved, rfl, rfl, rfl⟩ := makes_save_once h
    exact .noted hs hutc saved
  · next hs =>
    -- nobody has taken the session over, so a turn is due
    rw [takeTurn_eq] at h
    obtain ⟨flow?, rest, rfl, hv, h⟩ := Makes.of_request h
    cases flow? with
    | none =>
        obtain ⟨saved, rfl, rfl, rfl⟩ := makes_save_once h
        exact .orphaned hs hv.symm saved
    | some flow =>
        obtain ⟨now, rest, rfl, hutc, h⟩ := Makes.of_request h
        obtain ⟨log₁, log₂, e, st₁, rfl, h₁, h₂⟩ := h.of_bind
        obtain ⟨rfl, turn, rfl, ht⟩ := h₁.of_turn
        obtain ⟨stops, ht⟩ := tour_of_comes ht
        have hturned : Turned setting reg s text _ stops e := .mk hv.symm hutc ht
        cases e with
        | abandoned s' =>
            obtain ⟨rfl, rfl, rfl⟩ := Makes.of_done h₂
            rw [List.append_nil]
            exact .deserted hs hturned
        | finished s' r =>
            rw [settle_finished] at h₂
            rcases hh : r.handoff with _ | handoff
            · rw [hh] at h₂
              obtain ⟨saved, rfl, rfl, rfl⟩ := makes_save_once h₂
              exact .plain hs hturned (.inl hh) saved
            · rw [hh] at h₂
              unfold ticketFor openTicket at h₂
              dsimp only at h₂
              split at h₂
              · next hb =>
                obtain ⟨answer?, rest, rfl, -, h₂⟩ := Makes.of_request h₂
                cases answer? with
                | none =>
                    obtain ⟨rfl, rfl, rfl⟩ := Makes.of_done h₂
                    exact .dropped hs hturned hh hb
                | some answer =>
                    obtain ⟨saved, rfl, rfl, rfl⟩ := makes_save_once h₂
                    exact .ticketed hs hturned hh hb answer saved
              · next hb =>
                obtain ⟨saved, rfl, rfl, rfl⟩ := makes_save_once h₂
                exact .plain hs hturned (.inr (Bool.eq_false_iff.mpr hb)) saved

/-- The request is for the id of a new session. -/
def Op.begins : Op → Bool
  | .newId => true
  | _ => false

/-- No session is begun. -/
theorem Attends.begins_none {o : Outcome Turn.Result}
    (h : Attends setting reg st s text log st' o) :
    ∀ e ∈ log, e.op.begins = false := by
  have hturned {turned : List Exchange} {stops : List Turn.Stop} {e : Turn.Ending}
      (ht : Turned setting reg s text turned stops e) : ∀ e ∈ turned, e.op.begins = false := by
    cases ht with
    | mk => simp [Op.begins, inTurn]
  cases h with
  | noted | orphaned => simp [Op.begins]
  | deserted _ ht => exact hturned ht
  | plain _ ht | ticketed _ ht | dropped _ ht =>
      rw [List.forall_mem_append]
      exact ⟨hturned ht, by simp [Op.begins, ticketOp]⟩

theorem Turned.written {turned : List Exchange} {stops : List Turn.Stop} {e : Turn.Ending}
    (h : Turned setting reg s text turned stops e) (hw : s.Written) :
    e.session.id = s.id ∧ e.session.Written := by
  cases h with
  | @mk flow now turn _ _ _ hutc ht =>
    have hs := Turn.stamped_of_ends (Turn.ends_run_iff.mpr ⟨stops, ht.ends⟩)
    exact ⟨hs.id, hs.written hw hutc.written⟩

/-! ### A message and its session -/

/-- With the exchanges of a program at the head of a list it comes to one value. -/
theorem eq_of_comes {α : Type} {p : InboxProgram α} {log₁ log₂ rest₁ rest₂ : List Exchange}
    {a b : α} (h₁ : p.Comes (log₁.map Exchange.plain) a) (h₂ : p.Comes (log₂.map Exchange.plain) b)
    (h : log₁ ++ rest₁ = log₂ ++ rest₂) : log₁ = log₂ ∧ a = b := by
  rcases List.prefix_or_prefix_of_prefix (List.prefix_append log₁ rest₁)
    (h ▸ List.prefix_append log₂ rest₂) with hl | hl
  · obtain ⟨hmap, rfl⟩ := h₁.of_prefix h₂ (hl.map _)
    exact ⟨hl.eq_of_length (by simpa using congrArg List.length hmap), rfl⟩
  · obtain ⟨hmap, rfl⟩ := h₂.of_prefix h₁ (hl.map _)
    exact ⟨(hl.eq_of_length (by simpa using congrArg List.length hmap)).symm, rfl⟩

/-- A message that was handled: how it was addressed, all that was asked, and how its handling
ended. -/
structure Handled where
  contact : Contact
  text : Option String
  flowId : String
  sessionId : String
  log : List Exchange
  outcome : Outcome Turn.Result

namespace Handled

variable {m : Handled} {s? : Option Session} {stops : List Turn.Stop} {e : Turn.Ending}

/-- The message is handled in the session, to which its search comes.  An id that is given for a new
session is not the id of a stored one. -/
structure In (m : Handled) (setting : Setting) (reg : Registry) (st : Store) (s : Session)
    (st' : Store) :
    Prop where
  goes : Goes reg st (handle setting m.contact m.text m.flowId m.sessionId) m.log st'
    (.done m.outcome)
  found : ∃ seek rest, m.log = ⟨.acquire m.contact.id, true⟩ :: (seek ++ rest) ∧
    (findSession m.contact m.text m.flowId m.sessionId).Comes (seek.map Exchange.plain) (.done s)
  fresh : ∀ id, ⟨.newId, id⟩ ∈ m.log → st.rows.get? id = none

/-- A turn of the session is taken for the message, and it goes so. -/
def Runs (m : Handled) (setting : Setting) (reg : Registry) (s : Session) (stops : List Turn.Stop)
    (e : Turn.Ending) : Prop :=
  ∃ seek turned rest, m.log = ⟨.acquire m.contact.id, true⟩ :: (seek ++ (turned ++ rest)) ∧
    (findSession m.contact m.text m.flowId m.sessionId).Comes (seek.map Exchange.plain) (.done s) ∧
    Turned setting reg s m.text turned stops e

/-- How a message is handled in a session: what is asked while the session is sought, and then. -/
structure Course (m : Handled) (setting : Setting) (reg : Registry) (st : Store) (s : Session)
    (st' : Store) (seek work : List Exchange) : Prop where
  log : m.log = ⟨.acquire m.contact.id, true⟩ :: (seek ++ (work ++ [⟨.release m.contact.id, ()⟩]))
  comes : (findSession m.contact m.text m.flowId m.sessionId).Comes
    (seek.map Exchange.plain) (.done s)
  look : ∀ e ∈ seek, e.op.isLook = true
  sought : Sought st m.contact m.flowId seek (.done s)
  attends : Attends setting reg st s m.text work st' m.outcome

/-- **A message is handled so**: its session is sought, and it is attended to in the session. -/
theorem In.course (h : m.In setting reg st s st') :
    ∃ seek work, m.Course setting reg st s st' seek work := by
  obtain ⟨seek, rest, hlog, hcomes⟩ := h.found
  have hhandle := h.goes.makes
  rw [hlog] at hhandle
  obtain ⟨inside, _, hcons, -, hinside⟩ := Makes.of_request hhandle
  obtain ⟨he, rfl⟩ := List.cons.inj hcons
  cases he
  dsimp only at hinside
  rw [Task.andThen, Program.bind_assoc] at hinside
  obtain ⟨st₁, hseek, hrest⟩ := hinside.split hcomes
  obtain ⟨rfl, hlook, hsought⟩ := makes_findSession hseek
  obtain ⟨work, last, o, st₂, rfl, hwork, hlast⟩ := hrest.of_bind
  obtain ⟨_, _, rfl, -, hlast⟩ := Makes.of_request hlast
  obtain ⟨rfl, rfl, ho⟩ := Makes.of_done hlast
  exact ⟨seek, work, hlog, hcomes, hlook, hsought, attends_of_makes (ho ▸ hwork)⟩

/-- **The session of a message** is the one that the store has under its id, or it is begun, on a
flow that was chosen, under an id that the store does not have. -/
theorem In.session (h : m.In setting reg st s st') (hst : st.Has s.id s?) :
    s.Written ∧ (s? = some s ∨ s? = none ∧ ∃ flow id now, s = newSession flow m.contact id now ∧
      ∃ query, ⟨.resolve query m.flowId, some flow⟩ ∈ m.log) := by
  obtain ⟨seek, work, hc⟩ := h.course
  have hold (hs : s? = some s) : s.Written := (hst.session s hs).2
  have hlog : seek ⊆ m.log := by
    rw [hc.log]
    exact fun e he => List.mem_cons_of_mem _ (List.mem_append_left _ he)
  cases hc.sought with
  | loaded hget =>
      have hs := hst.of_get hget rfl
      exact ⟨hold hs, .inl hs⟩
  | latest hlatest =>
      have hs := hst.of_latest hlatest rfl
      exact ⟨hold hs, .inl hs⟩
  | @begun flow query id now hflow hid hutc =>
      have hrow : st.rows.get? id = none := h.fresh id (hlog hid)
      refine ⟨⟨hutc.written, hutc.written, nofun⟩, .inr ⟨?_, flow, id, now, rfl, query, hlog hflow⟩⟩
      exact Option.map_eq_none_iff.mp (hst.row.symm.trans hrow)

/-- A turn that is taken for the message is what follows the search. -/
theorem Course.of_runs {seek work : List Exchange} (h : m.Course setting reg st s st' seek work)
    (hr : m.Runs setting reg s stops e) : ∃ turned rest,
      work ++ [⟨.release m.contact.id, ()⟩] = turned ++ rest ∧
        Turned setting reg s m.text turned stops e := by
  obtain ⟨seek', turned, rest, hlog, hcomes, ht⟩ := hr
  have heq := (List.cons.inj (h.log.symm.trans hlog)).2
  obtain ⟨rfl, -⟩ := eq_of_comes h.comes hcomes heq
  exact ⟨turned, rest, List.append_cancel_left heq, ht⟩

/-- A turn is taken for the message unless the version of the flow was never registered. -/
theorem Course.runs {seek work : List Exchange} {flow : Flow}
    (h : m.Course setting reg st s st' seek work) (hs : s.status ≠ .handoff)
    (hv : reg.version? s.flowId s.flowVersion = some flow) :
    ∃ stops e, m.Runs setting reg s stops e := by
  have hruns {turned rest : List Exchange} {stops : List Turn.Stop} {e : Turn.Ending}
      (hwork : work = turned ++ rest) (ht : Turned setting reg s m.text turned stops e) :
      m.Runs setting reg s stops e :=
    ⟨seek, turned, rest ++ [⟨.release m.contact.id, ()⟩], by
      rw [h.log, hwork, List.append_assoc], h.comes, ht⟩
  have hattends := h.attends
  generalize m.outcome = o at hattends
  cases hattends with
  | noted hs' => exact absurd hs' hs
  | orphaned _ hv' => cases hv.symm.trans hv'
  | deserted _ ht => exact ⟨_, _, hruns (List.append_nil _).symm ht⟩
  | plain _ ht | ticketed _ ht | dropped _ ht => exact ⟨_, _, hruns rfl ht⟩

end Handled

/-! ### How a message comes to be handled -/

/-- What leads a turn to its end leads the inbox there, and nothing is stored. -/
theorem goes_interpret {α : Type} {p : Turn.TurnProgram α}
    {turn : List (Program.Exchange Turn.Op Turn.Op.Reply)} {a : α} (h : p.Comes turn a) :
    Goes reg st (p.interpret fun op => Program.ask (Op.turn op)) (turn.map inTurn) st
      (.done a) := by
  induction h with
  | done a => exact .here _ _
  | @request op _ _ _ r _ ih => exact @Goes.asks _ _ _ _ (.turn op) _ _ _ r trivial trivial ih

/-- A turn is taken, and then what follows it is done. -/
theorem goes_takeTurn {turned : List Exchange} {stops : List Turn.Stop} {e : Turn.Ending}
    {q : Task Turn.Result} (ht : Turned setting reg s text turned stops e)
    (h : Goes reg st (settle setting e) log st' q) :
    Goes reg st (takeTurn setting s text) (turned ++ log) st' q := by
  cases ht with
  | @mk flow now turn _ _ hv hutc ht =>
    have hrun : (Turn.run ⟨flow, setting.policy, setting.team⟩ now s text none).Comes turn e := by
      rw [Turn.run_eq_tour]
      exact Program.comes_bind_iff.mpr ⟨turn, [], _, (List.append_nil turn).symm, ht, .done e⟩
    rw [takeTurn_eq]
    exact @Goes.asks _ _ _ _ (.version s.flowId s.flowVersion) _ _ _ (some flow) hv.symm trivial
      (@Goes.asks _ _ _ _ .now _ _ _ now hutc trivial ((goes_interpret hrun).bind h))

/-- Without a back office a session that a turn has ended is saved, whether or not the turn hands
off. -/
theorem goes_settle (hb : setting.team.backend = false) (hfits : s.fits = true) (r : Turn.Result) :
    Goes reg st (settle setting (.finished s r)) [⟨.save s, .ok ()⟩] (st.save s)
      (.done (.done r)) := by
  have hsave : Goes reg st ((Task.save s).andThen fun _ => .give r) [⟨.save s, .ok ()⟩] (st.save s)
      (.done (.done r)) :=
    @Goes.asks _ _ _ _ (.save s) _ _ _ (.ok ())
      (fun hnot => nomatch hfits.symm.trans hnot) trivial (.here _ _)
  rw [settle_finished]
  cases r.handoff with
  | none => exact hsave
  | some handoff =>
      unfold ticketFor openTicket
      dsimp only
      rw [hb]
      exact hsave

/-- A session is sought, and then it is attended to. -/
theorem goes_handle {contact : Contact} {flowId sessionId : String} {seek work : List Exchange}
    {o : Outcome Turn.Result}
    (hseek : Goes reg st (findSession contact text flowId sessionId) seek st (.done (.done s)))
    (hwork : Goes reg st (attend setting text s) work st' (.done o)) :
    Goes reg st (handle setting contact text flowId sessionId)
      (⟨.acquire contact.id, true⟩ :: (seek ++ (work ++ [⟨.release contact.id, ()⟩]))) st'
        (.done o) := by
  refine @Goes.asks _ _ _ _ (.acquire contact.id) _ _ _ true trivial rfl ?_
  dsimp only
  rw [Task.andThen, Program.bind_assoc]
  exact hseek.bind (hwork.bind
    (@Goes.asks _ _ _ _ (.release contact.id) _ _ _ () trivial trivial (.here _ _)))

/-- The handling of a message that names its session. -/
def Handled.naming (contact : Contact) (text : Option String) (s : Session) (work : List Exchange)
    (outcome : Outcome Turn.Result) : Handled where
  contact := contact
  text := text
  flowId := ""
  sessionId := s.id
  log := ⟨.acquire contact.id, true⟩ ::
    ([⟨.load s.id, .ok (some s)⟩] ++ (work ++ [⟨.release contact.id, ()⟩]))
  outcome := outcome

/-- The session that a message names is told. -/
theorem comes_findSession (contact : Contact) (text : Option String) (hid : s.id ≠ "") :
    (findSession contact text "" s.id).Comes ([⟨.load s.id, .ok (some s)⟩].map Exchange.plain)
    (.done s) := by
  rw [findSession, if_pos hid]
  exact @Program.Comes.request _ Op.Reply _ (Op.load s.id) _ _ _ (Except.ok (some s)) (.done _)

/-- **A message that names a session** is handled in it, if the store has it. -/
theorem Handled.in_naming (hst : st.Has s.id (some s)) (hid : s.id ≠ "") (contact : Contact)
    {work : List Exchange} {o : Outcome Turn.Result}
    (h : Goes reg st (attend setting text s) work st' (.done o)) :
    (Handled.naming contact text s work o).In setting reg st s st' where
  goes := by
    have hfind : Goes reg st (findSession contact text "" s.id) [⟨.load s.id, .ok (some s)⟩] st
        (.done (.done s)) := by
      rw [findSession, if_pos hid]
      exact @Goes.asks _ _ _ _ (.load s.id) _ _ _ (.ok (some s))
        ⟨s.lastActivityAt, "", (hst.get _ _).symm⟩
        trivial (.here _ _)
    exact goes_handle hfind h
  found := ⟨_, _, rfl, comes_findSession contact text hid⟩
  fresh id hid := by
    simp only [Handled.naming, List.mem_cons, List.mem_append, List.not_mem_nil, or_false] at hid
    rcases hid with he | he | hid | he
    · cases he
    · cases he
    · cases (attends_of_makes h.makes).begins_none _ hid
    · cases he

theorem Handled.runs_naming {turned : List Exchange} {stops : List Turn.Stop} {e : Turn.Ending}
    (hid : s.id ≠ "") (ht : Turned setting reg s text turned stops e) (contact : Contact)
    (rest : List Exchange) (o : Outcome Turn.Result) :
    (Handled.naming contact text s (turned ++ rest) o).Runs setting reg s stops e := by
  refine ⟨_, turned, rest ++ [⟨.release contact.id, ()⟩], ?_,
    comes_findSession contact text hid, ht⟩
  rw [← List.append_assoc turned]
  rfl

/-! ### Releases -/

/-- A session that a person gives back. -/
def givenBack (s : Session) (now : Moment) : Session := { s with status := .active }.touch now

/-- What is done to give a session back: there is none; no person has taken it over; or it is active
again. -/
inductive Releases (st : Store) (id : String) :
    Option Session → List Exchange → Store → Outcome Session → Prop where
  | missing {found : Except Store.RowFault (Option Session)} :
      Releases st id none [⟨.load id, found⟩] st (.refused (.sessionNotFound id))
  | kept {s : Session} (h : s.status ≠ .handoff)
      {found found' : Except Store.RowFault (Option Session)} :
      Releases st id (some s) [⟨.load id, found⟩, ⟨.acquire s.contact.id, true⟩, ⟨.load id, found'⟩,
        ⟨.release s.contact.id, ()⟩] st (.done s)
  | back {s : Session} (h : s.status = .handoff)
      {found found' : Except Store.RowFault (Option Session)}
      {now : Moment} (hutc : now.Utc) (saved : Except Parley.Fault Unit) :
      Releases st id (some s) [⟨.load id, found⟩, ⟨.acquire s.contact.id, true⟩, ⟨.load id, found'⟩,
        ⟨.now, now⟩, ⟨.save (givenBack s now), saved⟩, ⟨.release s.contact.id, ()⟩]
        (st.save (givenBack s now)) (.once saved (.done (givenBack s now)))

/-- **A session is given back so.** -/
theorem releases_of_goes {s? : Option Session} {o : Outcome Session} (hst : st.Has id s?)
    (h : Goes reg st (release id) log st' (.done o)) : Releases st id s? log st' o := by
  obtain ⟨found, log₁, rfl, ⟨now, newId, rfl⟩, h₁⟩ := h.of_request_done
  cases s? with
  | none =>
      simp only [hst.get_none] at h₁
      obtain ⟨rfl, rfl, ho⟩ := h₁.of_done
      cases ho
      exact .missing
  | some s =>
      simp only [hst.get] at h₁
      cases h₁ with
      | asks inside _ hinside h₂ =>
      obtain rfl : inside = true := hinside
      -- under the lock the session is looked up once more, and it is the same one
      obtain ⟨found, log₃, rfl, ⟨now', newId', hfound⟩, h₃⟩ := h₂.of_request_done
      obtain rfl : found = .ok (some s) := hfound.trans (hst.get now' newId')
      have hmakes : Makes reg st ((giveBack s).bind fun r =>
        .request (.release s.contact.id) fun _ => .done r)
          log₃ st' (.done o) := h₃.makes
      obtain ⟨log₄, last, o', st₁, rfl, hgive, hlast⟩ := hmakes.of_bind
      obtain ⟨_, _, rfl, -, hlast⟩ := Makes.of_request hlast
      obtain ⟨rfl, rfl, rfl⟩ := Makes.of_done hlast
      unfold giveBack at hgive
      split at hgive
      · next hs =>
        obtain ⟨now, rest, rfl, hutc, hgive⟩ := Makes.of_request hgive
        obtain ⟨saved, rfl, rfl, rfl⟩ := makes_save_once hgive
        exact .back hs hutc saved
      · next hs =>
        obtain ⟨rfl, rfl, rfl⟩ := Makes.of_done hgive
        exact .kept hs

/-- What is asked to give a session back. -/
def backLog (s : Session) (now : Moment) : List Exchange :=
  [⟨.load s.id, .ok (some s)⟩, ⟨.acquire s.contact.id, true⟩, ⟨.load s.id, .ok (some s)⟩,
    ⟨.now, now⟩, ⟨.save (givenBack s now), .ok ()⟩, ⟨.release s.contact.id, ()⟩]

/-- **A session that a person has taken over** can be given back, if it can be written. -/
theorem goes_back (hst : st.Has s.id (some s)) (hs : s.status = .handoff) (hfits : s.fits = true)
    {now : Moment} (hutc : now.Utc) :
    Goes reg st (release s.id) (backLog s now) (st.save (givenBack s now))
      (.done (.done (givenBack s now))) := by
  have hget := (hst.get s.lastActivityAt "").symm
  have hgive : Goes reg st (giveBack s) [⟨.now, now⟩, ⟨.save (givenBack s now), .ok ()⟩]
      (st.save (givenBack s now)) (.done (.done (givenBack s now))) := by
    rw [giveBack, if_pos hs]
    exact @Goes.asks _ _ _ _ .now _ _ _ now hutc trivial
      (@Goes.asks _ _ _ _ (.save _) _ _ _ (.ok ())
        (fun hnot => nomatch hfits.symm.trans hnot) trivial
        (.here _ _))
  exact @Goes.asks _ _ _ _ (.load s.id) _ _ _ (.ok (some s)) ⟨_, _, hget⟩ trivial
    (@Goes.asks _ _ _ _ (.acquire s.contact.id) _ _ _ true trivial rfl
      (@Goes.asks _ _ _ _ (.load s.id) _ _ _ (.ok (some s)) ⟨_, _, hget⟩ trivial
        (hgive.bind (@Goes.asks _ _ _ _ (.release s.contact.id) _ _ _ () trivial trivial
          (.here _ _)))))

/-! ### One after the other -/

/-- What is done with a session: a message is handled in it, or it is to be given back. -/
inductive Deal where
  | message (m : Handled)
  | release (log : List Exchange) (o : Outcome Session)

/-- All that is done with the session with the id, one after the other, from one registry and store
to another. Meanwhile the registry may change, and so may the store where it has nothing to do with
the id. -/
inductive Dealings (setting : Setting) (id : String) (reg : Registry) (st : Store) :
    List Deal → Registry → Store → Prop where
  | nothing : Dealings setting id reg st [] reg st
  | message {past : List Deal} {reg' : Registry} {st₁ st' : Store} {m : Handled} {s : Session}
      (h : Dealings setting id reg st past reg' st₁) (hm : m.In setting reg' st₁ s st')
        (hid : s.id = id) :
      Dealings setting id reg st (past ++ [.message m]) reg' st'
  | release {past : List Deal} {reg' : Registry} {st₁ st' : Store} {log : List Exchange}
      {o : Outcome Session}
      (h : Dealings setting id reg st past reg' st₁)
      (hr : Goes reg' st₁ (Inbox.release id) log st' (.done o)) :
      Dealings setting id reg st (past ++ [.release log o]) reg' st'
  | elsewhere {past : List Deal} {reg₁ : Registry} {st₁ st' : Store}
      (h : Dealings setting id reg st past reg₁ st₁) (reg' : Registry)
        (hs : Store.Spares id st₁ st') :
      Dealings setting id reg st past reg' st'

namespace Dealings

variable {past : List Deal}

/-- Nothing was done with the session. -/
theorem spares (h : Dealings setting id reg st [] reg' st') : Store.Spares id st st' := by
  generalize hpast : [] = past at h
  induction h with
  | nothing => exact .refl id st
  | message | release =>
      cases (List.append_ne_nil_of_right_ne_nil _ (List.cons_ne_nil _ _)) hpast.symm
  | elsewhere _ _ hs ih => exact (ih hpast).trans hs

/-- The session was to be given back, and then there was nothing more. -/
theorem release_last {log : List Exchange} {o : Outcome Session}
    (h : Dealings setting id reg st (past ++ [.release log o]) reg' st') :
    ∃ reg₁ st₁ st₂, Dealings setting id reg st past reg₁ st₁ ∧
      Goes reg₁ st₁ (Inbox.release id) log st₂ (.done o) ∧ Store.Spares id st₂ st' := by
  generalize hpast : past ++ [Deal.release log o] = past' at h
  induction h with
  | nothing => cases List.append_ne_nil_of_right_ne_nil _ (List.cons_ne_nil _ _) hpast
  | message => cases (List.append_inj' hpast rfl).2
  | release h hr =>
      obtain ⟨rfl, he⟩ := List.append_inj' hpast rfl
      cases he
      exact ⟨_, _, _, h, hr, .refl _ _⟩
  | elsewhere _ _ hs ih =>
      obtain ⟨reg₁, st₁, st₂, h, hr, hs'⟩ := ih hpast
      exact ⟨reg₁, st₁, st₂, h, hr, hs'.trans hs⟩

end Dealings
end Parley.Inbox
