import Parley.Proofs.Inbox.Takeover
import Parley.Proofs.Turn.Commit

/-!
# One ticket for each hand-off

With a back office, a ticket is asked for in each turn that ends with a hand-off, once, and never
else (`Handled.Course.log_tickets`, `Handled.Course.no_tickets`).  The ticket that is opened is
written to the session and to the result.

What is written stays: nobody clears the variable of the ticket when a session is given back.  So
after any dealings with a session in which nobody else writes the variable, it holds the id of the
last ticket that was opened (`one_ticket_per_handoff`).  When the ticket of a second hand-off fails,
that is the ticket of the first.
-/

namespace Parley.Inbox

open Calendar

variable {setting : Setting} {reg reg' : Registry} {st st' : Store} {s : Session} {m : Handled}
  {id : String}

/-- The request is for a ticket. -/
def Op.isTicket : Op → Bool
  | .ticket .. => true
  | _ => false

/-- The requests for tickets. -/
def tickets (log : List Exchange) : List Exchange := log.filter (·.op.isTicket)

/-- The id of the ticket that was opened, if one was. -/
def Exchange.opened? : Exchange → Option Value
  | ⟨.ticket .., some answer⟩ => ticketId? answer
  | _ => none

/-- The ids of the tickets that were opened. -/
def opened (log : List Exchange) : List Value := log.filterMap Exchange.opened?

@[simp] theorem tickets_append (log log' : List Exchange) :
    tickets (log ++ log') = tickets log ++ tickets log' := List.filter_append ..

@[simp] theorem opened_append (log log' : List Exchange) :
    opened (log ++ log') = opened log ++ opened log' :=
  List.filterMap_append ..

/-- Nothing in the exchanges is about tickets. -/
structure Ticketless (log : List Exchange) : Prop where
  tickets : tickets log = []
  opened : opened log = []

/-- A log without requests for tickets is ticketless. -/
theorem ticketless_of_forall {log : List Exchange} (h : ∀ e ∈ log, e.op.isTicket = false) :
    Ticketless log where
  tickets := List.filter_eq_nil_iff.mpr fun e he => by simp [h e he]
  opened := List.filterMap_eq_nil_iff.mpr fun e he => by
    have hop := h e he
    obtain ⟨op, r⟩ := e
    cases op <;> first | rfl | cases hop

/-! ### In one message -/

/-- The exchanges of a turn are those of the task that takes it. -/
theorem comes_interpret {α : Type} {p : Turn.TurnProgram α}
    {turn : List (Program.Exchange Turn.Op Turn.Op.Reply)} {a : α} (h : p.Comes turn a) :
    (p.interpret fun op => Program.ask (Op.turn op)).Comes
    ((turn.map inTurn).map Exchange.plain) a := by
  induction h with
  | done a => exact .done a
  | @request op _ _ _ r _ ih => exact @Program.Comes.request _ Op.Reply _ (.turn op) _ _ _ r ih

/-- With what was asked and told for a turn it came to one end. -/
theorem Turned.unique {text : Option String} {turned turned' rest rest' : List Exchange}
    {stops stops' : List Turn.Stop} {e e' : Turn.Ending}
    (h : Turned setting reg s text turned stops e)
    (h' : Turned setting reg s text turned' stops' e') (heq : turned ++ rest = turned' ++ rest') :
    turned = turned' ∧ stops = stops' ∧ e = e' := by
  cases h with
  | @mk flow now turn _ _ hv _ ht =>
  cases h' with
  | @mk flow' now' turn' _ _ hv' _ ht' =>
    obtain rfl : flow = flow' := Option.some.inj (hv.symm.trans hv')
    simp only [List.cons_append] at heq
    obtain ⟨hnow, hrest⟩ := List.cons.inj (List.cons.inj heq).2
    cases hnow
    obtain ⟨hturn, he⟩ := eq_of_comes (comes_interpret ht) (comes_interpret ht') hrest
    cases he
    exact ⟨by rw [hturn], rfl, rfl⟩

/-- A turn asks for no ticket. -/
theorem Turned.ticketless {text : Option String} {turned : List Exchange} {stops : List Turn.Stop}
    {e : Turn.Ending} (h : Turned setting reg s text turned stops e) : Ticketless turned := by
  cases h with
  | mk => exact ticketless_of_forall (by simp [Op.isTicket, inTurn])

/-- The result of a turn tells of a hand-off when the turn ended with one. -/
theorem Turned.tellsHandoff {text : Option String} {turned : List Exchange} {stops : List Turn.Stop}
    {s' : Session} {r : Turn.Result} (h : Turned setting reg s text turned stops (.finished s' r)) :
    (r.handoff.isSome ↔ r.state = .handoff) ∧ Turn.Reports s' r := by
  cases h with
  | mk _ _ ht =>
      have hends := Turn.ends_run_iff.mpr ⟨_, ht.ends⟩
      exact ⟨Turn.handoff_of_ends hends, Turn.reports_of_ends hends⟩

namespace Handled

/-- The runner ends the turn of the message with a hand-off. -/
def HandsOff (m : Handled) (setting : Setting) (reg : Registry) (s : Session) : Prop :=
  ∃ stops s' r, m.Runs setting reg s stops (.finished s' r) ∧ r.state = .handoff

variable {seek work : List Exchange}

/-- Nothing that is asked while the session is sought, or on leaving, is about tickets. -/
theorem Course.log_tickets (h : m.Course setting reg st s st' seek work) :
    tickets m.log = tickets work ∧ opened m.log = opened work := by
  have hseek : Ticketless seek := ticketless_of_forall fun e he => by
    have hlook := h.look e he
    generalize e.op = op at hlook ⊢
    cases op <;> first | rfl | cases hlook
  have henter : Ticketless [⟨.acquire m.contact.id, true⟩] := ⟨rfl, rfl⟩
  have hleave : Ticketless [⟨.release m.contact.id, ()⟩] := ⟨rfl, rfl⟩
  rw [h.log, ← List.singleton_append]
  constructor
  · simp only [tickets_append, henter.tickets, hseek.tickets, hleave.tickets, List.append_nil,
      List.nil_append]
  · simp only [opened_append, henter.opened, hseek.opened, hleave.opened, List.append_nil,
      List.nil_append]

/-- **A turn that does not end with a hand-off** asks for no ticket, and neither does a message for
which no turn is taken. -/
theorem Course.no_tickets (h : m.Course setting reg st s st' seek work)
    (hno : ¬ m.HandsOff setting reg s) : tickets work = [] := by
  have hattends := h.attends
  have hruns {turned rest : List Exchange} {stops : List Turn.Stop} {s' : Session} {r : Turn.Result}
      (hwork : work = turned ++ rest)
        (ht : Turned setting reg s m.text turned stops (.finished s' r)) :
      r.handoff = none := by
    by_contra hh
    refine hno ⟨stops, s', r,
      ⟨seek, turned, rest ++ [⟨.release m.contact.id, ()⟩], ?_, h.comes, ht⟩,
      ht.tellsHandoff.1.mp (Option.isSome_iff_ne_none.mpr hh)⟩
    rw [h.log, hwork, List.append_assoc]
  generalize m.outcome = o at hattends
  cases hattends with
  | noted | orphaned => rfl
  | deserted _ ht => exact ht.ticketless.tickets
  | plain _ ht =>
      rw [tickets_append, ht.ticketless.tickets]
      rfl
  | ticketed _ ht hh | dropped _ ht hh => cases hh.symm.trans (hruns rfl ht)

/-- What is done about a turn that ends with a hand-off: a ticket is asked for; when there is an
answer, the session and the result are written with the ticket that was opened, if one was, and when
there is none, the handling is abandoned. -/
inductive Delivers (setting : Setting) (st : Store) (s' : Session) (r : Turn.Result) (h : Handoff) :
    List Exchange → Store → Outcome Turn.Result → Prop where
  | answered (answer : Except Parley.Fault Value) (saved : Except Parley.Fault Unit) :
      Delivers setting st s' r h [⟨ticketOp setting s' h, some answer⟩]
        (st.save (writeTicket s' r (ticketId? answer)).1)
        (.once saved (.done (writeTicket s' r (ticketId? answer)).2))
  | unanswered : Delivers setting st s' r h [⟨ticketOp setting s' h, none⟩] st .abandoned

/-- **A turn that ends with a hand-off** asks for one ticket. -/
theorem Course.delivers (h : m.Course setting reg st s st' seek work)
    (hb : setting.team.backend = true) {stops : List Turn.Stop} {s' : Session} {r : Turn.Result}
    (hr : m.Runs setting reg s stops (.finished s' r)) (hstate : r.state = .handoff) :
    ∃ handoff, r.handoff = some handoff ∧
      Delivers setting st s' r handoff (tickets work) st' m.outcome := by
  obtain ⟨turned, rest, hwork, ht⟩ := h.of_runs hr
  have hsome := ht.tellsHandoff.1.mpr hstate
  have hattends := h.attends
  generalize m.outcome = o at hattends ⊢
  -- the turn of the message is the turn that ran, so the courses without a ticket are out
  cases hattends with
  | noted => cases ht with | mk => cases (List.cons.inj hwork).1
  | orphaned => cases ht with | mk => cases (List.cons.inj hwork).1
  | deserted _ ht' => cases (ht'.unique ht hwork).2.2
  | plain _ ht' hh =>
      rw [List.append_assoc] at hwork
      cases (ht'.unique ht hwork).2.2
      rcases hh with hh | hh
      · cases hh ▸ hsome
      · cases hb.symm.trans hh
  | @ticketed _ _ _ _ _ ht' handoff hh _ answer saved =>
      rw [List.append_assoc] at hwork
      cases (ht'.unique ht hwork).2.2
      refine ⟨handoff, hh, ?_⟩
      rw [tickets_append, ht'.ticketless.tickets]
      exact .answered answer saved
  | @dropped _ _ _ _ _ ht' handoff hh =>
      rw [List.append_assoc] at hwork
      cases (ht'.unique ht hwork).2.2
      refine ⟨handoff, hh, ?_⟩
      rw [tickets_append, ht'.ticketless.tickets]
      exact .unanswered

end Handled

/-! ### The variable of the ticket -/

/-- The variable is not written: it has no default in the flow, and no effect of a node of it names
it. -/
structure LeavesAlone (setting : Setting) (flow : Flow) (name : String) : Prop where
  defaults : name ∉ flow.defaultVariables.names
  nodes : ∀ n ∈ flow.nodes, ∀ s answer e,
    (Step.run ⟨flow, setting.policy, setting.team⟩ n s answer).Ends (.done e) →
      name ∉ e.changes.names

/-- The flow that was told, the one chosen for a message or the version of a session. -/
def Exchange.flow? : Exchange → Option Flow
  | ⟨.resolve _ _, flow?⟩ => flow?
  | ⟨.version _ _, flow?⟩ => flow?
  | _ => none

/-- In a turn only the session's own flow is told. -/
theorem Turned.of_flow? {text : Option String} {turned : List Exchange} {stops : List Turn.Stop}
    {e : Turn.Ending} (h : Turned setting reg s text turned stops e) {x : Exchange}
    (hx : x ∈ turned) {flow : Flow} (hflow : flow ∈ x.flow?) :
    reg.version? s.flowId s.flowVersion = some flow := by
  cases h with
  | mk hv =>
    rcases List.mem_cons.mp hx with rfl | hx
    · cases hflow
      exact hv
    · rcases List.mem_cons.mp hx with rfl | hx
      · cases hflow
      · obtain ⟨_, -, rfl⟩ := List.mem_map.mp hx
        cases hflow

/-- The session that was to be saved. -/
def Exchange.saved? : Exchange → Option Session
  | ⟨.save s, _⟩ => some s
  | _ => none

/-- A turn saves nothing by itself. -/
theorem Turned.saved?_eq_none {text : Option String} {turned : List Exchange}
    {stops : List Turn.Stop} {e : Turn.Ending} (h : Turned setting reg s text turned stops e)
    {x : Exchange} (hx : x ∈ turned) :
    x.saved? = none := by
  cases h with
  | mk =>
    rcases List.mem_cons.mp hx with rfl | hx
    · rfl
    · rcases List.mem_cons.mp hx with rfl | hx
      · rfl
      · obtain ⟨_, -, rfl⟩ := List.mem_map.mp hx
        rfl

/-- None of the flows that were told writes the variable of the ticket, and every session that was
to be saved can be written. -/
structure TicketSafe (setting : Setting) (log : List Exchange) : Prop where
  flows : ∀ e ∈ log, ∀ flow ∈ e.flow?, LeavesAlone setting flow "handoff_ticket_id"
  saves : ∀ e ∈ log, ∀ s ∈ e.saved?, s.fits = true

/-- Less of a log is as safe. -/
theorem TicketSafe.of_subset {log log' : List Exchange} (h : TicketSafe setting log')
    (hsub : log ⊆ log') :
    TicketSafe setting log where
  flows e he := h.flows e (hsub he)
  saves e he := h.saves e (hsub he)

/-- Two safe logs are safe one after the other. -/
theorem TicketSafe.append {log log' : List Exchange} (h : TicketSafe setting log)
    (h' : TicketSafe setting log') :
    TicketSafe setting (log ++ log') where
  flows e he := (List.mem_append.mp he).elim (h.flows e) (h'.flows e)
  saves e he := (List.mem_append.mp he).elim (h.saves e) (h'.saves e)

/-- The ticket of the session. -/
def ticketOf (s : Session) : Option Value := s.vars.get? "handoff_ticket_id"

/-- The ticket of the session that is there, as a dump has it. -/
def storedTicket (s? : Option Session) : Option Value := (s?.bind ticketOf).map Value.dumped

/-- A dump of the session has the same ticket, as a dump has it. -/
theorem storedTicket_dumped (s : Session) :
    storedTicket (some s.dumped) = (ticketOf s).map Value.dumped := by
  change ((Value.dumpedFields s.vars).get? _).map Value.dumped = (s.vars.get? _).map Value.dumped
  rw [Value.get?_dumpedFields, Option.map_map]
  exact congrArg (Option.map · _) (funext Value.dumped_dumped)

/-- What a message writes leaves the ticket alone. -/
theorem get?_heard (vars : Fields) (message : Option String) :
    (Turn.heard vars message).get? "handoff_ticket_id" = vars.get? "handoff_ticket_id" := by
  unfold Turn.heard
  split
  · rw [Entries.get?_put, if_neg (by decide)]
  · rfl

/-- A turn on a flow that does not write the variable leaves it alone. -/
theorem Turned.ticketOf {text : Option String} {turned : List Exchange} {stops : List Turn.Stop}
    {s' : Session} {r : Turn.Result} (h : Turned setting reg s text turned stops (.finished s' r))
    (hsafe : TicketSafe setting turned) : ticketOf s' = ticketOf s := by
  cases h with
  | @mk flow now turn _ _ hv _ ht =>
    have hflow := hsafe.flows _ List.mem_cons_self flow rfl
    have htours := Turn.tours_of_ends ht.ends
    by_cases hid : s.flowId = flow.id
    · have hcommits := @Turn.commits_of_tours
        ⟨flow, setting.policy, setting.team⟩ _ _ _ _ _ hid htours
      change s'.vars.get? _ = s.vars.get? _
      rw [hcommits.vars, Turn.get?_written, Turn.vars_begun, get?_heard]
      intro e he
      obtain ⟨st, hst, hfate⟩ := Turn.exists_of_mem_effects he
      exact hflow.nodes _ (htours.mem_nodes hst) _ _ e (htours.outcome hst hfate)
    · generalize he : Turn.Ending.finished s' r = e at htours
      cases htours with
      | refused =>
          cases he
          rfl
      | lost _ h | underway _ h => exact absurd h hid

/-- **What is stored about a message** is the session, with the ticket that was opened for it, if
one was, and else with the ticket that it had; or the handling is abandoned and nothing is stored.
-/
theorem Attends.stores {text : Option String} {log : List Exchange} {o : Outcome Turn.Result}
    (h : Attends setting reg st s text log st' o) (hw : s.Written) :
    (st' = st ∧ opened log = []) ∨ ∃ s', st' = st.save s' ∧ s'.id = s.id ∧ s'.Written ∧
      (TicketSafe setting log → s'.fits = true ∧
        ticketOf s' = (opened log).getLast?.or (ticketOf s)) := by
  cases h with
  | noted _ hutc saved =>
      refine .inr ⟨_, rfl, rfl, ⟨hw.started, hutc.written, hw.history⟩, fun hsafe => ⟨?_, ?_⟩⟩
      · exact hsafe.saves ⟨.save _, saved⟩ (by simp) _ rfl
      · exact (Entries.get?_put ..).trans (if_neg (by decide))
  | orphaned _ _ saved =>
      refine .inr ⟨_, rfl, rfl, ⟨hw.started, hw.active, hw.history⟩, fun hsafe => ⟨?_, rfl⟩⟩
      exact hsafe.saves ⟨.save _, saved⟩ (by simp) _ rfl
  | deserted _ ht => exact .inl ⟨rfl, ht.ticketless.opened⟩
  | dropped _ ht =>
      refine .inl ⟨rfl, ?_⟩
      rw [opened_append, ht.ticketless.opened]
      rfl
  | plain _ ht _ saved =>
      obtain ⟨hid, hs⟩ := ht.written hw
      refine .inr ⟨_, rfl, hid, hs, fun hsafe => ⟨hsafe.saves ⟨.save _, saved⟩ (by simp) _ rfl, ?_⟩⟩
      rw [opened_append, ht.ticketless.opened]
      exact ht.ticketOf (hsafe.of_subset (List.subset_append_left _ _))
  | @ticketed _ turned _ s' r ht handoff _ _ answer saved =>
      obtain ⟨hid, hs⟩ := ht.written hw
      have hfits (hsafe : TicketSafe setting (turned ++ [⟨ticketOp setting s' handoff, some answer⟩,
          ⟨.save (writeTicket s' r (ticketId? answer)).1, saved⟩])) :
          (writeTicket s' r (ticketId? answer)).1.fits = true :=
        hsafe.saves ⟨.save _, saved⟩
          (List.mem_append_right _ (List.mem_cons_of_mem _ List.mem_cons_self)) _ rfl
      refine .inr ⟨_, rfl, ?_⟩
      rw [opened_append, ht.ticketless.opened, List.nil_append]
      -- an answer without an id opens no ticket, and the session is saved as the turn left it
      cases hticket : ticketId? answer with
      | none =>
          rw [hticket] at hfits
          refine ⟨hid, hs, fun hsafe => ⟨hfits hsafe, ?_⟩⟩
          simp only [opened, ticketOp, List.filterMap_cons, Exchange.opened?, hticket]
          exact ht.ticketOf (hsafe.of_subset (List.subset_append_left _ _))
      | some ticket =>
          rw [hticket] at hfits
          refine ⟨hid, ⟨hs.started, hs.active, hs.history⟩, fun hsafe => ⟨hfits hsafe, ?_⟩⟩
          simp only [opened, ticketOp, List.filterMap_cons, Exchange.opened?, hticket]
          exact (Entries.get?_put ..).trans (if_pos rfl)

/-- A new session has no ticket. -/
theorem ticketOf_newSession {flow : Flow} (h : LeavesAlone setting flow "handoff_ticket_id")
    (contact : Contact) (id : String) (now : Moment) :
    ticketOf (newSession flow contact id now) = none :=
  (Entries.get?_update_of_notMem (by simp [Entries.names])).trans
    (Entries.get?_eq_none_iff.mpr h.defaults)

variable {s? s₀? : Option Session}

/-- One message more: the store has the session with the ticket that was opened, or with the one it
had. -/
theorem Handled.In.accounts (h : m.In setting reg st s st') (hst : st.Has s.id s?) :
    ∃ s'?, st'.Has s.id s'? ∧
      (TicketSafe setting m.log →
        storedTicket s'? = ((opened m.log).getLast?.map Value.dumped).or (storedTicket s?)) := by
  obtain ⟨hw, hstored⟩ := h.session hst
  obtain ⟨seek, work, hc⟩ := h.course
  have hwork : work ⊆ m.log := by
    rw [hc.log]
    exact fun e he => List.mem_cons_of_mem _ (List.mem_append_right _ (List.mem_append_left _ he))
  have hbefore (hsafe : TicketSafe setting m.log) : ticketOf s = s?.bind ticketOf := by
    rcases hstored with rfl | ⟨rfl, flow, id, now, rfl, query, hflow⟩
    · rfl
    · exact ticketOf_newSession (hsafe.flows _ hflow flow rfl) _ _ _
  rw [hc.log_tickets.2]
  rcases hc.attends.stores hw with ⟨rfl, hopened⟩ | ⟨s', rfl, hid, hs', hticket⟩
  · exact ⟨s?, hst, fun _ => by rw [hopened]; rfl⟩
  · refine ⟨_, hst.save hid hs', fun hsafe => ?_⟩
    obtain ⟨hfits, hticket⟩ := hticket (hsafe.of_subset hwork)
    rw [if_pos hfits, storedTicket_dumped, hticket, Option.map_or, storedTicket, hbefore hsafe]

/-- A release asks for no ticket and writes none. -/
theorem Releases.accounts {log : List Exchange} {o : Outcome Session}
    (h : Releases st id s? log st' o) (hst : st.Has id s?) :
    Ticketless log ∧ ∃ s'?, st'.Has id s'? ∧ storedTicket s'? = storedTicket s? := by
  cases h with
  | missing | kept => exact ⟨ticketless_of_forall (by simp [Op.isTicket]), _, hst, rfl⟩
  | back _ hutc =>
      obtain ⟨hid, hw⟩ := hst.session _ rfl
      refine ⟨ticketless_of_forall (by simp [Op.isTicket]), _,
        hst.save hid ⟨hw.started, hutc.written, hw.history⟩, ?_⟩
      split
      · exact storedTicket_dumped _
      · rfl

/-- All that was asked and told. -/
def Deal.log : Deal → List Exchange
  | .message m => m.log
  | .release log _ => log

/-- **The ticket of a session** is the last one that was opened, or the one that it had at first. -/
theorem Dealings.accounts {past : List Deal} (h : Dealings setting id reg st past reg' st')
    (hst : st.Has id s₀?) :
    (∀ log o, .release log o ∈ past → tickets log = []) ∧ ∃ s?, st'.Has id s? ∧
      (TicketSafe setting (past.flatMap Deal.log) → storedTicket s? =
        ((opened (past.flatMap Deal.log)).getLast?.map Value.dumped).or (storedTicket s₀?)) := by
  -- after every deal the ticket that is stored is the last one opened so far
  induction h with
  | nothing => exact ⟨nofun, s₀?, hst, fun _ => rfl⟩
  | elsewhere _ _ hspares ih =>
      obtain ⟨hnone, s?, hhas, hticket⟩ := ih
      exact ⟨hnone, s?, hhas.spared hspares, hticket⟩
  | @message past _ _ _ m s _ hm hid ih =>
      obtain ⟨hnone, s?, hhas, hticket⟩ := ih
      subst hid
      obtain ⟨s'?, hhas', hticket'⟩ := hm.accounts hhas
      refine ⟨fun log o hmem => ?_, s'?, hhas', fun hsafe => ?_⟩
      · rcases List.mem_append.mp hmem with hmem | hmem
        · exact hnone log o hmem
        · cases List.mem_singleton.mp hmem
      · rw [List.flatMap_append, List.flatMap_singleton] at hsafe ⊢
        rw [hticket' (hsafe.of_subset (List.subset_append_right _ _)),
          hticket (hsafe.of_subset (List.subset_append_left _ _)), opened_append,
          List.getLast?_append, Option.map_or, Option.or_assoc]
        rfl
  | @release past _ _ _ log o _ hr ih =>
      obtain ⟨hnone, s?, hhas, hticket⟩ := ih
      obtain ⟨hlog, s'?, hhas', hticket'⟩ := (releases_of_goes hhas hr).accounts hhas
      refine ⟨fun log' o' hmem => ?_, s'?, hhas', fun hsafe => ?_⟩
      · rcases List.mem_append.mp hmem with hmem | hmem
        · exact hnone log' o' hmem
        · cases List.mem_singleton.mp hmem
          exact hlog.tickets
      · rw [List.flatMap_append, List.flatMap_singleton] at hsafe ⊢
        rw [hticket', hticket (hsafe.of_subset (List.subset_append_left _ _)), opened_append]
        change _ = ((opened _ ++ opened log).getLast?.map _).or _
        rw [hlog.opened, List.append_nil]

/-- The ticket is written into the result as into the session. -/
theorem vars_writeTicket {s : Session} {r : Turn.Result} (h : r.vars = s.vars)
    (ticket : Option Value) :
    (writeTicket s r ticket).2.vars = (writeTicket s r ticket).1.vars := by
  cases ticket with
  | none => exact h
  | some id => exact congrArg (Entries.put · "handoff_ticket_id" id) h

/-- The ticket that is written is the session's. -/
theorem ticketOf_writeTicket (s : Session) (r : Turn.Result) (ticket : Option Value) :
    ticketOf (writeTicket s r ticket).1 = ticket.or (ticketOf s) := by
  cases ticket with
  | none => rfl
  | some id => exact (Entries.get?_put ..).trans (if_pos rfl)

/-- **One ticket for each hand-off.**  There is a back office.  Messages are handled in a session
and it is released, one after the other, whatever the turns come to and whatever becomes of the
tickets; then one more message is handled in it.

No release asks for a ticket, nor does a message unless the runner ends its turn with a hand-off.
Then one ticket is asked for, for that hand-off and with the session that the runner left.  Without
an answer the handling is abandoned, and nothing is stored.  With one the session is stored and the
result is told, both with the same variables, in which the ticket is the one that was opened now, or
else the one that the runner left there.

While nobody else writes the variable and every session can be saved, the ticket that is stored is
the last one that was ever opened for the session, or the one that it had at first, each as a dump
has it. -/
theorem one_ticket_per_handoff (hb : setting.team.backend = true) (hst : st.Has id s₀?)
    {past : List Deal} (h : Dealings setting id reg st past reg' st') {st'' : Store}
    (hm : m.In setting reg' st' s st'') (hid : s.id = id) :
    (∀ log o, .release log o ∈ past → tickets log = []) ∧
      (¬ m.HandsOff setting reg' s → tickets m.log = []) ∧
      (∀ stops s' r, m.Runs setting reg' s stops (.finished s' r) → r.state = .handoff →
        ∃ handoff answer?, r.handoff = some handoff ∧
          tickets m.log = [⟨ticketOp setting s' handoff, answer?⟩] ∧
          (answer? = none → st'' = st' ∧ m.outcome = .abandoned) ∧
          ∀ answer, answer? = some answer → ∃ s'' r'' saved, st'' = st'.save s'' ∧
            m.outcome = .once saved (.done r'') ∧ r''.vars = s''.vars ∧
            ticketOf s'' = (ticketId? answer).or (ticketOf s')) ∧
      ∃ s?, st''.Has id s? ∧
        (TicketSafe setting (past.flatMap Deal.log ++ m.log) → storedTicket s? =
        ((opened (past.flatMap Deal.log ++ m.log)).getLast?.map Value.dumped).or
          (storedTicket s₀?)) := by
  obtain ⟨hreleases, -⟩ := h.accounts hst
  obtain ⟨-, s?, hhas, hticket⟩ := (h.message hm hid).accounts hst
  rw [List.flatMap_append, List.flatMap_singleton] at hticket
  obtain ⟨seek, work, hc⟩ := hm.course
  refine ⟨hreleases, fun hno => hc.log_tickets.1.trans (hc.no_tickets hno),
    fun stops s' r hr hstate => ?_, s?, hhas, hticket⟩
  obtain ⟨handoff, hh, hdelivers⟩ := hc.delivers hb hr hstate
  have hvars : r.vars = s'.vars := by
    obtain ⟨_, _, -, ht⟩ := hc.of_runs hr
    exact ht.tellsHandoff.2.vars
  rw [hc.log_tickets.1]
  generalize tickets work = asked, m.outcome = o at hdelivers ⊢
  cases hdelivers with
  | unanswered => exact ⟨handoff, none, hh, rfl, fun _ => ⟨rfl, rfl⟩, nofun⟩
  | answered answer saved =>
      refine ⟨handoff, some answer, hh, rfl, nofun, fun answer' he => ?_⟩
      obtain rfl := Option.some.inj he
      exact ⟨_, _, saved, rfl, rfl, vars_writeTicket hvars _, ticketOf_writeTicket _ _ _⟩

/-! A session is handed over with a ticket and given back, and it is handed over again, when the
ticket fails.  The ticket of the first hand-off is still there. -/

/-- Everyone is handed over, and there is a back office. -/
def desk : Setting := ⟨{}, { backend := true }⟩

theorem leavesAlone_help : LeavesAlone desk help "handoff_ticket_id" where
  defaults := by decide
  nodes n hn s answer e he := by
    have hran {x : Except Parley.Fault Step.Effect} (hx : Step.Outcome.done e = .ofResult x) :
        x = .ok e := by
      cases x <;> cases hx
      rfl
    rcases List.mem_cons.mp hn with rfl | hn
    · have hx : Step.runStart ⟨help, {}, { backend := true }⟩ "start" = .ok e :=
        hran (Program.ends_done_iff.mp he)
      obtain ⟨course, -, hx⟩ := Store.of_bind_ok hx
      cases hx
      simp [Entries.names]
    · obtain rfl := List.mem_singleton.mp hn
      have hx : Step.runHandoff "person" s.vars {} = .ok e := hran (Program.ends_done_iff.mp he)
      obtain ⟨target, -, hx⟩ := Store.of_bind_ok hx
      obtain ⟨said, -, hx⟩ := Store.of_bind_ok hx
      cases hx
      simp [Entries.names]
/-- A turn of a session at the help desk. -/
def helpTurn (s : Session) (now : Moment) : List Turn.Stop × Turn.Ending :=
  ((Turn.tour ⟨help, {}, { backend := true }⟩ now s (some "help") none).play
    (Turn.undisturbed Turn.silent 0) ()).1

/-- A message that hands its session over, with an answer about the ticket. -/
theorem exists_in_of_handoff (hst : st.Has s.id (some s)) (hs : s.status ≠ .handoff)
    (hid : s.id ≠ "") (hflow : s.flowId = "help" ∧ s.flowVersion = 1) {now : Moment}
    (hutc : now.Utc) {r : Turn.Result} (hr : (helpTurn s now).2.result? = some r)
    {handoff : Handoff} (hh : r.handoff = some handoff) (answer : Except Parley.Fault Value)
    (hfits : (writeTicket (helpTurn s now).2.session r (ticketId? answer)).1.fits = true) :
    ∃ m : Handled, ∃ s', m.In desk helpDesk st s (st.save (writeTicket s' r (ticketId? answer)).1) ∧
      m.Runs desk helpDesk s (helpTurn s now).1 (.finished s' r) ∧ s' = (helpTurn s now).2.session ∧
      opened m.log = (ticketId? answer).toList ∧ TicketSafe desk m.log := by
  obtain ⟨s', he⟩ := Turn.finished_of_result? hr
  rw [he] at hfits
  have hv : helpDesk.version? s.flowId s.flowVersion = some help := by
    rw [hflow.1, hflow.2, version?_helpDesk]
  have hcomes := Program.comes_play (Turn.undisturbed Turn.silent 0)
    (Turn.tour ⟨help, {}, { backend := true }⟩ now s (some "help") none) ()
  have hturn : helpTurn s now = ((helpTurn s now).1, .finished s' r) := Prod.ext rfl he
  rw [show (Program.play (Turn.undisturbed Turn.silent 0) _ ()).1 = _ from hturn] at hcomes
  have ht : Turned desk helpDesk s (some "help") _ (helpTurn s now).1 (.finished s' r) :=
    .mk hv hutc hcomes
  -- a ticket is asked for, and the session is saved with what is answered
  have hsettle : Goes helpDesk st (settle desk (.finished s' r))
      [⟨ticketOp desk s' handoff, some answer⟩,
        ⟨.save (writeTicket s' r (ticketId? answer)).1, .ok ()⟩]
      (st.save (writeTicket s' r (ticketId? answer)).1)
      (.done (.done (writeTicket s' r (ticketId? answer)).2)) := by
    rw [settle_finished, hh]
    exact @Goes.asks _ _ _ _ (ticketOp desk s' handoff) _ _ _ (some answer) trivial trivial
      (@Goes.asks _ _ _ _ (.save _) _ _ _ (.ok ())
        (fun hnot => nomatch hfits.symm.trans hnot) trivial
        (.here _ _))
  have hattend := goes_takeTurn ht hsettle
  rw [← attend_eq hs] at hattend
  refine ⟨_, s', Handled.in_naming hst hid { id := "ana" } hattend,
    Handled.runs_naming hid ht _ _ _, congrArg Turn.Ending.session he.symm, ?_, ?_⟩
  · have hlog : Ticketless [⟨.acquire "ana", true⟩, ⟨.load s.id, .ok (some s)⟩] := ⟨rfl, rfl⟩
    change opened ([⟨.acquire "ana", true⟩, ⟨.load s.id, .ok (some s)⟩] ++ ((_ ++ _) ++ _)) = _
    rw [opened_append, opened_append, opened_append, hlog.opened, ht.ticketless.opened]
    cases hticket : ticketId? answer <;> simp [opened, ticketOp, Exchange.opened?, hticket]
  · refine ⟨fun e he flow hflow => ?_, fun e he s'' hs'' => ?_⟩ <;>
      simp only [Handled.naming, List.mem_append, List.mem_cons, List.not_mem_nil, or_false] at he
    · rcases he with rfl | rfl | (he | rfl | rfl) | rfl
      · cases hflow
      · cases hflow
      · cases hv.symm.trans (ht.of_flow? (List.mem_cons.mpr (he.imp_right List.mem_cons.mpr)) hflow)
        exact leavesAlone_help
      · cases hflow
      · cases hflow
      · cases hflow
    · rcases he with rfl | rfl | (he | rfl | rfl) | rfl
      · cases hs''
      · cases hs''
      · cases (ht.saved?_eq_none (List.mem_cons.mpr (he.imp_right List.mem_cons.mpr))).symm.trans
          hs''
      · cases hs''
      · cases hs''
        exact hfits
      · cases hs''

/-- A session that no person has taken over. -/
def inquirer : Session := { Hall.taken with status := .active }

/-- The session is handed over, with a ticket. -/
def ticketed :
    Session := (helpTurn inquirer (Hall.noon 1)).2.session.assign "handoff_ticket_id" (.text "T1")

/-- The session is given back. -/
def relieved : Session := givenBack ticketed (Hall.noon 2)

/-- The session is stored. -/
def inquiryStore : Store := Store.save {} inquirer

theorem timely_inquirer : inquirer.Timely :=
  ⟨Hall.utc_noon (by decide), Hall.utc_noon (by decide), nofun⟩

/-- A turn at the help desk that hands over. -/
theorem handsOver {s : Session} {now : Moment}
    (h : ((helpTurn s now).2.result?.bind (·.handoff)).isSome = true) :
    ∃ r handoff, (helpTurn s now).2.result? = some r ∧ r.handoff = some handoff := by
  obtain ⟨handoff, hh⟩ := Option.isSome_iff_exists.mp h
  obtain ⟨r, hr, hh⟩ := Option.bind_eq_some_iff.mp hh
  exact ⟨r, handoff, hr, hh⟩

/-- Nothing is told of flows or tickets when a session that can be written is given back. -/
theorem quiet_backLog {s : Session} (hs : s.fits = true) (now : Moment) :
    TicketSafe desk (backLog s now) ∧ opened (backLog s now) = [] := by
  refine ⟨⟨fun e he flow hflow => ?_, fun e he s' hs' => ?_⟩, rfl⟩ <;>
    simp only [backLog, List.mem_cons, List.not_mem_nil, or_false] at he
  · rcases he with rfl | rfl | rfl | rfl | rfl | rfl <;> cases hflow
  · rcases he with rfl | rfl | rfl | rfl | rfl | rfl <;> cases hs'
    exact hs

theorem one_ticket_per_handoff_help : ∃ past st₁ st₂ s s', ∃ m : Handled,
    (desk.team.backend = true ∧ inquiryStore.Has inquirer.id (some inquirer) ∧
        Dealings desk inquirer.id helpDesk inquiryStore past helpDesk st₁ ∧
          m.In desk helpDesk st₁ s st₂ ∧
        s.id = inquirer.id ∧ TicketSafe desk (past.flatMap Deal.log ++ m.log)) ∧
      m.HandsOff desk helpDesk s ∧ (∃ e, tickets m.log = [e]) ∧ opened m.log = [] ∧
      st₂.Has inquirer.id (some s') ∧ ticketOf s' = some (.text "T1") := by
  have hhas : inquiryStore.Has inquirer.id (some inquirer) :=
    (Store.has_empty "s1").save_of_plain rfl timely_inquirer.written ⟨rfl, rfl⟩
  -- the first hand-off
  obtain ⟨r, handoff, hr, hh⟩ : ∃ r h, (helpTurn inquirer (Hall.noon 1)).2.result? = some r ∧ _ :=
    handsOver (by decide +kernel)
  obtain ⟨m, s', hm, hruns, rfl, hopened, hsafe⟩ :=
    exists_in_of_handoff hhas (by decide) (by decide)
    ⟨rfl, rfl⟩ (Hall.utc_noon (by decide)) hr hh (.ok (.object [("id", .text "T1")]))
    (show ticketed.fits = true by decide +kernel)
  have hfirst : Dealings desk inquirer.id helpDesk inquiryStore [.message m] helpDesk
      (inquiryStore.save ticketed) := .message .nothing hm rfl
  -- the session is given back
  obtain ⟨hid, hw⟩ : ticketed.id = inquirer.id ∧ ticketed.Written := by
    obtain ⟨_, _, _, -, -, ht⟩ := hruns
    obtain ⟨hid, hw⟩ := ht.written timely_inquirer.written
    exact ⟨hid, hw.started, hw.active, hw.history⟩
  have hplain : ticketed.Plain := ⟨by decide +kernel, by decide +kernel⟩
  have hticketed : (inquiryStore.save ticketed).Has ticketed.id (some ticketed) :=
    hid ▸ hhas.save_of_plain hid hw hplain
  have hnoon : (Hall.noon 2).Utc := Hall.utc_noon (by decide)
  have hback : Goes helpDesk (inquiryStore.save ticketed) (release inquirer.id)
    (backLog ticketed (Hall.noon 2))
      ((inquiryStore.save ticketed).save relieved) (.done (.done relieved)) :=
    hid ▸ goes_back hticketed (by decide +kernel) hplain.fits hnoon
  have hrelieved : ((inquiryStore.save ticketed).save relieved).Has relieved.id (some relieved) :=
    hticketed.save_of_plain rfl ⟨hw.started, hnoon.written, hw.history⟩ ⟨hplain.finite, hplain.fits⟩
  -- the second hand-off
  obtain ⟨r', handoff', hr', hh'⟩ :
      ∃ r h, (helpTurn relieved (Hall.noon 3)).2.result? = some r ∧ _ :=
    handsOver (by decide +kernel)
  obtain ⟨m', s', hm', hruns', rfl, hopened', hsafe'⟩ :=
    exists_in_of_handoff hrelieved (by decide +kernel)
    (by decide +kernel) (by decide +kernel) (Hall.utc_noon (by decide)) hr' hh' (.error .timedOut)
    (show (helpTurn relieved (Hall.noon 3)).2.session.fits = true by decide +kernel)
  have hstate : r'.state = .handoff := by
    obtain ⟨_, _, _, -, -, ht⟩ := hruns'
    exact ht.tellsHandoff.1.mp (by rw [hh']; rfl)
  have hpast : Dealings desk inquirer.id helpDesk inquiryStore
      [.message m, .release (backLog ticketed (Hall.noon 2)) (.done relieved)] helpDesk
      ((inquiryStore.save ticketed).save relieved) := .release hfirst hback
  have hlogs : [Deal.message m, .release (backLog ticketed (Hall.noon 2))
    (.done relieved)].flatMap Deal.log =
      m.log ++ backLog ticketed (Hall.noon 2) := by simp [Deal.log]
  have hsafely : TicketSafe desk (m.log ++ backLog ticketed (Hall.noon 2) ++ m'.log) :=
    (hsafe.append (quiet_backLog hplain.fits _).1).append hsafe'
  have hid' : relieved.id = inquirer.id := hid
  obtain ⟨-, -, hdelivers, s?, hhas', hticket⟩ := one_ticket_per_handoff rfl hhas hpast hm' hid'
  obtain ⟨_, _, -, htickets, -⟩ := hdelivers _ _ _ hruns' hstate
  rw [hlogs] at hticket
  have hlast := hticket hsafely
  rw [opened_append, opened_append, hopened, (quiet_backLog hplain.fits _).2, hopened'] at hlast
  obtain ⟨ticket, hlast, hdumped⟩ := Option.map_eq_some_iff.mp hlast
  obtain rfl : ticket = .text "T1" := by
    cases ticket with
    | float x =>
        unfold Value.dumped at hdumped
        split at hdumped <;> cases hdumped
    | _ => cases hdumped <;> rfl
  obtain ⟨s', rfl, hlast⟩ := Option.bind_eq_some_iff.mp hlast
  exact ⟨_, _, _, _, s', m', ⟨rfl, hhas, hpast, hm', hid', hlogs ▸ hsafely⟩,
    ⟨_, _, _, hruns', hstate⟩, ⟨_, htickets⟩, hopened', hhas', hlast⟩

end Parley.Inbox
