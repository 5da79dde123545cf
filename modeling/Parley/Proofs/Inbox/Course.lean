import Parley.Proofs.Inbox.Hall

/-!
# The course of a task

A task that handles a message finds or begins a session, and then notes the message or takes a turn.
The turn starts when the task asks for the version that the session in hand is on; with the flow
that it is told the turn is run, and what follows the turn is done (`converse`).

So a task asks for a version only with a session in hand that is on it, and goes on from the reply
as said (`version_of_leads`); it makes no request of a turn before it was told a flow
(`turn_of_leads`); and it is refused for want of a version only when it was told that there is none
(`refused_of_comes`).
-/

namespace Parley.Inbox

variable {α β : Type} {setting : Setting} {call : Call}

/-! ### The parts of a task -/

/-- A turn on a flow, and what follows it. -/
def converse (setting : Setting) (s : Session) (text : Option String) (flow : Flow) :
    Task Turn.Result :=
  .ask .now fun now =>
    ((Turn.run ⟨flow, setting.policy, setting.team⟩ now s text none).interpret
      fun op => Program.ask (Op.turn op)).bind (settle setting)

/-- A turn is taken once the version of the session's flow is known; without it the session is
orphaned. -/
theorem takeTurn_eq (setting : Setting) (s : Session) (text : Option String) :
    takeTurn setting s text = .ask (.version s.flowId s.flowVersion)
      fun flow? => flow?.elim (orphaned s) (converse setting s text) := by
  unfold takeTurn
  congr 1
  funext flow?
  cases flow? <;> rfl

/-- A task inside the lock of a contact, and how it leaves. -/
def Task.leaving (contact : String) (t : Task α) : InboxProgram Unit :=
  forgetting (t.bind fun r => .request (.release contact) fun _ => .done r)

/-- Who leaves a lock after two parts leaves it after the second. -/
theorem Task.leaving_bind (contact : String) (p : InboxProgram α) (f : α → Task β) :
    Task.leaving contact (p.bind f) = p.bind fun a => Task.leaving contact (f a) := by
  unfold Task.leaving forgetting
  rw [Program.bind_assoc, Program.bind_assoc]
  simp only [Program.bind_assoc]

/-- What a task does once it has a session in hand. -/
def attend (setting : Setting) (text : Option String) (s : Session) : Task Turn.Result :=
  if s.status = .handoff then noteForPerson s text else takeTurn setting s text

/-- A session that no person has taken over is attended by a turn. -/
theorem attend_eq {text : Option String} {s : Session} (h : s.status ≠ .handoff) :
    attend setting text s = takeTurn setting s text := if_neg h

theorem Exchange.eq_of_plain {e : Exchange} {op : Op} {r : op.Reply} (h : e.plain = ⟨op, r⟩) :
    e = ⟨op, r⟩ := by
  cases e
  cases h
  rfl

/-- What a task obeys it obeys from where it was led to. -/
theorem Obeys.leads {Q : Phase → α → Prop} {ph : Phase} {p p' : InboxProgram α}
    {log : List Exchange} (h : Obeys call Q ph p) (hl : p.Leads (log.map Exchange.plain) p') :
    Obeys call Q (log.foldl (fun ph e => call.after ph e.op e.reply) ph) p' := by
  induction log generalizing p ph with
  | nil =>
      cases hl
      exact h
  | cons e rest ih =>
      rw [List.map_cons] at hl
      cases hl with
      | request r hl => exact ih (h.2 e.reply) hl

/-- The session that is found or begun inside the lock of the contact is in hand. -/
theorem phase_of_found {contact : Contact} {text : Option String} {flowId sessionId : String}
    {log : List Exchange} {s : Session}
    (h : (findSession contact text flowId sessionId).Leads (log.map Exchange.plain)
      (.done (.done s))) :
    (Call.message contact text flowId sessionId).phase (⟨.acquire contact.id, true⟩ :: log) =
      .holding contact.id { session := s } :=
  (findSession_obeys contact text flowId sessionId).leads h

/-! ### What has nothing to do with turns -/

/-- The request is for a version. -/
def Op.isVersion : Op → Bool
  | .version .. => true
  | _ => false

/-- The request is for a version or of a turn. -/
def Op.isOfTurn : Op → Bool
  | .version .. | .turn _ => true
  | _ => false

/-- A request for a version is one of a turn's. -/
theorem Op.isVersion_of_isOfTurn (op : Op) (h : op.isOfTurn = false) : op.isVersion = false := by
  cases op with
  | version => cases h
  | _ => rfl

/-- The task neither asks for a version nor makes a request of a turn, and however it ends, it is
not refused for want of a version. -/
structure Task.Idle (t : Task α) : Prop where
  asks : t.AsksAtMost Op.isOfTurn 0
  ends (id : String) (version : Int) : ¬ t.Ends (.refused (.notRegistered id version))

theorem idle_done {o : Outcome α} (h : ∀ id version, .refused (.notRegistered id version) ≠ o) :
    Task.Idle (.done o) :=
  ⟨trivial, fun id version he => h id version (Program.ends_done_iff.mp he)⟩

/-- A task stays idle when it requests nothing of a turn and goes on idle. -/
theorem idle_request {op : Op} {next : op.Reply → Task α} (hop : op.isOfTurn = false)
    (h : ∀ r, (next r).Idle) : Task.Idle (.request op next) where
  asks := Program.asksAtMost_request hop fun r => (h r).asks
  ends id version he := by
    obtain ⟨r, he⟩ := Program.ends_request_iff.mp he
    exact (h r).ends id version he

/-- A task is idle when both of its parts are. -/
theorem idle_andThen {t : Task α} {f : α → Task β} (h : t.Idle) (hf : ∀ a, (f a).Idle) :
    (t.andThen f).Idle where
  asks := Program.AsksAtMost.bind (m := 0) h.asks fun o => by
    cases o with
    | done a => exact (hf a).asks
    | refused | abandoned => trivial
  ends id version he := by
    obtain ⟨o, ho, he⟩ := Program.ends_bind_iff.mp he
    cases o with
    | done a => exact (hf a).ends id version he
    | refused e =>
        cases Program.ends_done_iff.mp he
        exact h.ends id version ho
    | abandoned => cases Program.ends_done_iff.mp he

/-- A task is idle inside a lock when it is idle. -/
theorem idle_locked {t : Task α} (contact : String) (h : t.Idle) :
    (Task.locked contact t).Idle :=
  idle_request rfl fun inside => by
    cases inside with
    | false => exact idle_done nofun
    | true =>
        refine ⟨Program.AsksAtMost.bind (m := 0) h.asks fun _ =>
          Program.asksAtMost_request rfl fun _ => trivial, fun id version he => ?_⟩
        obtain ⟨o, ho, he⟩ := Program.ends_bind_iff.mp he
        obtain ⟨_, he⟩ := Program.ends_request_iff.mp he
        cases Program.ends_done_iff.mp he
        exact h.ends id version ho

theorem idle_save (s : Session) : (Task.save s).Idle :=
  idle_request rfl fun r => by cases r <;> exact idle_done nofun

theorem idle_told (r : Except Store.RowFault α) : (Task.told r).Idle := by
  cases r <;> exact idle_done nofun

theorem idle_beginSession (contact : Contact) (text : Option String) (flowId : String) :
    (beginSession contact text flowId).Idle :=
  idle_request rfl fun flow? => by
    cases flow? with
    | none =>
        dsimp only
        split <;> exact idle_done nofun
    | some flow => exact idle_request rfl fun _ => idle_request rfl fun _ => idle_done nofun

/-- No turn is taken while the session is looked for. -/
theorem idle_findSession (contact : Contact) (text : Option String) (flowId sessionId : String) :
    (findSession contact text flowId sessionId).Idle := by
  unfold findSession
  split <;> refine idle_request rfl fun found => idle_andThen (idle_told found) fun s? => ?_
  · cases s? <;> exact idle_done nofun
  · cases s? with
    | none => exact idle_beginSession contact text flowId
    | some s =>
        dsimp only
        split
        · exact idle_beginSession contact text flowId
        · exact idle_done nofun

/-- No turn is taken for a message that is only noted. -/
theorem idle_noteForPerson (s : Session) (text : Option String) : (noteForPerson s text).Idle :=
  idle_request rfl fun _ => idle_andThen (idle_save _) fun _ => idle_done nofun

theorem idle_openTicket (setting : Setting) (s : Session) (h : Handoff) :
    (openTicket setting s h).Idle := by
  unfold openTicket
  split
  · exact idle_request rfl fun answer => by cases answer <;> exact idle_done nofun
  · exact idle_done nofun

/-- No turn is taken once a turn has ended. -/
theorem idle_settle (setting : Setting) (e : Turn.Ending) : (settle setting e).Idle := by
  cases e with
  | abandoned => exact idle_done nofun
  | finished s r =>
      refine idle_andThen ?_ fun id => idle_andThen (idle_save _) fun _ => idle_done nofun
      cases r.handoff with
      | none => exact idle_done nofun
      | some h => exact idle_openTicket setting s h

/-- No turn is taken when a session is given back. -/
theorem idle_release (id : String) : (release id).Idle := by
  have hdemand (id : String) : (demand id).Idle :=
    idle_request rfl fun found => idle_andThen (idle_told found) fun s? => by
      cases s? <;> exact idle_done nofun
  refine idle_andThen (hdemand id) fun s => idle_locked _ (idle_andThen (hdemand id) fun s => ?_)
  unfold giveBack
  split
  · exact idle_request rfl fun _ => idle_andThen (idle_save _) fun _ => idle_done nofun
  · exact idle_done nofun

/-- No turn is taken when a session is ended. -/
theorem idle_finish (id : String) : (finish id).Idle :=
  idle_request rfl fun r => by cases r <;> exact idle_done nofun

/-! ### The turn -/

/-- A turn makes requests of its own only. -/
theorem asksNoVersion_turn (p : Turn.TurnProgram α) :
    (p.interpret fun op => Program.ask (Op.turn op) : InboxProgram α).AsksAtMost
      Op.isVersion 0 := by
  induction p with
  | done a => trivial
  | request op next ih => exact Program.asksAtMost_request rfl ih

/-- The version of a flow is not asked for again in its turn. -/
theorem asksNoVersion_converse (setting : Setting) (s : Session) (text : Option String)
    (flow : Flow) :
    (converse setting s text flow).AsksAtMost Op.isVersion 0 :=
  Program.asksAtMost_request rfl fun _ => Program.AsksAtMost.bind (m := 0) (asksNoVersion_turn _)
    fun e => (idle_settle setting e).asks.of_le Op.isVersion_of_isOfTurn

/-- Once it was told the flow, a task is not refused for want of a version. -/
theorem converse_ends {s : Session} {text : Option String} {flow : Flow} {id : String}
    {version : Int} :
    ¬ (converse setting s text flow).Ends (.refused (.notRegistered id version)) := by
  intro h
  obtain ⟨now, h⟩ := Program.ends_request_iff.mp h
  obtain ⟨e, -, h⟩ := Program.ends_bind_iff.mp h
  exact (idle_settle setting e).ends id version h

/-- It is the flow of the session that is told as missing. -/
theorem orphaned_ends {s : Session} {id : String} {version : Int}
    (h : (orphaned s).Ends (.refused (.notRegistered id version))) :
    id = s.flowId ∧ version = s.flowVersion := by
  obtain ⟨o, ho, h⟩ := Program.ends_bind_iff.mp h
  cases o with
  | done _ =>
      cases Program.ends_done_iff.mp h
      exact ⟨rfl, rfl⟩
  | refused fault =>
      cases Program.ends_done_iff.mp h
      exact absurd ho ((idle_save _).ends id version)
  | abandoned => cases Program.ends_done_iff.mp h

theorem asks_orphaned (s : Session) : (orphaned s).AsksAtMost Op.isOfTurn 0 :=
  Program.AsksAtMost.bind (m := 0) (idle_save _).asks fun o => by cases o <;> trivial

/-- A task asks as often when its outcome is forgotten. -/
theorem asks_forgetting {q : Op → Bool} {p : InboxProgram α} (h : p.AsksAtMost q 0) :
    (forgetting p).AsksAtMost q 0 :=
  Program.AsksAtMost.bind (m := 0) h fun _ => trivial

/-- Who leaves a lock asks for that and nothing more. -/
theorem Task.asks_leaving {q : Op → Bool} {t : Task α} {contact : String}
    (hq : q (.release contact) = false) (h : t.AsksAtMost q 0) :
    (Task.leaving contact t).AsksAtMost q 0 :=
  asks_forgetting (Program.AsksAtMost.bind (m := 0) h fun _ =>
    Program.asksAtMost_request hq fun _ => trivial)

/-- A program is not led to a request of a kind that it never asks. -/
theorem not_leads_of_asks {q : Op → Bool} {p : InboxProgram α} (h : p.AsksAtMost q 0)
    {log : List (Program.Exchange Op Op.Reply)} {op : Op} {next : op.Reply → InboxProgram α}
    (hop : q op = true) : ¬ p.Leads log (.request op next) := by
  intro hl
  have hno := (Program.asksNone_request_iff.mp (h.leads hl)).1
  rw [hop] at hno
  cases hno

/-- Inside the lock of the contact a session is found first, and only a turn that is taken with it
asks for a version or makes a request of a turn. -/
theorem found_of_leads {contact : Contact} {text : Option String} {flowId sessionId : String}
    {log : List Exchange} {op : Op} {next : op.Reply → InboxProgram Unit}
    (h : (Task.leaving contact.id ((findSession contact text flowId sessionId).andThen
      (attend setting text))).Leads (log.map Exchange.plain) (.request op next))
    (hop : op.isOfTurn = true) :
    ∃ s before since, log = before ++ since ∧
      (findSession contact text flowId sessionId).Leads (before.map Exchange.plain)
        (.done (.done s)) ∧
      (Task.leaving contact.id (takeTurn setting s text)).Leads (since.map Exchange.plain)
        (.request op next) := by
  have hleaving {t : Task Turn.Result} (ht : t.AsksAtMost Op.isOfTurn 0)
      (log : List (Program.Exchange Op Op.Reply)) :
      ¬ (Task.leaving contact.id t).Leads log (.request op next) :=
    not_leads_of_asks (Task.asks_leaving rfl ht) hop
  unfold Task.andThen at h
  rw [Task.leaving_bind] at h
  -- the search for the session is over when the request is made, for it makes none of the kind
  rcases Program.leads_bind h with ⟨op', next', h₁, he'⟩ | ⟨log₁, log₂, o, hlog, h₁, h₂⟩
  · cases he'
    exact absurd h₁ (not_leads_of_asks (idle_findSession contact text flowId sessionId).asks hop)
  · obtain ⟨before, since, rfl, rfl, rfl⟩ := List.map_eq_append_iff.mp hlog
    cases o with
    | refused | abandoned => exact absurd h₂ (hleaving (t := .done _) trivial _)
    | done s =>
        have h₂ : (Task.leaving contact.id (attend setting text s)).Leads (since.map Exchange.plain)
          (.request op next) := h₂
        unfold attend at h₂
        split at h₂
        · exact absurd h₂ (hleaving (idle_noteForPerson s text).asks _)
        · exact ⟨s, before, since, rfl, h₁, h₂⟩

/-- **A task that asks for a version, or makes a request of a turn, takes a turn** with the session
that it came to have in hand. -/
theorem leads_takeTurn {log : List Exchange} {op : Op} {next : op.Reply → InboxProgram Unit}
    (h : (call.program setting).Leads (log.map Exchange.plain) (.request op next))
    (hop : op.isOfTurn = true) :
    ∃ contact text flowId sessionId s before since,
      call = .message contact text flowId sessionId ∧ log = before ++ since ∧
      call.phase before = .holding contact.id { session := s } ∧
      (Task.leaving contact.id (takeTurn setting s text)).Leads (since.map Exchange.plain)
        (.request op next) := by
  cases call with
  | release id => exact absurd h (not_leads_of_asks (asks_forgetting (idle_release id).asks) hop)
  | finish id => exact absurd h (not_leads_of_asks (asks_forgetting (idle_finish id).asks) hop)
  | message contact text flowId sessionId =>
      rcases Program.leads_request_iff.mp h with ⟨-, he⟩ | ⟨inside, rest, hlog, hrest⟩
      · cases he
        cases hop
      · obtain ⟨e, log, rfl, he, rfl⟩ := List.map_eq_cons_iff.mp hlog
        obtain rfl := Exchange.eq_of_plain he
        cases inside with
        | false => cases (Program.leads_done_iff.mp hrest).2
        | true =>
            obtain ⟨s, before, since, rfl, hfound, hturn⟩ := found_of_leads hrest hop
            exact ⟨contact, text, flowId, sessionId, s, _ :: before, since, rfl, rfl,
              phase_of_found hfound, hturn⟩

/-- **A task asks for the version of the session in hand**, and goes on from the reply with the turn
on the flow that it is told. -/
theorem version_of_leads {log : List Exchange} {id : String} {version : Int}
    {next : Option Flow → InboxProgram Unit}
    (h : (call.program setting).Leads (log.map Exchange.plain)
      (.request (.version id version) next)) :
    ∃ contact text flowId sessionId s, call = .message contact text flowId sessionId ∧
      call.phase log = .holding contact.id { session := s } ∧ id = s.flowId ∧
        version = s.flowVersion ∧
      ∀ flow?, next flow? =
        Task.leaving contact.id (flow?.elim (orphaned s) (converse setting s text)) := by
  obtain ⟨contact, text, flowId, sessionId, s, before, since, hcall, rfl, hphase, h⟩ :=
    leads_takeTurn h rfl
  rw [takeTurn_eq] at h
  rcases Program.leads_request_iff.mp h with ⟨hsince, he⟩ | ⟨flow?, rest, -, hrest⟩
  · obtain rfl : since = [] := List.map_eq_nil_iff.mp hsince
    cases he
    exact ⟨contact, text, flowId, sessionId, s, hcall,
      by rwa [List.append_nil], rfl, rfl, fun _ => rfl⟩
  -- once the version was told, it is not asked for again
  · refine absurd hrest (not_leads_of_asks (q := Op.isVersion) (Task.asks_leaving rfl ?_) rfl)
    cases flow? with
    | none => exact (asks_orphaned s).of_le Op.isVersion_of_isOfTurn
    | some flow => exact asksNoVersion_converse setting s text flow

/-- **A task that makes a request of a turn was told the flow** of the session that it had in hand.
-/
theorem turn_of_leads {log : List Exchange} {op : Turn.Op} {next : op.Reply → InboxProgram Unit}
    (h : (call.program setting).Leads (log.map Exchange.plain) (.request (.turn op) next)) :
    ∃ before, ∃ s : Session, ∃ flow since,
      log = before ++ ⟨.version s.flowId s.flowVersion, some flow⟩ :: since := by
  obtain ⟨contact, text, flowId, sessionId, s, before, since, -, rfl, -, h⟩ := leads_takeTurn h rfl
  rw [takeTurn_eq] at h
  rcases Program.leads_request_iff.mp h with ⟨-, he⟩ | ⟨flow?, rest, hsince, hrest⟩
  · cases he
  · obtain ⟨e, since, rfl, he, -⟩ := List.map_eq_cons_iff.mp hsince
    obtain rfl := Exchange.eq_of_plain he
    cases flow? with
    | none => exact absurd hrest (not_leads_of_asks (Task.asks_leaving rfl (asks_orphaned s)) rfl)
    | some flow => exact ⟨before, s, flow, since, rfl⟩

/-- With a session in hand, only a version that was never registered leads to a refusal for want of
it. -/
theorem refused_of_attend {text : Option String} {s : Session} {id : String} {version : Int}
    {log : List Exchange}
    (h : (attend setting text s).Comes (log.map Exchange.plain)
      (.refused (.notRegistered id version))) :
    ∃ since, log = ⟨.version id version, none⟩ :: since := by
  unfold attend at h
  split at h
  · exact absurd h.ends ((idle_noteForPerson s text).ends id version)
  · rw [takeTurn_eq] at h
    obtain ⟨flow?, rest, hlog, hrest⟩ := Program.comes_request_iff.mp h
    obtain ⟨e, since, rfl, he, -⟩ := List.map_eq_cons_iff.mp hlog
    obtain rfl := Exchange.eq_of_plain he
    cases flow? with
    | some flow => exact absurd hrest.ends converse_ends
    | none =>
        obtain ⟨rfl, rfl⟩ := orphaned_ends hrest.ends
        exact ⟨since, rfl⟩

/-- **A message that is refused for want of a version** was refused when the task was told that
there is none. -/
theorem refused_of_comes {contact : Contact} {text : Option String} {flowId sessionId id : String}
    {version : Int} {log : List Exchange}
    (h : (handle setting contact text flowId sessionId).Comes (log.map Exchange.plain)
      (.refused (.notRegistered id version))) :
    ∃ before since, log = before ++ ⟨.version id version, none⟩ :: since := by
  obtain ⟨inside, rest, hlog, h⟩ := Program.comes_request_iff.mp h
  obtain ⟨e, log, rfl, -, rfl⟩ := List.map_eq_cons_iff.mp hlog
  cases inside with
  | false => cases (Program.comes_done_iff.mp h).2
  | true =>
      obtain ⟨log₁, log₂, o, hlog, hserved, hlast⟩ := Program.comes_bind_iff.mp h
      obtain ⟨_, _, -, hlast⟩ := Program.comes_request_iff.mp hlast
      obtain rfl := (Program.comes_done_iff.mp hlast).2
      obtain ⟨during, last, rfl, rfl, -⟩ := List.map_eq_append_iff.mp hlog
      obtain ⟨log₁, log₂, o, hlog, hfound, hserved⟩ := Program.comes_bind_iff.mp hserved
      obtain ⟨before, since, rfl, -, rfl⟩ := List.map_eq_append_iff.mp hlog
      cases o with
      | abandoned => cases (Program.comes_done_iff.mp hserved).2
      | refused fault =>
          cases (Program.comes_done_iff.mp hserved).2
          exact absurd hfound.ends
            ((idle_findSession contact text flowId sessionId).ends id version)
      | done s =>
          have hserved : (attend setting text s).Comes (since.map Exchange.plain)
            (.refused (.notRegistered id version)) := hserved
          obtain ⟨since, rfl⟩ := refused_of_attend hserved
          exact ⟨e :: before, since ++ last, by simp⟩

end Parley.Inbox
