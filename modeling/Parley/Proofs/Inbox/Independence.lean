import Mathlib.Data.List.Forall2
import Parley.Proofs.Inbox.Books
import Parley.Proofs.Inbox.Live
import Parley.Proofs.Inbox.Serial
import Parley.Proofs.Requests

/-!
# Contacts are independent

`Seen h came served`: a hall that began empty has come to `h`; the messages of a contact came to the
contact's lock in the order `came`, and those that are done with are `served`, in the order in which
they left the lock, each with the store as it was then.

What a contact is told and what is stored of it is a matter of its own messages (`views`): without
ids and dates it is what a ledger yields that nobody else writes to (`account_of_seen`).  So it is
the same in any two halls to which the contact's messages come in the same order, whoever else
writes to either of them (`contacts_are_independent`).  The collaborators answer alike in both, and
no reading of the clock while a message is handled is as early as one for a message of the contact
before it (`Orderly`).
-/

namespace Parley.Inbox

open Calendar
open Turn (Staff)

variable {α : Type} {setting : Setting} {reg : Registry} {staff : Staff} {contact : String}

/-! ### What a contact sees -/

theorem Makes.comes {st st' : Store} {p : InboxProgram α} {log : List Exchange} {a : α}
    (h : Makes reg st p log st' (.done a)) : p.Comes (log.map Exchange.plain) a := by
  generalize hq : Program.done a = q at h
  induction h with
  | here =>
      subst hq
      exact .done a
  | asks r _ _ ih => exact .request r (ih hq)

/-- What a message was answered and what was stored of its contact then, without ids and dates. -/
structure View where
  message : Message
  outcome : Outcome Turn.Result
  /-- The session that was active last comes first. -/
  sessions : List Session

/-- The task handled the message with such an outcome, and left the contact's sessions like that. -/
structure View.Shown (setting : Setting) (contact : String) (v : View) (served : Job × Store) :
    Prop where
  call : served.1.call = v.message.call
  outcome : ∃ o, (handle setting v.message.contact v.message.text v.message.flowId "").Comes
    (served.1.log.map Exchange.plain) o ∧ v.outcome = o.anonymous
  sessions : ∃ ss, served.2.Lists contact ss ∧ v.sessions = ss.map Session.anonymous

/-- A task shows one view. -/
theorem View.Shown.unique {v v' : View} {served : Job × Store} (hv : v.Shown setting contact served)
    (hv' : v'.Shown setting contact served) : v = v' := by
  obtain ⟨⟨sender, text, flowId⟩, outcome, sessions⟩ := v
  obtain ⟨⟨sender', text', flowId'⟩, outcome', sessions'⟩ := v'
  obtain ⟨hcall, ⟨o, ho, rfl⟩, ss, hss, rfl⟩ := hv
  obtain ⟨hcall', ⟨o', ho', rfl⟩, ss', hss', rfl⟩ := hv'
  cases hcall.symm.trans hcall'
  obtain ⟨-, rfl⟩ := ho.of_prefix ho' (List.prefix_refl _)
  obtain rfl := hss.unique hss'
  rfl

/-- Tasks show one list of views, when they show any. -/
theorem View.forall₂_shown_iff {vs : List View} {served : List (Job × Store)}
    (h : List.Forall₂ (View.Shown setting contact) vs served) (us : List View) :
    List.Forall₂ (View.Shown setting contact) us served ↔ us = vs :=
  ⟨fun hus => List.left_unique_forall₂' (fun _ _ _ hu hv => hu.unique hv) hus h, fun he => he ▸ h⟩

/-- A message to a contact of whom the ledger has these sessions. -/
def Message.view (m : Message) (setting : Setting) (reg : Registry) (staff : Staff)
    (recents : List Session) : View :=
  let p := (handle setting m.contact m.text m.flowId "").play (Ledger.replies reg staff)
    { recents := recents }
  ⟨m, p.1, p.2.recents⟩

/-- Messages to a contact of whom the ledger has these sessions, one after the other. -/
def views (setting : Setting) (reg : Registry) (staff : Staff) :
    List Session → List Message → List View
  | _, [] => []
  | recents, m :: rest =>
    let v := m.view setting reg staff recents
    v :: views setting reg staff v.sessions rest

/-- What the ledger has after the messages. -/
def sessionsAfter (setting : Setting) (reg : Registry) (staff : Staff) (recents : List Session)
    (ms : List Message) : List Session :=
  ms.foldl (fun recents m => (m.view setting reg staff recents).sessions) recents

theorem views_append (recents : List Session) (ms ms' : List Message) :
    views setting reg staff recents (ms ++ ms') = views setting reg staff recents ms ++
      views setting reg staff (sessionsAfter setting reg staff recents ms) ms' := by
  induction ms generalizing recents with
  | nil => rfl
  | cons m rest ih => exact congrArg _ (ih _)

theorem map_message_views (recents : List Session) (ms : List Message) :
    (views setting reg staff recents ms).map View.message = ms := by
  induction ms generalizing recents with
  | nil => rfl
  | cons m rest ih => exact congrArg _ (ih _)

namespace Hall

variable {h h' : Hall} {came : List Message} {served served' : List (Job × Store)} {k : Nat}
  {j : Job} {m : Message}

/-! ### What happens at a contact's lock -/

/-- A hall that began empty, as it is seen from the lock of a contact: the messages that came to the
lock, and the tasks that have left it, with what was stored then. -/
inductive Seen (setting : Setting) (reg : Registry) (contact : String) :
    Hall → List Message → List (Job × Store) → Prop where
  | opens : Seen setting reg contact {} [] []
  | comes {h : Hall} {came : List Message} {served : List (Job × Store)} {k : Nat} {j : Job}
      {m : Message}
      {next : Bool → InboxProgram Unit} (hs : Seen setting reg contact h came served)
      (hj : h.jobs k = some j) (hr : j.rest = .request (.acquire contact) next)
      (hv : ∀ v ∈ h.locks.visits, v.task ≠ k) (hm : j.call = m.call) :
      Seen setting reg contact (h.come k contact) (came ++ [m]) served
  | leaves {h : Hall} {came : List Message} {served : List (Job × Store)} {k : Nat}
      {j : Job} {op : Op}
      {next : op.Reply → InboxProgram Unit} (hs : Seen setting reg contact h came served)
      (hj : h.jobs k = some j) (hr : j.rest = .request op next) (r : op.Reply)
      (ht : Tells reg h.store op r) (ha : h.Admits k op r)
      (hl : (h.answer k j op r (next r)).locks.visitorsOf contact ≠ h.locks.visitorsOf contact) :
      Seen setting reg contact (h.answer k j op r (next r)) came
        (served ++ [(j.told op r (next r), (h.answer k j op r (next r)).store)])
  | passes {h h' : Hall} {came : List Message} {served : List (Job × Store)}
      (hs : Seen setting reg contact h came served) (hstep : Step setting reg h h')
      (hl : h'.locks.visitorsOf contact = h.locks.visitorsOf contact) :
      Seen setting reg contact h' came served

theorem Seen.reaches (hs : Seen setting reg contact h came served) : Reaches setting reg {} h := by
  induction hs with
  | opens => exact .refl
  | comes _ hj hr hv _ ih => exact ih.tail (.comes hj hr hv)
  | leaves _ hj hr r ht ha _ ih => exact ih.tail (.asks hj hr r ht ha)
  | passes _ hstep _ ih => exact ih.tail hstep

/-- **Every run** in which messages are handled that name no session is seen from the lock of a
contact. -/
theorem seen_of_reaches (hr : Reaches setting reg {} h) (hl : h.Letters) (contact : String) :
    ∃ came served, Seen setting reg contact h came served := by
  induction hr with
  | refl => exact ⟨[], [], .opens⟩
  | @tail h₁ h₂ _ hstep ih =>
      obtain ⟨came, served, hs⟩ := ih (hl.before hstep.before)
      cases hstep with
      | begins k call hk => exact ⟨came, served, hs.passes (.begins k call hk) rfl⟩
      | @comes k j lock next hj hr hv =>
          by_cases he : lock = contact
          · subst he
            obtain ⟨m, hm⟩ := hl k j hj
            exact ⟨_, served, hs.comes hj hr hv hm⟩
          · refine ⟨came, served, hs.passes (.comes hj hr hv) ?_⟩
            refine (Locks.visitorsOf_enter _ k lock contact).trans ?_
            rw [if_neg he, List.append_nil]
      | @asks k j op next hj hr r ht ha =>
          by_cases he : (h₁.answer k j op r (next r)).locks.visitorsOf contact =
            h₁.locks.visitorsOf contact
          · exact ⟨came, served, hs.passes (.asks hj hr r ht ha) he⟩
          · exact ⟨came, _, hs.leaves hj hr r ht ha he⟩

/-! ### Tasks that are attended -/

/-- A task goes on, and stays at its lock. -/
theorem Seen.told {op : Op} {next : op.Reply → InboxProgram Unit}
    (hs : Seen setting reg contact h came served) (hj : h.jobs k = some j)
    (hr : j.rest = .request op next) (r : op.Reply) (ht : Tells reg h.store op r)
    (ha : h.Admits k op r) (hstays : op.Stays r) :
    Seen setting reg contact (h.answer k j op r (next r)) came served :=
  hs.passes (.asks hj hr r ht ha)
    (congrArg (Locks.visitorsOf · contact) (locksAfter_of_stays hstays _ _))

/-- A task takes its turn, attended by the staff. -/
theorem Seen.plays {p : Turn.TurnProgram Turn.Ending} {f : Turn.Ending → InboxProgram Unit}
    (hs : Seen setting reg contact h came served) (hj : h.jobs k = some j)
    (hr : j.rest = (p.interpret fun op => Program.ask (Op.turn op)).bind f) (staff : Staff)
    (start : Rat) :
    ∃ h' log, Seen setting reg contact h' came served ∧ h'.locks = h.locks ∧
      h'.jobs = Function.update h.jobs k
        (some ⟨j.call, j.log ++ log, f (p.play staff.replies start).1⟩) ∧
      AttendedFrom staff start log := by
  induction p generalizing h j start with
  | done e =>
      refine ⟨h, [], hs, rfl, ?_, trivial⟩
      have hrest : j.rest = f e := hr
      rw [List.append_nil, Program.play, ← hrest]
      exact (Function.update_eq_self_iff.mpr hj.symm).symm
  | request op next ih =>
      have hstep : Step setting reg h (h.answer k j (.turn op) (staff.replies op start).1 _) :=
        @Step.asks setting reg h k j (.turn op) _ hj hr _ trivial trivial
      obtain ⟨h', log, hs', hlocks, hjobs, ha⟩ :=
        ih _ (hs.passes hstep rfl) (Function.update_self _ _ _) rfl (staff.replies op start).2
      refine ⟨h', ⟨.turn op, _⟩ :: log, hs', hlocks, ?_, rfl, ha⟩
      rw [hjobs]
      refine (Function.update_idem _ _ _).trans ?_
      simp only [Job.told, List.append_assoc, List.singleton_append]
      rfl

/-- A task takes a turn that does not hand off, attended by the staff, and saves the session. -/
theorem Seen.takesTurn {p : Turn.TurnProgram Turn.Ending}
    {g : Outcome Turn.Result → InboxProgram Unit} (hs : Seen setting reg contact h came served)
    (hj : h.jobs k = some j)
    (hr : j.rest = (p.interpret fun op => Program.ask (Op.turn op)).bind fun e =>
      (settle setting e).bind g)
    (start : Rat) {s : Session} {r : Turn.Result}
    (he : (p.play staff.replies start).1 = .finished s r) (hn : r.handoff = none)
    (hf : s.fits = true) :
    ∃ h' log, Seen setting reg contact h' came served ∧ h'.locks = h.locks ∧
      h'.jobs = Function.update h.jobs k
        (some ⟨j.call, j.log ++ (log ++ [⟨.save s, .ok ()⟩]), g (.done r)⟩) ∧
      AttendedFrom staff start log := by
  obtain ⟨h₁, log, hs₁, hlocks, hjobs, ha⟩ := hs.plays hj hr staff start
  rw [he, settle_of_none hn] at hjobs
  have hj₁ : h₁.jobs k =
      some ⟨j.call, j.log ++ log, ((Task.save s).andThen fun _ => .give r).bind g⟩ := by
    rw [hjobs, Function.update_self]
  have hstep : Step setting reg h₁ (h₁.answer k _ (.save s) (.ok ()) _) :=
    @Step.asks setting reg h₁ k _ (.save s) _ hj₁ rfl (.ok ())
      (fun hnot => nomatch hf.symm.trans hnot)
      trivial
  refine ⟨_, log, hs₁.passes hstep rfl, hlocks, ?_, ha⟩
  change Function.update h₁.jobs k _ = _
  rw [hjobs, Function.update_idem]
  simp only [Job.told, List.append_assoc]
  rfl

/-- The tasks were attended by the staff, and each read the clock later than those before it. -/
structure Orderly (staff : Staff) (served : List (Job × Store)) : Prop where
  attended : ∀ e ∈ served, Attended staff e.1.log
  clock : served.Pairwise fun e e' =>
    ∀ now ∈ readingsOf e.1.log, ∀ now' ∈ readingsOf e'.1.log, now.reading < now'.reading

theorem Orderly.left (ho : Orderly staff (served ++ served')) : Orderly staff served :=
  ⟨fun e he => ho.attended e (List.mem_append_left _ he), (List.pairwise_append.mp ho.clock).1⟩

/-! ### What the contact sees -/

/-- What was said and stored so far is what the ledger yields, and the messages that it does not
know of yet are those of the tasks at the contact's lock. -/
structure Account (setting : Setting) (reg : Registry) (staff : Staff) (contact : String) (h : Hall)
    (came : List Message) (served : List (Job × Store)) (taken waiting : List Message) (σ : Store)
    (ss : List Session) : Prop where
  order : came = taken ++ waiting
  waiting : List.Forall₂ (fun k m => ∃ j, h.jobs k = some j ∧ j.call = Message.call m)
    (h.locks.visitorsOf contact) waiting
  shown : List.Forall₂ (View.Shown setting contact) (views setting reg staff [] taken) served
  books : Books setting reg contact h σ ss
  recents : sessionsAfter setting reg staff [] taken = ss.map Session.anonymous
  dates : ∀ s ∈ ss, ∃ e ∈ served, s.lastActivityAt ∈ readingsOf e.1.log

variable {taken waiting : List Message} {σ : Store} {ss : List Session}

/-- A message comes to the lock. -/
theorem Account.comes (ha : Account setting reg staff contact h came served taken waiting σ ss)
    (hj : h.jobs k = some j) (hm : j.call = m.call) :
    Account setting reg staff contact (h.come k contact) (came ++ [m]) served taken
      (waiting ++ [m]) σ ss where
  order := by rw [ha.order, List.append_assoc]
  waiting := by
    have hvisitors : (h.come k contact).locks.visitorsOf contact =
        h.locks.visitorsOf contact ++ [k] := by
      refine (Locks.visitorsOf_enter _ k contact contact).trans ?_
      rw [if_pos rfl]
    rw [hvisitors]
    exact List.rel_append ha.waiting (.cons ⟨j, hj, hm⟩ .nil)
  shown := ha.shown
  books := ha.books.comes k contact
  recents := ha.recents
  dates := ha.dates

/-- Something else happens. -/
theorem Account.passes (ha : Account setting reg staff contact h came served taken waiting σ ss)
    (hs : h.Sound) (hq : h.Queues) (hl : h.Letters) (hstep : Step setting reg h h')
    (hvisitors : h'.locks.visitorsOf contact = h.locks.visitorsOf contact) :
    Account setting reg staff contact h' came served taken waiting σ ss := by
  have hwaiting : List.Forall₂ (fun k m => ∃ j, h'.jobs k = some j ∧ j.call = Message.call m)
      (h'.locks.visitorsOf contact) waiting := by
    rw [hvisitors]
    refine ha.waiting.imp fun k m ⟨j, hj, hm⟩ => ?_
    obtain ⟨j', hj', hcall⟩ := hstep.before.jobs hj
    exact ⟨j', hj', hcall.trans hm⟩
  suffices hbooks : Books setting reg contact h' σ ss from
    ⟨ha.order, hwaiting, ha.shown, hbooks, ha.recents, ha.dates⟩
  cases hstep with
  | begins k call hk => exact ha.books.begins hk call
  | @comes k j lock => exact ha.books.comes k lock
  | @asks k j op next hj hr r ht hadmits =>
      obtain ⟨m, hm⟩ := hl k j hj
      refine ha.books.stays hs hj hm hr ht hadmits fun hin => ?_
      by_contra hstays
      -- whoever left the lock would be missing there
      obtain ⟨lock, hlock, -, hleave⟩ := leaves_of_not_stays (hs.permits hj hr).1 hstays
      obtain rfl : lock = contact := hlock.unique (.inr hin)
      have hleft := Locks.leave_of_isInside hs.locks hq.inLine (hs.inside hj hin)
      have hlocks : (h.answer k j op r (next r)).locks = h.locks.leave k lock := hleave _ _
      rw [← hlocks, hvisitors] at hleft
      exact List.cons_ne_self _ _ hleft.symm

/-- **A task that leaves the lock** has answered its message as the ledger does. -/
theorem Books.answers (hb : Books setting reg contact h σ ss) (hs : h.Sound)
    (hj : h.jobs k = some j) (hm : j.call = m.call) {next : Unit → InboxProgram Unit}
    (hr : j.rest = .request (.release contact) next)
    (hattended : Attended staff (j.told (.release contact) () (next ())).log)
    (hlate : Late ss (readingsOf (j.told (.release contact) () (next ())).log)) :
    ∃ ss', h.store.Lists contact ss' ∧
      (m.view setting reg staff (ss.map Session.anonymous)).Shown setting contact
        (j.told (.release contact) () (next ()), h.store) ∧
      (m.view setting reg staff (ss.map Session.anonymous)).sessions = ss'.map Session.anonymous ∧
      ∀ s ∈ ss', s.lastActivityAt ∈ ss.map Session.lastActivityAt ∨
        s.lastActivityAt ∈ readingsOf (j.told (.release contact) () (next ())).log := by
  have hp : j.phase.lock? = some contact := (hs.permits hj hr).1
  obtain rfl : m.contact.id = contact := by
    have hserves := (hs.fits hj).lock (.inr hp)
    rw [hm] at hserves
    exact hserves
  obtain ⟨σ', o, hmakes, hsound, hsame, hfresh⟩ := hb.leaves hs hj hm hr
  obtain ⟨houtcome, ss', hlists, hrecents, hdates⟩ :=
    accords_of_makes hb.sound hb.lists hattended hlate hfresh hmakes
  have hlists' := hsame.lists hsound hs.store hlists
  exact ⟨ss', hlists', ⟨hm, ⟨o, hmakes.comes, houtcome⟩, ss', hlists', hrecents⟩, hrecents, hdates⟩

/-- A message is done with. -/
theorem Account.leaves (ha : Account setting reg staff contact h came served taken waiting σ ss)
    (hs : h.Sound) (hq : h.Queues) (hj : h.jobs k = some j) {next : Unit → InboxProgram Unit}
    (hr : j.rest = .request (.release contact) next)
    (ho : Orderly staff (served ++ [(j.told (.release contact) () (next ()), h.store)])) :
    ∃ m waiting' ss', waiting = m :: waiting' ∧
      Account setting reg staff contact (h.answer k j (.release contact) () (next ())) came
        (served ++ [(j.told (.release contact) () (next ()), h.store)])
          (taken ++ [m]) waiting' h.store ss' := by
  have hp : j.phase.lock? = some contact := (hs.permits hj hr).1
  -- it was the first at the lock
  have hleft := Locks.leave_of_isInside hs.locks hq.inLine (hs.inside hj hp)
  have hwaiting := ha.waiting
  rw [hleft] at hwaiting
  obtain ⟨m, waiting', ⟨j', hj', hm⟩, hwaiting, hcons⟩ := List.forall₂_cons_left_iff.mp hwaiting
  obtain rfl := Option.some.inj (hj.symm.trans hj')
  have hlate : Late ss (readingsOf (j.told (.release contact) () (next ())).log) := by
    intro now hnow s hmem
    obtain ⟨e, he, hdate⟩ := ha.dates s hmem
    exact (List.pairwise_append.mp ho.clock).2.2 e he _
      (List.mem_singleton.mpr rfl) _ hdate now hnow
  have hattended := ho.attended _ (List.mem_append_right _ (List.mem_singleton.mpr rfl))
  obtain ⟨ss', hlists, hshown, hrecents, hdates⟩ := ha.books.answers hs hj hm hr hattended hlate
  refine ⟨m, waiting', ss', hcons, ?_, ?_, ?_, ha.books.renew hs hj hr hlists, ?_, fun s hmem => ?_⟩
  · rw [ha.order, hcons, List.append_assoc]
    rfl
  · have hstep : Step setting reg h (h.answer k j (.release contact) () (next ())) :=
      .asks hj hr () trivial trivial
    refine hwaiting.imp fun k m ⟨j, hj, hm⟩ => ?_
    obtain ⟨j', hj', hcall⟩ := hstep.before.jobs hj
    exact ⟨j', hj', hcall.trans hm⟩
  · rw [views_append, ha.recents]
    exact List.rel_append ha.shown (.cons hshown .nil)
  · unfold sessionsAfter
    rw [List.foldl_append]
    change (m.view setting reg staff (sessionsAfter setting reg staff [] taken)).sessions = _
    rw [ha.recents]
    exact hrecents
  · rcases hdates s hmem with hold | hnew
    · obtain ⟨s', hmem', hdate⟩ := List.mem_map.mp hold
      obtain ⟨e, he, hread⟩ := ha.dates s' hmem'
      exact ⟨e, List.mem_append_left _ he, hdate ▸ hread⟩
    · exact ⟨_, List.mem_append_right _ (List.mem_singleton.mpr rfl), hnew⟩

/-- **What a contact sees** is what the ledger yields for its messages. -/
theorem account_of_seen (hs : Seen setting reg contact h came served) (hl : h.Letters)
    (ho : Orderly staff served) :
    ∃ taken waiting σ ss, Account setting reg staff contact h came served taken waiting σ ss := by
  induction hs with
  | opens => exact ⟨[], [], {}, [], rfl, .nil, .nil, books_empty setting reg contact, rfl, nofun⟩
  | @comes h came served k j m next hs hj hr hv hm ih =>
      have hstep : Step setting reg h (h.come k contact) := .comes hj hr hv
      obtain ⟨taken, waiting, σ, ss, ha⟩ := ih (hl.before hstep.before) ho
      exact ⟨taken, _, σ, ss, ha.comes hj hm⟩
  | passes hs hstep hvisitors ih =>
      have hl := hl.before hstep.before
      obtain ⟨taken, waiting, σ, ss, ha⟩ := ih hl ho
      have hsound := opening_empty.sound.reaches hs.reaches
      exact ⟨taken, waiting, σ, ss,
        ha.passes hsound (.reaches opening_empty hs.reaches) hl hstep hvisitors⟩
  | @leaves h came served k j op next hs hj hr r ht hadmits hvisitors ih =>
      have hstep : Step setting reg h (h.answer k j op r (next r)) := .asks hj hr r ht hadmits
      obtain ⟨taken, waiting, σ, ss, ha⟩ := ih (hl.before hstep.before) ho.left
      have hsound := opening_empty.sound.reaches hs.reaches
      have hq := Queues.reaches opening_empty hs.reaches
      have hother {lock : String} (hlock : (h.locks.leave k lock).visitorsOf contact ≠
          h.locks.visitorsOf contact) : lock = contact := by
        by_contra hne
        exact hlock (Locks.visitorsOf_leave_of_ne hne)
      cases op with
      | acquire lock =>
          -- nobody gives up at the lock
          have hattended := ho.attended _ (List.mem_append_right _ (List.mem_singleton.mpr rfl))
          obtain ⟨_, hinside⟩ := hattended.append.2.cons.1
          obtain rfl : r = true := hinside
          exact absurd rfl hvisitors
      | release lock =>
          obtain rfl : lock = contact := hother hvisitors
          obtain ⟨m, waiting', ss', -, hleft⟩ := ha.leaves hsound hq hj hr ho
          exact ⟨_, waiting', _, ss', hleft⟩
      | _ => exact absurd rfl hvisitors

/-- The hall shows the first of the views, all of them once nobody is at the lock. -/
theorem Account.shows (ha : Account setting reg staff contact h came served taken waiting σ ss) :
    List.Forall₂ (View.Shown setting contact)
      ((views setting reg staff [] came).take served.length) served ∧
      (h.locks.visitorsOf contact = [] → served.length =
        (views setting reg staff [] came).length) := by
  have hlength := ha.shown.length_eq
  rw [ha.order, views_append]
  constructor
  · rw [← hlength, List.take_left]
    exact ha.shown
  · intro hnobody
    have hwaiting := ha.waiting
    rw [hnobody] at hwaiting
    cases hwaiting
    rw [← hlength]
    simp [views]

/-! ### Two contacts say hello -/

/-- Collaborators who never answer, and take no time for it. -/
def mute : Staff where
  call
    | .consult _ _, _ => (.ok (.error .timedOut), 0)
    | .sleep _, _ => (.ok (), 0)
  ticket _ _ _ _ _ := .error .timedOut
  blind _ _ _ _ _ _ _ := rfl

/-- A message that says hello. -/
def hello (contact : String) : Message := { contact := { id := contact }, text := some "hi" }

/-- The turn in which a contact is asked for the name, with a session begun for it. -/
def helloTurn (contact id : String) (begun now : Moment) : Turn.TurnProgram Turn.Ending :=
  Turn.run Turn.greetingSetting now (newSession Turn.greeting { id := contact } id begun)
    (some "hi") none

/-- What is left to do of the message before the turn. -/
def helloRest (contact id : String) (begun now : Moment) : InboxProgram Unit :=
  ((((helloTurn contact id begun now).interpret fun op => Program.ask (Op.turn op)).bind
    (settle ⟨{}, {}⟩)).bind fun r => .request (.release contact) fun _ => .done r).bind
      fun _ => .done ()

/-- The task is let in, finds no session and begins one. -/
theorem Seen.arrives (hs : Seen ⟨{}, {}⟩ greetingRegistry contact h came served) (k : Nat)
    (sender id : String) (begun now : Moment)
    (hj : h.jobs k = some ⟨(hello sender).call, [], (hello sender).call.program ⟨{}, {}⟩⟩)
    (hin : h.locks.isInside k sender = true) (hstore : h.store = {}) (hid : h.owner id = none)
    (hbegun : begun.Utc) (hnow : now.Utc) :
    ∃ h' log, Seen ⟨{}, {}⟩ greetingRegistry contact h' came served ∧ h'.locks = h.locks ∧
      h'.store = {} ∧ (∀ id', id' ≠ id → h'.owner id' = h.owner id') ∧
      h'.jobs = Function.update h.jobs k
        (some ⟨(hello sender).call, log, helloRest sender id begun now⟩) ∧
      AttendedFrom mute 0 log ∧ log.foldl (passing mute) 0 = 0 := by
  have hlatest : Tells greetingRegistry h.store (.latest sender "") (.ok none) := by
    rw [hstore]
    exact ⟨begun, "", rfl⟩
  have hs := @Seen.told _ _ _ _ _ _ k _ (.acquire sender) _ hs hj rfl true trivial hin rfl
  have hs := @Seen.told _ _ _ _ _ _ k _ (.latest sender "") _ hs
    (Function.update_self _ _ _) rfl (.ok none)
    hlatest trivial trivial
  have hs := @Seen.told _ _ _ _ _ _ k _ (.resolve "hi" "") _ hs (Function.update_self _ _ _) rfl
    (some Turn.greeting) rfl trivial trivial
  have hs := @Seen.told _ _ _ _ _ _ k _ .newId _ hs
    (Function.update_self _ _ _) rfl id trivial hid trivial
  have hs := @Seen.told _ _ _ _ _ _ k _ .now _ hs
    (Function.update_self _ _ _) rfl begun hbegun trivial trivial
  have hs := @Seen.told _ _ _ _ _ _ k _ (.version "greeting" 1) _ hs
    (Function.update_self _ _ _) rfl
    (some Turn.greeting) rfl trivial trivial
  have hs := @Seen.told _ _ _ _ _ _ k _ .now _ hs
    (Function.update_self _ _ _) rfl now hnow trivial trivial
  refine ⟨_, [⟨.acquire sender, true⟩, ⟨.latest sender "", .ok none⟩,
    ⟨.resolve "hi" "", some Turn.greeting⟩, ⟨.newId, id⟩, ⟨.now, begun⟩,
    ⟨.version "greeting" 1, some Turn.greeting⟩, ⟨.now, now⟩], hs, rfl, hstore,
    fun id' hne => Function.update_of_ne hne _ _, ?_,
    ⟨rfl, trivial, trivial, trivial, trivial, trivial, trivial, trivial⟩, rfl⟩
  simp only [answer, Function.update_idem]
  rfl

/-- How the turn ends with nobody there. -/
def helloEnding (contact id : String) (begun now : Moment) : Turn.Ending :=
  ((helloTurn contact id begun now).play mute.replies 0).1

/-- The turn asks and waits. -/
theorem finished_helloTurn {contact id : String} {begun now : Moment}
    (hr : (helloEnding contact id begun now).result?.map (·.handoff.isNone) = some true ∧
      (helloEnding contact id begun now).session.fits = true) :
    ∃ s r, helloEnding contact id begun now = .finished s r ∧ r.handoff = none ∧ s.fits = true := by
  cases he : helloEnding contact id begun now with
  | abandoned s =>
      rw [he] at hr
      cases hr.1
  | finished s r =>
      rw [he] at hr
      exact ⟨s, r, rfl, by simpa [Turn.Ending.result?] using hr.1, hr.2⟩

/-- The task takes its turn and saves, and what is left to do is to leave the lock. -/
theorem Seen.saysHello {sender id : String} {begun now : Moment} {log : List Exchange}
    (hs : Seen ⟨{}, {}⟩ greetingRegistry contact h came served)
    (hj : h.jobs k = some ⟨(hello sender).call, log, helloRest sender id begun now⟩)
    (hr : (helloEnding sender id begun now).result?.map (·.handoff.isNone) = some true ∧
      (helloEnding sender id begun now).session.fits = true) :
    ∃ h' turn s, s.fits = true ∧ Seen ⟨{}, {}⟩ greetingRegistry contact h' came served ∧
      h'.locks = h.locks ∧
      h'.jobs = Function.update h.jobs k
        (some ⟨(hello sender).call, log ++ (turn ++ [⟨.save s, .ok ()⟩]),
        .request (.release sender) fun _ => .done ()⟩) ∧
      AttendedFrom mute 0 turn := by
  obtain ⟨s, r, he, hn, hf⟩ := finished_helloTurn hr
  have hrest : helloRest sender id begun now =
      ((helloTurn sender id begun now).interpret fun op => Program.ask (Op.turn op)).bind fun e =>
        (settle ⟨{}, {}⟩ e).bind fun r =>
          (Program.request (.release sender) fun _ => .done r).bind fun _ => .done () := by
    rw [helloRest, Program.bind_assoc, Program.bind_assoc]
  obtain ⟨h', turn, hs', hlocks, hjobs, ha⟩ := hs.takesTurn hj hrest 0 he hn hf
  exact ⟨h', turn, s, hf, hs', hlocks, hjobs, ha⟩

/-- The task leaves the lock. -/
theorem Seen.leavesHello {log turn : List Exchange} {s : Session} (hf : s.fits = true)
    (hs : Seen ⟨{}, {}⟩ greetingRegistry "ana" h came [])
    (hj : h.jobs k = some ⟨(hello "ana").call, log ++ (turn ++ [⟨.save s, .ok ()⟩]),
      .request (.release "ana") fun _ => .done ()⟩)
    (ha : AttendedFrom mute 0 log) (hlog : log.foldl (passing mute) 0 = 0)
    (hturn : AttendedFrom mute 0 turn)
    (hleaves : (h.locks.leave k "ana").visitorsOf "ana" ≠ h.locks.visitorsOf "ana") :
    ∃ h' e j, Seen ⟨{}, {}⟩ greetingRegistry "ana" h' came [e] ∧ Orderly mute [e] ∧
      h'.jobs = Function.update h.jobs k (some j) ∧ j.call = (hello "ana").call := by
  have hs' := @Seen.leaves _ _ _ _ _ _ k _ (.release "ana") _ hs hj rfl () trivial trivial hleaves
  refine ⟨_, _, _, hs', ⟨fun e he => ?_, List.pairwise_singleton _ _⟩, rfl, rfl⟩
  obtain rfl := List.mem_singleton.mp he
  have hsaved : AttendedFrom mute 0 (turn ++ [⟨.save s, .ok ()⟩]) :=
    attendedFrom_append_iff.mpr ⟨hturn, (if_pos hf).symm, trivial⟩
  exact ⟨0, attendedFrom_append_iff.mpr
    ⟨attendedFrom_append_iff.mpr ⟨ha, hlog.symm ▸ hsaved⟩, trivial, trivial⟩⟩

/-- Ana is asked for her name while ben is being asked for his. -/
theorem seen_hello_beside :
    ∃ h e, Seen ⟨{}, {}⟩ greetingRegistry "ana" h [hello "ana"] [e] ∧ Orderly mute [e] ∧
    h.Letters ∧ ∃ j, h.jobs 0 = some j ∧ j.call = (hello "ben").call ∧ j.Saved := by
  have hs : Seen ⟨{}, {}⟩ greetingRegistry "ana" {} [] [] := .opens
  have hs := hs.passes (.begins 0 (hello "ben").call rfl) rfl
  have hs := hs.passes (.begins 1 (hello "ana").call rfl) rfl
  have hs := hs.passes (@Step.comes _ _ _ 0 _ "ben" _ rfl rfl (by decide)) (by decide)
  have hs := @Seen.comes _ _ _ _ _ _ 1 _ (hello "ana") _ hs rfl rfl (by decide) rfl
  -- both are in their turns before either of them is done
  obtain ⟨h₁, log₀, hs, hlocks₁, hstore, howner, hjobs₁, -⟩ :=
    hs.arrives 0 "ben" "s1" (noon 1) (noon 3) rfl
    (by decide) rfl rfl (utc_noon (by decide)) (utc_noon (by decide))
  obtain ⟨h₂, log₁, hs, hlocks₂, -, -, hjobs₂, hlog, htime⟩ :=
    hs.arrives 1 "ana" "s2" (noon 2) (noon 4)
    (by rw [hjobs₁]; rfl) (by rw [hlocks₁]; decide) hstore (howner "s2" (by decide))
    (utc_noon (by decide)) (utc_noon (by decide))
  have hben : h₂.jobs 0 =
      some ⟨(hello "ben").call, log₀, helloRest "ben" "s1" (noon 1) (noon 3)⟩ := by
    rw [hjobs₂, hjobs₁]
    rfl
  obtain ⟨h₃, turn₀, s₀, -, hs, hlocks₃, hjobs₃, -⟩ := hs.saysHello hben (by decide +kernel)
  have hana : h₃.jobs 1 =
      some ⟨(hello "ana").call, log₁, helloRest "ana" "s2" (noon 2) (noon 4)⟩ := by
    rw [hjobs₃, hjobs₂]
    rfl
  obtain ⟨h₄, turn₁, s₁, hf, hs, hlocks₄, hjobs₄, hturn⟩ := hs.saysHello hana (by decide +kernel)
  have hana : h₄.jobs 1 = some _ := hjobs₄ ▸ Function.update_self _ _ _
  obtain ⟨h₅, e, j, hs, ho, hjobs₅, hcall⟩ := hs.leavesHello hf hana hlog htime hturn (by
    rw [hlocks₄, hlocks₃, hlocks₂, hlocks₁]
    decide)
  have hkept : h₅.jobs 0 = h₃.jobs 0 := by
    rw [hjobs₅, hjobs₄]
    rfl
  have hben : h₅.jobs 0 = some _ := hkept.trans (hjobs₃ ▸ Function.update_self _ _ _)
  refine ⟨h₅, e, hs, ho, ?_, _, hben, rfl, ⟨.save s₀, .ok ()⟩, by simp, s₀, rfl⟩
  rintro (_ | _ | k) j' hj
  · exact ⟨hello "ben", congrArg Job.call (Option.some.inj (hj.symm.trans hben))⟩
  · rw [hjobs₅, Function.update_self] at hj
    obtain rfl := Option.some.inj hj
    exact ⟨hello "ana", hcall⟩
  · rw [hjobs₅, hjobs₄, hjobs₃, hjobs₂, hjobs₁] at hj
    cases hj

/-- Ana is asked for her name in a hall of her own. -/
theorem seen_hello_alone :
    ∃ h e, Seen ⟨{}, {}⟩ greetingRegistry "ana" h [hello "ana"] [e] ∧ Orderly mute [e] ∧
    h.Letters ∧ ∀ k, h.jobs (k + 1) = none := by
  have hs : Seen ⟨{}, {}⟩ greetingRegistry "ana" {} [] [] := .opens
  have hs := hs.passes (.begins 0 (hello "ana").call rfl) rfl
  have hs := @Seen.comes _ _ _ _ _ _ 0 _ (hello "ana") _ hs rfl rfl (by decide) rfl
  obtain ⟨h₁, log, hs, hlocks₁, -, -, hjobs₁, hlog, htime⟩ :=
    hs.arrives 0 "ana" "s1" (noon 1) (noon 2) rfl
    (by decide) rfl rfl (utc_noon (by decide)) (utc_noon (by decide))
  have hana : h₁.jobs 0 = some _ := hjobs₁ ▸ Function.update_self _ _ _
  obtain ⟨h₂, turn, s, hf, hs, hlocks₂, hjobs₂, hturn⟩ := hs.saysHello hana (by decide +kernel)
  have hana : h₂.jobs 0 = some _ := hjobs₂ ▸ Function.update_self _ _ _
  obtain ⟨h₃, e, j, hs, ho, hjobs₃, hcall⟩ := hs.leavesHello hf hana hlog htime hturn (by
    rw [hlocks₂, hlocks₁]
    decide)
  have halone (k : Nat) : h₃.jobs (k + 1) = none := by
    rw [hjobs₃, hjobs₂, hjobs₁]
    rfl
  refine ⟨h₃, e, hs, ho, ?_, halone⟩
  rintro (_ | k) j' hj
  · rw [hjobs₃, Function.update_self] at hj
    obtain rfl := Option.some.inj hj
    exact ⟨hello "ana", hcall⟩
  · rw [halone] at hj
    cases hj

/-! ### Whoever else writes -/

/-- **Contacts are independent.**  In any two halls to which the messages of a contact come in the
same order, each of them is answered alike, and what is stored of the contact after it is alike too,
but for the ids of sessions and for dates: there is one sequence of views, one for each message, of
which each hall shows the views of the messages that it is done with, and no others, all of them
once nobody is at the contact's lock.  It makes no difference who else writes to the one hall or to
the other, and when; one of them may be the contact's own.  Every run of a hall in which messages
name no session is seen like this. -/
theorem contacts_are_independent (hs : Seen setting reg contact h came served)
    (hs' : Seen setting reg contact h' came served') (hl : h.Letters) (hl' : h'.Letters)
    (ho : Orderly staff served) (ho' : Orderly staff served') :
    (∃ vs : List View, vs.map View.message = came ∧
      (∀ us, List.Forall₂ (View.Shown setting contact) us served ↔ us = vs.take served.length) ∧
      (∀ us, List.Forall₂ (View.Shown setting contact) us served' ↔ us = vs.take served'.length) ∧
      (h.locks.visitorsOf contact = [] → served.length = vs.length) ∧
      (h'.locks.visitorsOf contact = [] → served'.length = vs.length)) ∧
    ∀ h'' : Hall, Reaches setting reg {} h'' → h''.Letters →
      ∃ came'' served'', Seen setting reg contact h'' came'' served'' := by
  obtain ⟨_, _, _, _, ha⟩ := account_of_seen hs hl ho
  obtain ⟨_, _, _, _, ha'⟩ := account_of_seen hs' hl' ho'
  obtain ⟨hshown, hall⟩ := ha.shows
  obtain ⟨hshown', hall'⟩ := ha'.shows
  exact ⟨⟨views setting reg staff [] came, map_message_views [] came, View.forall₂_shown_iff hshown,
    View.forall₂_shown_iff hshown', hall, hall'⟩, fun h'' hr hl => seen_of_reaches hr hl contact⟩

theorem contacts_are_independent_greeting : ∃ h h' served served',
    Seen ⟨{}, {}⟩ greetingRegistry "ana" h [hello "ana"] served ∧ served.length = 1 ∧
    Seen ⟨{}, {}⟩ greetingRegistry "ana" h' [hello "ana"] served' ∧ served'.length = 1 ∧
    (∃ j, h.jobs 0 = some j ∧ j.call = (hello "ben").call ∧ j.Saved) ∧
    (∀ k, h'.jobs (k + 1) = none) ∧ ∃ vs : List View, vs.map View.message = [hello "ana"] ∧
      (∀ us, List.Forall₂ (View.Shown ⟨{}, {}⟩ "ana") us served ↔ us = vs.take served.length) ∧
      (∀ us, List.Forall₂ (View.Shown ⟨{}, {}⟩ "ana") us served' ↔ us = vs.take served'.length) ∧
      (h.locks.visitorsOf "ana" = [] → served.length = vs.length) ∧
      (h'.locks.visitorsOf "ana" = [] → served'.length = vs.length) := by
  obtain ⟨h, e, hs, ho, hl, hben⟩ := seen_hello_beside
  obtain ⟨h', e', hs', ho', hl', halone⟩ := seen_hello_alone
  exact ⟨h, h', [e], [e'], hs, rfl, hs', rfl, hben, halone,
    (contacts_are_independent hs hs' hl hl' ho ho').1⟩

end Hall
end Parley.Inbox
