import Parley.Proofs.Inbox.Makes
import Parley.Proofs.Store.Recents
import Parley.Proofs.Turn.Staff

/-!
# A contact by itself, without ids and dates

A `Ledger` is all that the handling of a contact's messages needs to know, when the collaborators
are a `Staff`: the contact's sessions in the order of their activity, with neither ids nor dates.
The program that handles a message is played with the ledger in place of the store and the clock
(`Ledger.replies`).

When a message is handled in earnest, with ids and dates, while a staff attends (`Attended`), it
comes to the end that it comes to with the ledger, and leaves the contact's sessions as the ledger
has them (`accords_of_makes`).  Ids must be new, and dates later than those of what is stored.
-/

namespace Parley

open Calendar

namespace Inbox

open Turn (Staff)

/-! ### Outcomes and exchanges -/

/-- The outcome without the id of the session. -/
def Outcome.anonymous : Outcome Turn.Result → Outcome Turn.Result
  | .done r => .done r.anonymous
  | .refused fault => .refused fault
  | .abandoned => .abandoned

/-- The moment that the clock told. -/
def Exchange.reading? : Exchange → Option Moment
  | ⟨.now, now⟩ => some now
  | _ => none

/-- What the clock told. -/
def readingsOf (log : List Exchange) : List Moment := log.filterMap Exchange.reading?

theorem readingsOf_append (log log' : List Exchange) :
    readingsOf (log ++ log') = readingsOf log ++ readingsOf log' :=
  List.filterMap_append

theorem readingsOf_append_subset {log log' : List Exchange} {dates : List Moment} :
    readingsOf (log ++ log') ⊆ dates ↔ readingsOf log ⊆ dates ∧ readingsOf log' ⊆ dates := by
  rw [readingsOf_append, List.append_subset]

/-! ### A staff attends -/

/-- The reply is the staff's when it is so late, nobody waits in vain and what is saved is kept in
memory. -/
def Gives (staff : Staff) (now : Rat) : (op : Op) → op.Reply → Prop
  | .acquire _, inside => inside = true
  | .save s, r => r = s.checkFit
  | .turn op, r => r = (staff.replies op now).1
  | .ticket target priority reason metadata bound, answer =>
    answer = some (staff.ticket target priority reason metadata bound)
  | _, _ => True

/-- How late it is after an exchange. -/
def passing (staff : Staff) (now : Rat) : Exchange → Rat
  | ⟨.turn op, _⟩ => (staff.replies op now).2
  | _ => now

/-- The replies are the staff's from a moment on. -/
def AttendedFrom (staff : Staff) : Rat → List Exchange → Prop
  | _, [] => True
  | now, e :: log => Gives staff now e.op e.reply ∧ AttendedFrom staff (passing staff now e) log

/-- The replies are the staff's. -/
def Attended (staff : Staff) (log : List Exchange) : Prop := ∃ now, AttendedFrom staff now log

variable {α : Type} {staff : Staff} {setting : Setting} {reg : Registry} {st st' : Store}
  {log log' : List Exchange} {contact : String} {ss : List Session} {s : Session}

/-- Staff attends to a log when it attends to both parts, the second at the time that the first has
come to. -/
theorem attendedFrom_append_iff {now : Rat} : AttendedFrom staff now (log ++ log') ↔
    AttendedFrom staff now log ∧ AttendedFrom staff (log.foldl (passing staff) now) log' := by
  induction log generalizing now with
  | nil => exact ⟨fun h => ⟨trivial, h⟩, And.right⟩
  | cons e log ih => exact (and_congr_right fun _ => ih).trans and_assoc.symm

/-- Staff that attends to a log attends to its parts. -/
theorem Attended.append (h : Attended staff (log ++ log')) :
    Attended staff log ∧ Attended staff log' := by
  obtain ⟨now, h⟩ := h
  obtain ⟨hlog, hlog'⟩ := attendedFrom_append_iff.mp h
  exact ⟨⟨now, hlog⟩, ⟨_, hlog'⟩⟩

theorem Attended.cons {e : Exchange} (h : Attended staff (e :: log)) :
    (∃ now, Gives staff now e.op e.reply) ∧ Attended staff log := by
  obtain ⟨now, hgives, h⟩ := h
  exact ⟨⟨now, hgives⟩, ⟨_, h⟩⟩

/-- Whatever staff attends to is kept. -/
theorem Attended.kept (h : Attended staff log) : Kept log := by
  intro s r hmem
  obtain ⟨before, after, rfl⟩ := List.append_of_mem hmem
  obtain ⟨now, hgives⟩ := h.append.2.cons.1
  exact hgives

/-- **A turn that a staff attends** is one play with the staff. -/
theorem attended_turn {p : Turn.TurnProgram α} {a : α} {now : Rat} (ha : AttendedFrom staff now log)
    (h : Makes reg st (p.interpret fun op => Program.ask (Op.turn op)) log st' (.done a)) :
    a = (p.play staff.replies now).1 := by
  induction p generalizing log now with
  | done b => exact h.of_done.2.2
  | request op next ih =>
      obtain ⟨r, rest, rfl, -, h⟩ := Makes.of_request h
      obtain ⟨hgives, ha⟩ := ha
      obtain rfl : r = (staff.replies op now).1 := hgives
      exact ih _ ha h

/-! ### Ledgers -/

/-- A contact's sessions, without ids and dates. -/
structure Ledger where
  /-- The one that was active last comes first. -/
  recents : List Session := []
  /-- The place of the session that a message found. -/
  place : Option Nat := none
  /-- The clock was read. -/
  stamped : Bool := false
  /-- The time that has passed in the turn. -/
  time : Rat := 0

namespace Ledger

/-- The session is filed: in front when it is new or was active again, else in its place. -/
def file (l : Ledger) (s : Session) : Ledger :=
  { l with recents := match l.place with
      | none => s :: l.recents
      | some i => if l.stamped then s :: l.recents.eraseIdx i else l.recents.set i s }

/-- The session is saved: its dump is filed, if it can be written. -/
def save (l : Ledger) (s : Session) : Ledger := if s.fits then l.file s.dumped else l

/-- The replies to the handling of a message: those of the registry and of the staff, and the
ledger's in place of the store's and the clock's. -/
def replies (reg : Registry) (staff : Staff) : (op : Op) → Ledger → op.Reply × Ledger
  | .acquire _, l => (true, l)
  | .release _, l => ((), l)
  | .now, l => (.blank, { l with stamped := true })
  | .newId, l => ("", { l with place := none })
  | .load _, l => (.ok none, l)
  | .latest _ flowId, l =>
    (.ok (l.recents.find? fun s => s.IsSeen flowId),
      { l with place := l.recents.findIdx? fun s => s.IsSeen flowId })
  | .save s, l => (s.checkFit, l.save s)
  | .delete _, l => (.ok false, l)
  | .resolve text flowId, l => (reg.resolve text flowId, l)
  | .version id version, l => (reg.version? id version, l)
  | .turn op, l =>
    let (r, time) := staff.replies op l.time
    (r, { l with time := time })
  | .ticket target priority reason metadata bound, l =>
    (some (staff.ticket target priority reason metadata bound), l)

/-- A turn is played with the staff, and takes its time. -/
theorem play_turn (p : Turn.TurnProgram α) (l : Ledger) :
    (p.interpret fun op => Program.ask (Op.turn op)).play (replies reg staff) l =
      ((p.play staff.replies l.time).1, { l with time := (p.play staff.replies l.time).2 }) := by
  induction p generalizing l with
  | done a => rfl
  | request op next ih => exact ih (staff.replies op l.time).1 _

/-- A task that is done goes on with its second part. -/
theorem play_andThen_done {β : Type} {t : Task α} {f : α → Task β} {a : α} {l l' : Ledger}
    (h : t.play (replies reg staff) l = (.done a, l')) :
    (t.andThen f).play (replies reg staff) l = (f a).play (replies reg staff) l' := by
  unfold Task.andThen
  rw [Program.play_bind, h]

/-- A task that is refused does not go on. -/
theorem play_andThen_refused {β : Type} {t : Task α} {f : α → Task β} {fault : Fault}
    {l l' : Ledger} (h : t.play (replies reg staff) l = (.refused fault, l')) :
    (t.andThen f).play (replies reg staff) l = (.refused fault, l') := by
  unfold Task.andThen
  rw [Program.play_bind, h]
  rfl

/-- A session is saved in the ledger, or it cannot be written. -/
theorem play_save (s : Session) (next : Outcome α) (l : Ledger) :
    ((Task.save s).andThen fun _ => .done next).play (replies reg staff) l =
      (.once s.checkFit next, l.save s) := by
  rw [save_andThen]
  rfl

/-- Without its flow a session is orphaned. -/
theorem play_takeTurn_none {l : Ledger} {text : Option String}
    (h : reg.version? s.flowId s.flowVersion = none) :
    (takeTurn setting s text).play (replies reg staff) l = (orphaned s).play
    (replies reg staff) l := by
  unfold takeTurn Task.ask
  rw [Program.play]
  dsimp only [replies]
  rw [h]

/-- With its flow a session takes a turn, and is settled. -/
theorem play_takeTurn_some {l : Ledger} {text : Option String} {flow : Flow}
    (h : reg.version? s.flowId s.flowVersion = some flow) {turn : Turn.Ending × Rat}
    (ht : (Turn.run ⟨flow, setting.policy, setting.team⟩ .blank s text none).play staff.replies
      l.time = turn) :
    (takeTurn setting s text).play (replies reg staff) l =
      (settle setting turn.1).play (replies reg staff)
        { l with stamped := true, time := turn.2 } := by
  unfold takeTurn Task.ask
  rw [Program.play]
  dsimp only [replies]
  rw [h]
  dsimp only
  rw [Program.play]
  dsimp only [replies]
  rw [Program.play_bind, play_turn, ← ht]

end Ledger

/-! ### A session in hand -/

/-- A session is in hand that was found in its place among the contact's, or that was begun later
than all of them. -/
structure Holding (contact : String) (ss : List Session) (s : Session) (l : Ledger) : Prop where
  recents : l.recents = ss.map Session.anonymous
  timely : s.Timely
  contact : s.contact.id = contact
  place : (l.stamped = false ∧ ∃ before after, ss = before ++ s :: after ∧
    l.place = some before.length) ∨
    l.place = none ∧ (∀ s' ∈ ss, s'.id ≠ s.id) ∧
      ∀ s' ∈ ss, s'.lastActivityAt.reading < s.lastActivityAt.reading

/-- The session is filed in the ledger as it is put in its place in the store, or as it was before.
-/
structure Filed (contact : String) (ss : List Session) (s : Session) (st : Store) (l : Ledger) :
    Prop where
  lists : ∃ ss', st.Lists contact ss' ∧ l.recents = ss'.map Session.anonymous ∧
    ∀ s' ∈ ss', s' ∈ ss ∨ s'.lastActivityAt = s.lastActivityAt

/-- A session that is saved is filed as a dump has it, if it can be written. -/
theorem Filed.of_put {l : Ledger} (hst : st.Lists contact ss)
    (hl : l.recents = ss.map Session.anonymous)
    (h : Filed contact ss s.dumped (st.put s.dumped) (l.file s.dumped.anonymous)) :
    Filed contact ss s (st.save s) (l.save s.anonymous) := by
  have hfits : s.anonymous.fits = s.fits := rfl
  unfold Ledger.save
  rw [hfits]
  cases hf : s.fits with
  | false =>
      rw [Store.save_of_not_fits st hf]
      exact ⟨ss, hst, hl, fun _ hs' => .inl hs'⟩
  | true =>
      rw [Store.save_of_fits st hf, if_pos rfl]
      exact ⟨h.lists⟩

/-- **A session that was active again** is filed. -/
theorem Holding.file {l l' : Ledger} {s' : Session} (h : Holding contact ss s l)
    (hst : st.Lists contact ss)
    (hl : l'.recents = l.recents ∧ l'.place = l.place ∧ l'.stamped = true) (ht : s'.Timely)
    (hid : s'.id = s.id) (hc : s'.contact.id = contact)
    (hlate : ∀ x ∈ ss, x.lastActivityAt.reading < s'.lastActivityAt.reading) :
    Filed contact ss s' (st.put s') (l'.file s'.anonymous) := by
  obtain ⟨hrecents, hplace, hstamped⟩ := hl
  rcases h.place with ⟨-, before, after, rfl, hp⟩ | ⟨hp, hnew, -⟩
  · have hsub : (before ++ after).Sublist (before ++ s :: after) :=
      List.Sublist.append_left (List.sublist_cons_self s after) before
    refine ⟨s' :: (before ++ after), hst.put_last ht hid hc fun x hx =>
      hlate x (hsub.mem hx), ?_, ?_⟩
    · unfold Ledger.file
      rw [hplace, hp, hstamped, hrecents, h.recents]
      simp [List.eraseIdx_append_of_length_le]
    · intro x hx
      rcases List.mem_cons.mp hx with rfl | hx
      · exact .inr rfl
      · exact .inl (hsub.mem hx)
  · refine ⟨s' :: ss, hst.put_new ht hc (fun x hx => hid ▸ hnew x hx) hlate, ?_, ?_⟩
    · unfold Ledger.file
      rw [hplace, hp, hrecents, h.recents]
      rfl
    · intro x hx
      rcases List.mem_cons.mp hx with rfl | hx
      · exact .inr rfl
      · exact .inl hx

/-- **A session that keeps its date** is filed. -/
theorem Holding.fileInPlace {l : Ledger} {s' : Session} (h : Holding contact ss s l)
    (hst : st.Lists contact ss) (ht : s'.Timely) (hid : s'.id = s.id) (hc : s'.contact.id = contact)
    (hactive : s'.lastActivityAt = s.lastActivityAt) :
    Filed contact ss s' (st.put s') (l.file s'.anonymous) := by
  rcases h.place with ⟨hstamped, before, after, rfl, hp⟩ | ⟨hp, hnew, hlate⟩
  · refine ⟨before ++ s' :: after, hst.put_inPlace ht hid hc hactive, ?_, fun x hx => ?_⟩
    · unfold Ledger.file
      rw [hp, hstamped, h.recents]
      simp [List.set_append_right]
    · simp only [List.mem_append, List.mem_cons] at hx ⊢
      rcases hx with hx | rfl | hx
      · exact .inl (.inl hx)
      · exact .inr rfl
      · exact .inl (.inr (.inr hx))
  · refine ⟨s' :: ss, hst.put_new ht hc (fun x hx => hid ▸ hnew x hx) (hactive ▸ hlate), ?_, ?_⟩
    · unfold Ledger.file
      rw [hp, h.recents]
      rfl
    · intro x hx
      rcases List.mem_cons.mp hx with rfl | hx
      · exact .inr rfl
      · exact .inl hx

/-! ### The handling of a message -/

/-- The dates are later than what is stored of the contact. -/
def Late (ss : List Session) (dates : List Moment) : Prop :=
  ∀ now ∈ dates, ∀ s ∈ ss, s.lastActivityAt.reading < now.reading

/-- What is stored of a contact and told in the end is what the ledger has, but for ids and dates;
and the dates are old ones, or they were read meanwhile. -/
structure Accords (contact : String) (ss : List Session) (dates : List Moment) (st' : Store)
    (o : Outcome Turn.Result) (p : Outcome Turn.Result × Ledger) : Prop where
  outcome : p.1 = o.anonymous
  lists : ∃ ss', st'.Lists contact ss' ∧ p.2.recents = ss'.map Session.anonymous ∧
    ∀ s' ∈ ss', s'.lastActivityAt ∈ ss.map Session.lastActivityAt ∨ s'.lastActivityAt ∈ dates

/-- What is filed as the ledger has it accords with it. -/
theorem Filed.accords {l : Ledger} {o : Outcome Turn.Result} {dates : List Moment}
    (h : Filed contact ss s st l)
    (hs : s.lastActivityAt ∈ ss.map Session.lastActivityAt ∨ s.lastActivityAt ∈ dates) :
    Accords contact ss dates st o (o.anonymous, l) := by
  obtain ⟨ss', hlists, hrecents, hdates⟩ := h
  refine ⟨rfl, ss', hlists, hrecents, fun s' hs' => ?_⟩
  rcases hdates s' hs' with hmem | he
  · exact .inl (List.mem_map_of_mem hmem)
  · exact he ▸ hs

variable {l : Ledger} {o : Outcome Turn.Result} {dates : List Moment}

theorem anonymous_once (saved : Except Parley.Fault Unit) (o : Outcome Turn.Result) :
    (Outcome.once saved o).anonymous = .once saved o.anonymous := by
  cases saved <;> rfl

/-- **A session that is saved** is filed alike, and what is told then is the same. -/
theorem accords_save {next : Outcome Turn.Result} (hst : st.Lists contact ss)
    (hl : l.recents = ss.map Session.anonymous)
    (h : Filed contact ss s.dumped (st.put s.dumped) (l.file s.dumped.anonymous))
    (hs : s.lastActivityAt ∈ ss.map Session.lastActivityAt ∨ s.lastActivityAt ∈ dates) :
    Accords contact ss dates (st.save s) (.once s.checkFit next)
      (((Task.save s.anonymous).andThen fun _ => .done next.anonymous).play
        (Ledger.replies reg staff) l) := by
  have hfit : s.anonymous.checkFit = s.checkFit := rfl
  rw [Ledger.play_save, hfit, ← anonymous_once]
  exact (Filed.of_put hst hl h).accords hs

/-- A message that is only noted accords with the ledger. -/
theorem accords_noteForPerson {text : Option String} (hin : Holding contact ss s l)
    (hst : st.Lists contact ss) (ha : Attended staff log) (hlate : Late ss dates)
    (hdates : readingsOf log ⊆ dates) (h : Makes reg st (noteForPerson s text) log st' (.done o)) :
    Accords contact ss dates st' o
      ((noteForPerson s.anonymous text).play (Ledger.replies reg staff) l) := by
  obtain ⟨now, rest, rfl, hutc, h⟩ := Makes.of_request h
  obtain ⟨rfl, rfl⟩ := makes_save_kept ha.kept.tail h
  have hnow : now ∈ dates := hdates List.mem_cons_self
  have ht : ((s.assign "last_user_message" (.ofOption .text text)).touch now).Timely :=
    ⟨hin.timely.started, hutc, hin.timely.history⟩
  have hfiled : Filed contact ss _ (st.put _) (({ l with stamped := true } : Ledger).file _) :=
    hin.file hst ⟨rfl, rfl, rfl⟩ ht.dumped rfl hin.contact (hlate now hnow)
  exact accords_save hst hin.recents hfiled (.inr hnow)

/-- A session that lacks its flow accords with the ledger. -/
theorem accords_orphaned (hin : Holding contact ss s l) (hst : st.Lists contact ss)
    (ha : Attended staff log)
    (hdate : s.lastActivityAt ∈ ss.map Session.lastActivityAt ∨ s.lastActivityAt ∈ dates)
    (h : Makes reg st (orphaned s) log st' (.done o)) :
    Accords contact ss dates st' o ((orphaned s.anonymous).play (Ledger.replies reg staff) l) := by
  obtain ⟨rfl, rfl⟩ := makes_save_kept ha.kept h
  have ht : Session.Timely { s with status := .error } :=
    ⟨hin.timely.started, hin.timely.active, hin.timely.history⟩
  exact accords_save hst hin.recents (hin.fileInPlace hst ht.dumped rfl hin.contact rfl) hdate

/-- What a ticket tells is the same but for the id of the session. -/
theorem remove_ticketMetadata (s : Session) (h : Handoff) :
    (ticketMetadata s h).remove "session_id" =
    (ticketMetadata s.anonymous h).remove "session_id" := by
  have hput (s : Session) : (ticketMetadata s h).remove "session_id" =
      (((h.metadata.remove "session_id").put "flow_id" (.text s.flowId)).put "contact_id"
        (.text s.contact.id)).put "contact_phone" (.text s.contact.phone) := by
    unfold ticketMetadata Entries.update
    simp only [List.foldl_cons, List.foldl_nil]
    rw [Entries.remove_put_of_ne _ (by decide), Entries.remove_put_of_ne _ (by decide),
      Entries.remove_put_of_ne _ (by decide), Entries.remove_put_self]
  rw [hput, hput]
  rfl

/-- **A ticket** is opened alike. -/
theorem play_ticketFor {handoff : Option Handoff} {o : Outcome (Option Value)}
    (ha : Attended staff log) (h : Makes reg st (ticketFor setting s handoff) log st' (.done o)) :
    st' = st ∧ ∃ ticket, o = .done ticket ∧
      (ticketFor setting s.anonymous handoff).play (Ledger.replies reg staff) l =
        (.done ticket, l) := by
  cases handoff with
  | none =>
      obtain ⟨-, rfl, rfl⟩ := Makes.of_done h
      exact ⟨rfl, none, rfl, rfl⟩
  | some handoff =>
      unfold ticketFor openTicket at *
      dsimp only at *
      split at h
      · next hbackend =>
        obtain ⟨answer, rest, rfl, -, h⟩ := Makes.of_request h
        obtain ⟨-, rfl⟩ := ha.cons.1
        obtain ⟨-, rfl, rfl⟩ := Makes.of_done h
        rw [if_pos hbackend]
        refine ⟨rfl, _, rfl, ?_⟩
        rw [staff.blind _ _ _ _ (remove_ticketMetadata s handoff)]
        rfl
      · next hbackend =>
        obtain ⟨-, rfl, rfl⟩ := Makes.of_done h
        rw [if_neg hbackend]
        exact ⟨rfl, none, rfl, rfl⟩

/-- A ticket is written alike whatever ids and dates there are. -/
theorem anonymous_writeTicket (s : Session) (r : Turn.Result) (ticket : Option Value) :
    writeTicket s.anonymous r.anonymous ticket =
      ((writeTicket s r ticket).1.anonymous, (writeTicket s r ticket).2.anonymous) := by
  cases ticket <;> rfl

/-- **After a turn** the session is filed, with the ticket if there is one. -/
theorem accords_settle {r : Turn.Result} {s' : Session} {now : Moment} {l' : Ledger}
    (hin : Holding contact ss s l) (hst : st.Lists contact ss) (ha : Attended staff log)
    (hl : l'.recents = l.recents ∧ l'.place = l.place ∧ l'.stamped = true)
    (hstamp : Turn.Stamped now s s') (hutc : now.Utc) (hlate : Late ss dates) (hnow : now ∈ dates)
    (h : Makes reg st (settle setting (.finished s' r)) log st' (.done o)) :
    Accords contact ss dates st' o
      ((settle setting (.finished s'.anonymous r.anonymous)).play
        (Ledger.replies reg staff) l') := by
  rw [settle_finished] at h ⊢
  rcases h.of_andThen with ⟨log₁, log₂, ticket, st₁, rfl, h₁, h₂⟩ | ⟨fault, h₁, -⟩ | ⟨h₁, -⟩
  · obtain ⟨rfl, _, ⟨⟩, hplay⟩ := play_ticketFor (l := l') ha.append.1 h₁
    obtain ⟨rfl, rfl⟩ := makes_save_kept ha.append.2.kept h₂
    have hcall (id : String) : Call.finish "" ≠ .release id := nofun
    have hf := follows_of_stamped hcall hstamp r ticket
    have ht : (writeTicket s' r ticket).1.Timely := hf.timely hin.timely fun now' hnow => by
      obtain rfl := Option.mem_some_iff.mp hnow
      exact hutc
    have hactive : (writeTicket s' r ticket).1.lastActivityAt = now := by
      cases ticket <;> exact hstamp.active
    have hc : (writeTicket s' r ticket).1.contact.id = contact := by
      rw [hf.contact]
      exact hin.contact
    have hfiled := hin.file hst hl ht.dumped hf.id hc (hactive.symm ▸ hlate now hnow)
    have hhandoff : r.anonymous.handoff = r.handoff := rfl
    rw [hhandoff, Ledger.play_andThen_done hplay, anonymous_writeTicket]
    exact accords_save hst (hl.1.trans hin.recents) hfiled (.inr (hactive.symm ▸ hnow))
  · obtain ⟨-, _, he, -⟩ := play_ticketFor (l := l) ha h₁
    cases he
  · obtain ⟨-, _, he, -⟩ := play_ticketFor (l := l) ha h₁
    cases he

/-- Nothing is filed. -/
theorem Holding.accords_of_none {l' : Ledger} (hin : Holding contact ss s l)
    (hst : st.Lists contact ss) (hl : l'.recents = l.recents) :
    Accords contact ss dates st o (o.anonymous, l') :=
  ⟨rfl, ss, hst, hl.trans hin.recents, fun _ hs' => .inl (List.mem_map_of_mem hs')⟩

/-- What a turn ends with that a staff attends, but for ids and dates. -/
theorem play_run_anonymous {flow : Flow} {now : Moment} {text : Option String} {e : Turn.Ending}
    (ha : Attended staff log) (time : Rat)
    (h : Makes reg st ((Turn.run ⟨flow, setting.policy, setting.team⟩ now s text none).interpret
      fun op => Program.ask (Op.turn op)) log st' (.done e)) :
    ((Turn.run ⟨flow, setting.policy, setting.team⟩ .blank s.anonymous text none).play
      staff.replies time).1 = e.anonymous := by
  obtain ⟨start, ha⟩ := ha
  rw [Turn.play_run_eq staff _ _ _ _ _ time start, ← Turn.anonymous_run _ now, Program.play_bind,
    attended_turn ha h]
  rfl

/-- **The message is taken through a turn.** -/
theorem accords_takeTurn {text : Option String} (hin : Holding contact ss s l)
    (hst : st.Lists contact ss) (ha : Attended staff log) (hlate : Late ss dates)
    (hdates : readingsOf log ⊆ dates)
    (hdate : s.lastActivityAt ∈ ss.map Session.lastActivityAt ∨ s.lastActivityAt ∈ dates)
    (h : Makes reg st (takeTurn setting s text) log st' (.done o)) :
    Accords contact ss dates st' o
      ((takeTurn setting s.anonymous text).play (Ledger.replies reg staff) l) := by
  obtain ⟨flow?, rest, rfl, hflow, h⟩ := Makes.of_request h
  cases flow? with
  | none =>
      rw [Ledger.play_takeTurn_none (s := s.anonymous) hflow.symm]
      exact accords_orphaned hin hst ha.cons.2 hdate h
  | some flow =>
      obtain ⟨now, rest, rfl, hutc, h⟩ := Makes.of_request h
      obtain ⟨log₁, log₂, e, st₁, rfl, h₁, h₂⟩ := h.of_bind
      obtain ⟨rfl, turn, -, he⟩ := h₁.of_turn
      have ha := ha.cons.2.cons.2.append
      have hplay := play_run_anonymous ha.1 l.time h₁
      rw [Ledger.play_takeTurn_some (s := s.anonymous) hflow.symm rfl, hplay]
      cases e with
      | abandoned s' =>
          obtain ⟨-, rfl, rfl⟩ := Makes.of_done h₂
          exact hin.accords_of_none hst rfl
      | finished s' r =>
          refine accords_settle hin hst ha.2 ?_ (Turn.stamped_of_ends he.ends) hutc hlate
            (hdates List.mem_cons_self) h₂
          exact ⟨rfl, rfl, rfl⟩

/-- What is done about a message in a session. -/
def serve (setting : Setting) (text : Option String) (s : Session) : Task Turn.Result :=
  if s.status = .handoff then noteForPerson s text else takeTurn setting s text

/-- Whatever becomes of a session that was found accords with the ledger. -/
theorem accords_serve {text : Option String} (hin : Holding contact ss s l)
    (hst : st.Lists contact ss) (ha : Attended staff log) (hlate : Late ss dates)
    (hdates : readingsOf log ⊆ dates)
    (hdate : s.lastActivityAt ∈ ss.map Session.lastActivityAt ∨ s.lastActivityAt ∈ dates)
    (h : Makes reg st (serve setting text s) log st' (.done o)) :
    Accords contact ss dates st' o
      ((serve setting text s.anonymous).play (Ledger.replies reg staff) l) := by
  have hstatus : s.anonymous.status = s.status := rfl
  unfold serve at *
  rw [hstatus]
  split at h
  · next hhandoff =>
    rw [if_pos hhandoff]
    exact accords_noteForPerson hin hst ha hlate hdates h
  · next hhandoff =>
    rw [if_neg hhandoff]
    exact accords_takeTurn hin hst ha hlate hdates hdate h

/-! ### The session for a message -/

/-- The ids that are given are those of none of the sessions. -/
def NewIds (ss : List Session) (log : List Exchange) : Prop :=
  ∀ id, (⟨.newId, id⟩ : Exchange) ∈ log → ∀ s ∈ ss, s.id ≠ id

/-- The same is found or begun in the ledger. -/
inductive Finds (contact : String) (ss : List Session) (dates : List Moment) :
    Outcome Session → Outcome Session × Ledger → Prop where
  | found {s : Session} {l : Ledger} (hin : Holding contact ss s l)
      (hdate : s.lastActivityAt ∈ ss.map Session.lastActivityAt ∨ s.lastActivityAt ∈ dates) :
      Finds contact ss dates (.done s) (.done s.anonymous, l)
  | refused {fault : Fault} {l : Ledger} (hl : l.recents = ss.map Session.anonymous) :
      Finds contact ss dates (.refused fault) (.refused fault, l)

variable {sender : Contact} {text : Option String} {flowId : String}

/-- A session is begun in the store as in the ledger. -/
theorem finds_beginSession {o : Outcome Session} (hlate : Late ss dates)
    (hdates : readingsOf log ⊆ dates) (hfresh : NewIds ss log)
    (hl : l.recents = ss.map Session.anonymous)
    (h : Makes reg st (beginSession sender text flowId) log st' (.done o)) :
    st' = st ∧ Finds sender.id ss dates o
      ((beginSession sender text flowId).play (Ledger.replies reg staff) l) := by
  obtain ⟨flow?, rest, rfl, hflow, h⟩ := Makes.of_request h
  obtain rfl : flow? = reg.resolve (text.getD "") flowId := hflow
  unfold beginSession Task.ask
  rw [Program.play]
  dsimp only [Ledger.replies]
  cases hresolve : reg.resolve (text.getD "") flowId with
  | none =>
      rw [hresolve] at h
      obtain ⟨-, rfl, rfl⟩ := Makes.of_done h
      exact ⟨rfl, .refused hl⟩
  | some flow =>
      rw [hresolve] at h
      obtain ⟨id, rest, rfl, -, h⟩ := Makes.of_request h
      obtain ⟨now, rest, rfl, hutc, h⟩ := Makes.of_request h
      obtain ⟨rfl, rfl, rfl⟩ := Makes.of_done h
      have hid := hfresh id (List.mem_cons_of_mem _ List.mem_cons_self)
      have hdate : now ∈ dates := hdates (List.mem_singleton.mpr rfl)
      have hin : Holding sender.id ss (newSession flow sender id now)
          { l with place := none, stamped := true } :=
        ⟨hl, ⟨hutc, hutc, fun _ h => absurd h List.not_mem_nil⟩, rfl,
          .inr ⟨rfl, hid, hlate now hdate⟩⟩
      exact ⟨rfl, .found hin (.inr hdate)⟩

/-- What becomes of a message once the contact's latest session was told. -/
def choose (sender : Contact) (text : Option String) (flowId : String) :
    Option Session → Task Session
  | some s => if s.isFinished then beginSession sender text flowId else .give s
  | none => beginSession sender text flowId

theorem findSession_unnamed (sender : Contact) (text : Option String) (flowId : String) :
    findSession sender text flowId "" = .request (.latest sender.id flowId) fun found =>
      (Task.told found).andThen (choose sender text flowId) := by
  unfold findSession
  rw [if_neg (fun hne => hne rfl)]
  refine congrArg (Program.request _)
    (funext fun found => congrArg (Task.andThen _) (funext fun s => ?_))
  cases s <;> rfl

/-- The place where a session is found. -/
theorem split_of_find? {p : Session → Bool} (h : ss.find? p = some s) :
    ∃ before after, ss = before ++ s :: after ∧ ss.findIdx? p = some before.length := by
  obtain ⟨hs, before, after, rfl, hbefore⟩ := List.find?_eq_some_iff_append.mp h
  refine ⟨before, after, rfl, ?_⟩
  have hnone : before.findIdx? p = none := List.findIdx?_eq_none_iff.mpr fun a ha => by
    simpa using hbefore a ha
  rw [List.findIdx?_append, hnone, List.findIdx?_cons, if_pos hs]
  simp

/-- The session that a look finds is taken, unless it is finished. -/
theorem finds_choose {o : Outcome Session} (hss : st.Lists sender.id ss) (hlate : Late ss dates)
    (hdates : readingsOf log ⊆ dates) (hfresh : NewIds ss log)
    (hl : l.recents = ss.map Session.anonymous) (hstamped : l.stamped = false)
    (hplace : l.place = ss.findIdx? fun s => s.IsSeen flowId)
    (h : Makes reg st (choose sender text flowId (ss.find? fun s => s.IsSeen flowId)) log st'
      (.done o)) :
    st' = st ∧ Finds sender.id ss dates o
      ((choose sender text flowId ((ss.find? fun s => s.IsSeen flowId).map Session.anonymous)).play
        (Ledger.replies reg staff) l) := by
  cases hfound : ss.find? fun s => s.IsSeen flowId with
  | none =>
      rw [hfound] at h
      exact finds_beginSession hlate hdates hfresh hl h
  | some s =>
      rw [hfound] at h
      have hopen : s.anonymous.isFinished = s.isFinished := rfl
      unfold choose at h ⊢
      rw [Option.map_some]
      dsimp only at h ⊢
      rw [hopen]
      split
      · next hfin =>
        rw [if_pos hfin] at h
        exact finds_beginSession hlate hdates hfresh hl h
      · next hfin =>
        rw [if_neg hfin] at h
        obtain ⟨-, rfl, rfl⟩ := Makes.of_done h
        obtain ⟨before, after, rfl, hindex⟩ := split_of_find? hfound
        have hs := (hss.mem s).mp (by simp)
        have hin : Holding sender.id (before ++ s :: after) s l :=
          ⟨hl, hs.1.timely, hs.2, .inl ⟨hstamped, before, after, rfl, hplace.trans hindex⟩⟩
        exact ⟨rfl, .found hin (.inl (List.mem_map_of_mem (by simp)))⟩

/-- **The session for a message** is found or begun alike. -/
theorem finds_findSession {o : Outcome Session} (hst : st.Sound) (hss : st.Lists sender.id ss)
    (hlate : Late ss dates) (hdates : readingsOf log ⊆ dates) (hfresh : NewIds ss log)
    (hl : l.recents = ss.map Session.anonymous) (hstamped : l.stamped = false)
    (h : Makes reg st (findSession sender text flowId "") log st' (.done o)) :
    st' = st ∧ Finds sender.id ss dates o
      ((findSession sender text flowId "").play (Ledger.replies reg staff) l) := by
  rw [findSession_unnamed] at h ⊢
  obtain ⟨found, rest, rfl, ⟨now, newId, htold⟩, h⟩ := Makes.of_request h
  obtain rfl := htold.trans (hss.latest hst now newId flowId)
  have hdates : readingsOf rest ⊆ dates := hdates
  have hfresh : NewIds ss rest := fun id hid => hfresh id (List.mem_cons_of_mem _ hid)
  have hseen : (fun s : Session => decide (s.IsSeen flowId)) ∘ Session.anonymous =
      fun s => decide (s.IsSeen flowId) := rfl
  rw [Program.play]
  dsimp only [Ledger.replies]
  rw [hl, List.find?_map, List.findIdx?_map, hseen]
  exact finds_choose hss hlate hdates hfresh rfl hstamped rfl h

/-! ### The whole -/

/-- In the ledger a message is handled without a lock. -/
theorem play_handle (l : Ledger) :
    (handle setting sender text flowId "").play (Ledger.replies reg staff) l =
      ((findSession sender text flowId "").andThen (serve setting text)).play
        (Ledger.replies reg staff) l :=
  Program.play_bind _ ((findSession sender text flowId "").andThen (serve setting text)) _ l

/-- Inside the lock a message comes to the same end. -/
theorem accords_inside (hst : st.Sound) (hss : st.Lists sender.id ss) (ha : Attended staff log)
    (hlate : Late ss dates) (hdates : readingsOf log ⊆ dates) (hfresh : NewIds ss log)
    (h : Makes reg st ((findSession sender text flowId "").andThen (serve setting text)) log st'
      (.done o)) :
    Accords sender.id ss dates st' o
      (((findSession sender text flowId "").andThen (serve setting text)).play
      (Ledger.replies reg staff) { recents := ss.map Session.anonymous }) := by
  let l : Ledger := { recents := ss.map Session.anonymous }
  generalize hplay : (findSession sender text flowId "").play (Ledger.replies reg staff) l = p
  rcases Makes.of_andThen h with ⟨log₁, log₂, s, st₁, rfl, h₁, h₂⟩ | ⟨fault, h₁, rfl⟩ | ⟨h₁, rfl⟩
  · obtain ⟨hdates₁, hdates₂⟩ := readingsOf_append_subset.mp hdates
    have hfresh₁ : NewIds ss log₁ := fun id hid => hfresh id (List.mem_append_left _ hid)
    obtain ⟨rfl, hfinds⟩ := finds_findSession (l := l) hst hss hlate hdates₁ hfresh₁ rfl rfl h₁
    rw [hplay] at hfinds
    cases hfinds with
    | found hin hdate =>
        rw [Ledger.play_andThen_done hplay]
        exact accords_serve hin hss ha.append.2 hlate hdates₂ hdate h₂
  · obtain ⟨rfl, hfinds⟩ := finds_findSession (l := l) hst hss hlate hdates hfresh rfl rfl h₁
    rw [hplay] at hfinds
    cases hfinds with
    | refused hl =>
        rw [Ledger.play_andThen_refused hplay]
        exact ⟨rfl, ss, hss, hl, fun _ hs' => .inl (List.mem_map_of_mem hs')⟩
  · obtain ⟨rfl, hfinds⟩ := finds_findSession (l := l) hst hss hlate hdates hfresh rfl rfl h₁
    rw [hplay] at hfinds
    cases hfinds

/-- **A message that is handled in earnest** comes to the end that it comes to with the ledger, and
leaves the contact's sessions as the ledger has them. -/
theorem accords_of_makes (hst : st.Sound) (hss : st.Lists sender.id ss) (ha : Attended staff log)
    (hlate : Late ss (readingsOf log)) (hfresh : NewIds ss log)
    (h : Makes reg st (handle setting sender text flowId "") log st' (.done o)) :
    Accords sender.id ss (readingsOf log) st' o ((handle setting sender text flowId "").play
      (Ledger.replies reg staff) { recents := ss.map Session.anonymous }) := by
  obtain ⟨inside, rest, rfl, -, h⟩ := Makes.of_request h
  obtain ⟨⟨_, hinside⟩, hrest⟩ := ha.cons
  obtain rfl : inside = true := hinside
  obtain ⟨log₁, log₂, o', st₁, rfl, h₁, h₂⟩ := h.of_bind
  obtain ⟨_, _, rfl, -, h₂⟩ := Makes.of_request h₂
  obtain ⟨rfl, rfl, rfl⟩ := Makes.of_done h₂
  have hfresh₁ : NewIds ss log₁ := fun id hid =>
    hfresh id (List.mem_cons_of_mem _ (List.mem_append_left _ hid))
  obtain ⟨hdates, -⟩ := readingsOf_append_subset.mp (List.Subset.refl (readingsOf (log₁ ++ _)))
  rw [play_handle]
  exact accords_inside hst hss hrest.append.1 hlate hdates hfresh₁ h₁

end Inbox
end Parley
