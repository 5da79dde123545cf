import Parley.Proofs.Inbox.Alone
import Parley.Proofs.Turn.Stamp

/-!
# The exchanges of a program

`Makes reg st p log st' p'`: the program `p` makes the exchanges `log` with the store and the
registry, which lead it to `p'` and the store from `st` to `st'`.  Whether it is let in at a lock is
left open, so it may also be told that it was abandoned there; a program that `Goes` by itself is
one that is let in.

A program in parts makes its exchanges in parts (`Makes.of_bind`), so what a task leaves in the
store is told part by part: a session is looked for and nothing is stored (`makes_findSession`),
what follows a turn stores the session once (`makes_settle`).
-/

namespace Parley.Inbox

variable {α β : Type} {setting : Setting} {reg : Registry} {st st' : Store} {log : List Exchange}

/-- The program makes some exchanges. -/
inductive Makes (reg : Registry) :
    Store → InboxProgram α → List Exchange → Store → InboxProgram α → Prop where
  | here (st : Store) (p : InboxProgram α) : Makes reg st p [] st p
  | asks {st st' : Store} {op : Op} {next : op.Reply → InboxProgram α} {log : List Exchange}
      {p : InboxProgram α} (r : op.Reply) (ht : Tells reg st op r)
      (h : Makes reg (storeAfter st op) (next r) log st' p) :
      Makes reg st (.request op next) (⟨op, r⟩ :: log) st' p

/-- An exchange of a turn, as one of the inbox. -/
def inTurn (e : Program.Exchange Turn.Op Turn.Op.Reply) : Exchange := ⟨.turn e.op, e.reply⟩

/-- Who goes to a place makes exchanges that lead there. -/
theorem Goes.makes {p p' : InboxProgram α} (h : Goes reg st p log st' p') :
    Makes reg st p log st' p' := by
  induction h with
  | here => exact .here _ _
  | asks r ht _ _ ih => exact .asks r ht ih

namespace Makes

theorem concat {op : Op} {next : op.Reply → InboxProgram α} {p : InboxProgram α}
    (h : Makes reg st p log st' (.request op next)) (r : op.Reply) (ht : Tells reg st' op r) :
    Makes reg st p (log ++ [⟨op, r⟩]) (storeAfter st' op) (next r) := by
  generalize hq : Program.request op next = q at h
  induction h with
  | here st p =>
      subst hq
      exact .asks r ht (.here _ _)
  | asks r' ht' _ ih => exact .asks r' ht' (ih ht hq)

theorem of_done {a b : α} (h : Makes reg st (.done a) log st' (.done b)) :
    log = [] ∧ st' = st ∧ b = a := by
  cases h with
  | here => exact ⟨rfl, rfl, rfl⟩

theorem of_request {op : Op} {next : op.Reply → InboxProgram α} {a : α}
    (h : Makes reg st (.request op next) log st' (.done a)) :
    ∃ r rest, log = ⟨op, r⟩ :: rest ∧ Tells reg st op r ∧
      Makes reg (storeAfter st op) (next r) rest st' (.done a) := by
  cases h with
  | asks r ht h => exact ⟨r, _, rfl, ht, h⟩

/-- **A program in two parts** makes the exchanges of the one and then those of the other. -/
theorem of_bind {p : InboxProgram α} {f : α → InboxProgram β} {b : β}
    (h : Makes reg st (p.bind f) log st' (.done b)) :
    ∃ log₁ log₂ a st₁, log = log₁ ++ log₂ ∧ Makes reg st p log₁ st₁ (.done a) ∧
      Makes reg st₁ (f a) log₂ st' (.done b) := by
  induction p generalizing st log with
  | done a => exact ⟨[], log, a, st, rfl, .here _ _, h⟩
  | request op next ih =>
      obtain ⟨r, rest, rfl, ht, h⟩ := of_request h
      obtain ⟨log₁, log₂, a, st₁, rfl, h₁, h₂⟩ := ih r h
      exact ⟨_, log₂, a, st₁, rfl, .asks r ht h₁, h₂⟩

/-- What a program that is run for its effects comes to. -/
theorem of_forgetting {p : InboxProgram α} (h : Makes reg st (forgetting p) log st' (.done ())) :
    ∃ a, Makes reg st p log st' (.done a) := by
  obtain ⟨log₁, log₂, a, st₁, rfl, h₁, h₂⟩ := of_bind h
  obtain ⟨rfl, rfl, -⟩ := of_done h₂
  exact ⟨a, (List.append_nil log₁).symm ▸ h₁⟩

/-- A task in two parts comes to its second part unless it was refused or abandoned in the first. -/
theorem of_andThen {t : Task α} {f : α → Task β} {o : Outcome β}
    (h : Makes reg st (t.andThen f) log st' (.done o)) :
    (∃ log₁ log₂ a st₁, log = log₁ ++ log₂ ∧ Makes reg st t log₁ st₁ (.done (.done a)) ∧
        Makes reg st₁ (f a) log₂ st' (.done o)) ∨
      (∃ fault, Makes reg st t log st' (.done (.refused fault)) ∧ o = .refused fault) ∨
      Makes reg st t log st' (.done .abandoned) ∧ o = .abandoned := by
  obtain ⟨log₁, log₂, a, st₁, rfl, h₁, h₂⟩ := of_bind h
  cases a with
  | done a => exact .inl ⟨log₁, log₂, a, st₁, rfl, h₁, h₂⟩
  | refused fault =>
      obtain ⟨rfl, rfl, rfl⟩ := of_done h₂
      exact .inr (.inl ⟨fault, (List.append_nil log₁).symm ▸ h₁, rfl⟩)
  | abandoned =>
      obtain ⟨rfl, rfl, rfl⟩ := of_done h₂
      exact .inr (.inr ⟨(List.append_nil log₁).symm ▸ h₁, rfl⟩)

/-- What was made by the first part of a program is what leads it to its end. -/
theorem split {p : InboxProgram α} {f : α → InboxProgram β} {log₁ log₂ : List Exchange} {a : α}
    {b : β} (h : Makes reg st (p.bind f) (log₁ ++ log₂) st' (.done b))
    (h₁ : p.Comes (log₁.map Exchange.plain) a) :
    ∃ st₁, Makes reg st p log₁ st₁ (.done a) ∧ Makes reg st₁ (f a) log₂ st' (.done b) := by
  induction p generalizing st log₁ with
  | done a' =>
      obtain ⟨hnil, rfl⟩ := Program.comes_done_iff.mp h₁
      obtain rfl := List.map_eq_nil_iff.mp hnil
      exact ⟨st, .here _ _, h⟩
  | request op next ih =>
      obtain ⟨r, rest, hlog, h₁⟩ := Program.comes_request_iff.mp h₁
      obtain ⟨e, log₁, rfl, he, rfl⟩ := List.map_eq_cons_iff.mp hlog
      obtain ⟨r', rest', hcons, ht, h⟩ := of_request h
      obtain ⟨rfl, rfl⟩ := List.cons.inj hcons
      cases he
      obtain ⟨st₁, h, h₂⟩ := ih r' h h₁
      exact ⟨st₁, .asks r' ht h, h₂⟩

/-- The requests of a turn change nothing in the store, and they lead the turn to one of its ends.
-/
theorem of_turn {p : Turn.TurnProgram α} {a : α}
    (h : Makes reg st (p.interpret fun op => Program.ask (Op.turn op)) log st' (.done a)) :
    st' = st ∧ ∃ turn, log = turn.map inTurn ∧ p.Comes turn a := by
  induction p generalizing log with
  | done b =>
      obtain ⟨rfl, rfl, rfl⟩ := of_done h
      exact ⟨rfl, [], rfl, .done a⟩
  | request op next ih =>
      obtain ⟨r, rest, rfl, -, h⟩ := of_request h
      obtain ⟨rfl, turn, rfl, ht⟩ := ih r h
      exact ⟨rfl, ⟨op, r⟩ :: turn, rfl, Program.comes_request_iff.mpr ⟨r, turn, rfl, ht⟩⟩

end Makes

/-! ### Parts of the handling of a message -/

/-- Whatever was to be saved is kept in memory, and so it is saved unless it cannot be written. -/
def Kept (log : List Exchange) : Prop := ∀ s r, (⟨.save s, r⟩ : Exchange) ∈ log → r = s.checkFit

/-- What is kept is kept in both parts of a log. -/
theorem Kept.append {log₁ log₂ : List Exchange} (h : Kept (log₁ ++ log₂)) : Kept log₁ ∧ Kept log₂ :=
  ⟨fun s r hr => h s r (List.mem_append_left _ hr), fun s r hr =>
    h s r (List.mem_append_right _ hr)⟩

theorem Kept.tail {e : Exchange} (h : Kept (e :: log)) : Kept log :=
  fun s r hr => h s r (List.mem_cons_of_mem _ hr)

/-- How a task ends once the session was saved, or could not be. -/
def Outcome.once (saved : Except Parley.Fault Unit) (o : Outcome α) : Outcome α :=
  match saved with
  | .ok () => o
  | .error e => .refused (.unwritable e)

/-- To save a session is one request, when what follows needs nothing else. -/
theorem save_andThen (s : Session) (next : Outcome α) :
    ((Task.save s).andThen fun _ => .done next) =
    (.request (.save s) fun saved => .done (.once saved next) : Task α) := by
  refine congrArg (@Program.request Op Op.Reply (Outcome α) (.save s)) (funext fun saved => ?_)
  cases saved <;> rfl

/-- A session is saved, and what follows needs nothing else. -/
theorem makes_save_once {s : Session} {next o : Outcome α}
    (h : Makes reg st ((Task.save s).andThen fun _ => .done next) log st' (.done o)) :
    ∃ saved, log = [⟨.save s, saved⟩] ∧ st' = st.save s ∧ o = .once saved next := by
  rw [save_andThen] at h
  obtain ⟨saved, rest, rfl, -, h⟩ := Makes.of_request h
  obtain ⟨rfl, rfl, rfl⟩ := Makes.of_done h
  exact ⟨saved, rfl, rfl, rfl⟩

/-- A session is saved in memory, and what follows needs nothing else. -/
theorem makes_save_kept {s : Session} {next o : Outcome α} (hk : Kept log)
    (h : Makes reg st ((Task.save s).andThen fun _ => .done next) log st' (.done o)) :
    st' = st.save s ∧ o = .once s.checkFit next := by
  obtain ⟨saved, rfl, rfl, rfl⟩ := makes_save_once h
  exact ⟨rfl, by rw [hk s saved List.mem_cons_self]⟩

/-- The session that a message is handled in: it was stored, or it is begun for the message. -/
def Taken (st : Store) (contact : Contact) (s : Session) : Prop :=
  st.Holds s ∨ ∃ flow id now, Calendar.Moment.Utc now ∧ s = newSession flow contact id now

theorem Taken.timely {contact : Contact} {s : Session} (h : Taken st contact s) : s.Timely := by
  rcases h with h | ⟨flow, id, now, hutc, rfl⟩
  · exact h.timely
  · exact ⟨hutc, hutc, nofun⟩

/-- The request looks for a session, or for what a new one needs. -/
def Op.isLook : Op → Bool
  | .load _ | .latest .. | .resolve .. | .newId | .now => true
  | _ => false

/-- How the search for a session ends: with one that the store tells, with one that is begun on a
flow that was chosen, under an id that was given for it, or with a fault of its own. -/
inductive Sought (st : Store) (contact : Contact) (flowId : String) (log : List Exchange) :
    Outcome Session → Prop where
  | loaded {s : Session} {now : Calendar.Moment} {newId id : String}
      (h : st.get now newId id = .ok (some s)) : Sought st contact flowId log (.done s)
  | latest {s : Session} {now : Calendar.Moment} {newId : String}
      (h : st.latest now newId contact.id flowId = .ok (some s)) :
        Sought st contact flowId log (.done s)
  | begun {flow : Flow} {query id : String} {now : Calendar.Moment}
      (hflow : ⟨.resolve query flowId, some flow⟩ ∈ log) (hid : ⟨.newId, id⟩ ∈ log)
        (hutc : now.Utc) :
      Sought st contact flowId log (.done (newSession flow contact id now))
  | refused {fault : Fault} (h : ∀ id version, fault ≠ .notRegistered id version) :
      Sought st contact flowId log (.refused fault)

/-- A session that was found was stored, or is begun. -/
theorem Sought.taken {flowId : String} {s : Session} {contact : Contact} (hst : st.Sound)
    (h : Sought st contact flowId log (.done s)) : Taken st contact s := by
  cases h with
  | loaded hget => exact .inl (hst.of_get hget).1
  | latest hlatest => exact .inl (hst.of_latest hlatest).offers.holds
  | begun _ _ hutc => exact .inr ⟨_, _, _, hutc, rfl⟩

theorem Sought.more {contact : Contact} {flowId : String} {o : Outcome Session}
    {log' : List Exchange} (h : Sought st contact flowId log o) (hsub : log ⊆ log') :
    Sought st contact flowId log' o := by
  cases h with
  | loaded hget => exact .loaded hget
  | latest hlatest => exact .latest hlatest
  | begun hflow hid hutc => exact .begun (hsub hflow) (hsub hid) hutc
  | refused hf => exact .refused hf

/-- A session is begun without a change of the store. -/
theorem makes_beginSession {contact : Contact} {text : Option String} {flowId : String}
    {o : Outcome Session} (h : Makes reg st (beginSession contact text flowId) log st' (.done o)) :
    st' = st ∧ (∀ e ∈ log, e.op.isLook = true) ∧ Sought st contact flowId log o := by
  obtain ⟨flow?, _, rfl, -, h⟩ := Makes.of_request h
  cases flow? with
  | none =>
      obtain ⟨rfl, rfl, rfl⟩ := Makes.of_done h
      exact ⟨rfl, by simp [Op.isLook], .refused fun _ _ => by split <;> simp⟩
  | some flow =>
      obtain ⟨id, _, rfl, -, h⟩ := Makes.of_request h
      obtain ⟨now, _, rfl, hutc, h⟩ := Makes.of_request h
      obtain ⟨rfl, rfl, rfl⟩ := Makes.of_done h
      exact ⟨rfl, by simp [Op.isLook], .begun List.mem_cons_self (by simp) hutc⟩

/-- **The session for a message** is sought, and nothing is stored. -/
theorem makes_findSession {contact : Contact} {text : Option String} {flowId sessionId : String}
    {o : Outcome Session}
    (h : Makes reg st (findSession contact text flowId sessionId) log st' (.done o)) :
    st' = st ∧ (∀ e ∈ log, e.op.isLook = true) ∧ Sought st contact flowId log o := by
  unfold findSession at h
  split at h
  · obtain ⟨found, _, rfl, ⟨now, newId, rfl⟩, h⟩ := Makes.of_request h
    match hfound : st.get now newId sessionId with
    | .error _ | .ok none =>
        rw [hfound] at h
        obtain ⟨rfl, rfl, rfl⟩ := Makes.of_done h
        exact ⟨rfl, by simp [Op.isLook], .refused nofun⟩
    | .ok (some s) =>
        rw [hfound] at h
        obtain ⟨rfl, rfl, rfl⟩ := Makes.of_done h
        exact ⟨rfl, by simp [Op.isLook], .loaded hfound⟩
  · obtain ⟨found, rest, rfl, ⟨now, newId, rfl⟩, h⟩ := Makes.of_request h
    -- no session of the contact is found that is not over, and one is begun
    have hbegin (h : Makes reg st (beginSession contact text flowId) rest st' (.done o)) :
        st' = st ∧
          (∀ e ∈ ⟨.latest contact.id flowId, st.latest now newId contact.id flowId⟩ :: rest,
          e.op.isLook = true) ∧ Sought st contact flowId
            (⟨.latest contact.id flowId, st.latest now newId contact.id flowId⟩ :: rest) o := by
      obtain ⟨rfl, hlook, hs⟩ := makes_beginSession h
      exact ⟨rfl, List.forall_mem_cons.mpr ⟨rfl, hlook⟩, hs.more (List.subset_cons_self _ _)⟩
    match hfound : st.latest now newId contact.id flowId with
    | .error _ =>
        rw [hfound] at h
        obtain ⟨rfl, rfl, rfl⟩ := Makes.of_done h
        exact ⟨rfl, by simp [Op.isLook], .refused nofun⟩
    | .ok none =>
        rw [hfound] at h hbegin
        exact hbegin h
    | .ok (some s) =>
        rw [hfound] at h hbegin
        dsimp only [Task.told, Task.give, Task.andThen, Program.bind] at h
        split at h
        · exact hbegin h
        · obtain ⟨rfl, rfl, rfl⟩ := Makes.of_done h
          exact ⟨rfl, by simp [Op.isLook], .latest hfound⟩

/-- A ticket is opened, or there is none, and nothing is stored. -/
theorem makes_openTicket {s : Session} {h : Handoff} {o : Outcome (Option Value)}
    (hm : Makes reg st (openTicket setting s h) log st' (.done o)) :
    st' = st ∧ ((∃ ticket, o = .done ticket) ∨ o = .abandoned) := by
  unfold openTicket at hm
  split at hm
  · obtain ⟨answer, _, -, -, hm⟩ := Makes.of_request hm
    cases answer with
    | none =>
        obtain ⟨-, rfl, rfl⟩ := Makes.of_done hm
        exact ⟨rfl, .inr rfl⟩
    | some answer =>
        obtain ⟨-, rfl, rfl⟩ := Makes.of_done hm
        exact ⟨rfl, .inl ⟨_, rfl⟩⟩
  · obtain ⟨-, rfl, rfl⟩ := Makes.of_done hm
    exact ⟨rfl, .inl ⟨none, rfl⟩⟩

/-- The ticket of a hand-off, if there is a hand-off. -/
def ticketFor (setting : Setting) (s : Session) (handoff : Option Handoff) : Task (Option Value) :=
  match handoff with
  | some h => openTicket setting s h
  | none => .give none

/-- A turn that is finished is settled with a ticket, if one is due, and a save. -/
theorem settle_finished (s : Session) (r : Turn.Result) :
    settle setting (.finished s r) = (ticketFor setting s r.handoff).andThen fun id =>
      (Task.save (writeTicket s r id).1).andThen fun _ => .give (writeTicket s r id).2 := rfl

/-- A ticket is opened only for a hand-off. -/
theorem makes_ticket {s : Session} {handoff : Option Handoff} {o : Outcome (Option Value)}
    (hm : Makes reg st (ticketFor setting s handoff) log st' (.done o)) :
    st' = st ∧ ((∃ ticket, o = .done ticket) ∨ o = .abandoned) := by
  cases handoff with
  | some h => exact makes_openTicket hm
  | none =>
      obtain ⟨-, rfl, rfl⟩ := Makes.of_done hm
      exact ⟨rfl, .inl ⟨none, rfl⟩⟩

/-- **After a turn** the session is saved, with the ticket if there is one; or nothing is. -/
theorem makes_settle {s : Session} {r : Turn.Result} {o : Outcome Turn.Result} (hk : Kept log)
    (h : Makes reg st (settle setting (.finished s r)) log st' (.done o)) :
    (∃ ticket, st' = st.save (writeTicket s r ticket).1 ∧
        o = .once (writeTicket s r ticket).1.checkFit (.done (writeTicket s r ticket).2)) ∨
      st' = st ∧ o = .abandoned := by
  rcases h.of_andThen with ⟨log₁, log₂, ticket, st₁, rfl, h₁, h₂⟩ | ⟨fault, h₁, -⟩ | ⟨h₁, rfl⟩
  · obtain ⟨rfl, -⟩ := makes_ticket h₁
    exact .inl ⟨ticket, makes_save_kept hk.append.2 h₂⟩
  · obtain ⟨-, ⟨_, he⟩ | he⟩ := makes_ticket h₁ <;> cases he
  · exact .inr ⟨(makes_ticket h₁).1, rfl⟩

end Parley.Inbox
