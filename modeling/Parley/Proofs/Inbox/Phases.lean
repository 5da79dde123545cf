import Parley.Inbox.Handle
import Parley.Proofs.Turn.Stamp
import Parley.Proofs.Session.Document

/-!
# What a task may ask, and when

A task of the inbox handles a message, releases a session or ends one (`Call`).  How far it has come
is told by what it asked and was answered (`Phase`, `Call.after`): it is on its way to the lock of a
contact, inside, has found nothing open, is about to begin a session, has a session in hand, or has
nothing left to do but leave.

`call.Permits ph op` is what it may ask for then: it looks for one session, inside the lock; it
saves only the session that it has in hand, with a moment that it read since (`Follows`); and it
saves once.  `Obeys` says so of a program and all that it may be answered, and every task obeys
(`program_obeys`).
-/

namespace Parley.Inbox

open Calendar

/-- A task of the inbox. -/
inductive Call where
  | message (contact : Contact) (text : Option String) (flowId sessionId : String)
  | release (id : String)
  | finish (id : String)
  deriving DecidableEq, Repr

/-- A program whose value does not matter. -/
def forgetting {α : Type} (p : InboxProgram α) : InboxProgram Unit := p.bind fun _ => .done ()

/-- What a task does. -/
def Call.program (setting : Setting) : Call → InboxProgram Unit
  | .message contact text flowId sessionId =>
    forgetting (handle setting contact text flowId sessionId)
  | .release id => forgetting (Inbox.release id)
  | .finish id => forgetting (Inbox.finish id)

/-- The contact of a message. -/
def Call.sender : Call → Contact
  | .message contact .. => contact
  | _ => { id := "" }

/-! ### How far a task has come -/

/-- A session that was found or begun, and the moment that was read last since then. -/
structure Hand where
  session : Session
  active : Option Moment := none

/-- How far a task has come. -/
inductive Phase where
  | outside
  /-- On the way to the lock of a contact. -/
  | bound (lock : String)
  | inside (lock : String)
  /-- No open session was found. -/
  | vacant (lock : String)
  /-- A session is to be begun on the flow. -/
  | chosen (lock : String) (flow : Flow)
  | named (lock : String) (flow : Flow) (id : String)
  | holding (lock : String) (hand : Hand)
  /-- There is nothing left but to leave the lock. -/
  | leaving (lock : String)
  | over

/-- The contact whose lock the task is inside. -/
def Phase.lock? : Phase → Option String
  | .inside lock | .vacant lock | .chosen lock _ | .named lock _ _ | .holding lock _
  | .leaving lock => some lock
  | .outside | .bound _ | .over => none

namespace Call

/-- Where a task begins. -/
def first : Call → Phase
  | .message contact .. => .bound contact.id
  | .release _ | .finish _ => .outside

/-- After a session was told by its id, or none. -/
def afterLoad (ph : Phase) (found : Except Store.RowFault (Option Session)) : Phase :=
  match ph, found with
  | .outside, .ok (some s) => .bound s.contact.id
  | .inside lock, .ok (some s) => .holding lock { session := s }
  | .outside, _ => .over
  | .inside lock, _ => .leaving lock
  | ph, _ => ph

/-- After the contact's latest session was told, or that there is none. -/
def afterLatest (ph : Phase) (found : Except Store.RowFault (Option Session)) : Phase :=
  match ph, found with
  | .inside lock, .ok (some s) =>
    if s.isFinished then .vacant lock else .holding lock { session := s }
  | .inside lock, .ok none => .vacant lock
  | .inside lock, .error _ => .leaving lock
  | ph, _ => ph

/-- After a moment was read. -/
def afterNow (call : Call) (ph : Phase) (now : Moment) : Phase :=
  match ph with
  | .named lock flow id => .holding lock { session := newSession flow call.sender id now }
  | .holding lock hand => .holding lock { hand with active := some now }
  | ph => ph

/-- How far a task has come once it has been answered. -/
def after (call : Call) (ph : Phase) : (op : Op) → op.Reply → Phase
  | .acquire lock, true => .inside lock
  | .acquire _, false => .over
  | .release _, _ => .over
  | .load _, found => afterLoad ph found
  | .latest .., found => afterLatest ph found
  | .resolve .., flow? =>
    match ph, flow? with
    | .vacant lock, some flow => .chosen lock flow
    | .vacant lock, none => .leaving lock
    | ph, _ => ph
  | .newId, id =>
    match ph with
    | .chosen lock flow => .named lock flow id
    | ph => ph
  | .now, now => call.afterNow ph now
  | .save _, _ =>
    match ph with
    | .holding lock _ => .leaving lock
    | ph => ph
  | .delete _, _ => .over
  | .version .., _ | .turn _, _ | .ticket .., _ => ph

end Call

/-! ### What it may ask -/

/-- What may be saved of a session in hand: the same session, active at the moment that was read
last, unless it is at its end. -/
structure Follows (call : Call) (hand : Hand) (s : Session) : Prop where
  id : s.id = hand.session.id
  contact : s.contact = hand.session.contact
  flowId : s.flowId = hand.session.flowId
  flowVersion : s.flowVersion = hand.session.flowVersion
  timely : hand.session.Timely → (∀ now ∈ hand.active, now.Utc) → s.Timely
  active : hand.active = some s.lastActivityAt ∨
    s.isFinished = true ∧ s.lastActivityAt = hand.session.lastActivityAt
  /-- What is released was handed off. -/
  released : ∀ id, call = .release id → hand.session.status = .handoff

/-- What a task may ask when it has come so far. -/
def Call.Permits (call : Call) (ph : Phase) : Op → Prop
  | .acquire lock => ph = .bound lock
  | .release lock => ph.lock? = some lock
  | .load id => ph = .outside ∧ call = .release id ∨
    ∃ lock, ph = .inside lock ∧ (call = .release id ∨
      ∃ contact text flowId, call = .message contact text flowId id ∧ id ≠ "")
  | .latest contact flowId => ph = .inside contact ∧
    ∃ sender text, call = .message sender text flowId "" ∧ sender.id = contact
  | .resolve text flowId => ∃ lock sender said, ph = .vacant lock ∧
    call = .message sender said flowId "" ∧ sender.id = lock ∧ text = said.getD ""
  | .newId => ∃ lock flow, ph = .chosen lock flow
  | .now => (∃ lock flow id, ph = .named lock flow id) ∨ ∃ lock hand, ph = .holding lock hand
  | .save s => ∃ lock hand, ph = .holding lock hand ∧ Follows call hand s
  | .delete id => ph = .outside ∧ call = .finish id
  | .version .. | .turn _ | .ticket .. => ∃ lock hand, ph = .holding lock hand

variable {α β : Type} {call : Call} {ph : Phase}

/-- Whatever it is answered, the program asks only what is permitted, and ends with a value that the
property holds of, as far as it has come then. -/
def Obeys (call : Call) (Q : Phase → α → Prop) : Phase → InboxProgram α → Prop
  | ph, .done a => Q ph a
  | ph, .request op next => call.Permits ph op ∧ ∀ r, Obeys call Q (call.after ph op r) (next r)

namespace Obeys

variable {Q : Phase → α → Prop} {R : Phase → β → Prop}

theorem bind {p : InboxProgram α} {f : α → InboxProgram β} (h : Obeys call Q ph p)
    (hf : ∀ ph a, Q ph a → Obeys call R ph (f a)) : Obeys call R ph (p.bind f) := by
  induction p generalizing ph with
  | done a => exact hf ph a h
  | request op next ih => exact ⟨h.1, fun r => ih r (h.2 r)⟩

/-- How a task ends inside the lock of a contact: with a value that the property holds of, or else
refused or abandoned. -/
def Inside (lock : String) (P : Phase → α → Prop) (ph : Phase) : Outcome α → Prop
  | .done a => P ph a
  | .refused _ | .abandoned => ph.lock? = some lock

/-- A task in two parts, inside the lock of a contact. -/
theorem andThen {lock : String} {P : Phase → α → Prop} {P' : Phase → β → Prop} {t : Task α}
    {f : α → Task β} (h : Obeys call (Inside lock P) ph t)
    (hf : ∀ ph a, P ph a → Obeys call (Inside lock P') ph (f a)) :
    Obeys call (Inside lock P') ph (t.andThen f) := by
  refine h.bind fun ph r hr => ?_
  cases r with
  | done a => exact hf ph a hr
  | refused e | abandoned => exact hr

/-- The task is inside the lock of the contact. -/
def At (lock : String) (ph : Phase) (_ : α) : Prop := ph.lock? = some lock

/-- A task under the lock of a contact, on its way there. -/
theorem locked {lock : String} {t : Task α}
    (h : Obeys call (Inside lock (At lock)) (.inside lock) t) :
    Obeys call (fun ph _ => ph = .over) (.bound lock) (Task.locked lock t) := by
  refine ⟨rfl, fun inside => ?_⟩
  cases inside with
  | false => rfl
  | true =>
      refine Obeys.bind h fun ph r hr => ?_
      refine ⟨?_, fun _ => rfl⟩
      cases r <;> exact hr

/-- The requests of a turn, with a session in hand. -/
theorem turn {lock : String} {hand : Hand} {p : Turn.TurnProgram α}
    (h : ∀ a, p.Ends a → Q (.holding lock hand) a) :
    Obeys call Q (.holding lock hand) (p.interpret fun op => Program.ask (Op.turn op)) := by
  induction p with
  | done a => exact h a (.done a)
  | request op next ih =>
      exact ⟨⟨lock, hand, rfl⟩, fun r => ih r fun a ha => h a (.request r ha)⟩

/-- A session is saved. -/
theorem save {lock : String} {hand : Hand} {s : Session} (hs : Follows call hand s) :
    Obeys call (Inside lock (At lock)) (.holding lock hand) (Task.save s) := by
  refine ⟨⟨lock, hand, rfl, hs⟩, fun r => ?_⟩
  cases r <;> rfl

end Obeys

open Obeys (Inside At)

/-! ### Every task obeys -/

/-- The session that was found or begun is in hand. -/
def Found (lock : String) (ph : Phase) (s : Session) : Prop := ph = .holding lock { session := s }

theorem beginSession_obeys (contact : Contact) (text : Option String) (flowId : String) :
    Obeys (.message contact text flowId "") (Inside contact.id (Found contact.id))
      (.vacant contact.id) (beginSession contact text flowId) := by
  refine ⟨⟨contact.id, contact, text, rfl, rfl, rfl, rfl⟩, fun flow? => ?_⟩
  cases flow? with
  | none => rfl
  | some flow =>
      exact ⟨⟨contact.id, flow, rfl⟩, fun id => ⟨.inl ⟨contact.id, flow, id, rfl⟩, fun now => rfl⟩⟩

theorem findSession_obeys (contact : Contact) (text : Option String) (flowId sessionId : String) :
    Obeys (.message contact text flowId sessionId) (Inside contact.id (Found contact.id))
      (.inside contact.id) (findSession contact text flowId sessionId) := by
  unfold findSession
  by_cases h : sessionId = ""
  · subst h
    rw [if_neg (by simp)]
    refine ⟨⟨rfl, contact, text, rfl, rfl⟩, fun found => ?_⟩
    match found with
    | .error _ => rfl
    | .ok none => exact beginSession_obeys contact text flowId
    | .ok (some s) =>
        dsimp only [Call.after, Call.afterLatest, Task.told, Task.andThen, Task.give, Program.bind]
        by_cases hs : s.isFinished = true
        · rw [if_pos hs, if_pos hs]
          exact beginSession_obeys contact text flowId
        · rw [if_neg hs, if_neg hs]
          rfl
  · rw [if_pos h]
    refine ⟨.inr ⟨contact.id, rfl, .inr ⟨contact, text, flowId, rfl, h⟩⟩, fun found => ?_⟩
    match found with
    | .error _ | .ok none | .ok (some _) => rfl

theorem noteForPerson_obeys {lock : String} {s : Session} (hc : ∀ id, call ≠ .release id)
    (text : Option String) :
    Obeys call (Inside lock (At lock)) (.holding lock { session := s }) (noteForPerson s text) := by
  refine ⟨.inr ⟨lock, _, rfl⟩, fun now => ?_⟩
  refine Obeys.andThen (Obeys.save ⟨rfl, rfl, rfl, rfl, fun ht hn => ?_, .inl rfl,
    fun id h => absurd h (hc id)⟩)
    fun ph _ h => h
  exact ⟨ht.started, hn now rfl, ht.history⟩

theorem orphaned_obeys {lock : String} {s : Session} (hc : ∀ id, call ≠ .release id) :
    Obeys call (Inside lock (At lock)) (.holding lock { session := s }) (orphaned s) :=
  Obeys.andThen (Obeys.save ⟨rfl, rfl, rfl, rfl, fun ht _ => ⟨ht.started, ht.active, ht.history⟩,
    .inr ⟨rfl, rfl⟩, fun id h => absurd h (hc id)⟩) fun _ _ h => h

/-- What a turn leaves may be saved, with the id of a ticket or without. -/
theorem follows_of_stamped {s s' : Session} {now : Moment} (hc : ∀ id, call ≠ .release id)
    (h : Turn.Stamped now s s') (r : Turn.Result) (ticket : Option Value) :
    Follows call ⟨s, some now⟩ (writeTicket s' r ticket).1 := by
  have hs : Follows call ⟨s, some now⟩ s' := by
    refine ⟨h.id, h.contact, h.flowId, h.flowVersion, fun ht hn => ⟨?_, ?_, fun v hv => ?_⟩, ?_,
      fun id h => absurd h (hc id)⟩
    · rw [h.startedAt]
      exact ht.started
    · rw [h.active]
      exact hn now rfl
    · rcases h.history v hv with hv | hv
      · exact ht.history v hv
      · rw [hv]
        exact hn now rfl
    · exact .inl (congrArg some h.active.symm)
  cases ticket with
  | none => exact hs
  | some id =>
      exact ⟨hs.id, hs.contact, hs.flowId, hs.flowVersion, fun ht hn =>
        let ht' := hs.timely ht hn
        ⟨ht'.started, ht'.active, ht'.history⟩, hs.active, hs.released⟩

/-- The session in hand, after a moment was read. -/
def Held (lock : String) (hand : Hand) (ph : Phase) (_ : α) : Prop := ph = .holding lock hand

theorem openTicket_obeys {lock : String} {hand : Hand} (setting : Setting) (s : Session)
    (h : Handoff) :
    Obeys call (Inside lock (Held lock hand)) (.holding lock hand) (openTicket setting s h) := by
  unfold openTicket
  split
  · refine ⟨⟨lock, hand, rfl⟩, fun answer => ?_⟩
    cases answer <;> rfl
  · rfl

/-- After a turn that does not hand off there is no ticket to open. -/
theorem settle_of_none {setting : Setting} {s : Session} {r : Turn.Result} (h : r.handoff = none) :
    settle setting (.finished s r) = (Task.save s).andThen fun _ => .give r := by
  unfold settle
  dsimp only
  rw [h]
  rfl

theorem takeTurn_obeys {lock : String} {s : Session} (hc : ∀ id, call ≠ .release id)
    (setting : Setting) (text : Option String) :
    Obeys call (Inside lock (At lock)) (.holding lock { session := s })
      (takeTurn setting s text) := by
  refine ⟨⟨lock, _, rfl⟩, fun flow? => ?_⟩
  cases flow? with
  | none => exact orphaned_obeys hc
  | some flow =>
      refine ⟨.inr ⟨lock, _, rfl⟩, fun now => ?_⟩
      refine Obeys.bind (Q := fun ph e => ph = .holding lock ⟨s, some now⟩ ∧
        Turn.Stamped now s e.session)
        (Obeys.turn fun e he => ⟨rfl, Turn.stamped_of_ends he⟩) fun ph e h => ?_
      obtain ⟨rfl, hs⟩ := h
      cases e with
      | abandoned => rfl
      | finished s' r =>
          refine Obeys.andThen (P := Held lock ⟨s, some now⟩) ?_ fun ph ticket h => ?_
          · cases r.handoff with
            | some h => exact openTicket_obeys setting s' h
            | none => rfl
          · obtain rfl : ph = .holding lock ⟨s, some now⟩ := h
            exact Obeys.andThen (Obeys.save (follows_of_stamped hc hs r ticket)) fun _ _ h => h

theorem giveBack_obeys {id : String} {lock : String} (s : Session) :
    Obeys (.release id) (Inside lock (At lock)) (.holding lock { session := s }) (giveBack s) := by
  unfold giveBack
  split
  · next h =>
    refine ⟨.inr ⟨lock, _, rfl⟩, fun now => ?_⟩
    refine Obeys.andThen (Obeys.save ⟨rfl, rfl, rfl, rfl, fun ht hn => ?_, .inl rfl, fun _ _ => h⟩)
      fun ph _ h => h
    exact ⟨ht.started, hn now rfl, ht.history⟩
  · rfl

/-- **Every task obeys**, and has left the lock in the end. -/
theorem program_obeys (setting : Setting) (call : Call) :
    Obeys call (fun ph _ => ph = .over) call.first (call.program setting) := by
  cases call with
  | message contact text flowId sessionId =>
      have hc : ∀ id, Call.message contact text flowId sessionId ≠ .release id := nofun
      refine Obeys.bind (Obeys.locked ?_) fun ph _ h => h
      refine Obeys.andThen (findSession_obeys contact text flowId sessionId) fun ph s h => ?_
      obtain rfl : ph = .holding contact.id { session := s } := h
      split
      · exact noteForPerson_obeys hc text
      · exact takeTurn_obeys hc setting text
  | release id =>
      refine Obeys.bind (Q := fun ph _ => ph = .over) ⟨.inl ⟨rfl, rfl⟩, fun found => ?_⟩
        fun ph _ h => h
      match found with
      | .error _ | .ok none => rfl
      | .ok (some s) =>
          refine Obeys.locked ⟨.inr ⟨s.contact.id, rfl, .inl rfl⟩, fun found => ?_⟩
          match found with
          | .error _ | .ok none => rfl
          | .ok (some s') => exact giveBack_obeys s'
  | finish id =>
      refine ⟨⟨rfl, rfl⟩, fun r => ?_⟩
      match r with
      | .error _ | .ok _ => rfl

end Parley.Inbox
