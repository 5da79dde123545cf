import Parley.Proofs.Inbox.Hall

/-!
# A task by itself

`Goes reg st p log st' p'`: the program `p`, the only one at work, makes the exchanges `log`, which
lead it to `p'` and the store from `st` to `st'`.  It is let in at every lock at once.

What a task may ask, and when, holds of it by itself as well: once it has a session in hand, it
begins no other and saves no other (`spares_of_goes`).  And what a task inside the lock of a contact
is told about the contact's sessions does not change when a session of another contact is saved
(`Goes.apart`).
-/

namespace Parley.Inbox

variable {α : Type} {reg : Registry} {st st' : Store} {call : Call} {ph : Phase} {op : Op}

/-- Nobody else is in the way of the task. -/
def Granted : (op : Op) → op.Reply → Prop
  | .acquire _, inside => inside = true
  | _, _ => True

/-- The program goes on by itself for some exchanges. -/
inductive Goes (reg : Registry) :
    Store → InboxProgram α → List Exchange → Store → InboxProgram α → Prop where
  | here (st : Store) (p : InboxProgram α) : Goes reg st p [] st p
  | asks {st st' : Store} {op : Op} {next : op.Reply → InboxProgram α} {log : List Exchange}
      {p : InboxProgram α} (r : op.Reply) (ht : Tells reg st op r) (hg : Granted op r)
      (h : Goes reg (storeAfter st op) (next r) log st' p) :
      Goes reg st (.request op next) (⟨op, r⟩ :: log) st' p

namespace Goes

variable {p p' : InboxProgram α} {log : List Exchange}

theorem concat {next : op.Reply → InboxProgram α} (h : Goes reg st p log st' (.request op next))
    (r : op.Reply) (ht : Tells reg st' op r) (hg : Granted op r) :
    Goes reg st p (log ++ [⟨op, r⟩]) (storeAfter st' op) (next r) := by
  generalize hq : Program.request op next = q at h
  induction h with
  | here st p =>
      subst hq
      exact .asks r ht hg (.here _ _)
  | asks r' ht' hg' _ ih => exact .asks r' ht' hg' (ih ht hq)

/-- A program in two parts goes on with the second where the first is done. -/
theorem bind {β : Type} {p : InboxProgram α} {f : α → InboxProgram β} {q : InboxProgram β} {a : α}
    {log₁ log₂ : List Exchange} {st₁ : Store} (h : Goes reg st p log₁ st₁ (.done a))
    (h' : Goes reg st₁ (f a) log₂ st' q) : Goes reg st (p.bind f) (log₁ ++ log₂) st' q := by
  generalize hd : Program.done a = d at h
  induction h with
  | here =>
      subst hd
      exact h'
  | asks r ht hg _ ih => exact .asks r ht hg (ih h' hd)

theorem of_request {op : Op} {next : op.Reply → InboxProgram α} {log : List Exchange}
    {p : InboxProgram α} (h : Goes reg st (.request op next) log st' p) :
    log = [] ∨ ∃ r rest, log = ⟨op, r⟩ :: rest ∧ Tells reg st op r ∧ Granted op r ∧
      Goes reg (storeAfter st op) (next r) rest st' p := by
  cases h with
  | here => exact .inl rfl
  | asks r ht hg h => exact .inr ⟨r, _, rfl, ht, hg, h⟩

theorem of_request_done {op : Op} {next : op.Reply → InboxProgram α} {log : List Exchange} {a : α}
    (h : Goes reg st (.request op next) log st' (.done a)) :
    ∃ r rest, log = ⟨op, r⟩ :: rest ∧ Tells reg st op r ∧
      Goes reg (storeAfter st op) (next r) rest st' (.done a) := by
  cases h with
  | asks r ht _ h => exact ⟨r, _, rfl, ht, h⟩

theorem of_done {a : α} {log : List Exchange} {p : InboxProgram α}
    (h : Goes reg st (.done a) log st' p) : log = [] ∧ st' = st ∧ p = .done a := by
  cases h with
  | here => exact ⟨rfl, rfl, rfl⟩

end Goes

/-! ### What it may ask by itself -/

/-- A session with the id is in hand, or was. -/
def Phase.Keeps (id : String) (ph : Phase) : Prop :=
  (∃ lock hand, ph = .holding lock hand ∧ hand.session.id = id) ∨
    (∃ lock, ph = .leaving lock) ∨ ph = .over

/-- The request begins no session and saves none but the one with the id. -/
def Op.Spares (id : String) : Op → Prop
  | .newId => False
  | .save s => s.id = id
  | _ => True

theorem Call.op_of_leaving {lock : String} (hp : call.Permits (.leaving lock) op) :
    op = .release lock := by
  cases op with
  | release other => exact congrArg Op.release (Option.some.inj hp).symm
  | _ => simp [Call.Permits] at hp

theorem Call.not_permits_over : ¬ call.Permits .over op := by
  cases op <;> simp [Call.Permits, Phase.lock?]

theorem Phase.Keeps.after {id : String} (h : ph.Keeps id) (hp : call.Permits ph op) (r : op.Reply) :
    op.Spares id ∧ (call.after ph op r).Keeps id := by
  rcases h with ⟨lock, hand, rfl, rfl⟩ | ⟨lock, rfl⟩ | rfl
  · cases op with
    | release => exact ⟨trivial, .inr (.inr rfl)⟩
    | now => exact ⟨trivial, .inl ⟨lock, _, rfl, rfl⟩⟩
    | save s =>
        obtain ⟨_, _, he, hf⟩ := hp
        cases he
        exact ⟨hf.id, .inr (.inl ⟨lock, rfl⟩)⟩
    | version | turn | ticket => exact ⟨trivial, .inl ⟨lock, hand, rfl, rfl⟩⟩
    | acquire | delete | load | latest | resolve | newId => simp [Call.Permits] at hp
  · obtain rfl := Call.op_of_leaving hp
    exact ⟨trivial, .inr (.inr rfl)⟩
  · exact absurd hp Call.not_permits_over

/-- **Once a task has a session in hand**, it begins no other and saves no other. -/
theorem spares_of_goes {Q : Phase → α → Prop} {p p' : InboxProgram α} {log : List Exchange}
    {id : String} (h : Obeys call Q ph p) (hk : ph.Keeps id) (hg : Goes reg st p log st' p') :
    ∀ e ∈ log, e.op.Spares id := by
  induction hg generalizing ph with
  | here => simp
  | asks r _ _ _ ih =>
      obtain ⟨hspares, hkeeps⟩ := hk.after h.1 r
      intro e he
      rcases List.mem_cons.mp he with rfl | he
      · exact hspares
      · exact ih (h.2 r) hkeeps e he

/-! ### Apart from other contacts -/

/-- The exchange is about the sessions of the contact, if about any, and changes none. -/
def Exchange.IsOf (contact : String) : Exchange → Prop
  | ⟨.load _, found⟩ => ∃ s, found = .ok (some s) ∧ s.contact.id = contact
  | ⟨.latest other _, _⟩ => other = contact
  | ⟨.save _, _⟩ | ⟨.delete _, _⟩ => False
  | _ => True

theorem storeAfter_of_isOf {contact : String} {r : op.Reply} (h : Exchange.IsOf contact ⟨op, r⟩)
    (st : Store) : storeAfter st op = st := by
  cases op with
  | save | delete => exact absurd h id
  | _ => rfl

/-- Such an exchange would be the same after a session of another contact was saved. -/
theorem Tells.apart {contact : String} {s : Session} {r : op.Reply} (ht : Tells reg st op r)
    (h : Exchange.IsOf contact ⟨op, r⟩) (hst : st.Sound) (hc : s.contact.id ≠ contact)
    (ho : ∀ s', st.Holds s' → s'.id = s.id → s'.contact.id = s.contact.id) :
    Tells reg (st.save s) op r := by
  cases op with
  | load id =>
      obtain ⟨now, newId, rfl⟩ := ht
      obtain ⟨s', hfound, hs'c⟩ := h
      obtain ⟨hs', rfl⟩ := hst.of_get hfound
      refine ⟨now, newId, (Store.get_save_of_ne fun he => hc ?_).symm⟩
      exact (ho s' hs' he.symm).symm.trans hs'c
  | latest other flowId =>
      obtain ⟨now, newId, rfl⟩ := ht
      obtain rfl : other = contact := h
      exact ⟨now, newId, (hst.latest_save hc ho).symm⟩
  | save | delete => exact absurd h id
  | _ => exact ht

/-- **A task goes on in the same way** when a session of another contact has been saved. -/
theorem Goes.apart {contact : String} {s : Session} {p p' : InboxProgram α} {log : List Exchange}
    (h : Goes reg st p log st' p') (hlog : ∀ e ∈ log, e.IsOf contact) (hst : st.Sound)
    (hc : s.contact.id ≠ contact)
    (ho : ∀ s', st.Holds s' → s'.id = s.id → s'.contact.id = s.contact.id) :
    Goes reg (st.save s) p log (st.save s) p' := by
  induction h with
  | here => exact .here _ _
  | asks r ht hg _ ih =>
      have hof := hlog _ List.mem_cons_self
      rw [storeAfter_of_isOf hof] at ih
      refine .asks r (ht.apart hof hst hc ho) hg ?_
      rw [storeAfter_of_isOf hof]
      exact ih (fun e he => hlog e (List.mem_cons_of_mem _ he)) hst ho

end Parley.Inbox
