import Parley.Proofs.Inbox.Alone
import Parley.Proofs.Inbox.Live

/-!
# The session that a message finds

A message that names neither a flow nor a session looks for the contact's session that was active
last, and is handled in it unless it is finished.  So an open session is found again as long as it
is more recent than every finished one: then the message is handled in the open session that was
active last, and in no other (`open_session_is_found`).  When a finished session is more recent than
all the open ones, the message passes by them.
-/

namespace Parley.Inbox

variable {α : Type} {setting : Setting} {reg : Registry} {st st' : Store} {contact : Contact}
  {text : Option String} {m : Session}

/-! ### Found or begun -/

/-- The message of the contact, which names neither a flow nor a session, is handled in the session:
what it looks for is told to be the session, and it begins no other and saves no other. -/
structure HandledIn (setting : Setting) (reg : Registry) (st : Store) (contact : Contact)
    (text : Option String) (m : Session) : Prop where
  found (o : Outcome Session) (log : List Exchange) (st' : Store) :
    Goes reg st (findSession contact text "" "") log st' (.done o) ↔
      o = .done m ∧ log = [⟨.latest contact.id "", .ok (some m)⟩] ∧ st' = st
  spares (log : List Exchange) (st' : Store) (p : InboxProgram Unit)
    (h : Goes reg st ((Call.message contact text "" "").program setting) log st' p) :
    ∀ e ∈ log, e.op.Spares m.id

/-- The message of the contact finds none of the stored sessions: it is refused, or a session is
begun. -/
def PassesBy (reg : Registry) (st : Store) (contact : Contact) (text : Option String) : Prop :=
  ∀ o log st', Goes reg st (findSession contact text "" "") log st' (.done o) →
    (∃ fault, o = .refused fault) ∨ ∃ flow id now, o = .done (newSession flow contact id now)

/-- What becomes of a message once the contact's latest session was told. -/
def sessionFrom (contact : Contact) (text : Option String)
    (found : Except Store.RowFault (Option Session)) :
    Task Session :=
  (Task.told found).andThen fun
    | some s => if s.isFinished then beginSession contact text "" else .give s
    | none => beginSession contact text ""

theorem findSession_eq (contact : Contact) (text : Option String) :
    findSession contact text "" "" = .request (.latest contact.id "") (sessionFrom contact text) :=
  if_neg (by simp)

theorem sessionFrom_open (h : m.isFinished = false) :
    sessionFrom contact text (.ok (some m)) = .done (.done m) :=
  if_neg (by simp [h])

theorem sessionFrom_finished (h : m.isFinished = true) :
    sessionFrom contact text (.ok (some m)) = beginSession contact text "" :=
  if_pos h

/-- A session that is begun is a new one, or none is. -/
theorem begun_or_refused {o : Outcome Session} {log : List Exchange}
    (h : Goes reg st (beginSession contact text "") log st' (.done o)) :
    (∃ fault, o = .refused fault) ∨ ∃ flow id now, o = .done (newSession flow contact id now) := by
  obtain ⟨flow?, log, -, -, h⟩ := Goes.of_request_done h
  cases flow? with
  | none =>
      obtain ⟨-, -, ho⟩ := Goes.of_done h
      exact .inl ⟨_, Program.done.inj ho⟩
  | some flow =>
      obtain ⟨id, log, -, -, h⟩ := Goes.of_request_done h
      obtain ⟨now, log, -, -, h⟩ := Goes.of_request_done h
      obtain ⟨-, -, ho⟩ := Goes.of_done h
      exact .inr ⟨flow, id, now, Program.done.inj ho⟩

/-- A message is handled in the session that was active last, if it is open. -/
theorem handledIn_of_latest (hm : m.isFinished = false)
    (hlatest : ∀ now newId, st.latest now newId contact.id "" = .ok (some m)) :
    HandledIn setting reg st contact text m where
  found o log st' := by
    rw [findSession_eq]
    constructor
    · intro h
      obtain ⟨r, rest, rfl, ⟨now, newId, rfl⟩, h⟩ := Goes.of_request_done h
      rw [hlatest, sessionFrom_open hm] at h
      obtain ⟨rfl, rfl, ho⟩ := Goes.of_done h
      rw [hlatest]
      exact ⟨Program.done.inj ho, rfl, rfl⟩
    · rintro ⟨rfl, rfl, rfl⟩
      refine @Goes.asks _ _ _ _ (.latest contact.id "") _ _ _ (.ok (some m))
        ⟨m.startedAt, "", (hlatest _ _).symm⟩ trivial ?_
      rw [sessionFrom_open hm]
      exact .here _ _
  spares log st' p h := by
    have hobeys := program_obeys setting (.message contact text "" "")
    rcases Goes.of_request h with rfl | ⟨inside, log, rfl, -, rfl, h⟩
    · simp
    rcases Goes.of_request h with rfl | ⟨found, log, rfl, ⟨now, newId, hfound⟩, -, h⟩
    · simp [Op.Spares]
    obtain rfl : found = .ok (some m) := hfound.trans (hlatest now newId)
    have hphase : Call.after (.message contact text "" "") (.inside contact.id)
      (.latest contact.id "")
        (.ok (some m)) = .holding contact.id { session := m } := by
      simp [Call.after, Call.afterLatest, hm]
    -- from here on the session is in hand, and no other one is saved
    have hheld := (hobeys.2 true).2 (.ok (some m))
    have hspares := spares_of_goes hheld (.inl ⟨contact.id, _, hphase, rfl⟩) h
    intro e he
    rcases List.mem_cons.mp he with rfl | he
    · trivial
    · rcases List.mem_cons.mp he with rfl | he
      · trivial
      · exact hspares e he

/-- **An open session is found again.**  When some open session of the contact is more recent than
every finished one, a message that names neither a flow nor a session is handled in the open session
that was active last.  When some finished session is more recent than every open one, the message
passes by all of them. -/
theorem open_session_is_found {h₀ h : Hall} (ho : h₀.Opening) (hr : Hall.Reaches setting reg h₀ h)
    (contact : Contact) (text : Option String) :
    ((∃ s, h.store.Offers contact.id "" s ∧ s.isFinished = false ∧
        ∀ s', h.store.Offers contact.id "" s' → s'.isFinished = true →
          s'.lastActivityAt.reading < s.lastActivityAt.reading) →
      ∃ m, h.store.Offers contact.id "" m ∧ m.isFinished = false ∧
        (∀ s, h.store.Offers contact.id "" s → s.isFinished = false →
          s.lastActivityAt.reading ≤ m.lastActivityAt.reading) ∧
        HandledIn setting reg h.store contact text m) ∧
    ((∃ s, h.store.Offers contact.id "" s ∧ s.isFinished = true ∧
        ∀ s', h.store.Offers contact.id "" s' → s'.isFinished = false →
          s'.lastActivityAt.reading < s.lastActivityAt.reading) →
      PassesBy reg h.store contact text) := by
  have hsound := (ho.sound.reaches hr).store
  refine ⟨fun ⟨s, hs, hopen, hlast⟩ => ?_, fun ⟨s, hs, hfin, hlast⟩ => ?_⟩ <;>
    rcases hsound.latest contact.id "" with ⟨m, hm, hlatest⟩ | ⟨hnone, -⟩
  · have hmopen : m.isFinished = false := by
      by_contra hnot
      have hlt := hlast m hm.offers (by simpa using hnot)
      have hle := hm.latest hs
      omega
    exact ⟨m, hm.offers, hmopen, fun s' hs' _ => hm.latest hs', handledIn_of_latest hmopen hlatest⟩
  · exact absurd hs (hnone s)
  · have hmfin : m.isFinished = true := by
      by_contra hnot
      have hlt := hlast m hm.offers (by simpa using hnot)
      have hle := hm.latest hs
      omega
    intro o log st' h
    rw [findSession_eq] at h
    obtain ⟨found, log, -, ⟨now, newId, hfound⟩, h⟩ := Goes.of_request_done h
    obtain rfl : found = .ok (some m) := hfound.trans (hlatest now newId)
    rw [sessionFrom_finished hmfin] at h
    exact begun_or_refused h
  · exact absurd hs (hnone s)

theorem open_session_is_found_greeting : ∃ h m, Hall.Reaches ⟨{}, {}⟩ Hall.greetingRegistry {} h ∧
    h.store.Offers "ana" "" m ∧ m.isFinished = false ∧
    HandledIn ⟨{}, {}⟩ Hall.greetingRegistry h.store { id := "ana" } (some "Ana") m := by
  obtain ⟨h, s, hr, hstore, -, -, hoffers, hopen⟩ := Hall.reaches_greeting
  have honly (s' : Session) (hs' : (Store.save {} s).Offers "ana" "" s') : s' = s.dumped := by
    have hsaved := (Store.contains_save (fun _ => Session.Timely.written) hoffers.holds.suits).mp
      hs'.holds
    exact (hsaved.resolve_right fun ⟨_, hs'⟩ => nomatch hs'.row).2
  rw [← hstore] at hoffers honly
  obtain ⟨m, hm, hmopen, -, hhandled⟩ :=
    (open_session_is_found Hall.opening_empty hr { id := "ana" } (some "Ana")).1
      ⟨s.dumped, hoffers, hopen, fun s' hs' hfin => by
        rw [honly s' hs', hopen] at hfin
        cases hfin⟩
  exact ⟨h, m, hr, hm, hmopen, hhandled⟩

end Parley.Inbox
