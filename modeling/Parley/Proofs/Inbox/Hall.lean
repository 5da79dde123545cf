import Mathlib.Logic.Function.Basic
import Mathlib.Logic.Relation
import Parley.Proofs.Inbox.Locks
import Parley.Proofs.Inbox.Phases
import Parley.Proofs.Requests
import Parley.Proofs.Store.Sound

/-!
# Tasks side by side

A `Hall` is an inbox at work: the store, the locks, and the tasks that are under way, each with what
it asked and was told so far.  A step of the hall is one task beginning, coming to the lock of a
contact or being told what it asks for (`Hall.Step`), in any order of the tasks; and a task may be
told whatever the store, the registry and the locks allow (`Tells`, `Hall.Admits`).  Nothing is
assumed of collaborators and contacts.  A session that can be written is stored even when its saving
is told to have failed, for then it is the file that could not be written.

Sessions begin under ids that were never given before, and `Hall.owner` keeps whose session each of
them is.  What every step keeps is gathered in `Hall.Sound`: no two tasks are inside the lock of one
contact, and what a task has come to, it has come to inside the lock.

So of two tasks that have one and the same session in hand, at least one handles a message that
names the session of another contact (`Sound.eq_of_handles`).
-/

namespace Parley.Inbox

open Calendar

/-! ### Exchanges -/

/-- A request and its reply. -/
structure Exchange where
  op : Op
  reply : op.Reply

/-- The exchange as one of any program. -/
def Exchange.plain (e : Exchange) : Program.Exchange Op Op.Reply := ⟨e.op, e.reply⟩

/-- How far a task has come after some exchanges. -/
def Call.phase (call : Call) (log : List Exchange) : Phase :=
  log.foldl (fun ph e => call.after ph e.op e.reply) call.first

/-- What the store and the registry tell; a write that went wrong is told too.  It is the file that
could not be written then, or the session. -/
def Tells (reg : Registry) (st : Store) : (op : Op) → op.Reply → Prop
  | .load id, found => ∃ now newId, found = st.get now newId id
  | .latest contact flowId, found => ∃ now newId, found = st.latest now newId contact flowId
  | .save s, saved => s.fits = false → saved = .error .tooDeep
  | .delete id, removed => removed = (st.delete id).2 ∨ ∃ fault, removed = .error fault
  | .resolve text flowId, flow? => flow? = reg.resolve text flowId
  | .version id version, flow? => flow? = reg.version? id version
  | .now, now => now.Utc
  | _, _ => True

/-- The store after a request. -/
def storeAfter (st : Store) : Op → Store
  | .save s => st.save s
  | .delete id => (st.delete id).1
  | _ => st

/-! ### Halls -/

/-- A task that is under way: what it asked and was told, and what it is to do yet. -/
structure Job where
  call : Call
  log : List Exchange := []
  rest : InboxProgram Unit

/-- How far a task has come. -/
def Job.phase (j : Job) : Phase := j.call.phase j.log

/-- The task is told what it asks for. -/
def Job.told (j : Job) (op : Op) (r : op.Reply) (rest : InboxProgram Unit) : Job :=
  { j with log := j.log ++ [⟨op, r⟩], rest := rest }

theorem Job.phase_told (j : Job) (op : Op) (r : op.Reply) (rest : InboxProgram Unit) :
    (j.told op r rest).phase = j.call.after j.phase op r := by
  simp [told, phase, Call.phase]

/-- A task that has saved has nothing left to do inside the lock. -/
theorem Job.phase_saved {j : Job} {lock : String} {hand : Hand} (h : j.phase = .holding lock hand)
    (s : Session) (r : (Op.save s).Reply) (rest : InboxProgram Unit) :
    (j.told (.save s) r rest).phase = .leaving lock :=
  (j.phase_told _ r rest).trans (congrArg (j.call.after · (.save s) r) h)

/-- The task has the session in hand: it has found it or begun it, and has not saved it yet. -/
def Job.Handles (j : Job) (id : String) : Prop :=
  ∃ lock hand, j.phase = .holding lock hand ∧ hand.session.id = id

/-- An inbox at work. -/
structure Hall where
  store : Store := {}
  locks : Locks := {}
  /-- The tasks that have begun, by their numbers. -/
  jobs : Nat → Option Job := fun _ => none
  /-- The contact whose session an id is, if the id was ever given to one. -/
  owner : String → Option String := fun _ => none
  /-- What the clock has told, the last first. -/
  readings : List Moment := []

namespace Hall

/-- The task may go on with the reply: it goes inside a lock when it is its turn, and the id of a
new session is new. -/
def Admits (h : Hall) (k : Nat) : (op : Op) → op.Reply → Prop
  | .acquire lock, true => h.locks.isInside k lock = true
  | .newId, id => h.owner id = none
  | _, _ => True

/-- The locks after a task was told something: whoever gives up or is done has left. -/
def locksAfter (l : Locks) (k : Nat) : (op : Op) → op.Reply → Locks
  | .acquire lock, false => l.leave k lock
  | .release lock, _ => l.leave k lock
  | _, _ => l

/-- Whose every session is, after a task was told something. -/
def ownerAfter (owner : String → Option String) (call : Call) :
    (op : Op) → op.Reply → String → Option String
  | .newId, id => Function.update owner id (some call.sender.id)
  | _, _ => owner

/-- What the clock has told, after a task was told something. -/
def readingsAfter (readings : List Moment) : (op : Op) → op.Reply → List Moment
  | .now, now => now :: readings
  | _, _ => readings

/-- A task begins. -/
def start (setting : Setting) (h : Hall) (k : Nat) (call : Call) : Hall :=
  { h with jobs := Function.update h.jobs k (some { call := call, rest := call.program setting }) }

/-- A task comes to the lock of a contact. -/
def come (h : Hall) (k : Nat) (lock : String) : Hall := { h with locks := h.locks.enter k lock }

/-- A task is told what it asks for. -/
def answer (h : Hall) (k : Nat) (j : Job) (op : Op) (r : op.Reply) (rest : InboxProgram Unit) :
    Hall where
  store := storeAfter h.store op
  locks := locksAfter h.locks k op r
  jobs := Function.update h.jobs k (some (j.told op r rest))
  owner := ownerAfter h.owner j.call op r
  readings := readingsAfter h.readings op r

/-- One step of the hall. -/
inductive Step (setting : Setting) (reg : Registry) (h : Hall) : Hall → Prop where
  | begins (k : Nat) (call : Call) (hk : h.jobs k = none) :
      Step setting reg h (h.start setting k call)
  /-- A task comes to the lock of a contact, and waits unless nobody else is there. -/
  | comes {k : Nat} {j : Job} {lock : String} {next : Bool → InboxProgram Unit}
      (hj : h.jobs k = some j)
      (hr : j.rest = .request (.acquire lock) next) (hv : ∀ v ∈ h.locks.visits, v.task ≠ k) :
      Step setting reg h (h.come k lock)
  | asks {k : Nat} {j : Job} {op : Op} {next : op.Reply → InboxProgram Unit}
      (hj : h.jobs k = some j)
      (hr : j.rest = .request op next) (r : op.Reply) (ht : Tells reg h.store op r)
      (ha : h.Admits k op r) : Step setting reg h (h.answer k j op r (next r))

/-- Some steps. -/
abbrev Reaches (setting : Setting) (reg : Registry) : Hall → Hall → Prop :=
  Relation.ReflTransGen (Step setting reg)

/-- Nobody is there yet, and it is known whose every stored session is. -/
structure Opening (h : Hall) : Prop where
  store : h.store.Sound
  owned {s : Session} (hs : h.store.Holds s) : h.owner s.id = some s.contact.id
  locks : h.locks = {}
  jobs (k : Nat) : h.jobs k = none

/-- A hall where nobody is and nothing is stored may open. -/
theorem opening_empty : Opening {} where
  store := Store.sound_empty
  owned h := nomatch h.row
  locks := rfl
  jobs _ := rfl

/-! ### What every step keeps -/

end Hall

variable {setting : Setting} {reg : Registry} {owner : String → Option String} {call : Call}
  {ph : Phase} {st : Store}

theorem Phase.lock?_holding {lock : String} {hand : Hand} (h : ph = .holding lock hand) :
    ph.lock? = some lock := by
  rw [h]
  rfl

/-- The contact for whom a session is about to be begun. -/
def Phase.opening? : Phase → Option String
  | .vacant lock | .chosen lock _ | .named lock _ _ => some lock
  | _ => none

/-- The lock of the contact is where the task belongs. -/
def Call.Serves (owner : String → Option String) : Call → String → Prop
  | .message contact .., lock => contact.id = lock
  | .release id, lock => owner id = some lock
  | .finish _, _ => False

/-- The task handles a message of the contact that names no session. -/
def Call.Opens (call : Call) (lock : String) : Prop :=
  ∃ contact text flowId, call = .message contact text flowId "" ∧ contact.id = lock

/-- The task handles a message that names the session. -/
def Call.Names (call : Call) (id : String) : Prop :=
  id ≠ "" ∧ ∃ contact text flowId, call = .message contact text flowId id

/-- What is in hand is a session of the contact that owns it. -/
structure Hand.Fits (owner : String → Option String) (hand : Hand) : Prop where
  owner : owner hand.session.id = some hand.session.contact.id
  timely : hand.session.Timely
  active : ∀ now ∈ hand.active, now.Utc

/-- The task is where it belongs, and has in hand a session of the contact that it serves, or the
one that the message names. -/
structure Call.Fits (owner : String → Option String) (call : Call) (ph : Phase) : Prop where
  lock {lock : String} (h : ph = .bound lock ∨ ph.lock? = some lock) : call.Serves owner lock
  opening {lock : String} (h : ph.opening? = some lock) : call.Opens lock
  named {lock id : String} {flow : Flow} (h : ph = .named lock flow id) :
    owner id = some call.sender.id
  hand {lock : String} {hand : Hand} (h : ph = .holding lock hand) : hand.Fits owner
  own {lock : String} {hand : Hand} (h : ph = .holding lock hand) :
    hand.session.contact.id = lock ∨ call.Names hand.session.id

theorem Call.fits_over : call.Fits owner .over where
  lock h := by simp [Phase.lock?] at h
  opening h := nomatch h
  named h := nomatch h
  hand h := nomatch h
  own h := nomatch h

theorem Call.fits_leaving {lock : String} (h : call.Serves owner lock) :
    call.Fits owner (.leaving lock) where
  lock h' := by
    obtain rfl : lock = _ := by simpa [Phase.lock?] using h'
    exact h
  opening h := nomatch h
  named h := nomatch h
  hand h := nomatch h
  own h := nomatch h

/-- A task may hold a session at a lock that is the lock of its contact, or if it was called for the
session. -/
theorem Call.fits_holding {lock : String} {hand : Hand} (h : call.Serves owner lock)
    (hf : hand.Fits owner) (ho : hand.session.contact.id = lock ∨ call.Names hand.session.id) :
    call.Fits owner (.holding lock hand) where
  lock h' := by
    obtain rfl : lock = _ := by simpa [Phase.lock?] using h'
    exact h
  opening h := nomatch h
  named h := nomatch h
  hand h' := by
    obtain ⟨-, rfl⟩ : lock = _ ∧ hand = _ := by simpa using h'
    exact hf
  own h' := by
    obtain ⟨rfl, rfl⟩ : lock = _ ∧ hand = _ := by simpa using h'
    exact ho

/-- A task may look for a session at the lock of the sender. -/
theorem Call.fits_opening {lock : String} (hph : ph.opening? = some lock) (ho : call.Opens lock)
    (hn : ∀ flow id, ph = .named lock flow id → owner id = some call.sender.id) :
    call.Fits owner ph := by
  have hserves : call.Serves owner lock := by
    obtain ⟨contact, text, flowId, rfl, hlock⟩ := ho
    exact hlock
  refine ⟨fun {lock'} h => ?_, fun {lock'} h => ?_, fun {lock' id flow} h => ?_, fun h => ?_,
    fun h => ?_⟩
  · cases ph <;> simp_all [Phase.opening?, Phase.lock?]
  · exact Option.some.inj (hph.symm.trans h) ▸ ho
  · subst h
    obtain rfl : lock' = lock := Option.some.inj hph
    exact hn flow id rfl
  · subst h
    cases hph
  · subst h
    cases hph

/-- A task begins where it belongs. -/
theorem Call.fits_first (call : Call) : call.Fits owner call.first := by
  cases call with
  | message contact text flowId sessionId =>
      refine ⟨fun {lock} h => ?_, nofun, nofun, nofun, nofun⟩
      have hlock : contact.id = lock := by simpa [Call.first, Phase.lock?] using h
      exact hlock
  | release id | finish id =>
      refine ⟨fun h => ?_, nofun, nofun, nofun, nofun⟩
      simp [Call.first, Phase.lock?] at h

/-- Whose a session is stays settled, and so does which lock serves. -/
theorem Call.Serves.mono {owner' : String → Option String}
    (ho : ∀ id contact, owner id = some contact → owner' id = some contact) {lock : String}
    (h : call.Serves owner lock) : call.Serves owner' lock := by
  cases call with
  | message => exact h
  | release id => exact ho _ _ h
  | finish => exact h

/-- A phase that fits goes on to fit when more sessions have owners. -/
theorem Call.Fits.mono {owner' : String → Option String}
    (ho : ∀ id contact, owner id = some contact → owner' id = some contact)
    (h : call.Fits owner ph) :
    call.Fits owner' ph where
  lock hp := (h.lock hp).mono ho
  opening := h.opening
  named hp := ho _ _ (h.named hp)
  hand hp := ⟨ho _ _ (h.hand hp).owner, (h.hand hp).timely, (h.hand hp).active⟩
  own := h.own

/-- Every stored session is the contact's that owns it. -/
def Owned (owner : String → Option String) (st : Store) : Prop :=
  ∀ s, st.Holds s → owner s.id = some s.contact.id

/-- A stored session fits in hand. -/
theorem Hand.fits_of_holds {s : Session} (h : Owned owner st) (hs : st.Holds s) :
    Hand.Fits owner { session := s } :=
  ⟨h s hs, hs.timely, nofun⟩

/-- What a task finds by the id of a session: a release looks for its session outside, to learn
whose it is, and again inside the lock; a message looks for the session that it names inside the
lock. -/
theorem Call.Fits.after_load {id : String} {found : (Op.load id).Reply} (h : call.Fits owner ph)
    (hp : call.Permits ph (.load id)) (ht : Tells reg st (.load id) found) (hst : st.Sound)
    (ho : Owned owner st) : call.Fits owner (call.after ph (.load id) found) := by
  obtain ⟨now, newId, rfl⟩ := ht
  rcases hp with ⟨rfl, rfl⟩ | ⟨lock, rfl, hcall⟩
  · match hfound : st.get now newId id with
    | .error _ | .ok none => exact Call.fits_over
    | .ok (some s) =>
        obtain ⟨hs, rfl⟩ := hst.of_get hfound
        refine ⟨fun {lock} hl => ?_, nofun, nofun, nofun, nofun⟩
        obtain rfl : s.contact.id = lock := by
          simpa [Call.after, Call.afterLoad, Phase.lock?] using hl
        exact ho s hs
  · have hserves : call.Serves owner lock := h.lock (.inr rfl)
    match hfound : st.get now newId id with
    | .error _ | .ok none => exact Call.fits_leaving hserves
    | .ok (some s) =>
        obtain ⟨hs, rfl⟩ := hst.of_get hfound
        refine Call.fits_holding hserves (Hand.fits_of_holds ho hs) ?_
        rcases hcall with rfl | ⟨contact, text, flowId, rfl, hne⟩
        · exact .inl (Option.some.inj ((ho s hs).symm.trans hserves))
        · exact .inr ⟨hne, contact, text, flowId, rfl⟩

/-- What a task finds as the latest session of its contact is that contact's. -/
theorem Call.Fits.after_latest {contact flowId : String} {found : (Op.latest contact flowId).Reply}
    (h : call.Fits owner ph) (hp : call.Permits ph (.latest contact flowId))
    (ht : Tells reg st (.latest contact flowId) found) (hst : st.Sound) (ho : Owned owner st) :
    call.Fits owner (call.after ph (.latest contact flowId) found) := by
  obtain ⟨now, newId, rfl⟩ := ht
  obtain ⟨rfl, sender, text, rfl, rfl⟩ := hp
  have hserves := h.lock (.inr rfl)
  have hvacant : Call.Fits owner (.message sender text flowId "") (.vacant sender.id) :=
    Call.fits_opening rfl ⟨sender, text, flowId, rfl, rfl⟩ nofun
  match hfound : st.latest now newId sender.id flowId with
  | .error _ => exact Call.fits_leaving hserves
  | .ok none => exact hvacant
  | .ok (some s) =>
      have hs := (hst.of_latest hfound).offers
      dsimp only [Call.after, Call.afterLatest]
      split
      · exact hvacant
      · exact Call.fits_holding hserves (Hand.fits_of_holds ho hs.holds) (.inl hs.contact)

/-- A flow is chosen for the message of the contact, or there is none. -/
theorem Call.Fits.after_resolve {text flowId : String} {flow? : (Op.resolve text flowId).Reply}
    (h : call.Fits owner ph) (hp : call.Permits ph (.resolve text flowId)) :
    call.Fits owner (call.after ph (.resolve text flowId) flow?) := by
  obtain ⟨lock, sender, said, rfl, rfl, rfl, rfl⟩ := hp
  cases flow? with
  | none => exact Call.fits_leaving (h.lock (.inr rfl))
  | some flow =>
      exact Call.fits_opening
        (show Phase.opening? (.chosen sender.id flow) = some sender.id from rfl)
        ⟨sender, said, flowId, rfl, rfl⟩ nofun

/-- The clock is read for a session that begins, or for a turn. -/
theorem Call.Fits.after_now {now : (Op.now).Reply} (h : call.Fits owner ph)
    (hp : call.Permits ph .now) (ht : Tells reg st .now now) :
    call.Fits owner (call.after ph .now now) := by
  have hutc : Moment.Utc now := ht
  rcases hp with ⟨lock, flow, id, rfl⟩ | ⟨lock, hand, rfl⟩
  · refine Call.fits_holding (h.lock (.inr rfl)) ⟨h.named rfl, ⟨hutc, hutc, nofun⟩, nofun⟩ (.inl ?_)
    obtain ⟨contact, text, flowId, rfl, hlock⟩ := h.opening rfl
    exact hlock
  · have hown := h.own rfl
    refine Call.fits_holding (h.lock (.inr rfl)) ⟨(h.hand rfl).owner, (h.hand rfl).timely, ?_⟩ hown
    intro read hread
    obtain rfl := Option.mem_some_iff.mp hread
    exact hutc

/-- **A task stays where it belongs** whatever it is told. -/
theorem Call.Fits.after {op : Op} {r : op.Reply}
    (h : call.Fits (Hall.ownerAfter owner call op r) ph) (hp : call.Permits ph op)
    (ht : Tells reg st op r) (hst : st.Sound) (ho : Owned (Hall.ownerAfter owner call op r) st) :
    call.Fits (Hall.ownerAfter owner call op r) (call.after ph op r) := by
  cases op with
  | acquire lock =>
      obtain rfl : ph = .bound lock := hp
      cases r with
      | false => exact Call.fits_over
      | true =>
          refine ⟨fun {lock'} hl => ?_, nofun, nofun, nofun, nofun⟩
          obtain rfl : lock = lock' := by simpa [Call.after, Phase.lock?] using hl
          exact h.lock (.inl rfl)
  | release | delete => exact Call.fits_over
  | load id => exact h.after_load hp ht hst ho
  | latest contact flowId => exact h.after_latest hp ht hst ho
  | resolve text flowId => exact h.after_resolve hp
  | newId =>
      obtain ⟨lock, flow, rfl⟩ := hp
      refine Call.fits_opening (show Phase.opening? (.named lock flow r) = some lock from rfl)
        (h.opening rfl) fun flow' id he => ?_
      cases he
      exact Function.update_self _ _ _
  | now => exact h.after_now hp ht
  | save s =>
      obtain ⟨lock, hand, rfl, -⟩ := hp
      exact Call.fits_leaving (h.lock (.inr rfl))
  | version | turn | ticket =>
      obtain ⟨lock, hand, rfl⟩ := hp
      exact h

/-- What a task is told inside a lock, or on the way to none, leads it to no other lock. -/
theorem Call.lock?_after {op : Op} {r : op.Reply} {lock : String} (hp : call.Permits ph op)
    (hop : ∀ lock, op ≠ .acquire lock) (h : (call.after ph op r).lock? = some lock) :
    ph.lock? = some lock ∧ ∀ l k, Hall.locksAfter l k op r = l := by
  -- a lock comes with its acquisition and goes with its release
  cases op with
  | acquire lock => exact absurd rfl (hop lock)
  | release lock => cases h
  | delete id => cases h
  | load id =>
      rcases hp with ⟨rfl, -⟩ | ⟨lock', rfl, -⟩
      · match r with
        | .error _ | .ok none | .ok (some s) => cases h
      · match r with
        | .error _ | .ok none | .ok (some s) => exact ⟨h, fun _ _ => rfl⟩
  | latest contact flowId =>
      obtain ⟨rfl, -⟩ := hp
      refine ⟨?_, fun _ _ => rfl⟩
      match r with
      | .error _ | .ok none => exact h
      | .ok (some s) =>
          dsimp only [Call.after, Call.afterLatest] at h
          split at h <;> exact h
  | resolve text flowId =>
      obtain ⟨lock', sender, said, rfl, -⟩ := hp
      match r with
      | none | some flow => exact ⟨h, fun _ _ => rfl⟩
  | newId =>
      obtain ⟨lock', flow, rfl⟩ := hp
      exact ⟨h, fun _ _ => rfl⟩
  | now =>
      rcases hp with ⟨lock', flow, id, rfl⟩ | ⟨lock', hand, rfl⟩ <;> exact ⟨h, fun _ _ => rfl⟩
  | save s =>
      obtain ⟨lock', hand, rfl, -⟩ := hp
      exact ⟨h, fun _ _ => rfl⟩
  | version | turn | ticket =>
      obtain ⟨lock', hand, rfl⟩ := hp
      exact ⟨h, fun _ _ => rfl⟩

namespace Hall

/-- Who is inside a lock stays there whatever others do. -/
theorem isInside_locksAfter {l : Locks} {k k' : Nat} {lock : String} (hne : k' ≠ k)
    (h : l.isInside k' lock = true) (op : Op) (r : op.Reply) :
    (locksAfter l k op r).isInside k' lock = true := by
  unfold locksAfter
  split
  · exact Locks.isInside_leave hne h
  · exact Locks.isInside_leave hne h
  · exact h

/-- The locks stay sound whatever a task does. -/
theorem sound_locksAfter {l : Locks} (h : l.Sound) (k : Nat) (op : Op) (r : op.Reply) :
    (locksAfter l k op r).Sound := by
  unfold locksAfter
  split
  · exact h.leave k _
  · exact h.leave k _
  · exact h

/-- A task that has come inside a lock is there. -/
theorem isInside_after {h : Hall} {k : Nat} {op : Op} {r : op.Reply} {lock : String}
    (hp : call.Permits ph op) (hi : ∀ lock, ph.lock? = some lock → h.locks.isInside k lock = true)
    (ha : h.Admits k op r) (hl : (call.after ph op r).lock? = some lock) :
    (locksAfter h.locks k op r).isInside k lock = true := by
  by_cases hop : ∃ lock, op = .acquire lock
  · obtain ⟨lock', rfl⟩ := hop
    cases r with
    | false => cases hl
    | true =>
        obtain rfl : lock' = lock := Option.some.inj hl
        exact ha
  · obtain ⟨hlock, hsame⟩ := Call.lock?_after hp (fun lock he => hop ⟨lock, he⟩) hl
    rw [hsame]
    exact hi lock hlock

/-- What every step of a hall keeps. -/
structure Sound (h : Hall) : Prop where
  store : h.store.Sound
  owned : Owned h.owner h.store
  locks : h.locks.Sound
  obeys {k : Nat} {j : Job} (hj : h.jobs k = some j) :
    Obeys j.call (fun ph _ => ph = .over) j.phase j.rest
  fits {k : Nat} {j : Job} (hj : h.jobs k = some j) : j.call.Fits h.owner j.phase
  inside {k : Nat} {j : Job} {lock : String} (hj : h.jobs k = some j)
    (hl : j.phase.lock? = some lock) : h.locks.isInside k lock = true

/-- A hall that opens is sound. -/
theorem Opening.sound {h : Hall} (ho : h.Opening) : h.Sound where
  store := ho.store
  owned _ hs := ho.owned hs
  locks := ho.locks ▸ Locks.sound_empty
  obeys {k} _ hj := nomatch (ho.jobs k).symm.trans hj
  fits {k} _ hj := nomatch (ho.jobs k).symm.trans hj
  inside {k} _ _ hj := nomatch (ho.jobs k).symm.trans hj

/-- A task of the hall, among those that there were before or the one that was put there. -/
theorem jobs_update {jobs : Nat → Option Job} {k k' : Nat} {j j' : Job}
    (h : Function.update jobs k (some j) k' = some j') :
    k' = k ∧ j' = j ∨ k' ≠ k ∧ jobs k' = some j' := by
  by_cases hk : k' = k
  · subst hk
    rw [Function.update_self] at h
    exact .inl ⟨rfl, (Option.some.inj h).symm⟩
  · rw [Function.update_of_ne hk] at h
    exact .inr ⟨hk, h⟩

/-- A session keeps its owner. -/
theorem owner_ownerAfter {h : Hall} {k : Nat} {op : Op} {r : op.Reply} (ha : h.Admits k op r)
    (call : Call) {id contact : String} (ho : h.owner id = some contact) :
    ownerAfter h.owner call op r id = some contact := by
  cases op with
  | newId =>
      have hnew : h.owner r = none := ha
      refine (Function.update_of_ne (fun he => ?_) _ _).trans ho
      rw [← he, ho] at hnew
      cases hnew
  | _ => exact ho

/-- In a sound hall a task asks for what its phase permits, and obeys its call whatever it is
replied. -/
theorem Sound.permits {h : Hall} (hs : h.Sound) {k : Nat} {j : Job} {op : Op}
    {next : op.Reply → InboxProgram Unit} (hj : h.jobs k = some j)
    (hr : j.rest = .request op next) :
    j.call.Permits j.phase op ∧
      ∀ r, Obeys j.call (fun ph _ => ph = .over) (j.call.after j.phase op r) (next r) := by
  have hobeys := hs.obeys hj
  rw [hr] at hobeys
  exact hobeys

/-- What is saved is saved for the contact that it was stored for. -/
theorem Sound.contact_of_follows {h : Hall} (hs : h.Sound) {k : Nat} {j : Job} {lock : String}
    {hand : Hand} {s : Session} (hj : h.jobs k = some j) (hp : j.phase = .holding lock hand)
    (hf : Follows j.call hand s) : h.owner s.id = some s.contact.id := by
  rw [hf.id, hf.contact]
  exact ((hs.fits hj).hand hp).owner

/-- What is stored under the id of what is saved is a session of the same contact. -/
theorem Sound.contact_of_holds {h : Hall} (hs : h.Sound) {k : Nat} {j : Job} {lock : String}
    {hand : Hand} {s s' : Session} (hj : h.jobs k = some j) (hp : j.phase = .holding lock hand)
    (hf : Follows j.call hand s) (hs' : h.store.Holds s') (he : s'.id = s.id) :
    s'.contact.id = s.contact.id := by
  have howner := hs.contact_of_follows hj hp hf
  rw [← he, hs.owned s' hs'] at howner
  exact Option.some.inj howner

/-- What is saved can be read again. -/
theorem Sound.timely_of_follows {h : Hall} (hs : h.Sound) {k : Nat} {j : Job} {lock : String}
    {hand : Hand} {s : Session} (hj : h.jobs k = some j) (hp : j.phase = .holding lock hand)
    (hf : Follows j.call hand s) : s.Timely :=
  let hhand := (hs.fits hj).hand hp
  hf.timely hhand.timely hhand.active

/-- What a task asks for leaves the store sound, and every session with its owner. -/
theorem Sound.storeAfter {h : Hall} (hs : h.Sound) {k : Nat} {j : Job} {op : Op}
    (hj : h.jobs k = some j) (hp : j.call.Permits j.phase op) :
    (storeAfter h.store op).Sound ∧ Owned h.owner (storeAfter h.store op) := by
  cases op with
  | save s =>
      obtain ⟨lock, hand, hph, hf⟩ := hp
      have ht := hs.timely_of_follows hj hph hf
      have howner := hs.contact_of_follows hj hph hf
      refine ⟨hs.store.save ht fun s' => hs.contact_of_holds hj hph hf, fun s' hs' => ?_⟩
      rcases (Store.holds_save ht).mp hs' with ⟨-, rfl⟩ | ⟨-, hs'⟩
      · exact howner
      · exact hs.owned s' hs'
  | delete id =>
      exact ⟨hs.store.delete id, fun s' hs' => hs.owned s' (Store.contains_delete.mp hs').2⟩
  | acquire | release | now | newId | load | latest | resolve | version | turn | ticket =>
      exact ⟨hs.store, hs.owned⟩

/-- **Every step keeps a hall sound.** -/
theorem Sound.step {h h' : Hall} (hs : h.Sound) (hstep : Step setting reg h h') : h'.Sound := by
  cases hstep with
  | begins k call hk =>
      refine ⟨hs.store, hs.owned, hs.locks, fun {k' j} hj => ?_, fun {k' j} hj => ?_,
        fun {k' j lock} hj hl => ?_⟩ <;> rcases jobs_update hj with ⟨-, rfl⟩ | ⟨-, hj⟩
      · exact program_obeys setting call
      · exact hs.obeys hj
      · exact Call.fits_first call
      · exact hs.fits hj
      · cases call <;> cases hl
      · exact hs.inside hj hl
  | comes hj hr hv =>
      exact ⟨hs.store, hs.owned, hs.locks.enter hv _, hs.obeys, hs.fits,
        fun hj' hl => Locks.isInside_enter (hs.inside hj' hl)⟩
  | @asks k j op next hj hr r ht ha =>
      -- the reply changes the task that asked; the others only see the store and the owners grow
      obtain ⟨hp, hobeys⟩ := hs.permits hj hr
      have hle (id contact : String) (ho : h.owner id = some contact) :=
        owner_ownerAfter ha j.call ho
      have hphase := j.phase_told op r (next r)
      obtain ⟨hstore, howned⟩ := hs.storeAfter hj hp
      refine ⟨hstore, fun s hs' => hle _ _ (howned s hs'), sound_locksAfter hs.locks k op r,
        fun {k' j'} hj' => ?_, fun {k' j'} hj' => ?_, fun {k' j' lock} hj' hl => ?_⟩ <;>
        rcases jobs_update hj' with ⟨rfl, rfl⟩ | ⟨hne, hj'⟩
      · rw [hphase]
        exact hobeys r
      · exact hs.obeys hj'
      · rw [hphase]
        exact ((hs.fits hj).mono hle).after hp ht hs.store fun s hs' => hle _ _ (hs.owned s hs')
      · exact (hs.fits hj').mono hle
      · rw [hphase] at hl
        exact isInside_after hp (fun lock => hs.inside hj) ha hl
      · exact isInside_locksAfter hne (hs.inside hj' hl) op r

/-- A sound hall stays sound in every run. -/
theorem Sound.reaches {h h' : Hall} (hs : h.Sound) (hr : Reaches setting reg h h') : h'.Sound := by
  induction hr with
  | refl => exact hs
  | tail _ hstep ih => exact ih.step hstep

/-! ### What later halls keep -/

/-- The tasks of a hall are those of a later one too, and what is known of ids and of the clock
stays. -/
structure Before (h h' : Hall) : Prop where
  jobs {k : Nat} {j : Job} (hj : h.jobs k = some j) : ∃ j', h'.jobs k = some j' ∧ j'.call = j.call
  owner {id contact : String} (ho : h.owner id = some contact) : h'.owner id = some contact
  readings : h.readings <:+ h'.readings

/-- No step takes back what has happened in a hall. -/
theorem Step.before {h h' : Hall} (hstep : Step setting reg h h') : h.Before h' := by
  cases hstep with
  | begins k call hk =>
      refine ⟨fun {k' j} hj => ⟨j, ?_, rfl⟩, fun ho => ho, List.suffix_refl _⟩
      refine (Function.update_of_ne (fun he => ?_) _ _).trans hj
      rw [he, hk] at hj
      cases hj
  | comes => exact ⟨fun hj => ⟨_, hj, rfl⟩, fun ho => ho, List.suffix_refl _⟩
  | @asks k j op next hj hr r ht ha =>
      refine ⟨fun {k' j'} hj' => ?_, owner_ownerAfter ha j.call, ?_⟩
      · by_cases hk : k' = k
        · subst hk
          obtain rfl := Option.some.inj (hj.symm.trans hj')
          exact ⟨_, Function.update_self _ _ _, rfl⟩
        · exact ⟨j', (Function.update_of_ne hk _ _).trans hj', rfl⟩
      · cases op with
        | now => exact List.suffix_cons r h.readings
        | _ => exact List.suffix_refl _

/-! ### Who has what in hand -/

/-- The task handles a message that names the session of another contact. -/
def Trespasses (h : Hall) (call : Call) : Prop :=
  ∃ contact text flowId id other, call = .message contact text flowId id ∧ id ≠ "" ∧
    h.owner id = some other ∧ other ≠ contact.id

/-- A task that does not trespass has what it has in hand inside the lock of the contact that owns
it. -/
theorem Sound.owner_of_holding {h : Hall} (hs : h.Sound) {k : Nat} {j : Job} {lock : String}
    {hand : Hand} (hj : h.jobs k = some j) (hp : j.phase = .holding lock hand)
    (ht : ¬ h.Trespasses j.call) :
    hand.session.contact.id = lock ∧ h.owner hand.session.id = some lock := by
  have hfits := hs.fits hj
  have howner := (hfits.hand hp).owner
  suffices hc : hand.session.contact.id = lock from ⟨hc, hc ▸ howner⟩
  rcases hfits.own hp with hc | ⟨hid, contact, text, flowId, hcall⟩
  · exact hc
  · have hserves := hfits.lock (.inr (Phase.lock?_holding hp))
    rw [hcall] at hserves
    have hlock : contact.id = lock := hserves
    by_contra hne
    exact ht ⟨contact, text, flowId, _, _, hcall, hid, howner, fun he => hne (he.trans hlock)⟩

/-- What a task that does not trespass finds by the id of a session is of the contact whose lock it
is inside. -/
theorem Sound.contact_of_load {h : Hall} (hs : h.Sound) {k : Nat} {j : Job} {lock id : String}
    {s : Session} (hj : h.jobs k = some j) (hph : j.phase = .inside lock)
    (hp : j.call.Permits j.phase (.load id)) (ht : ¬ h.Trespasses j.call) (hfound : h.store.Holds s)
    (hid : s.id = id) : s.contact.id = lock := by
  have howner := hs.owned s hfound
  have hserves := (hs.fits hj).lock (.inr (hph ▸ rfl) : _ ∨ j.phase.lock? = some lock)
  rw [hid] at howner
  rcases hp with ⟨he, -⟩ | ⟨-, -, hcall | ⟨contact, text, flowId, hcall, hne⟩⟩
  · rw [hph] at he
    cases he
  · rw [hcall] at hserves
    exact Option.some.inj (howner.symm.trans hserves)
  · by_contra hother
    rw [hcall] at hserves
    obtain rfl : contact.id = lock := hserves
    exact ht ⟨contact, text, flowId, id, _, hcall, hne, howner, hother⟩

/-- **Two tasks that have the same session in hand** are one, unless one of them trespasses. -/
theorem Sound.eq_of_handles {h : Hall} (hs : h.Sound) {k k' : Nat} {j j' : Job} {id : String}
    (hj : h.jobs k = some j) (hj' : h.jobs k' = some j') (hid : j.Handles id) (hid' : j'.Handles id)
    (ht : ¬ h.Trespasses j.call) (ht' : ¬ h.Trespasses j'.call) : k = k' := by
  obtain ⟨lock, hand, hp, rfl⟩ := hid
  obtain ⟨lock', hand', hp', he⟩ := hid'
  have howner := (hs.owner_of_holding hj hp ht).2
  rw [← he, (hs.owner_of_holding hj' hp' ht').2] at howner
  obtain rfl : lock' = lock := Option.some.inj howner
  exact hs.locks.eq_of_isInside (hs.inside hj (Phase.lock?_holding hp))
    (hs.inside hj' (Phase.lock?_holding hp'))

/-! ### Turns -/

/-- One task has come to another point, and nothing else has changed. -/
structure Moved (h h' : Hall) (k : Nat) (call : Call) (rest : InboxProgram Unit) : Prop where
  store : h'.store = h.store
  locks : h'.locks = h.locks
  owner : h'.owner = h.owner
  readings : h'.readings = h.readings
  job : ∃ log, h'.jobs k = some ⟨call, log, rest⟩
  others {k' : Nat} (hk : k' ≠ k) : h'.jobs k' = h.jobs k'

/-- One step of a hall in which nobody but the task goes on. -/
inductive StepOf (reg : Registry) (k : Nat) (h : Hall) : Hall → Prop where
  | comes {j : Job} {lock : String} {next : Bool → InboxProgram Unit} (hj : h.jobs k = some j)
      (hr : j.rest = .request (.acquire lock) next) (hv : ∀ v ∈ h.locks.visits, v.task ≠ k) :
      StepOf reg k h (h.come k lock)
  | asks {j : Job} {op : Op} {next : op.Reply → InboxProgram Unit} (hj : h.jobs k = some j)
      (hr : j.rest = .request op next) (r : op.Reply) (ht : Tells reg h.store op r)
      (ha : h.Admits k op r) : StepOf reg k h (h.answer k j op r (next r))

theorem StepOf.step {h h' : Hall} {k : Nat} (hstep : StepOf reg k h h') :
    Step setting reg h h' := by
  cases hstep with
  | comes hj hr hv => exact .comes hj hr hv
  | asks hj hr r ht ha => exact .asks hj hr r ht ha

/-- Some steps of the task, with nobody else at work. -/
abbrev Solo (reg : Registry) (k : Nat) : Hall → Hall → Prop := Relation.ReflTransGen (StepOf reg k)

/-- A run of one task is a run. -/
theorem reaches_of_solo {h h' : Hall} {k : Nat} (hr : Solo reg k h h') :
    Reaches setting reg h h' := by
  induction hr with
  | refl => exact .refl
  | tail _ hstep ih => exact ih.tail hstep.step

/-- **A turn of a task** comes to any end that the turn may have. -/
theorem solo_of_ends {p : Turn.TurnProgram Turn.Ending} {e : Turn.Ending} (he : p.Ends e) {h : Hall}
    {k : Nat} {j : Job} {f : Turn.Ending → InboxProgram Unit} (hj : h.jobs k = some j)
    (hr : j.rest = (p.interpret fun op => Program.ask (Op.turn op)).bind f) :
    ∃ h', Solo reg k h h' ∧ h.Moved h' k j.call (f e) := by
  -- the requests of a turn touch neither store nor locks
  induction he generalizing h j with
  | done e =>
      have hrest : j.rest = f e := hr
      exact ⟨h, .refl, rfl, rfl, rfl, rfl, ⟨j.log, by rw [hj, ← hrest]⟩, fun _ => rfl⟩
  | @request op next e r _ ih =>
      obtain ⟨h', hsolo, hm⟩ := ih (h := h.answer k j (.turn op) r _)
        (Function.update_self _ _ _) rfl
      have hstep : StepOf reg k h (h.answer k j (.turn op) r _) :=
        @StepOf.asks reg k h j (.turn op) _ hj hr r trivial trivial
      refine ⟨h', .head hstep hsolo, hm.store, hm.locks, hm.owner, hm.readings, hm.job,
        fun hk => ?_⟩
      exact (hm.others hk).trans (Function.update_of_ne hk _ _)

/-- A task may go through a turn to any of its ends. -/
theorem reaches_of_ends {p : Turn.TurnProgram Turn.Ending} {e : Turn.Ending} (he : p.Ends e)
    {h : Hall} {k : Nat} {j : Job} {f : Turn.Ending → InboxProgram Unit} (hj : h.jobs k = some j)
    (hr : j.rest = (p.interpret fun op => Program.ask (Op.turn op)).bind f) :
    ∃ h', Reaches setting reg h h' ∧ h.Moved h' k j.call (f e) := by
  obtain ⟨h', hsolo, hm⟩ := solo_of_ends he hj hr
  exact ⟨h', reaches_of_solo hsolo, hm⟩

/-- So many seconds after noon on the first of January 2024. -/
def noon (seconds : Nat) : Moment := ⟨⟨2024, 1, 1⟩, (43200 + seconds) * second, some 0⟩

theorem utc_noon {seconds : Nat} (h : seconds < 43200) : (noon seconds).Utc :=
  ⟨rfl, show Date.isReal ⟨2024, 1, 1⟩ = true by decide, by simp only [noon, second, day]; omega⟩

end Hall

end Parley.Inbox
