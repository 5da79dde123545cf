import Parley.Proofs.Inbox.Ledger
import Parley.Proofs.Inbox.Queue

/-!
# The books of one contact

What a hall does for one contact, whatever else it does.  `Books` says how the contact's sessions
stand: they are those of a store that nobody has touched since the last message of the contact was
done with, but for the task that is inside the contact's lock, and what that task has done so far it
could have done by itself on that store (`Underway`).

Tasks that handle messages of other contacts change nothing of this (`sameFor_storeAfter`), so every
step of the hall keeps the books (`Books.begins`, `Books.comes`, `Books.stays`) until the task
inside the lock leaves it.
-/

namespace Parley.Inbox

open Calendar

/-- A message of a contact that names no session. -/
structure Message where
  contact : Contact
  text : Option String
  flowId : String := ""

/-- The task that handles the message. -/
def Message.call (m : Message) : Call := .message m.contact m.text m.flowId ""

variable {setting : Setting} {reg : Registry} {contact : String} {σ σ' : Store} {ss : List Session}
  {op : Op} {j : Job} {m : Message}

namespace Hall

/-- Messages are handled that name no session. -/
def Letters (h : Hall) : Prop := ∀ k j, h.jobs k = some j → ∃ m : Message, j.call = m.call

theorem Letters.before {h h' : Hall} (hl : h'.Letters) (hb : h.Before h') : h.Letters := by
  intro k j hj
  obtain ⟨j', hj', hcall⟩ := hb.jobs hj
  rw [← hcall]
  exact hl k j' hj'

theorem not_trespasses {h : Hall} (m : Message) : ¬ h.Trespasses m.call := by
  rintro ⟨contact, text, flowId, id, other, hcall, hid, -⟩
  cases hcall
  exact hid rfl

/-- A task that handles a message goes to the lock once. -/
theorem after_ne_bound {ph : Phase} (hp : m.call.Permits ph op) (r : op.Reply) (lock : String) :
    m.call.after ph op r ≠ .bound lock := by
  intro he
  -- no reply leads back to where the lock is not held yet
  cases op with
  | acquire => cases r <;> cases he
  | release | delete => cases he
  | load id =>
      rcases hp with ⟨-, hcall⟩ | ⟨lock', rfl, -⟩
      · cases hcall
      · match r with
        | .error _ | .ok none | .ok (some s) => cases he
  | latest contact flowId =>
      obtain ⟨rfl, -⟩ := hp
      match r with
      | .error _ | .ok none => cases he
      | .ok (some s) =>
          dsimp only [Call.after, Call.afterLatest] at he
          split at he <;> cases he
  | resolve text flowId =>
      obtain ⟨lock', sender, said, rfl, -⟩ := hp
      cases r <;> cases he
  | newId =>
      obtain ⟨lock', flow, rfl⟩ := hp
      cases he
  | now => rcases hp with ⟨lock', flow, id, rfl⟩ | ⟨lock', hand, rfl⟩ <;> cases he
  | save s =>
      obtain ⟨lock', hand, rfl, -⟩ := hp
      cases he
  | version | turn | ticket =>
      obtain ⟨lock', hand, rfl⟩ := hp
      cases he

/-- What the task that is inside the contact's lock has done, it could have done by itself. -/
structure Underway (setting : Setting) (reg : Registry) (contact : String) (h : Hall) (σ : Store)
    (ss : List Session) (j : Job) (σ' : Store) : Prop where
  makes : Makes reg σ (j.call.program setting) j.log σ' j.rest
  sound : σ'.Sound
  owned : Owned h.owner σ'
  same : σ'.SameFor contact h.store
  fresh : NewIds ss j.log

/-- How the contact's sessions stand. -/
structure Books (setting : Setting) (reg : Registry) (contact : String) (h : Hall) (σ : Store)
    (ss : List Session) : Prop where
  sound : σ.Sound
  owned : Owned h.owner σ
  lists : σ.Lists contact ss
  bound {k : Nat} {j : Job} (hj : h.jobs k = some j) (hp : j.phase = .bound contact) :
    j.log = [] ∧ j.rest = j.call.program setting
  inside {k : Nat} {j : Job} (hj : h.jobs k = some j) (hp : j.phase.lock? = some contact) :
    ∃ σ', Underway setting reg contact h σ ss j σ'
  outside (hn : ∀ k j, h.jobs k = some j → j.phase.lock? ≠ some contact) : σ.SameFor contact h.store

theorem books_empty (setting : Setting) (reg : Registry) (contact : String) :
    Books setting reg contact {} {} [] where
  sound := Store.sound_empty
  owned _ hs := nomatch hs.row
  lists := Store.lists_empty contact
  bound hj := nomatch hj
  inside hj := nomatch hj
  outside _ := .refl _ _

variable {h h' : Hall} {k : Nat}

/-- It could have done so by itself whatever else has changed in the hall. -/
theorem Underway.moves (hu : Underway setting reg contact h σ ss j σ')
    (ho : ∀ id contact, h.owner id = some contact → h'.owner id = some contact)
    (hsame : σ'.SameFor contact h'.store) : Underway setting reg contact h' σ ss j σ' :=
  ⟨hu.makes, hu.sound, fun s hs => ho _ _ (hu.owned s hs), hsame, hu.fresh⟩

/-- A task begins. -/
theorem Books.begins (hb : Books setting reg contact h σ ss) (hk : h.jobs k = none)
    (call : Call) : Books setting reg contact (h.start setting k call) σ ss where
  sound := hb.sound
  owned := hb.owned
  lists := hb.lists
  bound {k' j} hj hp := by
    rcases jobs_update hj with ⟨-, rfl⟩ | ⟨-, hj⟩
    · exact ⟨rfl, rfl⟩
    · exact hb.bound hj hp
  inside {k' j} hj hp := by
    rcases jobs_update hj with ⟨-, rfl⟩ | ⟨-, hj⟩
    · cases call <;> cases hp
    · obtain ⟨σ', hu⟩ := hb.inside hj hp
      exact ⟨σ', hu.moves (fun _ _ ho => ho) hu.same⟩
  outside hn := hb.outside fun k' j hj => hn k' j ((Function.update_of_ne (fun he => by
    rw [he, hk] at hj
    cases hj) _ _).trans hj)

/-- A task comes to a lock. -/
theorem Books.comes (hb : Books setting reg contact h σ ss) (k : Nat) (lock : String) :
    Books setting reg contact (h.come k lock) σ ss where
  sound := hb.sound
  owned := hb.owned
  lists := hb.lists
  bound hj hp := hb.bound hj hp
  inside hj hp := by
    obtain ⟨σ', hu⟩ := hb.inside hj hp
    exact ⟨σ', hu.moves (fun _ _ ho => ho) hu.same⟩
  outside hn := hb.outside hn

/-- **A task that is not inside the contact's lock** changes nothing of the contact's sessions. -/
theorem sameFor_storeAfter (hs : h.Sound) (hj : h.jobs k = some j) (hm : j.call = m.call)
    (hp : j.call.Permits j.phase op) (hout : j.phase.lock? ≠ some contact)
    (hsame : σ.SameFor contact h.store) : σ.SameFor contact (Inbox.storeAfter h.store op) := by
  cases op with
  | save s =>
      obtain ⟨lock, hand, hph, hf⟩ := hp
      have hto : ¬ h.Trespasses j.call := hm ▸ not_trespasses m
      obtain ⟨hlock, howner⟩ := hs.owner_of_holding hj hph hto
      have hne : lock ≠ contact := fun he => hout (by rw [hph, ← he]; rfl)
      refine hsame.save_other (fun he => hne ?_) fun hid => hne ?_
      · rw [← hlock, ← hf.contact, he]
      · obtain ⟨s', hs', he, hc⟩ := hs.store.owned contact s.id hid
        have howner' := hs.owned s' hs'
        rw [he, hf.id, howner, hc] at howner'
        exact Option.some.inj howner'
  | delete id =>
      obtain ⟨-, hcall⟩ := hp
      rw [hm] at hcall
      cases hcall
  | _ => exact hsame

/-- What the task inside the lock is told of the hall, it would be told by itself. -/
theorem tells_of_sameFor (hj : j.call = m.call) (hp : j.call.Permits j.phase op)
    (hin : j.phase.lock? = some contact) (hsame : σ.SameFor contact h.store) {r : op.Reply}
    (ht : Tells reg h.store op r) : Tells reg σ op r := by
  cases op with
  | load id =>
      rcases hp with ⟨-, hcall⟩ | ⟨lock, -, hcall | ⟨_, _, _, hcall, hid⟩⟩ <;> rw [hj] at hcall <;>
        cases hcall
      exact absurd rfl hid
  | latest other flowId =>
      obtain ⟨now, newId, rfl⟩ := ht
      obtain ⟨hph, -⟩ := hp
      rw [hph] at hin
      obtain rfl : other = contact := Option.some.inj hin
      exact ⟨now, newId, (hsame.latest_eq now newId flowId).symm⟩
  | delete id =>
      obtain ⟨-, hcall⟩ := hp
      rw [hj] at hcall
      cases hcall
  | _ => exact ht

/-- An id that the task is given is nobody's, so it is none of the contact's. -/
theorem newIds_told (hfresh : NewIds ss j.log) (howned : Owned h.owner σ)
    (hlists : σ.Lists contact ss) {r : op.Reply} (ha : h.Admits k op r) (p : InboxProgram Unit) :
    NewIds ss (j.told op r p).log := by
  intro id hid s hmem
  rcases List.mem_append.mp hid with hid | hid
  · exact hfresh id hid s hmem
  · cases List.mem_singleton.mp hid
    intro he
    have hnew : h.owner id = none := ha
    rw [← he, howned s ((hlists.mem s).mp hmem).1] at hnew
    cases hnew

/-- **The task inside the lock goes on**, and could have gone on by itself. -/
theorem Underway.told (hu : Underway setting reg contact h σ ss j σ') (hs : h.Sound)
    (hj : h.jobs k = some j) (hm : j.call = m.call) (howned : Owned h.owner σ)
    (hlists : σ.Lists contact ss) {next : op.Reply → InboxProgram Unit}
    (hr : j.rest = .request op next) (hin : j.phase.lock? = some contact) {r : op.Reply}
    (ht : Tells reg h.store op r) (ha : h.Admits k op r) :
    Underway setting reg contact (h.answer k j op r (next r)) σ ss
      (j.told op r (next r)) (Inbox.storeAfter σ' op) := by
  have hp := (hs.permits hj hr).1
  have hle (id contact : String) (ho : h.owner id = some contact) := owner_ownerAfter ha j.call ho
  have hmakes := hu.makes
  rw [hr] at hmakes
  have hmakes := hmakes.concat r (tells_of_sameFor hm hp hin hu.same ht)
  have hfresh := newIds_told hu.fresh howned hlists ha (next r)
  -- of all requests of a message a save alone changes a store
  cases op with
  | save s =>
      obtain ⟨lock, hand, hph, hf⟩ := hp
      have htimely := hs.timely_of_follows hj hph hf
      have howner := hs.contact_of_follows hj hph hf
      have hto : ¬ h.Trespasses j.call := hm ▸ not_trespasses m
      have hc : s.contact.id = contact := by
        rw [hph] at hin
        rw [hf.contact, (hs.owner_of_holding hj hph hto).1]
        exact Option.some.inj hin
      have hkeeps (s' : Session) (hs' : σ'.Holds s') (he : s'.id = s.id) :
          s'.contact.id = s.contact.id := by
        have howner' := hu.owned s' hs'
        rw [he, howner] at howner'
        exact (Option.some.inj howner').symm
      refine ⟨hmakes, hu.sound.save htimely hkeeps, fun s' hs' => ?_, hu.same.save hc, hfresh⟩
      rcases (Store.holds_save htimely).mp hs' with ⟨-, rfl⟩ | ⟨-, hs'⟩
      · exact howner
      · exact hu.owned s' hs'
  | delete id =>
      obtain ⟨-, hcall⟩ := hp
      rw [hm] at hcall
      cases hcall
  | _ => exact ⟨hmakes, hu.sound, fun s' hs' => hle _ _ (hu.owned s' hs'), hu.same, hfresh⟩

/-- The task that is let in begins on the contact's sessions as they are. -/
theorem Books.enters (hb : Books setting reg contact h σ ss) (hs : h.Sound) (hj : h.jobs k = some j)
    {next : Bool → InboxProgram Unit} (hr : j.rest = .request (.acquire contact) next)
    (hin : h.locks.isInside k contact = true) :
    Underway setting reg contact (h.answer k j (.acquire contact) true (next true)) σ ss
      (j.told (.acquire contact) true (next true)) σ := by
  have hph : j.phase = .bound contact := (hs.permits hj hr).1
  obtain ⟨hlog, hrest⟩ := hb.bound hj hph
  have hout (k' : Nat) (j' : Job) (hj' : h.jobs k' = some j') : j'.phase.lock? ≠ some contact := by
    intro hlock
    -- whoever is inside is the task itself, which is only coming
    obtain rfl := hs.locks.eq_of_isInside (hs.inside hj' hlock) hin
    obtain rfl := Option.some.inj (hj.symm.trans hj')
    rw [hph] at hlock
    cases hlock
  have hmakes : Makes reg σ (j.call.program setting) j.log σ
      (.request (.acquire contact) next) := by
    rw [hlog, ← hr, hrest]
    exact .here _ _
  refine ⟨hmakes.concat true trivial, hb.sound, hb.owned, hb.outside hout, fun id hid => ?_⟩
  have hid : (⟨.newId, id⟩ : Exchange) = ⟨.acquire contact, true⟩ := by
    simpa [Job.told, hlog] using hid
  cases hid

/-- A task that goes on does not come to a lock once more. -/
theorem told_ne_bound (hm : j.call = m.call) (hp : j.call.Permits j.phase op) (r : op.Reply)
    (p : InboxProgram Unit) (lock : String) : (j.told op r p).phase ≠ .bound lock := by
  rw [j.phase_told, hm]
  exact after_ne_bound (hm ▸ hp) r lock

/-- A task stays inside the lock that it does not leave. -/
theorem lock?_told (hm : j.call = m.call) (hp : j.call.Permits j.phase op)
    (hin : j.phase.lock? = some contact) {r : op.Reply} (hstays : op.Stays r)
    (p : InboxProgram Unit) :
    (j.told op r p).phase.lock? = some contact := by
  have hvisits : (j.told op r p).phase.Visits contact := by
    rw [j.phase_told]
    exact Phase.Visits.after (.inr hin) hp hstays
  exact Or.resolve_left hvisits (told_ne_bound hm hp r p contact)

/-- **A task goes on**, and none leaves the contact's lock. -/
theorem Books.stays (hb : Books setting reg contact h σ ss) (hs : h.Sound) (hj : h.jobs k = some j)
    (hm : j.call = m.call) {next : op.Reply → InboxProgram Unit} (hr : j.rest = .request op next)
    {r : op.Reply} (ht : Tells reg h.store op r) (ha : h.Admits k op r)
    (hstays : j.phase.lock? = some contact → op.Stays r) :
    Books setting reg contact (h.answer k j op r (next r)) σ ss := by
  have hp := (hs.permits hj hr).1
  have hle (id contact : String) (ho : h.owner id = some contact) := owner_ownerAfter ha j.call ho
  have hphase := j.phase_told op r (next r)
  refine ⟨hb.sound, fun s hs' => hle _ _ (hb.owned s hs'), hb.lists, fun {k' j'} hj' hph => ?_,
    fun {k' j'} hj' hlock => ?_, fun hn => ?_⟩
  · rcases jobs_update hj' with ⟨-, rfl⟩ | ⟨-, hj'⟩
    · exact absurd hph (told_ne_bound hm hp r (next r) contact)
    · exact hb.bound hj' hph
  · rcases jobs_update hj' with ⟨rfl, rfl⟩ | ⟨hne, hj'⟩
    -- the task comes in with this reply, or it was inside before
    · by_cases hop : ∃ lock, op = .acquire lock
      · obtain ⟨lock, rfl⟩ := hop
        rw [hphase] at hlock
        cases r with
        | false => cases hlock
        | true =>
            obtain rfl : lock = contact := Option.some.inj hlock
            exact ⟨σ, hb.enters hs hj hr ha⟩
      · rw [hphase] at hlock
        have hin := (Call.lock?_after hp (fun lock he => hop ⟨lock, he⟩) hlock).1
        obtain ⟨σ', hu⟩ := hb.inside hj hin
        exact ⟨_, hu.told hs hj hm hb.owned hb.lists hr hin ht ha⟩
    · have hout : j.phase.lock? ≠ some contact := fun hin =>
        hne (hs.locks.eq_of_isInside (hs.inside hj' hlock) (hs.inside hj hin))
      obtain ⟨σ', hu⟩ := hb.inside hj' hlock
      exact ⟨σ', hu.moves hle (sameFor_storeAfter hs hj hm hp hout hu.same)⟩
  · have hout : j.phase.lock? ≠ some contact := fun hin =>
      hn k _ (Function.update_self _ _ _) (lock?_told hm hp hin (hstays hin) (next r))
    refine sameFor_storeAfter hs hj hm hp hout (hb.outside fun k' j' hj' hlock => ?_)
    by_cases hk : k' = k
    · subst hk
      obtain rfl := Option.some.inj (hj.symm.trans hj')
      exact hout hlock
    · exact hn k' j' ((Function.update_of_ne hk _ _).trans hj') hlock

/-- **The task inside the contact's lock leaves it**, and what it has done it could have done by
itself. -/
theorem Books.leaves (hb : Books setting reg contact h σ ss) (hs : h.Sound)
    (hj : h.jobs k = some j) (hm : j.call = m.call) {next : Unit → InboxProgram Unit}
    (hr : j.rest = .request (.release contact) next) :
    ∃ σ' o, Makes reg σ (handle setting m.contact m.text m.flowId "")
        (j.log ++ [⟨.release contact, ()⟩]) σ' (.done o) ∧
      σ'.Sound ∧ σ'.SameFor contact h.store ∧ NewIds ss (j.log ++ [⟨.release contact, ()⟩]) := by
  obtain ⟨hp, hobeys⟩ := hs.permits hj hr
  obtain ⟨σ', hu⟩ := hb.inside hj hp
  have hu := hu.told hs hj hm hb.owned hb.lists hr hp (r := ()) trivial trivial
  -- nothing is left to do
  have hdone : next () = .done () := by
    have hrest := hobeys ()
    generalize next () = p at hrest
    cases p with
    | done => rfl
    | request op next => exact absurd hrest.1 Call.not_permits_over
  have hmakes := hu.makes
  change Makes reg σ (j.call.program setting) _ σ' (next ()) at hmakes
  rw [hdone, hm] at hmakes
  obtain ⟨o, hmakes⟩ := Makes.of_forgetting hmakes
  exact ⟨σ', o, hmakes, hu.sound, hu.same, hu.fresh⟩

/-- After that the contact's sessions stand as they are left. -/
theorem Books.renew (hb : Books setting reg contact h σ ss) (hs : h.Sound) (hj : h.jobs k = some j)
    {next : Unit → InboxProgram Unit} (hr : j.rest = .request (.release contact) next)
    {ss' : List Session} (hlists : h.store.Lists contact ss') :
    Books setting reg contact (h.answer k j (.release contact) () (next ())) h.store ss' := by
  have hp : j.phase.lock? = some contact := (hs.permits hj hr).1
  have hover := j.phase_told (.release contact) () (next ())
  refine ⟨hs.store, hs.owned, hlists, fun {k' j'} hj' hph => ?_, fun {k' j'} hj' hlock => ?_,
    fun _ => .refl _ _⟩ <;> rcases jobs_update hj' with ⟨-, rfl⟩ | ⟨hne, hj'⟩
  · rw [hover] at hph
    cases hph
  · exact hb.bound hj' hph
  · rw [hover] at hlock
    cases hlock
  · exact absurd (hs.locks.eq_of_isInside (hs.inside hj' hlock) (hs.inside hj hp)) hne

end Hall
end Parley.Inbox
