import Parley.Proofs.Inbox.Hall

/-!
# One open session

From an empty store, with a clock that goes on and messages that name no session, a contact has at
most one open session among those that its own looks see (`one_open_session`): at most one at all
when none of its messages names a flow, and at most one on each flow when every message names one.

The invariant (`Hall.Live`) is that an open session is more recent than all the others that the look
sees, which are finished; so it is the one that a look finds.  While a task is inside the lock of
the contact with a session in hand, the others are finished, too (`Hand.Leads`), and while it is
about to begin one, all of them are (`Call.Watches`).
-/

namespace Parley

open Calendar

/-- The registry was made by publishing flows and taking some back. -/
inductive Registry.Published : Registry → Prop where
  | empty : Published {}
  | add {r r' : Registry} {f : Flow} (h : Published r) (hr : r.add f = .ok r') : Published r'
  | remove {r : Registry} (h : Published r) (id : String) : Published (r.remove id)

/-- A flow is published under its own id. -/
theorem Registry.Published.id_of_get? {r : Registry} (h : r.Published) {id : String} {f : Flow}
    (hf : r.get? id = some f) : f.id = id := by
  induction h with
  | empty => cases hf
  | @add r r' g _ hr ih =>
      unfold Registry.add at hr
      split at hr
      · cases hr
        unfold Registry.get? at hf
        rw [Entries.get?_put] at hf
        split at hf
        · next hid =>
          cases hf
          exact hid
        · exact ih hf
      · cases hr
  | remove _ other ih =>
      unfold Registry.remove Registry.get? at hf
      rw [Entries.get?_remove] at hf
      split at hf
      · cases hf
      · exact ih hf

namespace Inbox

variable {setting : Setting} {reg : Registry} {contact look : String} {st st' : Store}
  {readings : List Moment} {call : Call} {ph : Phase}

/-- The flow that a message names. -/
def Call.flowId : Call → String
  | .message _ _ flowId _ => flowId
  | .release _ | .finish _ => ""

/-- The flow that a session is about to be begun on. -/
def Phase.flow? : Phase → Option Flow
  | .chosen _ flow | .named _ flow _ => some flow
  | _ => none

/-- The task neither is about to begin a session nor has one in hand. -/
def Phase.isIdle : Phase → Bool
  | .outside | .bound _ | .inside _ | .leaving _ | .over => true
  | .vacant _ | .chosen .. | .named .. | .holding .. => false

/-- The session in hand is the one that counts: while it is open, the others that the look sees are
finished, and less recent than the moment that was read last. -/
structure Hand.Leads (contact look : String) (st : Store) (readings : List Moment) (hand : Hand) :
    Prop where
  others {s : Session} (ho : hand.session.isFinished = false) (hs : st.Offers contact look s)
    (hne : s.id ≠ hand.session.id) :
    s.isFinished = true ∧ ∀ now ∈ hand.active, s.lastActivityAt.reading < now.reading
  last : hand.session.lastActivityAt ∈ readings
  active : ∀ now ∈ hand.active, now ∈ readings

/-- What is so while a task is inside the lock of the contact. -/
structure Call.Watches (contact look : String) (st : Store) (readings : List Moment) (call : Call)
    (ph : Phase) : Prop where
  vacant {s : Session} (h : ph.opening? = some contact) (hl : call.flowId = look)
    (hs : st.Offers contact look s) : s.isFinished = true
  flow {flow : Flow} (h : ph.opening? = some contact) (hf : ph.flow? = some flow)
    (hl : call.flowId ≠ "") : flow.id = call.flowId
  unfinished {hand : Hand} (h : ph = .holding contact hand) (hc : ∀ id, call ≠ .release id) :
    hand.session.isFinished = false
  hand {hand : Hand} (h : ph = .holding contact hand) (hs : hand.session.IsSeen look) :
    hand.Leads contact look st readings

theorem Call.watches_opening (lock : String) (hop : ph.opening? = some lock)
    (hv : lock = contact → call.flowId = look → ∀ s, st.Offers contact look s → s.isFinished = true)
    (hf : lock = contact → ∀ flow, ph.flow? = some flow → call.flowId ≠ "" →
      flow.id = call.flowId) :
    call.Watches contact look st readings ph where
  vacant h hl hs := hv (Option.some.inj (hop.symm.trans h)) hl _ hs
  flow h hflow hl := hf (Option.some.inj (hop.symm.trans h)) _ hflow hl
  unfinished h := by
    rw [h] at hop
    cases hop
  hand h := by
    rw [h] at hop
    cases hop

theorem Call.watches_holding {lock : String} {hand : Hand}
    (hu : lock = contact → (∀ id, call ≠ .release id) → hand.session.isFinished = false)
    (hl : lock = contact → hand.session.IsSeen look → hand.Leads contact look st readings) :
    call.Watches contact look st readings (.holding lock hand) where
  vacant h := by cases h
  flow h := by cases h
  unfinished h := by
    cases h
    exact hu rfl
  hand h := by
    cases h
    exact hl rfl

/-- Nothing needs to be so for a task that neither begins a session nor has one in hand, or that is
inside another lock. -/
theorem Call.watches_idle (h : ph.isIdle = true ∨ ph.lock? ≠ some contact) :
    call.Watches contact look st readings ph := by
  have hop : ph.opening? ≠ some contact := fun ho => by
    cases ph <;> simp_all [Phase.isIdle, Phase.lock?, Phase.opening?]
  have hh (hand : Hand) : ph ≠ .holding contact hand := fun he => by
    subst he
    simp [Phase.isIdle, Phase.lock?] at h
  exact ⟨fun h => absurd h hop, fun h => absurd h hop, fun h => absurd h (hh _),
    fun h => absurd h (hh _)⟩

theorem Call.Watches.mono {readings' : List Moment} (h : call.Watches contact look st readings ph)
    (hst : ∀ s, st'.Offers contact look s → st.Offers contact look s) (hr : readings ⊆ readings') :
    call.Watches contact look st' readings' ph where
  vacant ho hl hs := h.vacant ho hl (hst _ hs)
  flow := h.flow
  unfinished := h.unfinished
  hand hp hs :=
    let hl := h.hand hp hs
    ⟨fun ho hs' hne => hl.others ho (hst _ hs') hne, hr hl.last,
      fun now hn => hr (hl.active now hn)⟩

namespace Hall

/-- An open session is the last that the look sees, and the others are finished. -/
structure Live (contact look : String) (h : Hall) : Prop where
  last {s s' : Session} (hs : h.store.Offers contact look s) (hs' : h.store.Offers contact look s')
    (hne : s'.id ≠ s.id) (ho : s.isFinished = false) :
    s'.isFinished = true ∧ s'.lastActivityAt.reading < s.lastActivityAt.reading
  read {s : Session} (hs : h.store.Offers contact look s) : s.lastActivityAt ∈ h.readings
  watches {k : Nat} {j : Job} (hj : h.jobs k = some j) :
    j.call.Watches contact look h.store h.readings j.phase

/-- No message names a session, and the contact's messages name a flow just when the look does. -/
def Plain (contact look : String) (h : Hall) : Prop :=
  ∀ k j sender text flowId sessionId, h.jobs k = some j →
    j.call = .message sender text flowId sessionId →
    sessionId = "" ∧ (sender.id = contact → (flowId = "" ↔ look = ""))

/-- The clock goes on. -/
def Ticks (h : Hall) :
    Prop := h.readings.Pairwise fun later earlier => earlier.reading < later.reading

theorem Plain.not_trespasses {h : Hall} (hp : h.Plain contact look) {k : Nat} {j : Job}
    (hj : h.jobs k = some j) : ¬ h.Trespasses j.call :=
  fun ⟨_, _, _, _, _, hcall, hid, _⟩ => hid (hp _ _ _ _ _ _ hj hcall).1

/-- The latest session that is told, when it is finished, shows that all are. -/
theorem Live.finished_of_latest {h : Hall} (hl : h.Live contact look) {s s' : Session}
    (hs : h.store.IsLatest contact look s) (hf : s.isFinished = true)
    (hs' : h.store.Offers contact look s') : s'.isFinished = true := by
  by_cases hid : s.id = s'.id
  · rw [← hs.offers.holds.eq hs'.holds hid]
    exact hf
  · by_contra ho
    have hlt := (hl.last hs' hs.offers hid (by simpa using ho)).2
    have hle := hs.latest hs'
    omega

/-- What is found in the store leads. -/
theorem Live.leads {h : Hall} (hl : h.Live contact look) {s : Session}
    (hs : h.store.Offers contact look s) :
    Hand.Leads contact look h.store h.readings { session := s } where
  others ho hs' hne := ⟨(hl.last hs hs' hne ho).1, nofun⟩
  last := hl.read hs
  active := nofun

section
variable {h : Hall} {k : Nat} {j : Job}

/-- A session that is found by its id leads where the look sees it; only a release looks for one so.
-/
theorem Live.watches_load (hl : h.Live contact look) (hs : h.Sound) (hplain : h.Plain contact look)
    (hj : h.jobs k = some j) {id : String} {found : (Op.load id).Reply}
    (hp : j.call.Permits j.phase (.load id)) (ht : Tells reg h.store (.load id) found) :
    j.call.Watches contact look h.store h.readings (j.call.after j.phase (.load id) found) := by
  obtain ⟨now, newId, hfound⟩ : ∃ now newId, found = h.store.get now newId id := ht
  have hload := hp
  rcases hload with ⟨hph, -⟩ | ⟨lock, hph, hcall⟩
  · rw [hph]
    match found with
    | .error _ | .ok none | .ok (some s) => exact Call.watches_idle (.inl rfl)
  · match found with
    | .error _ | .ok none =>
        rw [hph]
        exact Call.watches_idle (.inl rfl)
    | .ok (some s) =>
        obtain ⟨hs', hid⟩ := hs.store.of_get hfound.symm
        have hc := hs.contact_of_load hj hph hp (hplain.not_trespasses hj) hs' hid
        have hrelease : j.call = .release id := hcall.resolve_right fun ⟨_, _, _, he, hne⟩ =>
          hne (hplain _ _ _ _ _ _ hj he).1
        rw [hph]
        refine Call.watches_holding (fun _ hn => absurd hrelease (hn id)) fun he hseen => ?_
        exact hl.leads ⟨hs', hc.trans he, hseen⟩

/-- A contact's latest session leads while it is open; once it is finished, all that the look sees
are. -/
theorem Live.watches_latest (hl : h.Live contact look) (hs : h.Sound) {other flowId : String}
    {found : (Op.latest other flowId).Reply} (hp : j.call.Permits j.phase (.latest other flowId))
    (ht : Tells reg h.store (.latest other flowId) found) :
    j.call.Watches contact look h.store h.readings
      (j.call.after j.phase (.latest other flowId) found) := by
  obtain ⟨now, newId, hfound⟩ : ∃ now newId, found = h.store.latest now newId other flowId := ht
  obtain ⟨hph, sender, text, hcall, -⟩ := hp
  have hlook : j.call.flowId = flowId := by rw [hcall]; rfl
  rw [hph]
  match found with
  | .error _ => exact Call.watches_idle (.inl rfl)
  | .ok none =>
      refine Call.watches_opening other rfl (fun he hl' s hs' => ?_) fun _ _ hf => nomatch hf
      rw [← he, ← hl', hlook] at hs'
      exact absurd hs' (hs.store.of_latest_none hfound.symm)
  | .ok (some s) =>
      have hs' := hs.store.of_latest hfound.symm
      dsimp only [Call.after, Call.afterLatest]
      split
      · next hf =>
        refine Call.watches_opening other rfl (fun he hl' s'' hs'' => ?_) fun _ _ hf => nomatch hf
        obtain rfl := he
        obtain rfl : flowId = look := hlook.symm.trans hl'
        exact hl.finished_of_latest hs' hf hs''
      · next hf =>
        refine Call.watches_holding (fun _ _ => by simpa using hf) fun he hseen => ?_
        exact hl.leads ⟨hs'.offers.holds, hs'.offers.contact.trans he, hseen⟩

/-- The flow that is chosen is the one that the message names, if it names one. -/
theorem Live.watches_resolve (hl : h.Live contact look) (hreg : reg.Published)
    (hj : h.jobs k = some j) {text flowId : String} {flow? : (Op.resolve text flowId).Reply}
    (hp : j.call.Permits j.phase (.resolve text flowId))
    (ht : Tells reg h.store (.resolve text flowId) flow?) :
    j.call.Watches contact look h.store h.readings
      (j.call.after j.phase (.resolve text flowId) flow?) := by
  have hw := hl.watches hj
  obtain ⟨lock, sender, said, hph, hcall, -⟩ := hp
  have hlook : j.call.flowId = flowId := by rw [hcall]; rfl
  rw [hph] at hw ⊢
  cases flow? with
  | none => exact Call.watches_idle (.inl rfl)
  | some flow =>
      refine Call.watches_opening lock rfl (fun he hl' s hs' => ?_) fun he flow' hf hl' => ?_
      · exact hw.vacant (congrArg some he) hl' hs'
      · cases hf
        have hfound : some flow = reg.resolve text flowId := ht
        rw [Registry.resolve, if_neg (hlook ▸ hl')] at hfound
        rw [hlook]
        exact hreg.id_of_get? hfound.symm

/-- A session that is begun at the moment that is read leads where the look sees it, since all the
others that it sees are finished.  One in hand goes on leading with the moment that it is to be
saved with. -/
theorem Live.watches_now (hl : h.Live contact look) (hs : h.Sound) (hplain : h.Plain contact look)
    (hj : h.jobs k = some j) {now : (Op.now).Reply} (hp : j.call.Permits j.phase .now)
    (hnow : ∀ m ∈ h.readings, m.reading < now.reading) :
    j.call.Watches contact look h.store (now :: h.readings) (j.call.after j.phase .now now) := by
  have hw := hl.watches hj
  have hfits := hs.fits hj
  rcases hp with ⟨lock, flow, id, hph⟩ | ⟨lock, hand, hph⟩
  -- a session is begun: there was none to be seen, so it is the latest
  · rw [hph] at hw hfits ⊢
    refine Call.watches_holding (fun _ _ => rfl) fun he hseen => ?_
    obtain ⟨sender, text, flowId, hcall, hsender⟩ := hfits.opening rfl
    have huses := (hplain _ _ _ _ _ _ hj hcall).2 (hsender.trans he)
    have hflowId : j.call.flowId = flowId := by rw [hcall]; rfl
    have hlook : j.call.flowId = look := by
      by_cases hempty : flowId = ""
      · rw [hflowId, huses.mp hempty, hempty]
      · have hflow := hw.flow (congrArg some he) rfl (hflowId ▸ hempty)
        rcases hseen with hseen | hseen
        · exact absurd (huses.mpr hseen) hempty
        · exact hflow.symm.trans hseen
    exact ⟨fun _ hs' _ => ⟨hw.vacant (congrArg some he) hlook hs', nofun⟩,
      List.mem_cons_self, nofun⟩
  -- the session in hand is dated later than every other one
  · rw [hph] at hw ⊢
    refine Call.watches_holding (fun he hc => ?_) fun he hseen => ?_ <;> obtain rfl := he
    · have hopen := hw.unfinished rfl hc
      exact hopen
    · have hleads := hw.hand rfl hseen
      refine ⟨fun ho hs' hne => ⟨(hleads.others ho hs' hne).1, fun read hread => ?_⟩,
        List.mem_cons_of_mem _ hleads.last, fun read hread => ?_⟩ <;>
        obtain rfl := Option.mem_some_iff.mp hread
      · exact hnow _ (hl.read hs')
      · exact List.mem_cons_self

/-- **A task that is told something** but has not saved. -/
theorem Live.watches_told (hl : h.Live contact look) (hs : h.Sound) (hreg : reg.Published)
    (hplain : h.Plain contact look) {op : Op} {next : op.Reply → InboxProgram Unit}
    (hj : h.jobs k = some j) (hr : j.rest = .request op next) {r : op.Reply}
    (ht : Tells reg h.store op r)
    (hclock : (readingsAfter h.readings op r).Pairwise fun later earlier =>
      earlier.reading < later.reading) :
    j.call.Watches contact look h.store (readingsAfter h.readings op r)
      (j.call.after j.phase op r) := by
  have hp := (hs.permits hj hr).1
  have hw := hl.watches hj
  cases op with
  | acquire lock => cases r <;> exact Call.watches_idle (.inl rfl)
  | release | delete => exact Call.watches_idle (.inl rfl)
  | load id => exact hl.watches_load hs hplain hj hp ht
  | latest other flowId => exact hl.watches_latest hs hp ht
  | resolve text flowId => exact hl.watches_resolve hreg hj hp ht
  | newId =>
      obtain ⟨lock, flow, hph⟩ := hp
      rw [hph] at hw ⊢
      refine Call.watches_opening lock rfl (fun he hl' s hs' => ?_) fun he flow' hf hl' => ?_
      · exact hw.vacant (congrArg some he) hl' hs'
      · exact hw.flow (congrArg some he) hf hl'
  | now => exact hl.watches_now hs hplain hj hp (List.pairwise_cons.mp hclock).1
  | save s =>
      obtain ⟨lock, hand, hph, -⟩ := hp
      rw [hph]
      exact Call.watches_idle (.inl rfl)
  | version | turn | ticket =>
      obtain ⟨lock, hand, hph⟩ := hp
      rw [hph] at hw ⊢
      exact hw

end

/-- What a task saves was open when it was found or begun. -/
theorem Live.open_of_follows {h : Hall} (hl : h.Live contact look) {k : Nat} {j : Job} {hand : Hand}
    {s : Session} (hj : h.jobs k = some j) (hph : j.phase = .holding contact hand)
    (hf : Follows j.call hand s) : hand.session.isFinished = false := by
  by_cases hc : ∃ id, j.call = .release id
  · obtain ⟨id, hc⟩ := hc
    rw [Session.isFinished, hf.released id hc]
    rfl
  · exact (hl.watches hj).unfinished hph fun id he => hc ⟨id, he⟩

/-- A task saves a session of the contact. -/
theorem Live.saves {h : Hall} (hl : h.Live contact look) (hs : h.Sound) {k : Nat} {j : Job}
    {s : Session} {next : Except Parley.Fault Unit → InboxProgram Unit} (hj : h.jobs k = some j)
    (hr : j.rest = .request (.save s) next) (r : Except Parley.Fault Unit)
    (hto : ¬ h.Trespasses j.call) : (h.answer k j (.save s) r (next r)).Live contact look := by
  obtain ⟨lock, hand, hph, hf⟩ := (hs.permits hj hr).1
  have ht := hs.timely_of_follows hj hph hf
  obtain ⟨hlock, -⟩ := hs.owner_of_holding hj hph hto
  have hphase := j.phase_saved hph s r (next r)
  -- what is stored now: the session, if it can be written, or another one as before
  have hoffers {s' : Session} (hs' : (h.store.save s).Offers contact look s') :
      (s.fits = true ∧ s' = s.dumped) ∧ lock = contact ∧ hand.session.IsSeen look ∨
        (s.fits = true → s'.id ≠ hand.session.id) ∧ h.store.Offers contact look s' := by
    rcases (Store.holds_save ht).mp hs'.holds with ⟨hfits, rfl⟩ | ⟨hne, hold⟩
    · have hc := hs'.contact
      have hseen := hs'.seen
      rw [Session.dumped_contact, hf.contact, hlock] at hc
      rw [Session.IsSeen, Session.dumped_flowId, hf.flowId] at hseen
      exact .inl ⟨⟨hfits, rfl⟩, hc, hseen⟩
    · exact .inr ⟨hf.id ▸ hne, hold, hs'.contact, hs'.seen⟩
  refine ⟨fun {s₁ s₂} hs₁ hs₂ hne ho => ?_, fun {s'} hs' => ?_, fun {k' j'} hj' => ?_⟩
  · rcases hoffers hs₁ with ⟨⟨hfits, rfl⟩, rfl, hseen⟩ | ⟨hne₁, hold₁⟩ <;>
      rcases hoffers hs₂ with ⟨⟨hfits₂, rfl⟩, he₂, hseen₂⟩ | ⟨hne₂, hold₂⟩
    · exact absurd rfl hne
    · have hopen := hl.open_of_follows hj hph hf
      have hactive : hand.active = some s.lastActivityAt :=
          hf.active.resolve_right fun ⟨hfin, _⟩ => by
        rw [← Session.dumped_isFinished, ho] at hfin
        cases hfin
      obtain ⟨hfin, hlt⟩ := ((hl.watches hj).hand hph hseen).others hopen hold₂ (hne₂ hfits)
      exact ⟨hfin, hlt _ hactive⟩
    · subst he₂
      have hopen := hl.open_of_follows hj hph hf
      have hfin := (((hl.watches hj).hand hph hseen₂).others hopen hold₁ (hne₁ hfits₂)).1
      rw [ho] at hfin
      cases hfin
    · exact hl.last hold₁ hold₂ hne ho
  · rcases hoffers hs' with ⟨⟨-, rfl⟩, rfl, hseen⟩ | ⟨-, hold⟩
    · have hleads := (hl.watches hj).hand hph hseen
      rcases hf.active with hactive | ⟨-, hactive⟩
      · exact hleads.active _ hactive
      · exact hactive ▸ hleads.last
    · exact hl.read hold
  · rcases jobs_update hj' with ⟨-, rfl⟩ | ⟨hne, hj'⟩
    · exact Call.watches_idle (.inl (hphase ▸ rfl))
    · by_cases hc : lock = contact
      · refine Call.watches_idle (.inr fun hl' => hne ?_)
        have hin := hs.inside hj (Phase.lock?_holding hph)
        exact hs.locks.eq_of_isInside (hs.inside hj' hl') (hc ▸ hin)
      · refine (hl.watches hj').mono (fun s' hs' => ?_) (List.Subset.refl _)
        exact (hoffers hs').elim (fun h => absurd h.2.1 hc) And.right

theorem Live.step {h h' : Hall} (hl : h.Live contact look) (hs : h.Sound) (hreg : reg.Published)
    (hplain : h.Plain contact look) (hticks : h'.Ticks) (hstep : Step setting reg h h') :
    h'.Live contact look := by
  cases hstep with
  | begins k call hk =>
      refine ⟨hl.last, hl.read, fun {k' j'} hj' => ?_⟩
      rcases jobs_update hj' with ⟨-, rfl⟩ | ⟨-, hj'⟩
      · exact Call.watches_idle (.inl (by cases call <;> rfl))
      · exact hl.watches hj'
  | comes => exact ⟨hl.last, hl.read, hl.watches⟩
  | @asks k j op next hj hr r ht ha =>
      by_cases hop : ∃ s, op = .save s
      · obtain ⟨s, rfl⟩ := hop
        exact hl.saves hs hj hr r (hplain.not_trespasses hj)
      -- nothing is stored that was not stored before
      · have hoffers (s : Session) (hs' : (storeAfter h.store op).Offers contact look s) :
            h.store.Offers contact look s := by
          cases op with
          | save s => exact absurd ⟨s, rfl⟩ hop
          | delete id => exact ⟨(Store.contains_delete.mp hs'.holds).2, hs'.contact, hs'.seen⟩
          | _ => exact hs'
        have hread : h.readings ⊆ readingsAfter h.readings op r := by
          cases op with
          | now => exact List.subset_cons_self _ _
          | _ => exact List.Subset.refl _
        refine ⟨fun hs₁ hs₂ => hl.last (hoffers _ hs₁) (hoffers _ hs₂),
          fun hs' => hread (hl.read (hoffers _ hs')), fun {k' j'} hj' => ?_⟩
        rcases jobs_update hj' with ⟨-, rfl⟩ | ⟨-, hj'⟩
        · rw [j.phase_told]
          exact (hl.watches_told hs hreg hplain hj hr ht hticks).mono hoffers (List.Subset.refl _)
        · exact (hl.watches hj').mono hoffers hread

theorem Plain.before {h h' : Hall} (hp : h'.Plain contact look) (hb : h.Before h') :
    h.Plain contact look := by
  intro k j sender text flowId sessionId hj hcall
  obtain ⟨j', hj', hcall'⟩ := hb.jobs hj
  exact hp k j' sender text flowId sessionId hj' (hcall'.trans hcall)

theorem Live.reaches {h : Hall} (hreg : reg.Published) (hr : Reaches setting reg {} h)
    (hplain : h.Plain contact look) (hticks : h.Ticks) : h.Live contact look := by
  induction hr with
  | refl =>
      have hempty {s : Session} : ¬ Store.Offers {} contact look s := fun hs => nomatch hs.holds.row
      exact ⟨fun hs => absurd hs hempty, fun hs => absurd hs hempty, fun {k j} hj => by cases hj⟩
  | tail hr hstep ih =>
      have hb := hstep.before
      have hplain' := hplain.before hb
      have hlive := ih hplain' (hticks.sublist hb.readings.sublist)
      exact hlive.step (opening_empty.sound.reaches hr) hreg hplain' hticks hstep

/-- **A contact has at most one open session.**  From an empty store, while the clock goes on and no
message names a session: at most one, if none of the contact's messages names a flow (`look` is
empty), and at most one on a flow, if every message of the contact names one. -/
theorem one_open_session {h : Hall} (hreg : reg.Published) (hr : Reaches setting reg {} h)
    (hticks : h.Ticks) (hplain : h.Plain contact look) {s s' : Session}
    (hs : h.store.Offers contact look s) (hs' : h.store.Offers contact look s')
    (ho : s.isFinished = false) (ho' : s'.isFinished = false) : s = s' := by
  refine hs.holds.eq hs'.holds ?_
  by_contra hne
  have hfinished := ((Live.reaches hreg hr hplain hticks).last hs hs' (Ne.symm hne) ho).1
  rw [ho'] at hfinished
  cases hfinished

/-! The greeting is published, and a contact says hello. -/

/-- A registry with the greeting. -/
def greetingRegistry : Registry :=
  { flows := [("greeting", Turn.greeting)], versions := [(("greeting", 1), Turn.greeting)] }

/-- A session of the greeting, begun for a message. -/
def greetingBegun : Session := newSession Turn.greeting { id := "ana" } "s1" (noon 1)

/-- The turn in which the name is asked for. -/
def greetingAsked : Turn.Ending :=
  ((Turn.run Turn.greetingSetting (noon 2) greetingBegun (some "hi") none).play
    (Turn.undisturbed Turn.silent 0) ()).1

theorem greetingAsked_eq : ∃ s r, greetingAsked = .finished s r ∧ r.handoff = none ∧
    s.status = .waitingInput ∧ s.fits = true := by
  have hshape : greetingAsked.result?.map (·.handoff.isNone) = some true ∧
      greetingAsked.session.status = .waitingInput ∧ greetingAsked.session.fits = true := by
        decide +kernel
  obtain ⟨hr, hstatus, hfits⟩ := hshape
  cases he : greetingAsked with
  | abandoned s =>
      rw [he] at hr
      cases hr
  | finished s r =>
      rw [he] at hr hstatus hfits
      exact ⟨s, r, rfl, by simpa [Turn.Ending.result?] using hr, hstatus, hfits⟩

/-- The contact's session waits for the name. -/
theorem reaches_greeting :
    ∃ h s, Reaches ⟨{}, {}⟩ greetingRegistry {} h ∧ h.store = Store.save {} s ∧
    h.readings = [noon 2, noon 1] ∧
    (∀ k j, h.jobs k = some j → j.call = .message { id := "ana" } (some "hi") "" "") ∧
    (Store.save {} s).Offers "ana" "" s.dumped ∧ s.dumped.isFinished = false := by
  have hr : Reaches ⟨{}, {}⟩ greetingRegistry {} {} := .refl
  have hr := hr.tail (.begins 0 (.message { id := "ana" } (some "hi") "" "") rfl)
  have hr := hr.tail (@Step.comes _ _ _ 0 _ "ana" _ rfl rfl (by decide))
  have hr := hr.tail (@Step.asks _ _ _ 0 _ (.acquire "ana") _ rfl rfl true trivial
    (show Locks.isInside _ _ _ = true by decide))
  have hr := hr.tail (@Step.asks _ _ _ 0 _ (.latest "ana" "") _ rfl rfl (.ok none) ⟨noon 0, "", rfl⟩
    trivial)
  have hr := hr.tail (@Step.asks _ _ _ 0 _ (.resolve "hi" "") _ rfl rfl
    (some Turn.greeting) rfl trivial)
  have hr := hr.tail (@Step.asks _ _ _ 0 _ .newId _ rfl rfl "s1" trivial rfl)
  have hr := hr.tail (@Step.asks _ _ _ 0 _ .now _ rfl rfl (noon 1) (utc_noon (by decide)) trivial)
  have hr := hr.tail (@Step.asks _ _ _ 0 _ (.version "greeting" 1) _ rfl rfl
    (some Turn.greeting) rfl
    trivial)
  have hr := hr.tail (@Step.asks _ _ _ 0 _ .now _ rfl rfl (noon 2) (utc_noon (by decide)) trivial)
  -- the turn is the one that is played while nothing disturbs it
  obtain ⟨s, r, hasked, hhandoff, hstatus, hfits⟩ := greetingAsked_eq
  have hends : (Turn.run Turn.greetingSetting (noon 2) greetingBegun (some "hi") none).Ends
      (.finished s r) := hasked ▸ Program.ends_play _ _ _
  obtain ⟨h₁, hr, hstore, hreadings, hothers, log, hj⟩ :
    ∃ h₁, Reaches ⟨{}, {}⟩ greetingRegistry {} h₁ ∧
      h₁.store = {} ∧ h₁.readings = [noon 2, noon 1] ∧ (∀ k, h₁.jobs (k + 1) = none) ∧
      ∃ log, h₁.jobs 0 = some ⟨.message { id := "ana" } (some "hi") "" "", log,
        ((((Turn.run Turn.greetingSetting (noon 2) greetingBegun (some "hi") none).interpret
            fun op =>
          Program.ask (Op.turn op)).bind (settle ⟨{}, {}⟩)).bind fun r =>
            .request (.release "ana") fun _ => .done r).bind fun _ => .done ()⟩ :=
    ⟨_, hr, rfl, rfl, fun _ => rfl, _, rfl⟩
  obtain ⟨h₂, hr₂, hm⟩ := @reaches_of_ends ⟨{}, {}⟩ greetingRegistry _ _ hends _ _ _ _ hj
    (by rw [Program.bind_assoc, Program.bind_assoc])
  obtain ⟨log, hj⟩ := hm.job
  have hr := (hr.trans hr₂).tail (@Step.asks _ _ _ 0 _ (.save s) _ hj
    (by rw [settle_of_none hhandoff]; rfl) (.ok ())
      (fun hnot => nomatch hfits.symm.trans hnot) trivial)
  have hstamped := Turn.stamped_of_ends hends
  have ht : s.Timely := by
    refine ⟨hstamped.startedAt ▸ utc_noon (by decide), hstamped.active ▸ utc_noon (by decide),
      fun v hv => ?_⟩
    rw [(hstamped.history v hv).resolve_left nofun]
    exact utc_noon (by decide)
  refine ⟨_, s, hr, ?_, hm.readings.trans hreadings, fun k j hj' => ?_, ?_, ?_⟩
  · exact congrArg (Store.save · s) (hm.store.trans hstore)
  · rcases jobs_update hj' with ⟨-, rfl⟩ | ⟨hk, hj'⟩
    · rfl
    · obtain ⟨k, rfl⟩ := Nat.exists_eq_succ_of_ne_zero hk
      rw [hm.others hk, hothers] at hj'
      cases hj'
  · exact ⟨(Store.holds_save ht).mpr (.inl ⟨hfits, rfl⟩),
      congrArg Contact.id hstamped.contact, .inl rfl⟩
  · rw [Session.dumped_isFinished, Session.isFinished, hstatus]
    rfl

theorem one_open_session_greeting : ∃ h s, greetingRegistry.Published ∧
    Reaches ⟨{}, {}⟩ greetingRegistry {} h ∧ h.Ticks ∧ h.Plain "ana" "" ∧
    h.store.Offers "ana" "" s ∧ s.isFinished = false ∧
    ∀ s', h.store.Offers "ana" "" s' → s'.isFinished = false → s' = s := by
  obtain ⟨h, s, hr, hstore, hreadings, hcall, hoffers, hopen⟩ := reaches_greeting
  have hpublished : greetingRegistry.Published := .add (f := Turn.greeting) .empty rfl
  have hticks : h.Ticks := by
    rw [Ticks, hreadings]
    decide
  have hplain : h.Plain "ana" "" := fun k j sender text flowId sessionId hj he => by
    rw [hcall k j hj] at he
    cases he
    exact ⟨rfl, fun _ => Iff.rfl⟩
  rw [← hstore] at hoffers
  exact ⟨h, s.dumped, hpublished, hr, hticks, hplain, hoffers, hopen, fun s' hs' ho' =>
    one_open_session hpublished hr hticks hplain hs' hoffers ho' hopen⟩

end Hall
end Inbox
end Parley
