import Parley.Proofs.Inbox.Serial

/-!
# Ended sessions

A session that was ended is found by nobody any more, and no session is begun under its id.  But the
session may be in hand when it is ended, for ending a session takes no lock.  A task that has it in
hand saves it later, and then it is stored again; nothing else brings it back
(`ended_comes_back_only_in_hand`).

What a task has in hand it had in hand before, or it was stored, or the task has just begun it
(`Hall.Sound.handles_of_told`).  The id of a session that is about to be begun is nobody else's
(`Hall.Fresh`), so a stored session is not about to be begun.
-/

namespace Parley.Inbox

variable {setting : Setting} {reg : Registry} {j : Job} {op : Op} {id : String}

theorem Job.Handles.keeps (h : j.Handles id) : j.phase.Keeps id := .inl h

theorem Job.not_handles_of_over (h : j.phase = .over) : ¬ j.Handles id := fun ⟨_, _, hp, _⟩ => by
  rw [h] at hp
  cases hp

/-- The task has saved the session since it was as far as `j`. -/
def Job.SavesSince (j j' : Job) (id : String) : Prop :=
  ∃ more, j'.log = j.log ++ more ∧ ∃ e ∈ more, ∃ s, e.op = .save s ∧ s.id = id

theorem Job.SavesSince.told {j' : Job} (h : j.SavesSince j' id) (r : op.Reply)
    (rest : InboxProgram Unit) : j.SavesSince (j'.told op r rest) id := by
  obtain ⟨more, hlog, e, he, hsave⟩ := h
  refine ⟨more ++ [⟨op, r⟩], ?_, e, List.mem_append_left _ he, hsave⟩
  rw [← List.append_assoc, ← hlog]
  rfl

namespace Hall

variable {h h' h'' : Hall} {k : Nat}

/-! ### What comes into a task's hands -/

/-- What a task has in hand now it had in hand before, or it was stored, or the task was about to
begin it. -/
theorem Sound.handles_of_told (hs : h.Sound) {next : op.Reply → InboxProgram Unit}
    (hj : h.jobs k = some j) (hr : j.rest = .request op next) {r : op.Reply}
    (ht : Tells reg h.store op r) (hh : (j.told op r (next r)).Handles id) :
    j.Handles id ∨ (∃ s, h.store.Holds s ∧ s.id = id) ∨ ∃ lock flow,
      j.phase = .named lock flow id := by
  obtain ⟨lock, hand, hphase, hid⟩ := hh
  rw [j.phase_told] at hphase
  have hp := (hs.permits hj hr).1
  unfold Job.Handles
  generalize j.phase = ph at hp hphase
  -- only a look and a begun session put a session in hand; other replies keep the one there is
  cases op with
  | acquire => cases r <;> cases hphase
  | release | delete => cases hphase
  | load id' =>
      obtain ⟨now, newId, rfl⟩ : ∃ now newId, r = h.store.get now newId id' := ht
      rcases hp with ⟨rfl, -⟩ | ⟨lock', rfl, -⟩ <;>
        match hfound : h.store.get now newId id' with
        | .error _ | .ok none =>
            rw [hfound] at hphase
            cases hphase
        | .ok (some s) =>
            rw [hfound] at hphase
            cases hphase
            try exact .inr (.inl ⟨s, (hs.store.of_get hfound).1, hid⟩)
  | latest contact flowId =>
      obtain ⟨now, newId, rfl⟩ : ∃ now newId, r = h.store.latest now newId contact flowId := ht
      obtain ⟨rfl, -⟩ := hp
      match hfound : h.store.latest now newId contact flowId with
      | .error _ | .ok none =>
          rw [hfound] at hphase
          cases hphase
      | .ok (some s) =>
          rw [hfound] at hphase
          dsimp only [Call.after, Call.afterLatest] at hphase
          split at hphase <;> cases hphase
          exact .inr (.inl ⟨s, (hs.store.of_latest hfound).offers.holds, hid⟩)
  | resolve text flowId =>
      obtain ⟨lock', sender, said, rfl, -⟩ := hp
      cases r <;> cases hphase
  | newId =>
      obtain ⟨lock', flow, rfl⟩ := hp
      cases hphase
  | now =>
      rcases hp with ⟨lock', flow, id', rfl⟩ | ⟨lock', hand', rfl⟩ <;> cases hphase
      · exact .inr (.inr ⟨lock, flow, hid ▸ rfl⟩)
      · exact .inl ⟨lock, hand', rfl, hid⟩
  | save s =>
      obtain ⟨lock', hand', rfl, -⟩ := hp
      cases hphase
  | version | turn | ticket =>
      obtain ⟨lock', hand', rfl⟩ := hp
      cases hphase
      exact .inl ⟨lock, hand, rfl, hid⟩

/-- A task is about to begin a session under an id once it was given the id. -/
theorem Sound.named_of_told (hs : h.Sound) {next : op.Reply → InboxProgram Unit}
    (hj : h.jobs k = some j) (hr : j.rest = .request op next) {r : op.Reply} {lock : String}
    {flow : Flow} (hph : (j.told op r (next r)).phase = .named lock flow id)
    (ha : h.Admits k op r) :
    h.owner id = none := by
  rw [j.phase_told] at hph
  have hp := (hs.permits hj hr).1
  generalize j.phase = ph at hp hph
  -- only a new id leads to a session that is named, and it was nobody's before
  cases op with
  | acquire => cases r <;> cases hph
  | release | delete => cases hph
  | load id' =>
      rcases hp with ⟨rfl, -⟩ | ⟨lock', rfl, -⟩ <;>
        match r with
        | .error _ | .ok none | .ok (some s) => cases hph
  | latest contact flowId =>
      obtain ⟨rfl, -⟩ := hp
      match r with
      | .error _ | .ok none => cases hph
      | .ok (some s) =>
          dsimp only [Call.after, Call.afterLatest] at hph
          split at hph <;> cases hph
  | resolve text flowId =>
      obtain ⟨lock', sender, said, rfl, -⟩ := hp
      cases r <;> cases hph
  | newId =>
      obtain ⟨lock', flow', rfl⟩ := hp
      cases hph
      exact ha
  | now => rcases hp with ⟨lock', flow', id', rfl⟩ | ⟨lock', hand, rfl⟩ <;> cases hph
  | save s =>
      obtain ⟨lock', hand, rfl, -⟩ := hp
      cases hph
  | version | turn | ticket =>
      obtain ⟨lock', hand, rfl⟩ := hp
      cases hph

/-- A session that is stored after a request was stored before, or it was in the task's hands. -/
theorem Sound.holds_of_storeAfter (hs : h.Sound) {next : op.Reply → InboxProgram Unit}
    (hj : h.jobs k = some j) (hr : j.rest = .request op next) {s : Session}
    (hs' : (Inbox.storeAfter h.store op).Holds s) :
    h.store.Holds s ∨ ∃ saved, op = .save saved ∧ saved.id = s.id ∧ j.Handles s.id := by
  cases op with
  | save saved =>
      obtain ⟨lock, hand, hph, hf⟩ := (hs.permits hj hr).1
      rcases (Store.holds_save (hs.timely_of_follows hj hph hf)).mp hs' with ⟨-, rfl⟩ | ⟨-, hs'⟩
      · exact .inr ⟨saved, rfl, rfl, lock, hand, hph, hf.id.symm⟩
      · exact .inl hs'
  | delete => exact .inl (Store.contains_delete.mp hs').2
  | _ => exact .inl hs'

/-! ### Sessions that are about to be begun -/

/-- Nothing is known of the id yet but to the task. -/
structure Unbegun (h : Hall) (id : String) (k : Nat) : Prop where
  stored {s : Session} (hs : h.store.Holds s) : s.id ≠ id
  hands {k' : Nat} {j : Job} (hj : h.jobs k' = some j) : ¬ j.Handles id
  alone {k' : Nat} {j : Job} {lock : String} {flow : Flow} (hj : h.jobs k' = some j)
    (hp : j.phase = .named lock flow id) : k' = k

/-- Nothing is known of a session that is about to be begun. -/
def Fresh (h : Hall) : Prop :=
  ∀ k j lock flow id, h.jobs k = some j → j.phase = .named lock flow id → h.Unbegun id k

/-- Nothing is known of an id that was not given to anybody yet. -/
theorem Sound.unbegun (hs : h.Sound) (ho : h.owner id = none) (k : Nat) : h.Unbegun id k where
  stored hs' he := by
    have howner := hs.owned _ hs'
    rw [he, ho] at howner
    cases howner
  hands hj := fun ⟨lock, hand, hp, he⟩ => by
    have howner := ((hs.fits hj).hand hp).owner
    rw [he, ho] at howner
    cases howner
  alone hj hp := by
    have howner := (hs.fits hj).named hp
    rw [ho] at howner
    cases howner

theorem Fresh.begins (hf : h.Fresh) (call : Call) : (h.start setting k call).Fresh := by
  have hfirst : ∀ lock flow id, call.first ≠ .named lock flow id := by
    cases call <;> simp [Call.first]
  have hhold : ∀ id, ¬ Job.Handles { call := call, rest := call.program setting } id := by
    rintro id ⟨lock, hand, hp, -⟩
    cases call <;> cases hp
  intro k' j lock flow id hj hp
  rcases jobs_update hj with ⟨-, rfl⟩ | ⟨-, hj⟩
  · exact absurd hp (hfirst _ _ _)
  · have hu := hf k' j lock flow id hj hp
    refine ⟨hu.stored, fun hj' hh => ?_, fun hj' hp' => ?_⟩ <;>
      rcases jobs_update hj' with ⟨-, rfl⟩ | ⟨-, hj'⟩
    · exact hhold id hh
    · exact hu.hands hj' hh
    · exact absurd hp' (hfirst _ _ _)
    · exact hu.alone hj' hp'

/-- What is not known of an id stays so while tasks go on that do not come to know it. -/
theorem Unbegun.asks {k' : Nat} (hu : h.Unbegun id k') (hs : h.Sound)
    {next : op.Reply → InboxProgram Unit} (hj : h.jobs k = some j) (hr : j.rest = .request op next)
    {r : op.Reply} (hh : ¬ (j.told op r (next r)).Handles id)
    (hn : ∀ lock flow, (j.told op r (next r)).phase = .named lock flow id → k = k') :
    (h.answer k j op r (next r)).Unbegun id k' where
  stored hs' he := by
    rcases hs.holds_of_storeAfter hj hr hs' with hs' | ⟨_, -, -, hh⟩
    · exact hu.stored hs' he
    · exact hu.hands hj (he ▸ hh)
  hands hj' hh' := by
    rcases jobs_update hj' with ⟨-, rfl⟩ | ⟨-, hj'⟩
    · exact hh hh'
    · exact hu.hands hj' hh'
  alone hj' hp := by
    rcases jobs_update hj' with ⟨rfl, rfl⟩ | ⟨-, hj'⟩
    · exact hn _ _ hp
    · exact hu.alone hj' hp

theorem Fresh.step (hf : h.Fresh) (hs : h.Sound) (hstep : Step setting reg h h') : h'.Fresh := by
  cases hstep with
  | begins k call hk => exact hf.begins call
  | comes hj hr hv =>
      intro k j lock flow id hj hp
      have hu := hf k j lock flow id hj hp
      exact ⟨hu.stored, hu.hands, hu.alone⟩
  | @asks k j op next hj hr r ht ha =>
      intro k' j' lock flow id hj' hp
      rcases jobs_update hj' with ⟨rfl, rfl⟩ | ⟨hne, hj'⟩
      · have hu := hs.unbegun (hs.named_of_told hj hr hp ha) k'
        refine hu.asks hs hj hr (fun ⟨lock', hand, hp', _⟩ => ?_) fun _ _ _ => rfl
        rw [hp] at hp'
        cases hp'
      · have hu := hf k' j' lock flow id hj' hp
        refine hu.asks hs hj hr (fun hh => ?_) fun _ _ hp' => ?_
        · rcases hs.handles_of_told hj hr ht hh with hh | ⟨s, hs', he⟩ | ⟨_, _, hp'⟩
          · exact hu.hands hj hh
          · exact hu.stored hs' he
          · exact hne (hu.alone hj hp').symm
        · have howner := (hs.fits hj').named hp
          rw [hs.named_of_told hj hr hp' ha] at howner
          cases howner

theorem Fresh.reaches (ho : h.Opening) (hr : Reaches setting reg h h') : h'.Fresh := by
  induction hr with
  | refl => exact fun k j _ _ _ hj => nomatch (ho.jobs k).symm.trans hj
  | tail hr hstep ih => exact ih.step (ho.sound.reaches hr) hstep

/-! ### After the end of a session -/

/-- A task that had the session in hand has saved it since. -/
def Revived (h h' : Hall) (id : String) : Prop :=
  ∃ k j j', h.jobs k = some j ∧ j.Handles id ∧ h'.jobs k = some j' ∧ j.SavesSince j' id

/-- The session is known, but it is neither stored nor about to be begun, and in no other hands than
before. -/
structure Gone (h h' : Hall) (id : String) : Prop where
  known : h'.owner id ≠ none
  stored {s : Session} (hs : h'.store.Holds s) : s.id ≠ id
  begun {k : Nat} {j : Job} {lock : String} {flow : Flow} (hj : h'.jobs k = some j) :
    j.phase ≠ .named lock flow id
  hands {k : Nat} {j' : Job} (hj' : h'.jobs k = some j') (hh : j'.Handles id) :
    ∃ j more, h.jobs k = some j ∧ j.Handles id ∧ j'.log = j.log ++ more

theorem Revived.step (hv : h.Revived h' id) (hstep : Step setting reg h' h'') :
    h.Revived h'' id := by
  obtain ⟨k, j, j', hj, hh, hj', hsaves⟩ := hv
  cases hstep with
  | begins k' call hk' =>
      refine ⟨k, j, j', hj, hh, (Function.update_of_ne (fun he => ?_) _ _).trans hj', hsaves⟩
      rw [he, hk'] at hj'
      cases hj'
  | comes => exact ⟨k, j, j', hj, hh, hj', hsaves⟩
  | @asks k' j'' op next hj'' hr r ht ha =>
      by_cases hk : k = k'
      · subst hk
        obtain rfl := Option.some.inj (hj''.symm.trans hj')
        exact ⟨k, j, _, hj, hh, Function.update_self _ _ _, hsaves.told r _⟩
      · exact ⟨k, j, j', hj, hh, (Function.update_of_ne hk _ _).trans hj', hsaves⟩

/-- **A session that is gone stays so**, unless a task that had it in hand saves it. -/
theorem Gone.step (hg : h.Gone h' id) (hs : h'.Sound) (hstep : Step setting reg h' h'') :
    h.Gone h'' id ∨ h.Revived h'' id := by
  cases hstep with
  | begins k call hk =>
      refine .inl ⟨hg.known, hg.stored, fun {k' j lock flow} hj hp => ?_,
        fun {k' j} hj hh => ?_⟩ <;>
        rcases jobs_update hj with ⟨-, rfl⟩ | ⟨-, hj⟩
      · cases call <;> cases hp
      · exact hg.begun hj hp
      · obtain ⟨_, _, hp, -⟩ := hh
        cases call <;> cases hp
      · exact hg.hands hj hh
  | comes => exact .inl ⟨hg.known, hg.stored, hg.begun, hg.hands⟩
  | @asks k j op next hj hr r ht ha =>
      -- the one way back: a task that had the session in hand saves it again
      by_cases hsave : ∃ s, op = .save s ∧ s.id = id ∧ j.Handles id
      · obtain ⟨s, rfl, hid, hh⟩ := hsave
        obtain ⟨j₀, more, hj₀, hh₀, hlog⟩ := hg.hands hj hh
        refine .inr ⟨k, j₀, _, hj₀, hh₀, Function.update_self _ _ _, more ++ [⟨.save s, r⟩], ?_, _,
          List.mem_append_right _ List.mem_cons_self, s, rfl, hid⟩
        rw [← List.append_assoc, ← hlog]
        rfl
      · obtain ⟨contact, howner⟩ := Option.ne_none_iff_exists'.mp hg.known
        have hknown := owner_ownerAfter ha j.call howner
        refine .inl
          ⟨by simp [answer, hknown], fun {s} hs' he => ?_, fun {k' j' lock flow} hj' hp => ?_,
          fun {k' j'} hj' hh => ?_⟩
        · rcases hs.holds_of_storeAfter hj hr hs' with hs' | ⟨saved, rfl, hid, hh⟩
          · exact hg.stored hs' he
          · exact hsave ⟨saved, rfl, hid.trans he, he ▸ hh⟩
        · rcases jobs_update hj' with ⟨-, rfl⟩ | ⟨-, hj'⟩
          · exact hg.known (hs.named_of_told hj hr hp ha)
          · exact hg.begun hj' hp
        · rcases jobs_update hj' with ⟨rfl, rfl⟩ | ⟨-, hj'⟩
          · rcases hs.handles_of_told hj hr ht hh with hh | ⟨s, hs', he⟩ | ⟨_, _, hp⟩
            · obtain ⟨j₀, more, hj₀, hh₀, hlog⟩ := hg.hands hj hh
              refine ⟨j₀, more ++ [⟨op, r⟩], hj₀, hh₀, ?_⟩
              rw [← List.append_assoc, ← hlog]
              rfl
            · exact absurd he (hg.stored hs')
            · exact absurd hp (hg.begun hj)
          · exact hg.hands hj' hh

theorem gone_or_revived (hs : h'.Sound) (hg : h.Gone h' id) (hr : Reaches setting reg h' h'') :
    h.Gone h'' id ∨ h.Revived h'' id := by
  induction hr with
  | refl => exact .inl hg
  | tail hr hstep ih =>
      rcases ih with hg' | hv
      · exact hg'.step (hs.reaches hr) hstep
      · exact .inr (hv.step hstep)

/-- A session that was ended is gone. -/
theorem gone_of_ended (hs : h.Sound) (hf : h.Fresh) (hended : (h.store.delete id).2 = .ok true)
    (k : Nat) (j : Job) (rest : InboxProgram Unit) :
    h.Gone (h.answer k j (.delete id) (.ok true) rest) id := by
  obtain ⟨s, hs', hid⟩ : ∃ s, h.store.Holds s ∧ s.id = id := by
    unfold Store.delete at hended
    cases hrow : h.store.rows.get? id with
    | none =>
        rw [hrow] at hended
        cases hended
    | some row =>
        obtain ⟨s, hs', hid, -⟩ := hs.store.session id row hrow
        exact ⟨s, hs', hid⟩
  have hover : (j.told (.delete id) (.ok true) rest).phase = .over := j.phase_told _ _ _
  refine ⟨?_, fun hs'' => (Store.contains_delete.mp hs'').1, fun {k' j' lock flow} hj' hp => ?_,
    fun {k' j'} hj' hh => ?_⟩
  · have howner := hs.owned s hs'
    rw [hid] at howner
    exact fun hnone => nomatch howner.symm.trans hnone
  · rcases jobs_update hj' with ⟨-, rfl⟩ | ⟨-, hj'⟩
    · rw [hover] at hp
      cases hp
    · exact (hf k' j' lock flow id hj' hp).stored hs' hid
  · rcases jobs_update hj' with ⟨-, rfl⟩ | ⟨-, hj'⟩
    · exact absurd hh (Job.not_handles_of_over hover)
    · exact ⟨j', [], hj', hh, (List.append_nil _).symm⟩

/-- A task keeps the session that it has in hand until it saves it. -/
theorem keeps_of_reaches (hs : h.Sound) (hr : Reaches setting reg h h') (hj : h.jobs k = some j)
    (hk : j.phase.Keeps id) : ∃ j', h'.jobs k = some j' ∧ j'.phase.Keeps id := by
  induction hr with
  | refl => exact ⟨j, hj, hk⟩
  | tail hr hstep ih =>
      obtain ⟨j', hj', hk'⟩ := ih
      cases hstep with
      | begins k' call hnone =>
          refine ⟨j', (Function.update_of_ne (fun he => ?_) _ _).trans hj', hk'⟩
          rw [he, hnone] at hj'
          cases hj'
      | comes => exact ⟨j', hj', hk'⟩
      | @asks k' j'' op next hj'' hr' r ht ha =>
          by_cases he : k = k'
          · subst he
            obtain rfl := Option.some.inj (hj''.symm.trans hj')
            refine ⟨_, Function.update_self _ _ _, ?_⟩
            rw [j''.phase_told]
            exact (hk'.after ((hs.reaches hr).permits hj' hr').1 r).2
          · exact ⟨j', (Function.update_of_ne he _ _).trans hj', hk'⟩

/-- **An ended session comes back only in somebody's hands.**  Whatever happens after a session was
ended, it is not stored unless a task that had it in hand when it was ended has saved it since.  And
whenever such a task saves, it is this session, which is stored again if it can be written. -/
theorem ended_comes_back_only_in_hand {h₀ : Hall} (ho : h₀.Opening) (hr : Reaches setting reg h₀ h)
    {next : Except Parley.Fault Bool → InboxProgram Unit} (hj : h.jobs k = some j)
    (hrest : j.rest = .request (.delete id) next) (hended : (h.store.delete id).2 = .ok true)
    (hr' : Reaches setting reg (h.answer k j (.delete id) (.ok true) (next (.ok true))) h') :
    (h'.store.rows.get? id ≠ none → h.Revived h' id) ∧
    ∀ k j j' s next r, h.jobs k = some j → j.Handles id → h'.jobs k = some j' →
      j'.rest = .request (.save s) next →
      s.id = id ∧ (s.fits = true → (h'.answer k j' (.save s) r (next r)).store.Holds s.dumped) := by
  have hs := ho.sound.reaches hr
  have hstep : Step setting reg h (h.answer k j (.delete id) (.ok true) (next (.ok true))) :=
    @Step.asks setting reg h k j (.delete id) next hj hrest (.ok true) (.inl hended.symm) trivial
  have hs' := (hs.step hstep).reaches hr'
  refine ⟨fun hstored => ?_, fun k' j₁ j' s next' r hj₁ hh hj' hrest' => ?_⟩
  · have hgone := gone_of_ended hs (Fresh.reaches ho hr) hended k j (next (.ok true))
    refine (gone_or_revived (hs.step hstep) hgone hr').resolve_left fun hg => ?_
    obtain ⟨row, hrow⟩ := Option.ne_none_iff_exists'.mp hstored
    obtain ⟨s, hstored, he, -⟩ := hs'.store.session id row hrow
    exact hg.stored hstored he
  · obtain ⟨lock, hand, hph, hf⟩ := (hs'.permits hj' hrest').1
    obtain ⟨j'', hj'', hk⟩ := keeps_of_reaches hs (.head hstep hr') hj₁ hh.keeps
    obtain rfl := Option.some.inj (hj'.symm.trans hj'')
    have ht := hs'.timely_of_follows hj' hph hf
    refine ⟨?_, fun hfits => (Store.holds_save ht).mpr (.inl ⟨hfits, rfl⟩)⟩
    rw [hph] at hk
    rcases hk with ⟨_, _, he, hid⟩ | ⟨_, he⟩ | he <;> cases he
    exact hf.id.trans hid

/-! A person has taken over the session of a contact, and a message of the contact is about to be
noted when the session is ended.  What is noted then brings the session back. -/

theorem ended_comes_back_only_in_hand_taken : ∃ h h' j next,
    Reaches ⟨{}, {}⟩ {} takenHall h ∧ h.jobs 1 = some j ∧ j.rest = .request (.delete "s1") next ∧
    (h.store.delete "s1").2 = .ok true ∧
    Reaches ⟨{}, {}⟩ {} (h.answer 1 j (.delete "s1") (.ok true) (next (.ok true))) h' ∧
    h'.store.rows.get? "s1" ≠ none ∧ h.Revived h' "s1" := by
  have hended : (takenHall.store.delete "s1").2 = .ok true := rfl
  have hr : Reaches ⟨{}, {}⟩ {} takenHall takenHall := .refl
  have hr := hr.tail (.begins 0 (.message { id := "ana" } (some "still there?") "" "") rfl)
  have hr := hr.tail (.begins 1 (.finish "s1") rfl)
  have hr := hr.tail (@Step.comes _ _ _ 0 _ "ana" _ rfl rfl (by decide))
  have hr := hr.tail (@Step.asks _ _ _ 0 _ (.acquire "ana") _ rfl rfl true trivial
    (show Locks.isInside _ _ _ = true by decide))
  have hr := hr.tail (@Step.asks _ _ _ 0 _ (.latest "ana" "") _ rfl rfl (.ok (some taken))
    ⟨noon 0, "", (latest_takenHall _ _).symm⟩ trivial)
  have from_here {h h' : Hall} (_ : Reaches ⟨{}, {}⟩ {} h h') : Reaches ⟨{}, {}⟩ {} h' h' := .refl
  have hr' := from_here (hr.tail (@Step.asks _ _ _ 1 _ (.delete "s1") _ rfl rfl (.ok true)
    (.inl hended.symm) trivial))
  have hr' := hr'.tail (@Step.asks _ _ _ 0 _ .now _ rfl rfl
    (noon 1) timely_takenNoted.active trivial)
  have hr' := hr'.tail (@Step.asks _ _ _ 0 _ (.save _) _ rfl rfl (.ok ()) nofun trivial)
  have hback := (@ended_comes_back_only_in_hand _ _ _ "s1" _ _ 1 _ opening_takenHall hr _ rfl rfl
    hended hr').1 nofun
  exact ⟨_, _, _, _, hr, rfl, rfl, hended, hr', nofun, hback⟩

end Hall
end Parley.Inbox
