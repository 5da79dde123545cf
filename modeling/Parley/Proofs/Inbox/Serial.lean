import Parley.Proofs.Inbox.Alone

/-!
# As if one after the other

Messages are handled and sessions released side by side, and what is stored is what handling and
releasing them one after the other would have stored (`turns_are_serial`): in the order in which
they saved, each task, begun anew and by itself on what the one before it left, is told since it
came to the lock what it was told among the others, and saves the same.

This holds as long as no message names the session of another contact, for the lock is that of the
contact who writes.  Two tasks that have the same session in hand show such a message.

The argument is about the tasks that have not saved yet.  One of them that is inside a lock has made
exchanges which it could make by itself on what is stored now (`Job.Poised`); a task that saves is
inside the lock of another contact, so these stay as they are (`Goes.apart`).
-/

namespace Parley.Inbox

variable {setting : Setting} {reg : Registry} {st st' st₀ : Store} {call : Call} {ph : Phase}
  {op : Op} {j : Job} {lock : String}

/-! ### A task among others and by itself -/

/-- The request comes to a lock. -/
def Op.isAcquire : Op → Bool
  | .acquire _ => true
  | _ => false

/-- The exchanges since the task came to the lock. -/
def sinceLock (log : List Exchange) : List Exchange := log.dropWhile fun e => !e.op.isAcquire

/-- What has happened since the lock grows with the log. -/
theorem sinceLock_append {log log' : List Exchange} (h : sinceLock log = sinceLock log')
    (more : List Exchange) : sinceLock (log ++ more) = sinceLock (log' ++ more) := by
  unfold sinceLock at *
  rw [List.dropWhile_append, List.dropWhile_append, h]

/-- The task, begun anew and by itself, comes as far as it has come, and is told the same since it
came to the lock. -/
def Job.Replays (setting : Setting) (reg : Registry) (j : Job) (st st' : Store) : Prop :=
  ∃ log, Goes reg st (j.call.program setting) log st' j.rest ∧ sinceLock log = sinceLock j.log

/-- The tasks have been replayed one after the other. -/
inductive Serially (setting : Setting) (reg : Registry) (jobs : Nat → Option Job) (st₀ : Store) :
    List Nat → Store → Prop where
  | none : Serially setting reg jobs st₀ [] st₀
  | next {order : List Nat} {st st' : Store} {k : Nat} {j : Job}
      (h : Serially setting reg jobs st₀ order st) (hj : jobs k = some j)
      (hr : j.Replays setting reg st st') : Serially setting reg jobs st₀ (order ++ [k]) st'

/-- The task has saved a session. -/
def Job.Saved (j : Job) : Prop := ∃ e ∈ j.log, ∃ s, e.op = .save s

/-- A task that replays on a store does so with one more reply. -/
theorem Job.Replays.told {next : op.Reply → InboxProgram Unit} (h : j.Replays setting reg st st')
    (hr : j.rest = .request op next) (r : op.Reply) (ht : Tells reg st' op r) (hg : Granted op r) :
    (j.told op r (next r)).Replays setting reg st (storeAfter st' op) := by
  obtain ⟨log, hgoes, hlog⟩ := h
  rw [hr] at hgoes
  exact ⟨_, hgoes.concat r ht hg, sinceLock_append hlog _⟩

/-- One of the tasks may have gone on, if it is replayed as before. -/
theorem Serially.update {jobs : Nat → Option Job} {order : List Nat} {k : Nat}
    (h : Serially setting reg jobs st₀ order st)
    (hk : k ∈ order → ∀ j', jobs k = some j' → ∀ st st', j'.Replays setting reg st st' →
      j.Replays setting reg st st') :
    Serially setting reg (Function.update jobs k (some j)) st₀ order st := by
  induction h with
  | none => exact .none
  | @next order _ _ k' j' _ hj hr ih =>
      refine @Serially.next _ _ _ _ _ _ _ k' (if k' = k then j else j')
        (ih fun hmem => hk (List.mem_append_left _ hmem)) ?_ ?_
      · by_cases he : k' = k
        · subst he
          rw [Function.update_self, if_pos rfl]
        · rw [Function.update_of_ne he, if_neg he, hj]
      · split
        · next he =>
          subst he
          exact hk (by simp) j' hj _ _ hr
        · exact hr

/-- A task has saved when it had saved before or saves now. -/
theorem Job.saved_told {r : op.Reply} {rest : InboxProgram Unit} :
    (j.told op r rest).Saved ↔ j.Saved ∨ ∃ s, op = .save s := by
  simp [Saved, told, or_and_right, exists_or]

/-! ### Before a task saves -/

/-- The contact whose lock the task is inside, with something left to do there. -/
def Phase.busy? : Phase → Option String
  | .inside lock | .vacant lock | .chosen lock _ | .named lock _ _ | .holding lock _ => some lock
  | .outside | .bound _ | .leaving _ | .over => none

theorem Phase.lock?_of_busy? (h : ph.busy? = some lock) : ph.lock? = some lock := by
  cases ph <;> first | exact h | cases h

/-- What a release does once it knows whose session it is. -/
def returning (id lock : String) : InboxProgram Unit :=
  forgetting (Task.locked lock ((demand id).andThen giveBack))

/-- The task is on its way to the lock, whatever becomes of the contact's sessions. -/
def Job.Arrives (setting : Setting) (st : Store) (j : Job) (lock : String) : Prop :=
  j.log = [] ∧ j.rest = j.call.program setting ∨
    ∃ s, j.call = .release s.id ∧ sinceLock j.log = [] ∧ j.rest = returning s.id lock ∧
      st.Holds s ∧ s.contact.id = lock

/-- What the task has done so far, it could have done by itself on what is stored now. -/
structure Job.Poised (setting : Setting) (reg : Registry) (st : Store) (j : Job) : Prop where
  outside (h : j.phase = .outside) : j.log = [] ∧ j.rest = j.call.program setting
  bound {lock : String} (h : j.phase = .bound lock) : j.Arrives setting st lock
  busy {lock : String} (h : j.phase.busy? = some lock) :
    ∃ log, Goes reg st (j.call.program setting) log st j.rest ∧ sinceLock log = sinceLock j.log ∧
      ∀ e ∈ log, e.IsOf lock

namespace Job.Poised

/-- A task that is done has nothing left to replay. -/
theorem of_done (h : (∃ lock, j.phase = .leaving lock) ∨ j.phase = .over) :
    j.Poised setting reg st := by
  refine ⟨fun he => ?_, fun he => ?_, fun he => ?_⟩ <;>
    rcases h with ⟨lock, h⟩ | h <;> rw [h] at he <;> cases he

/-- A task that is busy is poised when it could have come there on what is stored now. -/
theorem of_busy {log : List Exchange} (hb : j.phase.busy? = some lock)
    (hg : Goes reg st (j.call.program setting) log st j.rest)
    (hlog : sinceLock log = sinceLock j.log) (hof : ∀ e ∈ log, e.IsOf lock) :
    j.Poised setting reg st := by
  refine ⟨fun he => ?_, fun he => ?_, fun he => ?_⟩
  · rw [he] at hb
    cases hb
  · rw [he] at hb
    cases hb
  · obtain rfl : lock = _ := Option.some.inj (hb.symm.trans he)
    exact ⟨log, hg, hlog, hof⟩

/-- Inside a lock the task goes on with something about the contact. -/
theorem told_inside {next : op.Reply → InboxProgram Unit} (h : j.Poised setting reg st)
    (hph : j.phase = ph) (hb : ph.busy? = some lock) (hr : j.rest = .request op next) {r : op.Reply}
    (ht : Tells reg st op r) (hg : Granted op r) (hof : Exchange.IsOf lock ⟨op, r⟩)
    (hb' : (j.call.after ph op r).busy? = some lock) :
    (j.told op r (next r)).Poised setting reg st := by
  subst hph
  obtain ⟨log, hgoes, hlog, hlogof⟩ := h.busy hb
  rw [hr] at hgoes
  have hgoes := hgoes.concat r ht hg
  rw [storeAfter_of_isOf hof] at hgoes
  refine of_busy (by rw [j.phase_told, hb']) hgoes (sinceLock_append hlog _) fun e he => ?_
  rcases List.mem_append.mp he with he | he
  · exact hlogof e he
  · rw [List.mem_singleton.mp he]
    exact hof

/-- A task on its way to a lock could have come there by itself on what is stored now. -/
theorem goes_of_arrives (h : j.Arrives setting st lock) :
    ∃ log, Goes reg st (j.call.program setting) log st j.rest ∧ sinceLock log = sinceLock j.log ∧
      ∀ e ∈ log, e.IsOf lock := by
  rcases h with ⟨hlog, hrest⟩ | ⟨s, hcall, hlog, hrest, hs, rfl⟩
  · rw [hlog, hrest]
    exact ⟨[], .here _ _, rfl, by simp⟩
  · refine ⟨[⟨.load s.id, .ok (some s)⟩], ?_, hlog.symm, ?_⟩
    · rw [hcall, hrest]
      exact .asks _ ⟨s.startedAt, "", (hs.get _ _).symm⟩ trivial (.here _ _)
    · intro e he
      rw [List.mem_singleton.mp he]
      exact ⟨s, rfl, rfl⟩

/-- A task is let in. -/
theorem enters {next : Bool → InboxProgram Unit} (h : j.Poised setting reg st)
    (hph : j.phase = .bound lock) (hr : j.rest = .request (.acquire lock) next) :
    (j.told (.acquire lock) true (next true)).Poised setting reg st := by
  obtain ⟨log, hgoes, hlog, hlogof⟩ := @goes_of_arrives _ reg _ _ _ (h.bound hph)
  rw [hr] at hgoes
  have hph' : (j.told (.acquire lock) true (next true)).phase = .inside lock :=
    (j.phase_told _ _ _).trans (congrArg (fun ph => j.call.after ph (.acquire lock) true) hph)
  refine of_busy (congrArg Phase.busy? hph') (hgoes.concat true trivial rfl)
    (sinceLock_append hlog _) fun e he => ?_
  rcases List.mem_append.mp he with he | he
  · exact hlogof e he
  · rw [List.mem_singleton.mp he]
    exact trivial

/-- The session whose release begins is found, and its contact's lock is where the task goes. -/
theorem finds {s : Session} {next : Except Store.RowFault (Option Session) → InboxProgram Unit}
    (h : j.Poised setting reg st) (hph : j.phase = .outside) (hcall : j.call = .release s.id)
    (hr : j.rest = .request (.load s.id) next) (hs : st.Holds s) :
    (j.told (.load s.id) (.ok (some s)) (next (.ok (some s)))).Poised setting reg st := by
  have hph' : (j.told (.load s.id) (.ok (some s)) (next (.ok (some s)))).phase =
      .bound s.contact.id :=
    (j.phase_told _ _ _).trans
      (congrArg (fun ph => j.call.after ph (.load s.id) (.ok (some s))) hph)
  obtain ⟨hlog, hrest⟩ := h.outside hph
  have hprogram : (Call.release s.id).program setting = .request (.load s.id) next := by
    rw [← hcall, ← hrest, hr]
  have hnext : next (.ok (some s)) = returning s.id s.contact.id :=
    (congrFun (eq_of_heq (Program.request.inj hprogram).2) (.ok (some s))).symm
  refine ⟨fun he => ?_, fun he => ?_, fun he => ?_⟩ <;> rw [hph'] at he <;> cases he
  refine .inr ⟨s, hcall, ?_, hnext, hs, rfl⟩
  simp [Job.told, hlog, sinceLock, Op.isAcquire]

/-- **A task that is told something but has not saved** could still have come as far by itself. -/
theorem told {h : Hall} {k : Nat} {next : op.Reply → InboxProgram Unit} (hs : h.Sound)
    (hp : j.Poised setting reg h.store) (hj : h.jobs k = some j) (hr : j.rest = .request op next)
    {r : op.Reply} (ht : Tells reg h.store op r) (hto : ¬ h.Trespasses j.call)
    (hop : ∀ s, op ≠ .save s) :
    (j.told op r (next r)).Poised setting reg h.store := by
  have hpermits := (hs.permits hj hr).1
  have hfits := hs.fits hj
  have hphase := j.phase_told op r (next r)
  generalize hph : j.phase = ph at hpermits hphase hfits
  cases op with
  | acquire lock =>
      obtain rfl : ph = .bound lock := hpermits
      cases r with
      | false => exact of_done (.inr hphase)
      | true => exact hp.enters hph hr
  | release | delete => exact of_done (.inr hphase)
  | load id =>
      have htold := ht
      obtain ⟨now, newId, hfound⟩ : ∃ now newId, r = h.store.get now newId id := htold
      have hload := hpermits
      rcases hload with ⟨rfl, hrelease⟩ | ⟨lock, rfl, -⟩
      · match r with
        | .error _ | .ok none => exact of_done (.inr hphase)
        | .ok (some s) =>
            obtain ⟨hs', rfl⟩ := hs.store.of_get hfound.symm
            exact hp.finds hph hrelease hr hs'
      · match r with
        | .error _ | .ok none => exact of_done (.inl ⟨lock, hphase⟩)
        | .ok (some s) =>
            obtain ⟨hs', hid⟩ := hs.store.of_get hfound.symm
            have hc := hs.contact_of_load hj hph (hph ▸ hpermits) hto hs' hid
            exact hp.told_inside hph rfl hr ht trivial ⟨s, rfl, hc⟩ rfl
  | latest contact flowId =>
      obtain ⟨rfl, -⟩ := hpermits
      match r with
      | .error _ => exact of_done (.inl ⟨contact, hphase⟩)
      | .ok none => exact hp.told_inside hph rfl hr ht trivial rfl rfl
      | .ok (some s) =>
          refine hp.told_inside hph rfl hr ht trivial rfl ?_
          dsimp only [Call.after, Call.afterLatest]
          split <;> rfl
  | resolve text flowId =>
      obtain ⟨lock, sender, said, rfl, -⟩ := hpermits
      match r with
      | none => exact of_done (.inl ⟨lock, hphase⟩)
      | some flow => exact hp.told_inside hph rfl hr ht trivial trivial rfl
  | newId =>
      obtain ⟨lock, flow, rfl⟩ := hpermits
      exact hp.told_inside hph rfl hr ht trivial trivial rfl
  | now =>
      rcases hpermits with ⟨lock, flow, id, rfl⟩ | ⟨lock, hand, rfl⟩ <;>
        exact hp.told_inside hph rfl hr ht trivial trivial rfl
  | save s => exact absurd rfl (hop s)
  | version | turn | ticket =>
      obtain ⟨lock, hand, rfl⟩ := hpermits
      exact hp.told_inside hph rfl hr ht trivial trivial rfl

/-- **A task could still have come as far by itself** after another one has saved. -/
theorem save {h : Hall} {k k' : Nat} {j' : Job} {hand : Hand} {s : Session} (hs : h.Sound)
    (hp : j'.Poised setting reg h.store) (hne : k' ≠ k) (hj' : h.jobs k' = some j')
    (hj : h.jobs k = some j) (hph : j.phase = .holding lock hand) (hf : Follows j.call hand s)
    (hto : ¬ h.Trespasses j.call) : j'.Poised setting reg (h.store.save s) := by
  have ht := hs.timely_of_follows hj hph hf
  have hcontact (s' : Session) (hs' : h.store.Holds s') := hs.contact_of_holds hj hph hf hs'
  have hlock : s.contact.id = lock := by
    rw [hf.contact]
    exact (hs.owner_of_holding hj hph hto).1
  refine ⟨hp.outside, fun {lock'} hb => ?_, fun {lock'} hb => ?_⟩
  · refine (hp.bound hb).imp_right fun ⟨s', hcall, hlog, hrest, hs', hc⟩ => ?_
    by_cases he : s.fits = true ∧ s'.id = s.id
    · obtain ⟨hfits, he⟩ := he
      rw [he] at hcall hrest
      exact ⟨s.dumped, hcall, hlog, hrest, (Store.holds_save ht).mpr (.inl ⟨hfits, rfl⟩),
        (hcontact s' hs' he).symm.trans hc⟩
    · have hold := (Store.holds_save ht).mpr (.inr ⟨fun hfits hid => he ⟨hfits, hid⟩, hs'⟩)
      exact ⟨s', hcall, hlog, hrest, hold, hc⟩
  · obtain ⟨log, hgoes, hlog, hof⟩ := hp.busy hb
    -- two tasks inside the lock of one contact would be one
    refine ⟨log, hgoes.apart hof hs.store (fun he => hne ?_) hcontact, hlog, hof⟩
    have hin : h.locks.isInside k' lock' = true := hs.inside hj' (Phase.lock?_of_busy? hb)
    have hin' := hs.inside hj (Phase.lock?_holding hph)
    rw [← hlock, he] at hin'
    exact hs.locks.eq_of_isInside hin hin'

end Job.Poised

/-! ### All of them -/

namespace Hall

/-- Messages are handled and sessions released, and no message names the session of another contact.
-/
def Calm (h : Hall) : Prop :=
  ∀ k j, h.jobs k = some j → (∀ id, j.call ≠ .finish id) ∧ ¬ h.Trespasses j.call

theorem Calm.before {h h' : Hall} (hc : h'.Calm) (hb : h.Before h') : h.Calm := by
  intro k j hj
  obtain ⟨j', hj', hcall⟩ := hb.jobs hj
  obtain ⟨hfinish, hto⟩ := hc k j' hj'
  rw [hcall] at hfinish hto
  refine ⟨hfinish, fun ⟨contact, text, flowId, id, other, he, hid, ho, hne⟩ => hto ?_⟩
  exact ⟨contact, text, flowId, id, other, he, hid, hb.owner ho, hne⟩

/-- The tasks that have saved could have run one after the other, and the others could have come by
themselves to where they are. -/
structure Serial (setting : Setting) (reg : Registry) (st₀ : Store) (h : Hall) : Prop where
  order : ∃ order : List Nat, order.Nodup ∧ (∀ k, k ∈ order ↔ ∃ j, h.jobs k = some j ∧ j.Saved) ∧
    Serially setting reg h.jobs st₀ order h.store
  saved {k : Nat} {j : Job} (hj : h.jobs k = some j) (hs : j.Saved) :
    (∃ lock, j.phase = .leaving lock) ∨ j.phase = .over
  poised {k : Nat} {j : Job} (hj : h.jobs k = some j) (hs : ¬ j.Saved) :
    j.Poised setting reg h.store

/-- A hall that opens is serial. -/
theorem Opening.serial {h : Hall} (ho : h.Opening) : h.Serial setting reg h.store where
  order := ⟨[], List.nodup_nil, fun k => by simp [ho.jobs k], .none⟩
  saved {k} _ hj := nomatch (ho.jobs k).symm.trans hj
  poised {k} _ hj := nomatch (ho.jobs k).symm.trans hj

/-- Just the tasks that have saved are in the order. -/
theorem mem_order_iff {jobs : Nat → Option Job} {order : List Nat} {k : Nat}
    (h : ∀ k, k ∈ order ↔ ∃ j, jobs k = some j ∧ j.Saved) (hj : jobs k = some j) :
    k ∈ order ↔ j.Saved := by
  simp [h, hj]

/-- The tasks that have saved are the same when one of them goes on, or another that does not save.
-/
theorem mem_order_update {jobs : Nat → Option Job} {order : List Nat} {k : Nat}
    (h : ∀ k, k ∈ order ↔ ∃ j, jobs k = some j ∧ j.Saved) (hk : k ∈ order ↔ j.Saved) (k' : Nat) :
    k' ∈ order ↔ ∃ j', Function.update jobs k (some j) k' = some j' ∧ j'.Saved := by
  by_cases he : k' = k
  · subst he
    simp [hk]
  · rw [h, Function.update_of_ne he]

/-- A hall stays serial when a task begins. -/
theorem Serial.begins {h : Hall} (hs : h.Serial setting reg st₀) {k : Nat} (call : Call)
    (hk : h.jobs k = none) : (h.start setting k call).Serial setting reg st₀ := by
  have hnot : ¬ Job.Saved { call := call, rest := call.program setting } := by simp [Job.Saved]
  obtain ⟨order, hnodup, horder, hserially⟩ := hs.order
  have hnew : k ∉ order := fun hmem => by
    obtain ⟨j, hj, -⟩ := (horder k).mp hmem
    rw [hk] at hj
    cases hj
  refine ⟨⟨order, hnodup, mem_order_update horder (iff_of_false hnew hnot),
    hserially.update fun hmem => absurd hmem hnew⟩, fun {k' j} hj hsaved => ?_,
    fun {k' j} hj hsaved => ?_⟩ <;>
    rcases jobs_update hj with ⟨-, rfl⟩ | ⟨-, hj⟩
  · exact absurd hsaved hnot
  · exact hs.saved hj hsaved
  · refine ⟨fun _ => ⟨rfl, rfl⟩, fun _ => .inl ⟨rfl, rfl⟩, fun hb => ?_⟩
    cases call <;> cases hb
  · exact hs.poised hj hsaved

/-- A task that has saved leaves the lock. -/
theorem Serial.leaves {h : Hall} (hs : h.Serial setting reg st₀) (hsound : h.Sound) {k : Nat}
    {next : op.Reply → InboxProgram Unit} (hj : h.jobs k = some j) (hr : j.rest = .request op next)
    (r : op.Reply) (hsaved : j.Saved) : (h.answer k j op r (next r)).Serial setting reg st₀ := by
  have hpermits := (hsound.permits hj hr).1
  have hphase := j.phase_told op r (next r)
  obtain ⟨lock, rfl⟩ : ∃ lock, op = .release lock := by
    rcases hs.saved hj hsaved with ⟨lock, hph⟩ | hph <;> rw [hph] at hpermits
    · exact ⟨lock, Call.op_of_leaving hpermits⟩
    · exact absurd hpermits Call.not_permits_over
  obtain ⟨order, hnodup, horder, hserially⟩ := hs.order
  have hsaved' : (j.told (.release lock) r (next r)).Saved := Job.saved_told.mpr (.inl hsaved)
  have hmem : k ∈ order := (mem_order_iff horder hj).mpr hsaved
  refine ⟨⟨order, hnodup, mem_order_update horder (iff_of_true hmem hsaved'),
    hserially.update fun _ j' hj' st st' hreplays => ?_⟩, fun {k' j'} hj' hsaved'' => ?_,
    fun {k' j'} hj' hunsaved => ?_⟩
  · obtain rfl : j = j' := Option.some.inj (hj.symm.trans hj')
    exact hreplays.told hr r trivial trivial
  · rcases jobs_update hj' with ⟨-, rfl⟩ | ⟨-, hj'⟩
    · exact .inr hphase
    · exact hs.saved hj' hsaved''
  · rcases jobs_update hj' with ⟨-, rfl⟩ | ⟨-, hj'⟩
    · exact absurd hsaved' hunsaved
    · exact hs.poised hj' hunsaved

/-- A task saves: it is the last in the order. -/
theorem Serial.saves {h : Hall} (hs : h.Serial setting reg st₀) (hsound : h.Sound) {k : Nat}
    {s : Session} {next : Except Parley.Fault Unit → InboxProgram Unit} (hj : h.jobs k = some j)
    (hr : j.rest = .request (.save s) next) (r : Except Parley.Fault Unit)
    (ht : Tells reg h.store (.save s) r) (hunsaved : ¬ j.Saved) (hto : ¬ h.Trespasses j.call) :
    (h.answer k j (.save s) r (next r)).Serial setting reg st₀ := by
  obtain ⟨lock, hand, hph, hf⟩ := (hsound.permits hj hr).1
  have hphase := j.phase_saved hph s r (next r)
  have hsaved' : (j.told (.save s) r (next r)).Saved := Job.saved_told.mpr (.inr ⟨s, rfl⟩)
  obtain ⟨order, hnodup, horder, hserially⟩ := hs.order
  have hnot : k ∉ order := mt (mem_order_iff horder hj).mp hunsaved
  have hreplays : j.Replays setting reg h.store h.store := by
    obtain ⟨log, hgoes, hlog, -⟩ := (hs.poised hj hunsaved).busy (congrArg Phase.busy? hph)
    exact ⟨log, hgoes, hlog⟩
  -- the task that saves is the last of the order
  refine ⟨⟨order ++ [k], ?_, fun k' => ?_, ?_⟩, fun {k' j'} hj' hsaved'' => ?_,
    fun {k' j'} hj' hunsaved' => ?_⟩
  · exact hnodup.append (List.nodup_singleton k) (by simpa using hnot)
  · by_cases he : k' = k
    · subst he
      have hself := Function.update_self k' (some (j.told (.save s) r (next r))) h.jobs
      exact iff_of_true (by simp) ⟨_, hself, hsaved'⟩
    · have hother := Function.update_of_ne he (some (j.told (.save s) r (next r))) h.jobs
      rw [List.mem_append, horder]
      simp only [answer, hother, List.mem_singleton, he, or_false]
  · exact .next (hserially.update fun hmem => absurd hmem hnot) (Function.update_self _ _ _)
      (hreplays.told hr r ht trivial)
  · rcases jobs_update hj' with ⟨-, rfl⟩ | ⟨-, hj'⟩
    · exact .inl ⟨lock, hphase⟩
    · exact hs.saved hj' hsaved''
  · rcases jobs_update hj' with ⟨-, rfl⟩ | ⟨hne, hj'⟩
    · exact absurd hsaved' hunsaved'
    · exact (hs.poised hj' hunsaved').save hsound hne hj' hj hph hf hto

/-- A task that has not saved is told something. -/
theorem Serial.asks {h : Hall} (hs : h.Serial setting reg st₀) (hsound : h.Sound) {k : Nat}
    {next : op.Reply → InboxProgram Unit} (hj : h.jobs k = some j) (hr : j.rest = .request op next)
    (r : op.Reply) (ht : Tells reg h.store op r) (hunsaved : ¬ j.Saved) (hop : ∀ s, op ≠ .save s)
    (hfinish : ∀ id, j.call ≠ .finish id) (hto : ¬ h.Trespasses j.call) :
    (h.answer k j op r (next r)).Serial setting reg st₀ := by
  have hstore : (h.answer k j op r (next r)).store = h.store := by
    cases op with
    | save s => exact absurd rfl (hop s)
    | delete id => exact absurd (hsound.permits hj hr).1.2 (hfinish id)
    | _ => rfl
  have hunsaved' : ¬ (j.told op r (next r)).Saved := fun hsaved => by
    rcases Job.saved_told.mp hsaved with hsaved | ⟨s, he⟩
    · exact hunsaved hsaved
    · exact hop s he
  obtain ⟨order, hnodup, horder, hserially⟩ := hs.order
  have hnot : k ∉ order := mt (mem_order_iff horder hj).mp hunsaved
  refine ⟨⟨order, hnodup, mem_order_update horder (iff_of_false hnot hunsaved'), ?_⟩,
    fun {k' j'} hj' hsaved => ?_, fun {k' j'} hj' hunsaved'' => ?_⟩
  · rw [hstore]
    exact hserially.update fun hmem => absurd hmem hnot
  · rcases jobs_update hj' with ⟨-, rfl⟩ | ⟨-, hj'⟩
    · exact absurd hsaved hunsaved'
    · exact hs.saved hj' hsaved
  · rw [hstore]
    rcases jobs_update hj' with ⟨-, rfl⟩ | ⟨-, hj'⟩
    · exact (hs.poised hj hunsaved).told hsound hj hr ht hto hop
    · exact hs.poised hj' hunsaved''

/-- A hall stays serial with every step, as long as it is calm. -/
theorem Serial.step {h h' : Hall} (hs : h.Serial setting reg st₀) (hsound : h.Sound) (hc : h.Calm)
    (hstep : Step setting reg h h') : h'.Serial setting reg st₀ := by
  cases hstep with
  | begins k call hk => exact hs.begins call hk
  | comes => exact ⟨hs.order, hs.saved, hs.poised⟩
  | @asks k j op next hj hr r ht ha =>
      obtain ⟨hfinish, hto⟩ := hc k j hj
      -- the task takes its place in the order when it saves, which it does once
      by_cases hsaved : j.Saved
      · exact hs.leaves hsound hj hr r hsaved
      · by_cases hop : ∃ s, op = .save s
        · obtain ⟨s, rfl⟩ := hop
          exact hs.saves hsound hj hr r ht hsaved hto
        · exact hs.asks hsound hj hr r ht hsaved (fun s he => hop ⟨s, he⟩) hfinish hto

/-- A hall is serial after every run to a calm one. -/
theorem Serial.reaches {h₀ h : Hall} (ho : h₀.Opening) (hr : Reaches setting reg h₀ h)
    (hc : h.Calm) :
    h.Serial setting reg h₀.store := by
  induction hr with
  | refl => exact ho.serial
  | tail hr hstep ih =>
      have hc' := hc.before hstep.before
      exact (ih hc').step (ho.sound.reaches hr) hc' hstep

/-- **Turns are taken one after the other.**  Of two tasks that have the same session in hand, one
handles a message that names the session of another contact.  When no task does so, and none ends a
session, the tasks that have saved stand in an order in which they could have run one after the
other, with what is stored now. -/
theorem turns_are_serial {h₀ h : Hall} (ho : h₀.Opening) (hr : Reaches setting reg h₀ h) :
    (∀ k k' j j' id, h.jobs k = some j → h.jobs k' = some j' → k ≠ k' → j.Handles id →
      j'.Handles id → h.Trespasses j.call ∨ h.Trespasses j'.call) ∧
    (h.Calm → ∃ order : List Nat, order.Nodup ∧
      (∀ k, k ∈ order ↔ ∃ j, h.jobs k = some j ∧ j.Saved) ∧
      Serially setting reg h.jobs h₀.store order h.store) := by
  refine ⟨fun k k' j j' id hj hj' hne hid hid' => ?_, fun hc => (Serial.reaches ho hr hc).order⟩
  by_contra hnot
  obtain ⟨hto, hto'⟩ := not_or.mp hnot
  exact hne ((ho.sound.reaches hr).eq_of_handles hj hj' hid hid' hto hto')

/-! A person has taken over the session of a contact.  The session is about to be released when a
message of the contact is noted; what was noted is still there when the session has been released.
-/

/-- A session that a person has taken over. -/
def taken : Session where
  id := "s1"
  flowId := "help"
  contact := { id := "ana" }
  status := .handoff
  startedAt := noon 0
  lastActivityAt := noon 0

/-- The session with what the contact wrote meanwhile. -/
def takenNoted : Session := (taken.assign "last_user_message" (.text "still there?")).touch (noon 1)

/-- Nobody is there yet, and the session is stored. -/
def takenHall : Hall where
  store := Store.save {} taken
  owner id := if id = "s1" then some "ana" else none

theorem timely_taken : taken.Timely :=
  ⟨utc_noon (by decide), utc_noon (by decide), nofun⟩

theorem timely_takenNoted : takenNoted.Timely :=
  ⟨utc_noon (by decide), utc_noon (by decide), nofun⟩

theorem opening_takenHall : takenHall.Opening where
  store := Store.sound_empty.save timely_taken fun _ hs => nomatch hs.row
  owned hs := by
    rcases (Store.holds_save timely_taken).mp hs with ⟨-, rfl⟩ | ⟨-, hs⟩
    · rfl
    · exact nomatch hs.row
  locks := rfl
  jobs _ := rfl

theorem latest_takenHall (now : Calendar.Moment) (newId : String) :
    takenHall.store.latest now newId "ana" "" = .ok (some taken) := by
  refine opening_takenHall.store.latest_of_only ⟨⟨timely_taken, rfl⟩, rfl, .inl rfl⟩ fun s hs => ?_
  rcases (Store.holds_save timely_taken).mp hs.holds with ⟨-, rfl⟩ | ⟨-, hs⟩
  · rfl
  · exact nomatch hs.row

theorem turns_are_serial_noted : ∃ h, Reaches ⟨{}, {}⟩ {} takenHall h ∧ h.Calm ∧
    (∃ j j', h.jobs 0 = some j ∧ j.call = .release "s1" ∧ j.Saved ∧ h.jobs 1 = some j' ∧ j'.Saved) ∧
    ∃ order : List Nat, order.Nodup ∧ (∀ k, k ∈ order ↔ ∃ j, h.jobs k = some j ∧ j.Saved) ∧
      Serially ⟨{}, {}⟩ {} h.jobs takenHall.store order h.store := by
  have htaken : takenHall.store.Holds taken := ⟨timely_taken, rfl⟩
  have hnoted : (takenHall.store.save takenNoted).Holds takenNoted :=
    (Store.holds_save timely_takenNoted).mpr (.inl ⟨rfl, rfl⟩)
  have hr : Reaches ⟨{}, {}⟩ {} takenHall takenHall := .refl
  have hr := hr.tail (.begins 0 (.release "s1") rfl)
  have hr := hr.tail (.begins 1 (.message { id := "ana" } (some "still there?") "" "") rfl)
  have hr := hr.tail (@Step.asks _ _ _ 0 _ (.load "s1") _ rfl rfl (.ok (some taken))
    ⟨noon 0, "", (htaken.get _ _).symm⟩ trivial)
  have hr := hr.tail (@Step.comes _ _ _ 1 _ "ana" _ rfl rfl (by decide))
  have hr := hr.tail (@Step.asks _ _ _ 1 _ (.acquire "ana") _ rfl rfl true trivial
    (show Locks.isInside _ _ _ = true by decide))
  -- the release has to wait for the message
  have hr := hr.tail (@Step.comes _ _ _ 0 _ "ana" _ rfl rfl (by decide))
  have hr := hr.tail (@Step.asks _ _ _ 1 _ (.latest "ana" "") _ rfl rfl (.ok (some taken))
    ⟨noon 0, "", (latest_takenHall _ _).symm⟩ trivial)
  have hr := hr.tail (@Step.asks _ _ _ 1 _ .now _ rfl rfl (noon 1) timely_takenNoted.active trivial)
  have hr := hr.tail (@Step.asks _ _ _ 1 _ (.save _) _ rfl rfl (.ok ()) nofun trivial)
  have hr := hr.tail (@Step.asks _ _ _ 1 _ (.release "ana") _ rfl rfl () trivial trivial)
  have hr := hr.tail (@Step.asks _ _ _ 0 _ (.acquire "ana") _ rfl rfl true trivial
    (show Locks.isInside _ _ _ = true by decide))
  have hr := hr.tail (@Step.asks _ _ _ 0 _ (.load "s1") _ rfl rfl (.ok (some takenNoted))
    ⟨noon 0, "", (hnoted.get _ _).symm⟩ trivial)
  have hr := hr.tail (@Step.asks _ _ _ 0 _ .now _ rfl rfl (noon 2) (utc_noon (by decide)) trivial)
  have hr := hr.tail (@Step.asks _ _ _ 0 _ (.save _) _ rfl rfl (.ok ()) nofun trivial)
  suffices hc : Calm _ by
    refine ⟨_, hr, hc, ⟨_, _, rfl, rfl, ?_, rfl, ?_⟩, (turns_are_serial opening_takenHall hr).2 hc⟩
    · exact Job.saved_told.mpr (.inr ⟨_, rfl⟩)
    · exact Job.saved_told.mpr (.inl (Job.saved_told.mpr (.inr ⟨_, rfl⟩)))
  rintro (_ | _ | k) j hj
  · cases hj
    exact ⟨nofun, nofun⟩
  · cases hj
    exact ⟨nofun, fun ⟨_, _, _, _, _, he, hid, _⟩ => by cases he; exact hid rfl⟩
  · cases hj

end Hall
end Parley.Inbox
