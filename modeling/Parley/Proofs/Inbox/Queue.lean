import Parley.Proofs.Inbox.Hall

/-!
# First come, first served

The visits of a lock stand in the order in which they began, and nobody is inside a lock before whom
somebody else visits it (`Locks.InLine`); a contact has a lock only while somebody visits it
(`Locks.Tidy`).  Whoever visits the lock of a contact is a task that is on its way inside or is
there (`Hall.Queues`).

So a task that leaves a lock was the first of those who visit it
(`Locks.leave_of_isInside`): the messages of a contact are handled in the order in which they came.
-/

namespace Parley.Inbox

/-! ### Locks -/

namespace Locks

variable {l : Locks} {task : Nat} {contact : String}

/-- A contact has a lock only while somebody visits it. -/
def Tidy (l : Locks) : Prop :=
  ∀ contact lock, l.serving.get? contact = some lock → ∃ v ∈ l.visits, v.contact = contact

/-- Nobody is inside a lock before whom somebody visits it. -/
def InLine (l : Locks) : Prop := l.visits.Pairwise fun u v => u.lock = v.lock → v.inside = false

/-- Who visits the lock of a contact, in order. -/
def visitorsOf (l : Locks) (contact : String) : List Nat :=
  (l.visits.filter (·.contact == contact)).map Visit.task

/-- Who comes to a lock stands last at it. -/
theorem visitorsOf_enter (l : Locks) (task : Nat) (contact other : String) :
    (l.enter task contact).visitorsOf other =
      l.visitorsOf other ++ if contact = other then [task] else [] := by
  unfold visitorsOf
  rw [visits_enter, List.filter_append, List.map_append]
  by_cases he : contact = other <;> simp [he]

theorem Tidy.enter (h : l.Tidy) (task : Nat) (contact : String) : (l.enter task contact).Tidy := by
  intro other lock hl
  rw [visits_enter]
  by_cases he : contact = other
  · exact ⟨_, List.mem_append_right _ (List.mem_singleton.mpr rfl), he⟩
  · have hold : l.serving.get? other = some lock := by
      unfold Locks.enter lockOf at hl
      cases hs : l.serving.get? contact with
      | some _ =>
          rw [hs] at hl
          exact hl
      | none =>
          rw [hs] at hl
          dsimp only at hl
          rw [Entries.get?_put, if_neg he] at hl
          exact hl
    obtain ⟨v, hv, hc⟩ := h other lock hold
    exact ⟨v, List.mem_append_left _ hv, hc⟩

theorem InLine.enter (h : l.InLine) (task : Nat) (contact : String) :
    (l.enter task contact).InLine := by
  unfold InLine
  rw [visits_enter]
  refine List.pairwise_append.mpr ⟨h, List.pairwise_singleton _ _, fun u hu v hv hl => ?_⟩
  obtain rfl := List.mem_singleton.mp hv
  simp only [Bool.not_eq_false', List.any_eq_true, beq_iff_eq]
  exact ⟨u, hu, hl⟩

/-- A line stays one when its first is let in. -/
theorem InLine.letIn {visits : List Visit} (lock : Nat)
    (h : visits.Pairwise fun u v => u.lock = v.lock → v.inside = false) :
    (letIn lock visits).Pairwise fun u v => u.lock = v.lock → v.inside = false := by
  induction visits with
  | nil => exact h
  | cons w rest ih =>
      obtain ⟨hw, hrest⟩ := List.pairwise_cons.mp h
      rw [Locks.letIn]
      split
      · exact List.pairwise_cons.mpr ⟨hw, hrest⟩
      · next hne =>
        refine List.pairwise_cons.mpr ⟨fun v hv hl => ?_, ih hrest⟩
        -- whoever is let in visits another lock
        rcases letIn_split lock rest with he | ⟨before, u, after, rfl, hu, he⟩ <;> rw [he] at hv
        · exact hw v hv hl
        · rcases List.mem_append.mp hv with hv | hv
          · exact hw v (List.mem_append_left _ hv) hl
          · rcases List.mem_cons.mp hv with rfl | hv
            · exact absurd (hl.trans hu) hne
            · exact hw v (List.mem_append_right _ (List.mem_cons_of_mem _ hv)) hl

/-- A line stays one when somebody leaves it. -/
theorem InLine.leave (h : l.InLine) (task : Nat) (contact : String) :
    (l.leave task contact).InLine := by
  rcases leave_cases l task contact with ⟨he, -⟩ | ⟨v, -, -, -, he⟩
  · rw [he]
    exact h
  · have herase := h.sublist (List.erase_sublist (a := v))
    rw [he]
    unfold InLine
    dsimp only
    split
    · exact InLine.letIn v.lock herase
    · exact herase

/-- No lock is left over when its last visitor leaves. -/
theorem Tidy.leave (h : l.Tidy) (hs : l.Sound) (task : Nat) (contact : String) :
    (l.leave task contact).Tidy := by
  have hs' := hs.leave task contact
  rcases leave_cases l task contact with ⟨he, -⟩ | ⟨v, hv, rfl, rfl, he⟩
  · rw [he]
    exact h
  · intro other lock hl
    suffices hpos : 0 < countAt other (l.leave v.task v.contact).visits by
      obtain ⟨u, hu, hc⟩ := List.countP_pos_iff.mp hpos
      exact ⟨u, hu, by simpa using hc⟩
    rw [← hs'.users]
    rw [he] at hl ⊢
    have husers : usersOf { l.drop v.contact with
        visits := if v.inside then letIn v.lock (l.visits.erase v) else l.visits.erase v } other =
        (l.drop v.contact).usersOf other := rfl
    rw [husers, usersOf_drop]
    have hserving : (l.drop v.contact).serving.get? other = some lock := hl
    by_cases hc : v.contact = other
    · -- the lock would have been dropped with its last user
      by_cases hle : l.usersOf v.contact ≤ 1
      · rw [drop, if_pos hle] at hserving
        dsimp only at hserving
        rw [Entries.get?_remove, if_pos hc] at hserving
        cases hserving
      · rw [if_pos hc]
        omega
    · rw [if_neg hc, hs.users]
      rw [serving_drop (.inr hc)] at hserving
      obtain ⟨u, hu, huc⟩ := h other lock hserving
      exact List.countP_pos_iff.mpr ⟨u, hu, by simpa using huc⟩

/-- Letting somebody in changes nothing about who visits. -/
theorem visitors_letIn (lock : Nat) (contact : String) (visits : List Visit) :
    ((letIn lock visits).filter (·.contact == contact)).map Visit.task =
      (visits.filter (·.contact == contact)).map Visit.task := by
  rcases letIn_split lock visits with hl | ⟨before, v, after, rfl, -, hl⟩
  · rw [hl]
  · rw [hl]
    simp only [List.filter_append, List.map_append, List.filter_cons]
    split <;> simp

/-- **Whoever is inside a lock** is the first of those who visit it, and the others move up when it
leaves. -/
theorem leave_of_isInside (hs : l.Sound) (h : l.InLine) (hi : l.isInside task contact = true) :
    l.visitorsOf contact = task :: (l.leave task contact).visitorsOf contact := by
  obtain ⟨v, hv, rfl, rfl, hin⟩ := isInside_iff.mp hi
  rcases leave_cases l v.task v.contact with ⟨-, hnone⟩ | ⟨u, hu, htask, hcontact, he⟩
  · exact absurd rfl (hnone v hv rfl)
  obtain rfl : u = v := List.inj_on_of_nodup_map hs.tasks hu hv htask
  unfold visitorsOf
  rw [he]
  dsimp only
  rw [if_pos hin, visitors_letIn]
  -- nobody stands before the one inside
  obtain ⟨before, after, hsplit⟩ := List.append_of_mem hu
  have hnodup : l.visits.Nodup := hs.tasks.of_map
  have hnotmem : u ∉ before := by
    rw [hsplit] at hnodup
    intro hmem
    exact (List.disjoint_of_nodup_append hnodup) hmem List.mem_cons_self
  have hbefore : ∀ w ∈ before, (w.contact == u.contact) = false := by
    intro w hw
    by_contra hc
    have hc : w.contact = u.contact := by simpa using hc
    have hmem : w ∈ l.visits := hsplit ▸ List.mem_append_left _ hw
    have hlock : w.lock = u.lock := by
      have hwlock := hs.lock hmem
      rw [hc, hs.lock hu] at hwlock
      exact (Option.some.inj hwlock).symm
    rw [InLine, hsplit] at h
    have hout := (List.pairwise_append.mp h).2.2 w hw u List.mem_cons_self hlock
    rw [hin] at hout
    cases hout
  have hnone : before.filter (·.contact == u.contact) = [] :=
    List.filter_eq_nil_iff.mpr fun w hw => by simp [hbefore w hw]
  rw [hsplit, List.erase_append_right _ hnotmem, List.erase_cons_head]
  simp [hnone]

/-- Those who visit other locks stay. -/
theorem visitorsOf_leave_of_ne {other : String} (hne : contact ≠ other) :
    (l.leave task contact).visitorsOf other = l.visitorsOf other := by
  rcases leave_cases l task contact with ⟨he, -⟩ | ⟨v, hv, rfl, rfl, he⟩
  · rw [he]
  · have herase : (l.visits.erase v).filter (·.contact == other) =
        l.visits.filter (·.contact == other) := by
      obtain ⟨before, after, hnot, hsplit, herase⟩ := List.exists_erase_eq hv
      rw [herase, hsplit]
      simp [hne]
    unfold visitorsOf
    rw [he]
    dsimp only
    split
    · rw [visitors_letIn, herase]
    · rw [herase]

/-- Whoever visits a lock after somebody has left visited it before, and is somebody else. -/
theorem Sound.of_mem_leave (hs : l.Sound) {v : Visit} (hv : v ∈ (l.leave task contact).visits) :
    ∃ u ∈ l.visits, u.task = v.task ∧ u.contact = v.contact ∧
      ¬ (u.task = task ∧ u.contact = contact) := by
  rcases leave_cases l task contact with ⟨he, hnone⟩ | ⟨w, hw, rfl, rfl, he⟩ <;> rw [he] at hv
  · exact ⟨v, hv, rfl, rfl, fun ⟨ht, hc⟩ => hnone v hv ht hc⟩
  · have hnodup : l.visits.Nodup := hs.tasks.of_map
    obtain ⟨u, hu, ht, hc⟩ : ∃ u ∈ l.visits.erase w, u.task = v.task ∧ u.contact = v.contact := by
      dsimp only at hv
      split at hv
      · rcases letIn_split w.lock (l.visits.erase w) with hl | ⟨before, u, after, hsplit, -, hl⟩ <;>
          rw [hl] at hv
        · exact ⟨v, hv, rfl, rfl⟩
        · rw [hsplit]
          rcases List.mem_append.mp hv with hv | hv
          · exact ⟨v, List.mem_append_left _ hv, rfl, rfl⟩
          · rcases List.mem_cons.mp hv with rfl | hv
            · exact ⟨u, by simp, rfl, rfl⟩
            · exact ⟨v, List.mem_append_right _ (List.mem_cons_of_mem _ hv), rfl, rfl⟩
      · exact ⟨v, hv, rfl, rfl⟩
    obtain ⟨hne, hmem⟩ := hnodup.mem_erase_iff.mp hu
    exact ⟨u, hmem, ht, hc, fun ⟨ht, _⟩ => hne (List.inj_on_of_nodup_map hs.tasks hmem hw ht)⟩

end Locks

/-! ### Those who visit -/

variable {setting : Setting} {reg : Registry} {call : Call} {ph : Phase} {op : Op}

/-- The reply does not make a task leave a lock. -/
def Op.Stays : (op : Op) → op.Reply → Prop
  | .acquire _, inside => inside = true
  | .release _, _ => False
  | _, _ => True

/-- The task is on its way to the lock of the contact, or inside. -/
def Phase.Visits (ph : Phase) (contact : String) :
    Prop := ph = .bound contact ∨ ph.lock? = some contact

theorem Phase.Visits.eq_of_bound {contact lock : String} (h : (Phase.bound lock).Visits contact) :
    lock = contact := by
  simpa [Phase.Visits, Phase.lock?] using h

theorem Phase.Visits.lock? {contact lock : String} (h : ph.Visits contact)
    (hl : ph.lock? = some lock) :
    ph.lock? = some contact := by
  rcases h with rfl | h
  · cases hl
  · exact h

/-- A task stays at a lock until it leaves it. -/
theorem Phase.Visits.after {contact : String} (h : ph.Visits contact) (hp : call.Permits ph op)
    {r : op.Reply} (hr : op.Stays r) : (call.after ph op r).Visits contact := by
  cases op with
  | acquire lock =>
      obtain rfl : ph = .bound lock := hp
      obtain rfl : r = true := hr
      exact .inr (congrArg some h.eq_of_bound)
  | release lock => exact hr.elim
  | delete id =>
      rw [hp.1] at h
      simp [Phase.Visits, Phase.lock?] at h
  | load id =>
      rcases hp with ⟨rfl, -⟩ | ⟨lock, rfl, -⟩
      · simp [Phase.Visits, Phase.lock?] at h
      · have hlock := h.lock? rfl
        rcases r with _ | _ | s <;> exact .inr hlock
  | latest other flowId =>
      obtain ⟨rfl, -⟩ := hp
      have hlock := h.lock? rfl
      rcases r with _ | _ | s
      · exact .inr hlock
      · exact .inr hlock
      · dsimp only [Call.after, Call.afterLatest]
        split <;> exact .inr hlock
  | resolve text flowId =>
      obtain ⟨lock, sender, said, rfl, -⟩ := hp
      cases r <;> exact .inr (h.lock? rfl)
  | newId =>
      obtain ⟨lock, flow, rfl⟩ := hp
      exact .inr (h.lock? rfl)
  | now =>
      rcases hp with ⟨lock, flow, id, rfl⟩ | ⟨lock, hand, rfl⟩ <;> exact .inr (h.lock? rfl)
  | save s =>
      obtain ⟨lock, hand, rfl, -⟩ := hp
      exact .inr (h.lock? rfl)
  | version | turn | ticket =>
      obtain ⟨lock, hand, rfl⟩ := hp
      exact h

/-- A task visits one lock. -/
theorem Phase.Visits.unique {contact contact' : String} (h : ph.Visits contact)
    (h' : ph.Visits contact') :
    contact = contact' := by
  rcases h with rfl | h <;> rcases h' with h' | h'
  · exact Phase.bound.inj h'
  · cases h'
  · rw [h'] at h
    cases h
  · exact Option.some.inj (h.symm.trans h')

namespace Hall

variable {h h' : Hall}

theorem locksAfter_of_stays {r : op.Reply} (hr : op.Stays r) (l : Locks) (k : Nat) :
    locksAfter l k op r = l := by
  cases op with
  | acquire lock =>
      obtain rfl : r = true := hr
      rfl
  | release lock => exact hr.elim
  | _ => rfl

/-- A task that does not stay leaves the lock that it visits. -/
theorem leaves_of_not_stays {r : op.Reply} (hp : call.Permits ph op) (hr : ¬ op.Stays r) :
    ∃ lock, ph.Visits lock ∧ call.after ph op r = .over ∧
      ∀ l k, locksAfter l k op r = l.leave k lock := by
  cases op with
  | acquire lock =>
      cases r with
      | false => exact ⟨lock, .inl hp, rfl, fun _ _ => rfl⟩
      | true => exact absurd rfl hr
  | release lock => exact ⟨lock, .inr hp, rfl, fun _ _ => rfl⟩
  | _ => exact absurd trivial hr

/-- The locks are in order, and those who visit them are tasks on their way there or inside. -/
structure Queues (h : Hall) : Prop where
  tidy : h.locks.Tidy
  inLine : h.locks.InLine
  visitors {v : Visit} (hv : v ∈ h.locks.visits) :
    ∃ j, h.jobs v.task = some j ∧ j.phase.Visits v.contact

theorem Opening.queues (ho : h.Opening) : h.Queues where
  tidy contact lock hl := by
    rw [ho.locks] at hl
    cases hl
  inLine := by
    rw [ho.locks]
    exact List.Pairwise.nil
  visitors hv := by
    rw [ho.locks] at hv
    cases hv

/-- **Every step keeps the locks in order.** -/
theorem Queues.step (hq : h.Queues) (hs : h.Sound) (hstep : Step setting reg h h') : h'.Queues := by
  cases hstep with
  | begins k call hk =>
      refine ⟨hq.tidy, hq.inLine, fun {v} hv => ?_⟩
      obtain ⟨j, hj, hvisits⟩ := hq.visitors hv
      refine ⟨j, (Function.update_of_ne (fun he => ?_) _ _).trans hj, hvisits⟩
      rw [he, hk] at hj
      cases hj
  | @comes k j lock next hj hr hnew =>
      refine ⟨hq.tidy.enter k lock, hq.inLine.enter k lock, fun {v} hv => ?_⟩
      have hmem : v ∈ (h.locks.enter k lock).visits := hv
      rw [Locks.visits_enter] at hmem
      rcases List.mem_append.mp hmem with hmem | hmem
      · exact hq.visitors hmem
      · obtain rfl := List.mem_singleton.mp hmem
        exact ⟨j, hj, .inl (hs.permits hj hr).1⟩
  | @asks k j op next hj hr r ht ha =>
      have hp := (hs.permits hj hr).1
      -- the reply leaves the task among the visitors of its lock, or the task leaves the lock
      by_cases hstays : op.Stays r
      · have hlocks : (h.answer k j op r (next r)).locks = h.locks := locksAfter_of_stays hstays _ _
        refine ⟨hlocks ▸ hq.tidy, hlocks ▸ hq.inLine, fun {v} hv => ?_⟩
        obtain ⟨j', hj', hvisits⟩ := hq.visitors (hlocks ▸ hv)
        by_cases he : v.task = k
        · rw [he] at hj' ⊢
          obtain rfl := Option.some.inj (hj.symm.trans hj')
          refine ⟨_, Function.update_self _ _ _, ?_⟩
          rw [j.phase_told]
          exact hvisits.after hp hstays
        · exact ⟨j', (Function.update_of_ne he _ _).trans hj', hvisits⟩
      · obtain ⟨lock, hlock, -, hleave⟩ := leaves_of_not_stays hp hstays
        have hlocks : (h.answer k j op r (next r)).locks = h.locks.leave k lock := hleave _ _
        refine ⟨hlocks ▸ hq.tidy.leave hs.locks k lock, hlocks ▸ hq.inLine.leave k lock,
          fun {v} hv => ?_⟩
        obtain ⟨u, hu, ht, hc, hother⟩ := hs.locks.of_mem_leave (hlocks ▸ hv)
        obtain ⟨j', hj', hvisits⟩ := hq.visitors hu
        rw [← ht, ← hc]
        refine ⟨j', (Function.update_of_ne (fun he => hother ⟨he, ?_⟩) _ _).trans hj', hvisits⟩
        rw [he] at hj'
        obtain rfl := Option.some.inj (hj.symm.trans hj')
        exact hvisits.unique hlock

/-- The lines of a hall stay lines in every run. -/
theorem Queues.reaches {h₀ : Hall} (ho : h₀.Opening) (hr : Reaches setting reg h₀ h) :
    h.Queues := by
  induction hr with
  | refl => exact ho.queues
  | tail hr hstep ih => exact ih.step (ho.sound.reaches hr) hstep

end Hall
end Parley.Inbox
