import Mathlib.Data.List.Nodup
import Parley.Inbox.Locks
import Parley.Proofs.Value.Entries

/-!
# One task at a time

`l.Sound`: every visit is at the lock of its contact, the users of a lock are counted, no task
visits twice, and of those who visit one lock at most one is inside.  Coming and leaving keep locks
sound (`Sound.enter`, `Sound.leave`), so two tasks are never inside the lock of one contact
(`Sound.eq_of_isInside`): the lock of a contact is not dropped and made anew while somebody is
there.
-/

namespace Parley.Inbox.Locks

/-- How many visits there are at the lock of a contact. -/
def countAt (contact : String) (visits : List Visit) : Nat := visits.countP (·.contact == contact)

/-- The visits are as the locks and their users say. -/
structure Sound (l : Locks) : Prop where
  lock {v : Visit} (h : v ∈ l.visits) : l.serving.get? v.contact = some v.lock
  users (contact : String) : l.usersOf contact = countAt contact l.visits
  tasks : (l.visits.map Visit.task).Nodup
  alone {v v' : Visit} (h : v ∈ l.visits) (h' : v' ∈ l.visits) (hi : v.inside = true)
    (hi' : v'.inside = true) (hl : v.lock = v'.lock) : v = v'

theorem sound_empty : Sound {} where
  lock h := nomatch h
  users _ := rfl
  tasks := List.nodup_nil
  alone h := nomatch h

theorem isInside_iff {l : Locks} {task : Nat} {contact : String} :
    l.isInside task contact = true ↔
      ∃ v ∈ l.visits, v.task = task ∧ v.contact = contact ∧ v.inside = true := by
  simp [isInside, and_assoc]

/-- **Two tasks are never inside the lock of one contact.** -/
theorem Sound.eq_of_isInside {l : Locks} (h : l.Sound) {task task' : Nat} {contact : String}
    (ht : l.isInside task contact = true) (ht' : l.isInside task' contact = true) :
    task = task' := by
  obtain ⟨v, hv, rfl, rfl, hi⟩ := isInside_iff.mp ht
  obtain ⟨v', hv', rfl, hc, hi'⟩ := isInside_iff.mp ht'
  have hl := h.lock hv
  rw [← hc, h.lock hv'] at hl
  rw [h.alone hv hv' hi hi' (Option.some.inj hl).symm]

/-! ### Coming -/

variable {l : Locks}

/-- The lock of a contact, as it is or as it is made. -/
theorem lockOf_spec (l : Locks) (contact : String) :
    (l.lockOf contact).2.visits = l.visits ∧ (l.lockOf contact).2.users = l.users ∧
      (l.lockOf contact).2.serving.get? contact = some (l.lockOf contact).1 ∧
      ∀ other lock, l.serving.get? other = some lock →
        (l.lockOf contact).2.serving.get? other = some lock := by
  unfold lockOf
  cases h : l.serving.get? contact with
  | some lock => exact ⟨rfl, rfl, h, fun _ _ h => h⟩
  | none =>
      refine ⟨rfl, rfl, by rw [Entries.get?_put, if_pos rfl], fun other lock ho => ?_⟩
      have hne : contact ≠ other := fun he => by
        rw [he, ho] at h
        cases h
      rw [Entries.get?_put, if_neg hne]
      exact ho

theorem visits_enter (l : Locks) (task : Nat) (contact : String) :
    (l.enter task contact).visits = l.visits ++ [⟨task, contact, (l.lockOf contact).1,
      !l.visits.any (·.lock == (l.lockOf contact).1)⟩] := by
  unfold enter
  dsimp only
  rw [(lockOf_spec l contact).1]

theorem usersOf_enter (l : Locks) (task : Nat) (contact other : String) :
    (l.enter task contact).usersOf other =
      if contact = other then l.usersOf contact + 1 else l.usersOf other := by
  obtain ⟨-, husers, -, -⟩ := lockOf_spec l contact
  unfold enter usersOf
  dsimp only
  rw [husers, Entries.get?_put]
  split <;> rfl

/-- **Locks stay sound when a task comes** that is not there yet. -/
theorem Sound.enter (h : l.Sound) {task : Nat} (ht : ∀ v ∈ l.visits, v.task ≠ task)
    (contact : String) :
    (l.enter task contact).Sound := by
  obtain ⟨hvisits, husers, hlock, hkeeps⟩ := lockOf_spec l contact
  have hmem {v : Visit} (hv : v ∈ (l.enter task contact).visits) :
      v ∈ l.visits ∨ v = ⟨task, contact, (l.lockOf contact).1,
        !l.visits.any (·.lock == (l.lockOf contact).1)⟩ := by
    rw [visits_enter] at hv
    simpa using hv
  refine ⟨fun {v} hv => ?_, fun other => ?_, ?_, fun {v v'} hv hv' hi hi' hl => ?_⟩
  · rcases hmem hv with hv | rfl
    · exact hkeeps _ _ (h.lock hv)
    · exact hlock
  · rw [visits_enter, usersOf_enter, h.users, h.users]
    simp only [countAt, List.countP_append]
    by_cases he : contact = other <;> simp [he]
  · rw [visits_enter, List.map_append]
    refine h.tasks.append (List.nodup_singleton task) ?_
    intro t hvt hts
    obtain ⟨v, hv, rfl⟩ := List.mem_map.mp hvt
    exact ht v hv (List.mem_singleton.mp hts)
  -- a newcomer is inside only where nobody else is
  · have hnew {u : Visit} (hu : u ∈ l.visits)
      (hn : (!l.visits.any (·.lock == (l.lockOf contact).1)) = true) :
        u.lock ≠ (l.lockOf contact).1 := fun he => by
      have hnone : ∀ x ∈ l.visits, ¬ x.lock = (l.lockOf contact).1 := by simpa using hn
      exact hnone u hu he
    rcases hmem hv with hv | rfl <;> rcases hmem hv' with hv' | rfl
    · exact h.alone hv hv' hi hi' hl
    · exact absurd hl (hnew hv hi')
    · exact absurd hl.symm (hnew hv' hi)
    · rfl

/-! ### Leaving -/

/-- Nobody waits for the lock, or the first who does is let in. -/
theorem letIn_split (lock : Nat) (visits : List Visit) :
    letIn lock visits = visits ∨ ∃ before v after, visits = before ++ v :: after ∧ v.lock = lock ∧
      letIn lock visits = before ++ { v with inside := true } :: after := by
  induction visits with
  | nil => exact .inl rfl
  | cons v rest ih =>
      rw [letIn]
      split
      · next hv => exact .inr ⟨[], v, rest, rfl, hv, rfl⟩
      · rcases ih with ih | ⟨before, u, after, rfl, hu, ih⟩
        · exact .inl (by rw [ih])
        · exact .inr ⟨v :: before, u, after, rfl, hu, by rw [ih]; rfl⟩

/-- Letting somebody in changes nothing else about the visits. -/
theorem map_letIn {α : Type} (f : Visit → α) (hf : ∀ v, f { v with inside := true } = f v)
    (lock : Nat)
    (visits : List Visit) : (letIn lock visits).map f = visits.map f := by
  rcases letIn_split lock visits with h | ⟨before, v, after, rfl, -, h⟩
  · rw [h]
  · rw [h]
    simp [hf]

theorem countAt_letIn (contact : String) (lock : Nat) (visits : List Visit) :
    countAt contact (letIn lock visits) = countAt contact visits := by
  have hmap (vs : List Visit) :
      countAt contact vs = (vs.map Visit.contact).countP (· == contact) := by
    rw [List.countP_map]
    rfl
  rw [hmap, hmap, map_letIn _ fun _ => rfl]

/-- **Locks stay sound when somebody is let in** where nobody is inside. -/
theorem Sound.letIn (h : l.Sound) {lock : Nat}
    (hn : ∀ v ∈ l.visits, v.inside = true → v.lock ≠ lock) :
    Sound { l with visits := letIn lock l.visits } := by
  rcases letIn_split lock l.visits with he | ⟨before, u, after, hvisits, hu, he⟩
  · rw [he]
    exact h
  have hu' : u ∈ l.visits := by
    rw [hvisits]
    simp
  have hmem {x : Visit} (hx : x ∈ Locks.letIn lock l.visits) :
      x = { u with inside := true } ∨ x ∈ l.visits := by
    rw [he] at hx
    rw [hvisits]
    rcases List.mem_append.mp hx with hx | hx
    · exact .inr (List.mem_append_left _ hx)
    · exact (List.mem_cons.mp hx).imp_right fun hx =>
        List.mem_append_right _ (List.mem_cons_of_mem _ hx)
  -- nobody is inside of the lock, so the visit that is let in is alone there
  refine ⟨fun {v} hv => ?_, fun contact => ?_, ?_, fun {v v'} hv hv' hi hi' hl => ?_⟩
  · rcases hmem hv with rfl | hv
    · have hlock := h.lock hu'
      exact hlock
    · exact h.lock hv
  · exact (h.users contact).trans (countAt_letIn contact lock l.visits).symm
  · have htasks := map_letIn Visit.task (fun _ => rfl) lock l.visits
    exact htasks ▸ h.tasks
  · rcases hmem hv with rfl | hv <;> rcases hmem hv' with rfl | hv'
    · rfl
    · exact absurd (hl.symm.trans hu) (hn v' hv' hi')
    · exact absurd (hl.trans hu) (hn v hv hi)
    · exact h.alone hv hv' hi hi' hl

theorem usersOf_drop (l : Locks) (contact other : String) :
    (l.drop contact).usersOf other =
      if contact = other then l.usersOf contact - 1 else l.usersOf other := by
  unfold drop
  split
  · next hle =>
    unfold usersOf at hle ⊢
    dsimp only
    rw [Entries.get?_remove]
    split
    · exact (Nat.sub_eq_zero_of_le hle).symm
    · rfl
  · unfold usersOf
    dsimp only
    rw [Entries.get?_put]
    split <;> rfl

theorem serving_drop {l : Locks} {contact other : String}
    (h : 1 < l.usersOf contact ∨ contact ≠ other) :
    (l.drop contact).serving.get? other = l.serving.get? other := by
  unfold drop
  split
  · next hle =>
    dsimp only
    rw [Entries.get?_remove, if_neg (h.resolve_left (Nat.not_lt.mpr hle))]
  · rfl

/-- Somebody leaves, or was not there. -/
theorem leave_cases (l : Locks) (task : Nat) (contact : String) :
    l.leave task contact = l ∧ (∀ v ∈ l.visits, v.task = task → v.contact ≠ contact) ∨
      ∃ v ∈ l.visits, v.task = task ∧ v.contact = contact ∧ l.leave task contact =
        { l.drop contact with
          visits := if v.inside then letIn v.lock (l.visits.erase v) else l.visits.erase v } := by
  unfold leave
  cases hf : l.visits.find? fun v => v.task == task && v.contact == contact with
  | none =>
      refine .inl ⟨rfl, fun v hv ht hc => ?_⟩
      have := List.find?_eq_none.mp hf v hv
      simp [ht, hc] at this
  | some v =>
      have hv := List.find?_some hf
      simp only [Bool.and_eq_true, beq_iff_eq] at hv
      exact .inr ⟨v, List.mem_of_find?_eq_some hf, hv.1, hv.2, rfl⟩

/-- **Locks stay sound when a task leaves.** -/
theorem Sound.leave (h : l.Sound) (task : Nat) (contact : String) :
    (l.leave task contact).Sound := by
  rcases leave_cases l task contact with ⟨he, -⟩ | ⟨v, hv, rfl, rfl, he⟩
  · rw [he]
    exact h
  have hnodup : l.visits.Nodup := h.tasks.of_map
  have hsub {u : Visit} (hu : u ∈ l.visits.erase v) : u ≠ v ∧ u ∈ l.visits :=
    hnodup.mem_erase_iff.mp hu
  have hcount (contact : String) : countAt contact l.visits =
      countAt contact (l.visits.erase v) + if v.contact = contact then 1 else 0 := by
    unfold countAt
    rw [(List.perm_cons_erase hv).countP_eq, List.countP_cons]
    simp
  have hgone : Sound { l.drop v.contact with visits := l.visits.erase v } := by
    refine ⟨fun {u} hu => ?_, fun contact => ?_, h.tasks.sublist (List.erase_sublist.map _),
      fun hu hu' => h.alone (hsub hu).2 (hsub hu').2⟩
    -- the lock is kept for those who stay
    · refine (serving_drop ?_).trans (h.lock (hsub hu).2)
      by_cases hc : v.contact = u.contact
      · have hpos : 0 < countAt v.contact (l.visits.erase v) :=
          List.countP_pos_iff.mpr ⟨u, hu, by simp [hc]⟩
        refine .inl ?_
        rw [h.users, hcount, if_pos rfl]
        omega
      · exact .inr hc
    · refine (usersOf_drop l v.contact contact).trans ?_
      dsimp only
      rw [h.users, h.users, hcount, hcount]
      split
      · next hc => simp [hc]
      · simp
  rw [he]
  cases hin : v.inside with
  | false => exact hgone
  | true => exact hgone.letIn fun u hu hi hl => (hsub hu).1 (h.alone (hsub hu).2 hv hi hin hl)

/-- Nobody else is put out when a task leaves. -/
theorem isInside_leave {l : Locks} {task task' : Nat} {contact contact' : String}
    (hne : task' ≠ task) (hi : l.isInside task' contact' = true) :
    (l.leave task contact).isInside task' contact' = true := by
  rcases leave_cases l task contact with ⟨he, -⟩ | ⟨v, -, rfl, rfl, he⟩
  · rw [he]
    exact hi
  obtain ⟨u, hu, rfl, rfl, hin⟩ := isInside_iff.mp hi
  have hu' : u ∈ l.visits.erase v :=
    (List.mem_erase_of_ne fun huv => hne (congrArg Visit.task huv)).mpr hu
  rw [he, isInside_iff]
  dsimp only
  split
  · rcases letIn_split v.lock (l.visits.erase v) with hl | ⟨before, w, after, hvisits, -, hl⟩
    · rw [hl]
      exact ⟨u, hu', rfl, rfl, hin⟩
    · rw [hl]
      rw [hvisits] at hu'
      rcases List.mem_append.mp hu' with hu' | hu'
      · exact ⟨u, List.mem_append_left _ hu', rfl, rfl, hin⟩
      · rcases List.mem_cons.mp hu' with rfl | hu'
        · exact ⟨{ u with inside := true }, by simp, rfl, rfl, rfl⟩
        · exact ⟨u, List.mem_append_right _ (List.mem_cons_of_mem _ hu'), rfl, rfl, hin⟩
  · exact ⟨u, hu', rfl, rfl, hin⟩

theorem isInside_enter {task task' : Nat} {contact contact' : String}
    (hi : l.isInside task' contact' = true) :
    (l.enter task contact).isInside task' contact' = true := by
  obtain ⟨v, hv, hs⟩ := isInside_iff.mp hi
  refine isInside_iff.mpr ⟨v, ?_, hs⟩
  rw [visits_enter]
  exact List.mem_append_left _ hv

end Parley.Inbox.Locks
