import Parley.Proofs.Inbox.Queue

/-!
# Mutual exclusion at the locks of contacts

A step at the locks is one task coming to the lock of a contact, or one that is there leaving it:
from inside, when it is done or cancelled, or from among those who wait, when it is cancelled there
(`Locks.Step`).  Who comes twice counts as two tasks.  What holds after any steps in any order, of
any tasks, is gathered in `Locks.Exclusive`: the locks exclude, their users are counted, and nothing
is kept of a contact that nobody visits.

The steps of a hall are such steps at its locks (`Hall.reaches_locks`), so all of this holds of the
tasks that handle messages and release sessions, whatever they ask for and are told in between.
-/

namespace Parley.Inbox

namespace Locks

variable {l l' : Locks} {task : Nat} {contact : String}

/-- One step at the locks. -/
inductive Step (l : Locks) : Locks → Prop where
  | comes (task : Nat) (contact : String) (hnew : ∀ v ∈ l.visits, v.task ≠ task) :
      Step l (l.enter task contact)
  | leaves (v : Visit) (hv : v ∈ l.visits) : Step l (l.leave v.task v.contact)

/-- Some steps. -/
abbrev Reaches : Locks → Locks → Prop := Relation.ReflTransGen Step

/-! ### The keys -/

theorem get?_users_of_lt (h : 0 < l.usersOf contact) :
    l.users.get? contact = some (l.usersOf contact) := by
  unfold usersOf at h ⊢
  cases hg : l.users.get? contact with
  | some count => rfl
  | none =>
      rw [hg] at h
      cases h

/-- A contact's lock and the count of its users are made together. -/
theorem names_enter (h : l.serving.names = l.users.names) (task : Nat) (contact : String) :
    (l.enter task contact).serving.names = (l.enter task contact).users.names := by
  unfold enter lockOf
  cases hs : l.serving.get? contact with
  | some lock =>
      have hmem : contact ∈ l.serving.names := List.mem_map_of_mem (Entries.mem_of_get? hs)
      dsimp only
      rw [Entries.names_put, ← h, if_pos hmem]
  | none =>
      dsimp only
      rw [Entries.names_put, Entries.names_put, h]

/-- A contact's lock and the count of its users are dropped together. -/
theorem names_drop (h : l.serving.names = l.users.names) (contact : String) :
    (l.drop contact).serving.names = (l.drop contact).users.names := by
  unfold drop
  split
  · rw [Entries.names_remove, Entries.names_remove, h]
  · next hlt =>
    have hget := get?_users_of_lt (Nat.lt_of_succ_lt (Nat.not_le.mp hlt))
    have hmem : contact ∈ l.users.names := List.mem_map_of_mem (Entries.mem_of_get? hget)
    dsimp only
    rw [Entries.names_put, if_pos hmem, h]

theorem names_leave (h : l.serving.names = l.users.names) (task : Nat) (contact : String) :
    (l.leave task contact).serving.names = (l.leave task contact).users.names := by
  rcases leave_cases l task contact with ⟨he, -⟩ | ⟨v, -, rfl, rfl, he⟩
  · rwa [he]
  · rw [he]
    exact names_drop h v.contact

/-! ### What every step keeps -/

/-- The locks are sound and kept for visitors alone, and a contact that has a lock has a count of
its users. -/
structure Kept (l : Locks) : Prop where
  sound : l.Sound
  tidy : l.Tidy
  names : l.serving.names = l.users.names

theorem kept_empty : Kept {} where
  sound := sound_empty
  tidy _ _ h := nomatch h
  names := rfl

/-- **Every step keeps the locks.** -/
theorem Kept.step (h : l.Kept) (hs : Step l l') : l'.Kept := by
  cases hs with
  | comes task contact hnew =>
      exact ⟨h.sound.enter hnew contact, h.tidy.enter task contact,
        names_enter h.names task contact⟩
  | leaves v hv =>
      exact ⟨h.sound.leave v.task v.contact, h.tidy.leave h.sound v.task v.contact,
        names_leave h.names v.task v.contact⟩

theorem Kept.reaches (h : l.Kept) (hr : Reaches l l') : l'.Kept := by
  induction hr with
  | refl => exact h
  | tail _ hs ih => exact ih.step hs

/-! ### Exclusion -/

/-- The locks exclude and are cleaned up. -/
structure Exclusive (l : Locks) : Prop where
  /-- At most one task is inside for a contact. -/
  alone {v v' : Visit} (hv : v ∈ l.visits) (hv' : v' ∈ l.visits) (hi : v.inside = true)
    (hi' : v'.inside = true) (hc : v.contact = v'.contact) : v = v'
  /-- The count of a contact's users is how many are inside or wait, and there is none of nobody. -/
  users_iff (contact : String) (count : Nat) :
    l.users.get? contact = some count ↔ 0 < count ∧ count = countAt contact l.visits
  names : l.serving.names = l.users.names
  /-- The lock that is visited is the one that the contact has. -/
  lock {v : Visit} (hv : v ∈ l.visits) : l.serving.get? v.contact = some v.lock
  /-- Those who visit one contact visit one lock. -/
  one {v v' : Visit} (hv : v ∈ l.visits) (hv' : v' ∈ l.visits) (hc : v.contact = v'.contact) :
    v.lock = v'.lock
  idle (h : l.visits = []) : l.serving = [] ∧ l.users = []

/-- Whoever has a count of users is visited. -/
theorem Kept.countAt_pos (h : l.Kept) (hc : contact ∈ l.users.names) :
    0 < countAt contact l.visits := by
  rw [← h.names, ← Entries.has_eq_true_iff, Entries.has, Option.isSome_iff_exists] at hc
  obtain ⟨lock, hlock⟩ := hc
  obtain ⟨v, hv, rfl⟩ := h.tidy contact lock hlock
  exact List.countP_pos_iff.mpr ⟨v, hv, by simp⟩

theorem Kept.users_iff (h : l.Kept) (contact : String) (count : Nat) :
    l.users.get? contact = some count ↔ 0 < count ∧ count = countAt contact l.visits := by
  rw [← h.sound.users]
  constructor
  · intro hget
    have hcount : l.usersOf contact = count := by rw [usersOf, hget, Option.getD_some]
    have hmem : contact ∈ l.users.names := List.mem_map_of_mem (Entries.mem_of_get? hget)
    have hpos := h.countAt_pos hmem
    rw [← h.sound.users, hcount] at hpos
    exact ⟨hpos, hcount.symm⟩
  · rintro ⟨hpos, rfl⟩
    exact get?_users_of_lt hpos

/-- **Locks that are kept exclude.** -/
theorem Kept.exclusive (h : l.Kept) : l.Exclusive := by
  have hone {v v' : Visit} (hv : v ∈ l.visits) (hv' : v' ∈ l.visits) (hc : v.contact = v'.contact) :
      v.lock = v'.lock := by
    have hlock := h.sound.lock hv
    rw [hc, h.sound.lock hv'] at hlock
    exact (Option.some.inj hlock).symm
  refine ⟨fun hv hv' hi hi' hc => h.sound.alone hv hv' hi hi' (hone hv hv' hc),
    h.users_iff, h.names, h.sound.lock, hone, fun hvisits => ?_⟩
  have husers : l.users.names = [] := List.eq_nil_iff_forall_not_mem.mpr fun contact hc => by
    have hpos := h.countAt_pos hc
    rw [hvisits] at hpos
    cases hpos
  exact ⟨List.map_eq_nil_iff.mp (h.names.trans husers), List.map_eq_nil_iff.mp husers⟩

theorem reaches_leave (l : Locks) (task : Nat) (contact : String) :
    Reaches l (l.leave task contact) := by
  rcases leave_cases l task contact with ⟨he, -⟩ | ⟨v, hv, rfl, rfl, -⟩
  · rw [he]
  · exact .single (.leaves v hv)

end Locks

/-! ### Halls -/

namespace Hall

variable {setting : Setting} {reg : Registry} {h₀ h h' : Hall}

/-- A step of a hall is a step at its locks, or none. -/
theorem Step.locks (hstep : Step setting reg h h') : Locks.Reaches h.locks h'.locks := by
  cases hstep with
  | begins k call hk => exact .refl
  | comes hj hr hv => exact .single (.comes _ _ hv)
  | @asks k j op next hj hr r ht ha =>
      change Locks.Reaches h.locks (locksAfter h.locks k op r)
      unfold locksAfter
      split
      · exact Locks.reaches_leave _ _ _
      · exact Locks.reaches_leave _ _ _
      · exact .refl

/-- **What a hall does is steps at its locks.** -/
theorem reaches_locks (hr : Reaches setting reg h₀ h) : Locks.Reaches h₀.locks h.locks := by
  induction hr with
  | refl => exact .refl
  | tail _ hstep ih => exact ih.trans hstep.locks

/-- Whoever is done visits no lock. -/
theorem Sound.visits_eq_nil (hs : h.Sound) (hq : h.Queues)
    (hdone : ∀ k j, h.jobs k = some j → j.rest = .done ()) : h.locks.visits = [] := by
  refine List.eq_nil_iff_forall_not_mem.mpr fun v hv => ?_
  obtain ⟨j, hj, hvisits⟩ := hq.visitors hv
  have hover := hs.obeys hj
  rw [hdone _ j hj] at hover
  have hph : j.phase = .over := hover
  rw [hph] at hvisits
  rcases hvisits with he | he <;> cases he

end Hall

namespace Locks

/-- **Mutual exclusion and clean-up.**  After any steps at the locks, of any tasks in any order, the
locks exclude and nothing is kept without need.  The tasks of a hall take such steps: no two of them
are inside the lock of one contact, and when all are done no lock and no count is left. -/
theorem exclusive_of_reaches :
    (∀ l : Locks, Reaches {} l → l.Exclusive) ∧
    ∀ (setting : Setting) (reg : Registry) (h₀ h : Hall), h₀.Opening →
      Hall.Reaches setting reg h₀ h → Reaches {} h.locks ∧
      (∀ k k' j j' contact, h.jobs k = some j → h.jobs k' = some j' →
        j.phase.lock? = some contact → j'.phase.lock? = some contact → k = k') ∧
      ((∀ k j, h.jobs k = some j → j.rest = .done ()) → h.locks.serving = [] ∧
        h.locks.users = []) := by
  have hexclusive (l : Locks) (hr : Reaches {} l) : l.Exclusive := (kept_empty.reaches hr).exclusive
  refine ⟨hexclusive, fun setting reg h₀ h ho hr => ?_⟩
  have hs := ho.sound.reaches hr
  have hlocks : Reaches {} h.locks := ho.locks ▸ Hall.reaches_locks hr
  refine ⟨hlocks, fun k k' j j' contact hj hj' hl hl' => ?_, fun hdone => ?_⟩
  · exact hs.locks.eq_of_isInside (hs.inside hj hl) (hs.inside hj' hl')
  · exact (hexclusive _ hlocks).idle (hs.visits_eq_nil (.reaches ho hr) hdone)

/-- Three tasks come for Ana and one for Bia; the last of the three gives up, and then the first is
done. -/
def anaAndBia : Locks :=
  ((((((({} : Locks).enter 0 "ana").enter 1 "ana").enter 2 "ana").enter 3 "bia").leave 2
    "ana").leave 0 "ana")

theorem exclusive_of_reaches_anaAndBia : Reaches {} anaAndBia ∧ anaAndBia.isInside 1 "ana" = true ∧
    anaAndBia.isInside 3 "bia" = true ∧ anaAndBia.users = [("ana", 1), ("bia", 1)] ∧
    anaAndBia.Exclusive := by
  have hr : Reaches {} anaAndBia := by
    have h₁ : Reaches {} (({} : Locks).enter 0 "ana") := .single (.comes 0 "ana" (by decide))
    have h₂ := h₁.tail (.comes 1 "ana" (by decide))
    have h₃ := h₂.tail (.comes 2 "ana" (by decide))
    have h₄ := h₃.tail (.comes 3 "bia" (by decide))
    have h₅ := h₄.tail (.leaves ⟨2, "ana", 0, false⟩ (by decide))
    exact h₅.tail (.leaves ⟨0, "ana", 0, true⟩ (by decide))
  exact ⟨hr, by decide, by decide, by decide, exclusive_of_reaches.1 anaAndBia hr⟩

end Locks

end Parley.Inbox
