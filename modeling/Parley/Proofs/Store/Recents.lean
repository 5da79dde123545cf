import Parley.Proofs.Store.Sound

/-!
# A contact's sessions in the order of their activity

`st.Lists contact ss`: the sessions of the contact are `ss`, the one that was active last first, and
no two of them were active at one moment.  A look finds the first of them that it sees
(`Lists.latest`).  A session that is put later than all of them goes to the front (`Lists.put_new`,
`Lists.put_last`), and one that is put with its old date stays in its place (`Lists.put_inPlace`).

`st.SameFor contact st'`: the two stores have the same documents of the contact.
-/

namespace Parley

open Calendar

namespace Store

variable {st : Store} {contact : String} {ss before after : List Session} {s old : Session}

/-- The sessions of the contact, the one that was active last first. -/
structure Lists (st : Store) (contact : String) (ss : List Session) : Prop where
  mem (s : Session) : s ∈ ss ↔ st.Holds s ∧ s.contact.id = contact
  sorted : ss.Pairwise fun a b => b.lastActivityAt.reading < a.lastActivityAt.reading

theorem lists_empty (contact : String) : Lists {} contact [] where
  mem _ := ⟨nofun, fun ⟨hs, _⟩ => nomatch hs.row⟩
  sorted := .nil

theorem Lists.unique {ss' : List Session} (h : st.Lists contact ss) (h' : st.Lists contact ss') :
    ss = ss' := by
  have hnodup {ss : List Session} (h : st.Lists contact ss) : ss.Nodup :=
    h.sorted.imp fun {a b} hlt he => by
      subst he
      exact Int.lt_irrefl _ hlt
  have hperm : ss.Perm ss' :=
    (List.perm_ext_iff_of_nodup (hnodup h) (hnodup h')).mpr fun s => (h.mem s).trans (h'.mem s).symm
  exact hperm.eq_of_pairwise
    (fun _ _ _ _ hlt hlt' => absurd hlt (Int.lt_asymm hlt')) h.sorted h'.sorted

/-- **A look finds** the first session that it sees. -/
theorem Lists.latest (h : st.Lists contact ss) (hst : st.Sound) (now : Moment)
    (newId flowId : String) :
    st.latest now newId contact flowId = .ok (ss.find? fun s => s.IsSeen flowId) := by
  rcases hst.latest contact flowId with ⟨m, hm, hlatest⟩ | ⟨hnone, hlatest⟩ <;> rw [hlatest] <;>
    refine congrArg Except.ok (Eq.symm ?_)
  · have hmem : m ∈ ss := (h.mem m).mpr ⟨hm.offers.holds, hm.offers.contact⟩
    obtain ⟨before, after, rfl⟩ := List.append_of_mem hmem
    refine List.find?_eq_some_iff_append.mpr ⟨by simpa using hm.offers.seen, before, after, rfl, ?_⟩
    -- a session before the latest one was active later
    intro a ha
    have hlater := (List.pairwise_append.mp h.sorted).2.2 a ha m List.mem_cons_self
    obtain ⟨hholds, hcontact⟩ := (h.mem a).mp (List.mem_append_left _ ha)
    have hunseen : ¬ a.IsSeen flowId := fun hseen => by
      have hle := hm.latest ⟨hholds, hcontact, hseen⟩
      omega
    simpa using hunseen
  · refine List.find?_eq_none.mpr fun a ha => ?_
    obtain ⟨hholds, hcontact⟩ := (h.mem a).mp ha
    have hunseen : ¬ a.IsSeen flowId := fun hseen => hnone a ⟨hholds, hcontact, hseen⟩
    simpa using hunseen

/-- The sessions but one are those with other ids. -/
theorem Lists.mem_rest (h : st.Lists contact (before ++ old :: after)) (s : Session) :
    s ∈ before ++ after ↔ s.id ≠ old.id ∧ st.Holds s ∧ s.contact.id = contact := by
  have hold : st.Holds old := ((h.mem old).mp (by simp)).1
  constructor
  · intro hs
    have hmem : s ∈ before ++ old :: after := by
      simp only [List.mem_append, List.mem_cons] at hs ⊢
      exact hs.imp_right .inr
    refine ⟨fun he => ?_, (h.mem s).mp hmem⟩
    -- a session before or after it is not it, for they were active at different moments
    obtain rfl := ((h.mem s).mp hmem).1.eq hold he
    obtain ⟨-, hafter, hbefore⟩ := List.pairwise_append.mp h.sorted
    rcases List.mem_append.mp hs with hs | hs
    · exact absurd (hbefore s hs s List.mem_cons_self) (Int.lt_irrefl _)
    · exact absurd (List.rel_of_pairwise_cons hafter hs) (Int.lt_irrefl _)
  · rintro ⟨hne, hs⟩
    have hmem := (h.mem s).mpr hs
    simp only [List.mem_append, List.mem_cons] at hmem ⊢
    rcases hmem with hmem | rfl | hmem
    · exact .inl hmem
    · exact absurd rfl hne
    · exact .inr hmem

/-- A session is put in its place, which was active later than the others. -/
theorem lists_put {rest : List Session} (hs : s.Timely) (hc : s.contact.id = contact)
    (hmem : ∀ s', s' ∈ rest ↔ s'.id ≠ s.id ∧ st.Holds s' ∧ s'.contact.id = contact)
    (hsorted : rest.Pairwise fun a b => b.lastActivityAt.reading < a.lastActivityAt.reading)
    (hlate : ∀ s' ∈ rest, s'.lastActivityAt.reading < s.lastActivityAt.reading) :
    (st.put s).Lists contact (s :: rest) where
  mem s' := by
    rw [List.mem_cons, hmem, holds_put hs]
    constructor
    · rintro (rfl | ⟨hne, hholds, hc'⟩)
      · exact ⟨.inl rfl, hc⟩
      · exact ⟨.inr ⟨hne, hholds⟩, hc'⟩
    · rintro ⟨rfl | ⟨hne, hholds⟩, hc'⟩
      · exact .inl rfl
      · exact .inr ⟨hne, hholds, hc'⟩
  sorted := List.pairwise_cons.mpr ⟨hlate, hsorted⟩

/-- **A new session** goes to the front. -/
theorem Lists.put_new (h : st.Lists contact ss) (hs : s.Timely) (hc : s.contact.id = contact)
    (hnew : ∀ s' ∈ ss, s'.id ≠ s.id)
    (hlate : ∀ s' ∈ ss, s'.lastActivityAt.reading < s.lastActivityAt.reading) :
    (st.put s).Lists contact (s :: ss) := by
  refine lists_put hs hc (fun s' => ?_) h.sorted hlate
  rw [h.mem]
  refine ⟨fun hs' => ⟨hnew s' ((h.mem s').mpr hs'), hs'⟩, And.right⟩

/-- **A session that was active again** goes to the front. -/
theorem Lists.put_last (h : st.Lists contact (before ++ old :: after)) (hs : s.Timely)
    (hid : s.id = old.id) (hc : s.contact.id = contact)
    (hlate : ∀ s' ∈ before ++ after, s'.lastActivityAt.reading < s.lastActivityAt.reading) :
    (st.put s).Lists contact (s :: (before ++ after)) := by
  have hsub : (before ++ after).Sublist (before ++ old :: after) :=
    List.Sublist.append_left (List.sublist_cons_self old after) before
  exact lists_put hs hc (fun s' => hid ▸ h.mem_rest s') (h.sorted.sublist hsub) hlate

/-- **A session with its old date** stays in its place. -/
theorem Lists.put_inPlace (h : st.Lists contact (before ++ old :: after)) (hs : s.Timely)
    (hid : s.id = old.id) (hc : s.contact.id = contact)
    (hactive : s.lastActivityAt = old.lastActivityAt) :
    (st.put s).Lists contact (before ++ s :: after) where
  mem s' := by
    have hrest := h.mem_rest s'
    rw [holds_put hs, hid]
    simp only [List.mem_append, List.mem_cons] at hrest ⊢
    constructor
    · rintro (hmem | rfl | hmem)
      · exact ⟨.inr ((hrest.mp (.inl hmem)).imp_right And.left), (hrest.mp (.inl hmem)).2.2⟩
      · exact ⟨.inl rfl, hc⟩
      · exact ⟨.inr ((hrest.mp (.inr hmem)).imp_right And.left), (hrest.mp (.inr hmem)).2.2⟩
    · rintro ⟨rfl | ⟨hne, hholds⟩, hc'⟩
      · exact .inr (.inl rfl)
      · exact (hrest.mpr ⟨hne, hholds, hc'⟩).imp_right .inr
  sorted := by
    have hsorted := h.sorted
    rw [List.pairwise_append, List.pairwise_cons] at hsorted ⊢
    simpa only [List.mem_cons, forall_eq_or_imp, hactive] using hsorted

/-! ### Stores with the same sessions of a contact -/

/-- The stores have the same documents of the contact. -/
structure SameFor (contact : String) (st st' : Store) : Prop where
  ids : st.idsOf contact = st'.idsOf contact
  rows : ∀ id ∈ st.idsOf contact, st.rows.get? id = st'.rows.get? id

variable {st' : Store}

theorem SameFor.refl (contact : String) (st : Store) :
    SameFor contact st st := ⟨rfl, fun _ _ => rfl⟩

/-- The same is told about the contact. -/
theorem SameFor.latest_eq (h : SameFor contact st st') (now : Moment) (newId flowId : String) :
    st.latest now newId contact flowId = st'.latest now newId contact flowId := by
  have hrows : (st.idsOf contact).filterMap st.rows.get? =
      (st'.idsOf contact).filterMap st'.rows.get? := by
    rw [← h.ids]
    exact List.filterMap_congr h.rows
  unfold Store.latest latestRow
  rw [hrows]

theorem SameFor.put (h : SameFor contact st st') (hc : s.contact.id = contact) :
    SameFor contact (st.put s) (st'.put s) where
  ids := by rw [idsOf_put, idsOf_put, if_pos hc, if_pos hc, h.ids]
  rows id hid := by
    rw [idsOf_put, if_pos hc] at hid
    rw [rows_put, rows_put, Entries.get?_put, Entries.get?_put]
    by_cases he : s.id = id
    · rw [if_pos he, if_pos he]
    · rw [if_neg he, if_neg he]
      exact h.rows id ((mem_joinId.mp hid).resolve_right (Ne.symm he))

/-- A session of the contact is saved in both. -/
theorem SameFor.save (h : SameFor contact st st') (hc : s.contact.id = contact) :
    SameFor contact (st.save s) (st'.save s) := by
  cases hf : s.fits with
  | false => rwa [save_of_not_fits st hf, save_of_not_fits st' hf]
  | true =>
      rw [save_of_fits st hf, save_of_fits st' hf]
      exact h.put hc

/-- A session of another contact is put in its place. -/
theorem SameFor.put_other (h : SameFor contact st st') (hc : s.contact.id ≠ contact)
    (hid : s.id ∉ st'.idsOf contact) : SameFor contact st (st'.put s) where
  ids := by rw [idsOf_put, if_neg hc, h.ids]
  rows id hmem := by
    have hne : s.id ≠ id := fun he => hid (he ▸ h.ids ▸ hmem)
    rw [rows_put, Entries.get?_put, if_neg hne]
    exact h.rows id hmem

/-- A session of another contact is saved. -/
theorem SameFor.save_other (h : SameFor contact st st') (hc : s.contact.id ≠ contact)
    (hid : s.id ∉ st'.idsOf contact) : SameFor contact st (st'.save s) := by
  cases hf : s.fits with
  | false => rwa [save_of_not_fits st' hf]
  | true =>
      rw [save_of_fits st' hf]
      exact h.put_other hc hid

/-- The contact has the same sessions. -/
theorem SameFor.lists (h : SameFor contact st st') (hst : st.Sound) (hst' : st'.Sound)
    (hss : st.Lists contact ss) : st'.Lists contact ss where
  mem s := by
    rw [hss.mem]
    constructor
    · rintro ⟨hs, rfl⟩
      exact ⟨⟨hs.timely, (h.rows s.id (hst.listed hs)).symm.trans hs.row⟩, rfl⟩
    · rintro ⟨hs, rfl⟩
      have hid := hst'.listed hs
      rw [← h.ids] at hid
      exact ⟨⟨hs.timely, (h.rows s.id hid).trans hs.row⟩, rfl⟩
  sorted := hss.sorted

end Store
end Parley
