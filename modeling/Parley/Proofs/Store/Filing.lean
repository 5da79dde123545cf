import Parley.Proofs.Store.Reopening

/-!
# What is filed for a contact

A store looks a contact's sessions up by the ids that are filed for the contact.  Saving files an
id, and deleting takes it away from the contact that it is stored for then.  A session that is saved
for another contact is not taken away from the first, so an id may stay filed for a contact whose
session it is no longer (`IsFiled`).

Of the stored sessions that are filed for a contact the store tells the one that was active last
(`latest_filed`).  A session is always filed for its own contact.  So a contact is told its latest
session as long as no stored session of another is filed for it.
-/

namespace Parley.Store

open Calendar

/-- The store after changes, from an empty one. -/
def altered (changes : List Change) : Store := changes.foldl (fun st c => c.alter st) {}

theorem altered_concat (changes : List Change) (c : Change) :
    altered (changes ++ [c]) = c.alter (altered changes) := by
  rw [altered, List.foldl_append]
  rfl

/-- The session is stored, such as documents can hold and as can be told when it was last active. -/
abbrev Keeps (st : Store) (s : Session) : Prop := st.Contains Session.Dated s

theorem Keeps.dated {st : Store} {s : Session} (h : st.Keeps s) : s.Dated := h.suits

/-- The id is of a stored session of the contact. -/
def KeepsFor (st : Store) (contact id : String) :
    Prop := ∃ s, st.Keeps s ∧ s.id = id ∧ s.contact.id = contact

/-- After the changes the id is filed for the contact: a session that can be written was saved under
it for the contact, and it was not deleted since while it was stored for the contact. -/
def IsFiled (changes : List Change) (contact id : String) : Prop :=
  ∃ before s after, changes = before ++ .save s :: after ∧
    (s.fits = true ∧ s.id = id ∧ s.contact.id = contact) ∧
    ∀ middle rest, after = middle ++ .delete id :: rest →
      ¬ (altered (before ++ .save s :: middle)).KeepsFor contact id

variable {st : Store} {s : Session} {changes : List Change} {contact id : String}

/-! ### One change -/

/-- After a session was saved the store keeps its dump, and the others as before. -/
theorem keeps_save (hs : s.Dated) {s' : Session} :
    (st.save s).Keeps s' ↔
      s.fits = true ∧ s' = s.dumped ∨ (s.fits = true → s'.id ≠ s.id) ∧ st.Keeps s' :=
  contains_save (fun _ => Session.Dated.written) hs.dumped

/-- A list with an item at its end is split at that item or before it. -/
theorem concat_eq_append_cons {α : Type} {l middle rest : List α} {a b : α} :
    l ++ [a] = middle ++ b :: rest ↔
      (l = middle ∧ a = b ∧ rest = []) ∨ ∃ rest', rest = rest' ++ [a] ∧
        l = middle ++ b :: rest' := by
  rcases List.eq_nil_or_concat rest with rfl | ⟨rest', last, rfl⟩
  · simp
  · rw [List.concat_eq_append, ← List.cons_append, ← List.append_assoc]
    constructor
    · intro h
      obtain ⟨rfl, hlast⟩ := List.append_inj' h rfl
      exact .inr ⟨rest', by rw [hlast], rfl⟩
    · rintro (⟨-, -, hnil⟩ | ⟨rest'', hrest, rfl⟩)
      · exact absurd hnil (by simp)
      · obtain ⟨rfl, hlast⟩ := List.append_inj' hrest rfl
        rw [hlast]

/-- A change files what it saves, and keeps what was filed unless it deletes it. -/
theorem isFiled_concat (changes : List Change) (c : Change) :
    IsFiled (changes ++ [c]) contact id ↔
      (∃ s, c = .save s ∧ s.fits = true ∧ s.id = id ∧ s.contact.id = contact) ∨
        IsFiled changes contact id ∧
          ¬ (c = .delete id ∧ (altered changes).KeepsFor contact id) := by
  constructor
  · rintro ⟨before, s, after, he, hs, hafter⟩
    rcases concat_eq_append_cons.mp he with ⟨-, rfl, -⟩ | ⟨after', rfl, rfl⟩
    · exact .inl ⟨s, rfl, hs⟩
    · refine .inr ⟨⟨before, s, after', rfl, hs, fun middle rest hm => ?_⟩, ?_⟩
      · exact hafter middle (rest ++ [c]) (concat_eq_append_cons.mpr (.inr ⟨rest, rfl, hm⟩))
      · rintro ⟨rfl, hkeeps⟩
        exact hafter after' [] rfl hkeeps
  · rintro (⟨s, rfl, hs⟩ | ⟨⟨before, s, after, rfl, hs, hafter⟩, hc'⟩)
    · exact ⟨changes, s, [], rfl, hs, fun middle rest hm => by simp at hm⟩
    · refine ⟨before, s, after ++ [c], by simp, hs, fun middle rest hm => ?_⟩
      rcases concat_eq_append_cons.mp hm with ⟨rfl, rfl, -⟩ | ⟨rest', -, hm⟩
      · exact fun hkeeps => hc' ⟨rfl, hkeeps⟩
      · exact hafter middle rest' hm

/-! ### Runs -/

/-- What is stored is sessions, the ids of a contact are those that are filed for it, and a session
is filed for its own contact. -/
structure Filing (changes : List Change) : Prop where
  kept (id : String) (row : Value) (h : (altered changes).rows.get? id = some row) :
    ∃ s, (altered changes).Keeps s ∧ s.id = id ∧ s.toValue = row
  ids (contact id : String) : id ∈ (altered changes).idsOf contact ↔ IsFiled changes contact id
  nodup (contact : String) : ((altered changes).idsOf contact).Nodup
  own {s : Session} (h : (altered changes).Keeps s) : IsFiled changes s.contact.id s.id

theorem not_isFiled_nil : ¬ IsFiled [] contact id := by
  rintro ⟨before, s, after, he, -⟩
  simp at he

theorem filing_nil : Filing [] where
  kept _ _ h := nomatch h
  ids _ _ := ⟨nofun, fun h => absurd h not_isFiled_nil⟩
  nodup _ := List.nodup_nil
  own h := nomatch h.row

/-- A session that is saved is filed under its contact, and what was filed stays so. -/
theorem isFiled_save : IsFiled (changes ++ [.save s]) contact id ↔
    (s.fits = true ∧ s.id = id ∧ s.contact.id = contact) ∨ IsFiled changes contact id := by
  rw [isFiled_concat]
  simp

/-- An id is no longer filed under the contact for whom its session was kept when it was deleted. -/
theorem isFiled_delete {other : String} : IsFiled (changes ++ [.delete other]) contact id ↔
    IsFiled changes contact id ∧ ¬ (other = id ∧ (altered changes).KeepsFor contact id) := by
  rw [isFiled_concat]
  simp

/-- **Saving** files the id for the session's contact, unless the session cannot be written. -/
theorem Filing.save (h : Filing changes) (hs : s.Dated) : Filing (changes ++ [.save s]) := by
  have hst : altered (changes ++ [.save s]) = (altered changes).save s :=
    altered_concat changes (.save s)
  have hids (contact : String) := idsOf_save (altered changes) s contact
  have hkeeps {s' : Session} := @keeps_save (altered changes) s hs s'
  refine ⟨fun id row hrow => ?_, fun contact id => ?_, fun contact => ?_, fun {s'} hs' => ?_⟩ <;>
    rw [hst] at *
  · cases hf : s.fits with
    | false =>
        rw [save_of_not_fits _ hf] at hrow ⊢
        exact h.kept id row hrow
    | true =>
        rw [save_of_fits _ hf, rows_put, Entries.get?_put] at hrow
        split at hrow
        · next hid => exact ⟨s.dumped, hkeeps.mpr (.inl ⟨hf, rfl⟩), hid, Option.some.inj hrow⟩
        · next hid =>
          obtain ⟨s', hs', rfl, hv⟩ := h.kept id row hrow
          exact ⟨s', hkeeps.mpr (.inr ⟨fun _ => Ne.symm hid, hs'⟩), rfl, hv⟩
  · rw [hids, isFiled_save, ← h.ids contact id]
    split
    · next hc => rw [mem_joinId, or_comm, and_left_comm, and_iff_left hc, eq_comm]
    · next hc =>
      refine (or_iff_right ?_).symm
      rintro ⟨hf, -, hcontact⟩
      exact hc ⟨hf, hcontact⟩
  · rw [hids]
    split
    · exact nodup_joinId (h.nodup contact) s.id
    · exact h.nodup contact
  · rw [isFiled_save]
    rcases hkeeps.mp hs' with ⟨hf, rfl⟩ | ⟨-, hs'⟩
    · exact .inl ⟨hf, rfl, rfl⟩
    · exact .inr (h.own hs')

/-- A deleted id is taken from the contact that it is stored for, and from no other. -/
theorem Filing.idsOf_delete (h : Filing changes) (id contact : String) :
    ((altered changes).KeepsFor contact id ∧
        ((altered changes).delete id).1.idsOf contact =
          ((altered changes).idsOf contact).erase id) ∨
      (¬ (altered changes).KeepsFor contact id ∧
        ((altered changes).delete id).1.idsOf contact = (altered changes).idsOf contact) := by
  cases hrow : (altered changes).rows.get? id with
  | none =>
      refine .inr ⟨fun ⟨s, hs, hid, _⟩ => ?_, ?_⟩
      · rw [← hid, hs.row] at hrow
        cases hrow
      · rw [delete_of_absent (Entries.get?_eq_none_iff.mp hrow)]
  | some row =>
      obtain ⟨s, hs, rfl, rfl⟩ := h.kept id row hrow
      rw [delete_of_contact hrow rfl, idsOf_dropId]
      by_cases hc : s.contact.id = contact
      · exact .inl ⟨⟨s, hs, rfl, hc⟩, if_pos hc⟩
      · refine .inr ⟨fun ⟨s', hs', hid, hc'⟩ => hc ?_, if_neg hc⟩
        have hsame := hs'.row
        rw [hid, hrow] at hsame
        rw [Session.toValue_inj hs.dated.written hs'.dated.written (Option.some.inj hsame), hc']

/-- **Deleting** takes the id from the contact that it is stored for. -/
theorem Filing.delete (h : Filing changes) (other : String) :
    Filing (changes ++ [.delete other]) where
  kept id row hrow := by
    rw [altered_concat] at hrow ⊢
    obtain ⟨hne, hrow⟩ := row_delete.mp hrow
    obtain ⟨s, hs, rfl, hv⟩ := h.kept id row hrow
    exact ⟨s, contains_delete.mpr ⟨hne, hs⟩, rfl, hv⟩
  ids contact id := by
    rw [altered_concat, isFiled_delete, ← h.ids contact id]
    change id ∈ ((altered changes).delete other).1.idsOf contact ↔ _
    rcases h.idsOf_delete other contact with ⟨hkeeps, he⟩ | ⟨hkeeps, he⟩
    · rw [he, (h.nodup contact).mem_erase_iff, and_comm]
      refine and_congr_right fun _ =>
        not_congr ⟨fun hid => ⟨hid.symm, hid ▸ hkeeps⟩, fun hid => hid.1.symm⟩
    · rw [he]
      refine (and_iff_left ?_).symm
      rintro ⟨rfl, hkeeps'⟩
      exact hkeeps hkeeps'
  nodup contact := by
    rw [altered_concat]
    change (((altered changes).delete other).1.idsOf contact).Nodup
    rcases h.idsOf_delete other contact with ⟨-, he⟩ | ⟨-, he⟩
    · rw [he]
      exact (h.nodup contact).erase other
    · rw [he]
      exact h.nodup contact
  own {s} hs := by
    rw [altered_concat] at hs
    obtain ⟨hne, hs⟩ := contains_delete.mp hs
    exact isFiled_delete.mpr ⟨h.own hs, fun hid => hne hid.1.symm⟩

/-- Changes with dated sessions keep the store in order. -/
theorem filing_of_dated (h : ∀ s, .save s ∈ changes → s.Dated) : Filing changes := by
  induction changes using List.reverseRecOn with
  | nil => exact filing_nil
  | append_singleton changes c ih =>
      have hfiling := ih fun s hs => h s (List.mem_append_left _ hs)
      cases c with
      | save s => exact hfiling.save (h s (by simp))
      | delete id => exact hfiling.delete id

/-! ### What is told -/

/-- The documents of ids are those of the stored sessions among them. -/
theorem Filing.rows_of_ids (h : Filing changes) (ids : List String) :
    ∃ ss : List Session, ids.filterMap (altered changes).rows.get? = ss.map Session.toValue ∧
      ∀ s, s ∈ ss ↔ (altered changes).Keeps s ∧ s.id ∈ ids := by
  induction ids with
  | nil => exact ⟨[], rfl, fun s => by simp⟩
  | cons id rest ih =>
      obtain ⟨ss, hrows, hss⟩ := ih
      cases hrow : (altered changes).rows.get? id with
      | none =>
          refine ⟨ss, by rw [List.filterMap_cons, hrow, hrows], fun s => (hss s).trans ?_⟩
          refine and_congr_right fun hs => ⟨List.mem_cons_of_mem id, fun hmem => ?_⟩
          refine (List.mem_cons.mp hmem).resolve_left fun hid => ?_
          rw [← hid, hs.row] at hrow
          cases hrow
      | some row =>
          obtain ⟨s, hs, rfl, rfl⟩ := h.kept id row hrow
          refine ⟨s :: ss, by rw [List.filterMap_cons, hrow, hrows]; rfl, fun s' => ?_⟩
          rw [List.mem_cons, List.mem_cons, hss]
          constructor
          · rintro (rfl | ⟨hs', hmem⟩)
            · exact ⟨hs, .inl rfl⟩
            · exact ⟨hs', .inr hmem⟩
          · rintro ⟨hs', hid | hmem⟩
            · have hsame := hs'.row
              rw [hid, hrow] at hsame
              exact .inl (Session.toValue_inj hs'.dated.written hs.dated.written
                (Option.some.inj hsame).symm)
            · exact .inr ⟨hs', hmem⟩

/-- Of these sessions the one that was active last is told as the contact's latest, and none when
there are none. -/
def Tells (st : Store) (contact flowId : String) (among : Session → Prop) : Prop :=
  (∃ s, among s ∧ (∀ s', among s' → s'.lastActivityAt.instant ≤ s.lastActivityAt.instant) ∧
      ∀ now newId, st.latest now newId contact flowId = .ok (some s)) ∨
    (∀ s, ¬ among s) ∧ ∀ now newId, st.latest now newId contact flowId = .ok none

/-- A contact's latest session is told among those that are kept and filed under the contact. -/
theorem Filing.tells (h : Filing changes) (contact flowId : String) :
    (altered changes).Tells contact flowId fun s =>
      (altered changes).Keeps s ∧ IsFiled changes contact s.id ∧ s.IsSeen flowId := by
  obtain ⟨ss, hrows, hss⟩ := h.rows_of_ids ((altered changes).idsOf contact)
  have hmem (s : Session) : s ∈ ss ↔ (altered changes).Keeps s ∧ IsFiled changes contact s.id := by
    rw [hss, h.ids]
  rcases latest_of_rows hrows (fun s hs => ((hmem s).mp hs).1.dated) flowId with
    ⟨s, hs, hsees, hle, hlatest⟩ | ⟨hnone, hlatest⟩
  · obtain ⟨hkeeps, hfiled⟩ := (hmem s).mp hs
    exact .inl ⟨s, ⟨hkeeps, hfiled, hsees⟩,
      fun s' ⟨hk, hf, hsees'⟩ => hle s' ((hmem s').mpr ⟨hk, hf⟩) hsees', hlatest⟩
  · exact .inr ⟨fun s ⟨hk, hf, hsees⟩ => hnone s ((hmem s).mpr ⟨hk, hf⟩) hsees, hlatest⟩

/-- **Of the stored sessions that are filed for a contact the latest is told**, perhaps among those
on one flow, after any saves and deletions.  Every stored session is filed for its own contact.  So
the contact's latest session is told whenever no stored session of another contact is filed for it.
-/
theorem latest_filed (h : ∀ s, .save s ∈ changes → s.Dated) (contact flowId : String) :
    ((altered changes).Tells contact flowId fun s =>
        (altered changes).Keeps s ∧ IsFiled changes contact s.id ∧ s.IsSeen flowId) ∧
      (∀ s, (altered changes).Keeps s → IsFiled changes s.contact.id s.id) ∧
      ((∀ s, (altered changes).Keeps s → IsFiled changes contact s.id → s.contact.id = contact) →
        (altered changes).Tells contact flowId fun s =>
          (altered changes).Keeps s ∧ s.contact.id = contact ∧ s.IsSeen flowId) := by
  have hfiling := filing_of_dated h
  refine ⟨hfiling.tells contact flowId, fun s hs => hfiling.own hs, fun hown => ?_⟩
  have hsame (s : Session) :
    ((altered changes).Keeps s ∧ IsFiled changes contact s.id ∧ s.IsSeen flowId) ↔
      (altered changes).Keeps s ∧ s.contact.id = contact ∧ s.IsSeen flowId :=
    and_congr_right fun hs => and_congr_left fun _ => ⟨hown s hs, fun hc => hc ▸ hfiling.own hs⟩
  simpa only [hsame] using hfiling.tells contact flowId

/-- Ana's session is saved anew as Bia's. -/
def refiled : List Change := [.save (visit "a" "ana"), .save (visit "a" "bia")]

theorem dated_visit (id contact : String) : (visit id contact).Dated := by
  have hutc : Moment.Utc ⟨⟨2024, 1, 1⟩, 0, some 0⟩ := ⟨rfl, by decide, by decide⟩
  exact Session.Timely.dated ⟨hutc, hutc, nofun⟩

theorem fits_visit : (visit id contact).fits = true := rfl

/-- Ana is told Bia's session. -/
theorem latest_filed_refiled :
    (altered refiled).latest (visit "a" "bia").startedAt "" "ana" "" = .ok
    (some (visit "a" "bia")) := by
  have hdated (s : Session) (hs : .save s ∈ refiled) : s.Dated := by
    simp only [refiled, List.mem_cons, Change.save.injEq, List.not_mem_nil, or_false] at hs
    rcases hs with rfl | rfl <;> exact dated_visit ..
  have hkeeps (s : Session) : (altered refiled).Keeps s ↔ s = visit "a" "bia" := by
    change (((altered [.save (visit "a" "ana")]).save (visit "a" "bia")).Keeps s) ↔ _
    rw [keeps_save (dated_visit "a" "bia")]
    refine (or_iff_left fun ⟨hne, hs⟩ => ?_).trans (and_iff_right fits_visit)
    rcases (@keeps_save {} _ (dated_visit "a" "ana") s).mp hs with ⟨-, rfl⟩ | ⟨-, hs⟩
    · exact hne fits_visit rfl
    · exact nomatch hs.row
  rcases (latest_filed hdated "ana" "").1 with ⟨s, ⟨hs, -⟩, -, hlatest⟩ | ⟨hnone, -⟩
  · rw [hlatest, (hkeeps s).mp hs]
  · have hfirst : IsFiled ([] ++ [.save (visit "a" "ana")]) "ana" "a" :=
      isFiled_save.mpr (.inl ⟨rfl, rfl, rfl⟩)
    have hfiled : IsFiled ([.save (visit "a" "ana")] ++ [.save (visit "a" "bia")]) "ana" "a" :=
      isFiled_save.mpr (.inr hfirst)
    exact absurd ⟨(hkeeps _).mpr rfl, hfiled, .inl rfl⟩ (hnone (visit "a" "bia"))

end Parley.Store
