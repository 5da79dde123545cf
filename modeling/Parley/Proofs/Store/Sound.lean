import Parley.Proofs.Session.Document
import Parley.Proofs.Value.Entries

/-!
# What a store tells

`st.Contains p s`: the session `s` is stored, and it is one of a kind `p`; `st.Holds s` says so of a
session whose moments are all of universal time.  `st.Sound`: what is stored is sessions, each under
its own id, and the ids that are kept for a contact are those of the contact's sessions.  Saving and
deleting keep a store sound (`Sound.save`, `Sound.delete`), as long as a session is not saved for
another contact than it was stored for.

What is saved is the dump of a session (`holds_save`); one that cannot be written is not saved.

A sound store tells the session of an id (`Sound.get`), and of a contact a session that was active
last (`Sound.latest`).
-/

namespace Parley

open Calendar

/-- A look for sessions on a flow, or on any, sees the session. -/
def Session.IsSeen (flowId : String) (s : Session) : Prop := flowId = "" ∨ s.flowId = flowId

instance (flowId : String) (s : Session) : Decidable (s.IsSeen flowId) :=
  inferInstanceAs (Decidable (_ ∨ _))

/-- A session that documents can hold is told by its document. -/
theorem Session.toValue_inj {s s' : Session} (h : s.Written) (h' : s'.Written)
    (he : s.toValue = s'.toValue) : s = s' := by
  have hs := ofValue_toValue h s.startedAt ""
  rw [he, ofValue_toValue h'] at hs
  exact (Schema.Checked.ok.inj hs).symm

theorem Session.Timely.dumped {s : Session} (h : s.Timely) : s.dumped.Timely :=
  ⟨h.started, h.active, h.history⟩

/-- The dump of a session has its moments. -/
theorem Session.Written.dumped {s : Session} (h : s.Written) : s.dumped.Written :=
  ⟨h.started, h.active, h.history⟩

theorem Session.Dated.dumped {s : Session} (h : s.Dated) :
    s.dumped.Dated := ⟨h.written.dumped, h.aware⟩

namespace Store

/-- The session is stored, and it is one of the kind. -/
structure Contains (p : Session → Prop) (st : Store) (s : Session) : Prop where
  suits : p s
  row : st.rows.get? s.id = some s.toValue

/-- The session is stored. -/
abbrev Holds (st : Store) (s : Session) : Prop := st.Contains Session.Timely s

/-- The moments of a stored session are of universal time. -/
theorem Holds.timely {st : Store} {s : Session} (h : st.Holds s) : s.Timely := h.suits

/-- A stored session is the only one under its id. -/
theorem Contains.eq {p : Session → Prop} (hp : ∀ s, p s → s.Written) {st : Store} {s s' : Session}
    (h : st.Contains p s) (h' : st.Contains p s') (he : s.id = s'.id) : s = s' := by
  have hrow := h.row
  rw [he, h'.row] at hrow
  exact Session.toValue_inj (hp s h.suits) (hp s' h'.suits) (Option.some.inj hrow).symm

/-- A store has one session under an id. -/
theorem Holds.eq {st : Store} {s s' : Session} (h : st.Holds s) (h' : st.Holds s')
    (he : s.id = s'.id) : s = s' :=
  Contains.eq (fun _ => Session.Timely.written) h h' he

/-- What is stored is sessions under their ids, and the ids of a contact are those of its sessions.
-/
structure Sound (st : Store) : Prop where
  session (id : String) (row : Value) (h : st.rows.get? id = some row) :
    ∃ s, st.Holds s ∧ s.id = id ∧ s.toValue = row
  listed {s : Session} (h : st.Holds s) : s.id ∈ st.idsOf s.contact.id
  owned (contact id : String) (h : id ∈ st.idsOf contact) :
    ∃ s, st.Holds s ∧ s.id = id ∧ s.contact.id = contact
  nodup (contact : String) : (st.idsOf contact).Nodup

theorem sound_empty : Sound {} where
  session _ _ h := nomatch h
  listed h := nomatch h.row
  owned _ _ h := nomatch h
  nodup _ := List.nodup_nil

/-! ### Saving -/

variable {st : Store} {s : Session}

/-- The id of a session is filed under its contact. -/
theorem idsOf_put (st : Store) (s : Session) (contact : String) :
    (st.put s).idsOf contact =
      if s.contact.id = contact then joinId (st.idsOf contact) s.id else st.idsOf contact := by
  unfold idsOf put
  rw [Entries.get?_put]
  by_cases h : s.contact.id = contact
  · subst h
    rw [if_pos rfl, if_pos rfl]
    rfl
  · rw [if_neg h, if_neg h]

/-- The ids of a contact after a session was saved, which it is only if it can be written. -/
theorem idsOf_save (st : Store) (s : Session) (contact : String) :
    (st.save s).idsOf contact =
      if s.fits = true ∧ s.contact.id = contact then joinId (st.idsOf contact) s.id
      else st.idsOf contact := by
  cases hf : s.fits with
  | false => rw [save_of_not_fits st hf, if_neg (Bool.false_ne_true ·.1)]
  | true =>
      rw [save_of_fits st hf, idsOf_put]
      simp only [true_and]
      rfl

/-- A plain session is put in its place as it is. -/
theorem save_of_plain (h : s.Plain) : st.save s = st.put s := by
  rw [save_of_fits st h.fits, h.dumped]

theorem mem_joinId {ids : List String} {id other : String} :
    other ∈ joinId ids id ↔ other ∈ ids ∨ other = id := by
  unfold joinId
  split
  · next h => exact ⟨.inl, fun ho => ho.elim (fun ho => ho) fun he => he ▸ h⟩
  · simp

theorem nodup_joinId {ids : List String} (h : ids.Nodup) (id : String) : (joinId ids id).Nodup := by
  unfold joinId
  split
  · exact h
  · next hn => exact h.append (List.nodup_singleton id) (by simpa using hn)

variable {p : Session → Prop}

/-- Once a session was put in its place the store contains it, and the others as before. -/
theorem contains_put (hp : ∀ s, p s → s.Written) (hs : p s) {s' : Session} :
    (st.put s).Contains p s' ↔ s' = s ∨ s'.id ≠ s.id ∧ st.Contains p s' := by
  constructor
  · rintro ⟨hs', hrow⟩
    rw [rows_put, Entries.get?_put] at hrow
    split at hrow
    · exact .inl (Session.toValue_inj (hp s' hs') (hp s hs) (Option.some.inj hrow).symm)
    · next hne => exact .inr ⟨Ne.symm hne, hs', hrow⟩
  · rintro (rfl | ⟨hne, h⟩)
    · exact ⟨hs, by rw [rows_put, Entries.get?_put, if_pos rfl]⟩
    · exact ⟨h.suits, by rw [rows_put, Entries.get?_put, if_neg hne.symm, h.row]⟩

/-- After a session was saved the store contains its dump, and the others as before. A session that
cannot be written is not saved. -/
theorem contains_save (hp : ∀ s, p s → s.Written) (hs : p s.dumped) {s' : Session} :
    (st.save s).Contains p s' ↔
      s.fits = true ∧ s' = s.dumped ∨ (s.fits = true → s'.id ≠ s.id) ∧ st.Contains p s' := by
  cases hf : s.fits with
  | false => simp [save_of_not_fits st hf]
  | true =>
      rw [save_of_fits st hf, contains_put hp hs]
      simp only [true_and, forall_const]
      rfl

/-- Once a session was put in its place the store holds it, and the others as before. -/
theorem holds_put (ht : s.Timely) {s' : Session} :
    (st.put s).Holds s' ↔ s' = s ∨ s'.id ≠ s.id ∧ st.Holds s' :=
  contains_put (fun _ => Session.Timely.written) ht

/-- After a session was saved the store holds its dump, and the others as before. -/
theorem holds_save (ht : s.Timely) {s' : Session} :
    (st.save s).Holds s' ↔
      s.fits = true ∧ s' = s.dumped ∨ (s.fits = true → s'.id ≠ s.id) ∧ st.Holds s' :=
  contains_save (fun _ => Session.Timely.written) ht.dumped

/-- What is held after a session was saved was held before, or it is the dump of the session. -/
theorem Holds.of_save (ht : s.Timely) {s' : Session} (h : (st.save s).Holds s') :
    s' = s.dumped ∨ st.Holds s' :=
  ((holds_save ht).mp h).imp And.right And.right

/-- **A store stays sound when a session is put in its place** for the contact that it was stored
for, if it was. -/
theorem Sound.put (h : st.Sound) (ht : s.Timely)
    (hc : ∀ s', st.Holds s' → s'.id = s.id → s'.contact.id = s.contact.id) : (st.put s).Sound where
  session id row hrow := by
    rw [rows_put, Entries.get?_put] at hrow
    split at hrow
    · next hid => exact ⟨s, (holds_put ht).mpr (.inl rfl), hid, Option.some.inj hrow⟩
    · next hid =>
      obtain ⟨s', hs', rfl, hv⟩ := h.session id row hrow
      exact ⟨s', (holds_put ht).mpr (.inr ⟨Ne.symm hid, hs'⟩), rfl, hv⟩
  listed {s'} hs' := by
    rw [idsOf_put]
    rcases (holds_put ht).mp hs' with rfl | ⟨-, hs'⟩
    · rw [if_pos rfl]
      exact mem_joinId.mpr (.inr rfl)
    · split
      · exact mem_joinId.mpr (.inl (h.listed hs'))
      · exact h.listed hs'
  owned contact id hid := by
    -- an id that was kept for the contact before
    have hold (hid : id ∈ st.idsOf contact) :
        ∃ s', (st.put s).Holds s' ∧ s'.id = id ∧ s'.contact.id = contact := by
      obtain ⟨s', hs', rfl, rfl⟩ := h.owned contact id hid
      by_cases he : s'.id = s.id
      · exact ⟨s, (holds_put ht).mpr (.inl rfl), he.symm, (hc s' hs' he).symm⟩
      · exact ⟨s', (holds_put ht).mpr (.inr ⟨he, hs'⟩), rfl, rfl⟩
    rw [idsOf_put] at hid
    split at hid
    · next hcontact =>
      rcases mem_joinId.mp hid with hid | rfl
      · exact hold hid
      · exact ⟨s, (holds_put ht).mpr (.inl rfl), rfl, hcontact⟩
    · exact hold hid
  nodup contact := by
    rw [idsOf_put]
    split
    · exact nodup_joinId (h.nodup contact) s.id
    · exact h.nodup contact

/-- **A store stays sound when a session is saved** for the contact that it was stored for, if it
was. -/
theorem Sound.save (h : st.Sound) (ht : s.Timely)
    (hc : ∀ s', st.Holds s' → s'.id = s.id → s'.contact.id = s.contact.id) : (st.save s).Sound :=
  save_cases h fun _ => h.put ht.dumped hc

/-! ### Deleting -/

/-- All documents but the deleted one stay. -/
theorem row_delete {id other : String} {row : Value} :
    (st.delete id).1.rows.get? other = some row ↔ other ≠ id ∧ st.rows.get? other = some row := by
  rw [rows_delete, Entries.get?_remove]
  by_cases h : id = other
  · simp [h]
  · simp [h, Ne.symm h]

/-- After a session was deleted the store contains the others as before. -/
theorem contains_delete {id : String} {s' : Session} :
    (st.delete id).1.Contains p s' ↔ s'.id ≠ id ∧ st.Contains p s' :=
  ⟨fun ⟨hs, hrow⟩ => (row_delete.mp hrow).imp_right (⟨hs, ·⟩),
    fun ⟨hne, h⟩ => ⟨h.suits, row_delete.mpr ⟨hne, h.row⟩⟩⟩

theorem idsOf_dropId (rows : Entries Value) (index : Entries (List String))
    (owner id contact : String) :
    idsOf ⟨rows, dropId index owner id⟩ contact =
      if owner = contact then (idsOf ⟨rows, index⟩ contact).erase id
      else idsOf ⟨rows, index⟩ contact := by
  unfold idsOf dropId
  cases howner : index.get? owner with
  | none =>
      dsimp only
      split
      · next he => rw [← he, howner]; rfl
      · rfl
  | some ids =>
      dsimp only
      rw [Entries.get?_put]
      split
      · next he => rw [← he, howner]; rfl
      · rfl

/-- A deleted id is no longer filed. -/
theorem idsOf_delete (h : st.Sound) (id contact : String) :
    (st.delete id).1.idsOf contact = (st.idsOf contact).erase id := by
  unfold delete
  cases hrow : st.rows.get? id with
  | none =>
      refine (List.erase_of_not_mem fun hid => ?_).symm
      obtain ⟨s', hs', rfl, -⟩ := h.owned contact id hid
      rw [hs'.row] at hrow
      cases hrow
  | some row =>
      obtain ⟨s', hs', rfl, rfl⟩ := h.session id row hrow
      have hdrop : (st.delete s'.id).1.idsOf contact =
          idsOf ⟨st.rows.remove s'.id, dropId st.index s'.contact.id s'.id⟩ contact := by
        unfold delete
        rw [hrow]
        rfl
      unfold delete at hdrop
      rw [hrow] at hdrop
      refine hdrop.trans ((idsOf_dropId _ _ _ _ _).trans ?_)
      split
      · rfl
      · next hne =>
        refine (List.erase_of_not_mem fun hid => ?_).symm
        obtain ⟨s'', hs'', he, hc⟩ := h.owned contact s'.id hid
        exact hne (hs''.eq hs' he ▸ hc)

/-- **A store stays sound when a session is deleted.** -/
theorem Sound.delete (h : st.Sound) (id : String) : (st.delete id).1.Sound where
  session other row hrow := by
    rw [rows_delete, Entries.get?_remove] at hrow
    split at hrow
    · cases hrow
    · next hne =>
      obtain ⟨s', hs', rfl, hv⟩ := h.session other row hrow
      exact ⟨s', contains_delete.mpr ⟨Ne.symm hne, hs'⟩, rfl, hv⟩
  listed {s'} hs' := by
    obtain ⟨hne, hs'⟩ := contains_delete.mp hs'
    rw [idsOf_delete h]
    exact (List.mem_erase_of_ne hne).mpr (h.listed hs')
  owned contact other hid := by
    rw [idsOf_delete h] at hid
    obtain ⟨hne, hid⟩ := (h.nodup contact).mem_erase_iff.mp hid
    obtain ⟨s', hs', rfl, hc⟩ := h.owned contact other hid
    exact ⟨s', contains_delete.mpr ⟨hne, hs'⟩, rfl, hc⟩
  nodup contact := by
    rw [idsOf_delete h]
    exact (h.nodup contact).erase id

/-! ### What is told -/

/-- A session is restored from its document. -/
theorem restore_toValue (h : s.Written) (now : Moment) (newId : String) :
    restore now newId s.toValue = .ok s := by
  unfold restore
  rw [Session.ofValue_toValue h]
  rfl

/-- What is told under a key is read from its document. -/
theorem row_of_get {now : Moment} {newId key : String} (h : st.get now newId key = .ok (some s)) :
    ∃ row, st.rows.get? key = some row ∧ restore now newId row = .ok s := by
  unfold Store.get at h
  split at h
  · cases h
  · next row hrow =>
    split at h
    · refine ⟨row, hrow, ?_⟩
      cases hr : restore now newId row with
      | error e =>
          rw [hr] at h
          cases h
      | ok s' =>
          rw [hr] at h
          exact congrArg Except.ok (Option.some.inj (Except.ok.inj h))
    · cases h

/-- A session is told from its document. -/
theorem get_of_row (hrow : st.rows.get? s.id = some s.toValue) (hw : s.Written) (now : Moment)
    (newId : String) : st.get now newId s.id = .ok (some s) := by
  unfold Store.get
  rw [hrow]
  dsimp only
  rw [if_pos (show s.toValue.isTruthy = true from rfl), restore_toValue hw]
  rfl

/-- A stored session is told under its id. -/
theorem Holds.get (h : st.Holds s) (now : Moment) (newId : String) :
    st.get now newId s.id = .ok (some s) :=
  get_of_row h.row h.timely.written now newId

/-- **The session of an id**, which is stored, or none when none is. -/
theorem Sound.get (h : st.Sound) (now : Moment) (newId id : String) :
    (∃ s, st.Holds s ∧ s.id = id ∧ st.get now newId id = .ok (some s)) ∨
      (∀ s, st.Holds s → s.id ≠ id) ∧ st.get now newId id = .ok none := by
  cases hrow : st.rows.get? id with
  | none =>
      refine .inr ⟨fun s hs he => ?_, ?_⟩
      · subst he
        rw [hs.row] at hrow
        cases hrow
      · unfold Store.get
        rw [hrow]
  | some row =>
      obtain ⟨s, hs, rfl, -⟩ := h.session id row hrow
      exact .inl ⟨s, hs, rfl, hs.get now newId⟩

theorem lastActivity_toValue (h : s.Written) : lastActivity s.toValue = .ok s.lastActivityAt := by
  have hentry : s.toValue.entry "last_activity_at" = .ok (.text s.lastActivityAt.text) := rfl
  unfold lastActivity
  rw [hentry]
  simp only [bind, Except.bind, Moment.readIso?_text h.active]
  rfl

/-- The document of a session tells whether the session is on a flow. -/
theorem isOnFlow_toValue (flowId : String) (s : Session) :
    isOnFlow flowId s.toValue = .ok (decide (s.IsSeen flowId)) := by
  unfold isOnFlow Session.IsSeen
  by_cases h : flowId = ""
  · simp [h]
  · have hentry : s.toValue.entry "flow_id" = .ok (.text s.flowId) := rfl
    rw [if_neg h, hentry]
    simp only [bind, Except.bind, pure, Except.pure, h, false_or]
    rw [Value.same]
    rfl

/-- The documents of sessions that pass a test. -/
theorem filterRows_toValue {test : Value → Except Fault Bool} {p : Session → Bool}
    (h : ∀ s : Session, test s.toValue = .ok (p s)) (ss : List Session) :
    filterRows test (ss.map Session.toValue) = .ok ((ss.filter p).map Session.toValue) := by
  induction ss with
  | nil => rfl
  | cons s rest ih =>
      rw [List.map_cons, filterRows, h, ih]
      by_cases hp : p s <;> simp [hp, bind, Except.bind, pure, Except.pure]

/-- The documents of sessions that a look sees. -/
theorem filterRows_map (flowId : String) (ss : List Session) :
    filterRows (isOnFlow flowId) (ss.map Session.toValue) =
      .ok ((ss.filter fun s => s.IsSeen flowId).map Session.toValue) :=
  filterRows_toValue (isOnFlow_toValue flowId) ss

/-- Among sessions the one that was active last is found. -/
theorem latestOf_map {best : Session} {ss : List Session} (hbest : best.Dated)
    (hss : ∀ s ∈ ss, s.Dated) :
    ∃ s ∈ best :: ss, latestOf (best.lastActivityAt, best.toValue) (ss.map Session.toValue) =
        .ok s.toValue ∧
      ∀ s' ∈ best :: ss, s'.lastActivityAt.instant ≤ s.lastActivityAt.instant := by
  induction ss generalizing best with
  | nil => exact ⟨best, List.mem_cons_self, rfl, by simp⟩
  | cons s rest ih =>
      have hs := hss s List.mem_cons_self
      have hrest := fun s' h => hss s' (List.mem_cons_of_mem s h)
      rw [List.map_cons, latestOf, lastActivity_toValue hs.written]
      simp only [bind, Except.bind, Moment.compare?_of_offset hs.aware hbest.aware]
      -- of two that were active at the same moment the first is found
      cases hcmp : compare s.lastActivityAt.instant best.lastActivityAt.instant with
      | gt =>
          have hlt := Int.compare_eq_gt.mp hcmp
          obtain ⟨m, hm, he, hle⟩ := ih hs hrest
          refine ⟨m, List.mem_cons_of_mem _ hm, he, fun s' hs' => ?_⟩
          rcases List.mem_cons.mp hs' with rfl | hs'
          · have := hle s List.mem_cons_self
            omega
          · exact hle s' hs'
      | lt | eq =>
          have hle' : s.lastActivityAt.instant ≤ best.lastActivityAt.instant := by
            by_contra hnot
            have hgt := Int.compare_eq_gt.mpr (Int.not_le.mp hnot)
            rw [hcmp] at hgt
            cases hgt
          obtain ⟨m, hm, he, hle⟩ := ih hbest hrest
          refine ⟨m, ?_, he, fun s' hs' => ?_⟩
          · rcases List.mem_cons.mp hm with rfl | hm
            · exact List.mem_cons_self
            · exact List.mem_cons_of_mem _ (List.mem_cons_of_mem _ hm)
          · rcases List.mem_cons.mp hs' with rfl | hs'
            · exact hle _ List.mem_cons_self
            · rcases List.mem_cons.mp hs' with rfl | hs'
              · have := hle _ List.mem_cons_self
                omega
              · exact hle s' (List.mem_cons_of_mem _ hs')

/-- What is told of a contact, when its ids stand for these sessions: of those that a look sees the
one that was active last, or none when it sees none. -/
theorem latest_of_rows {ss : List Session} {contact : String}
    (hrows : (st.idsOf contact).filterMap st.rows.get? = ss.map Session.toValue)
    (hss : ∀ s ∈ ss, s.Dated) (flowId : String) :
    (∃ s ∈ ss, s.IsSeen flowId ∧
        (∀ s' ∈ ss, s'.IsSeen flowId → s'.lastActivityAt.instant ≤ s.lastActivityAt.instant) ∧
        ∀ now newId, st.latest now newId contact flowId = .ok (some s)) ∨
      (∀ s ∈ ss, ¬ s.IsSeen flowId) ∧ ∀ now newId, st.latest now newId contact flowId =
        .ok none := by
  have hseen (s : Session) : s ∈ ss.filter (fun s => s.IsSeen flowId) ↔ s ∈ ss ∧
      s.IsSeen flowId := by
    rw [List.mem_filter, decide_eq_true_eq]
  unfold Store.latest latestRow
  rw [hrows, filterRows_map]
  cases hfound : ss.filter fun s => s.IsSeen flowId with
  | nil =>
      refine .inr ⟨fun s hs hsees => ?_, fun _ _ => rfl⟩
      have := (hseen s).mpr ⟨hs, hsees⟩
      rw [hfound] at this
      cases this
  | cons best rest =>
      rw [hfound] at hseen
      have hdated : ∀ s ∈ best :: rest, s.Dated := fun s hs => hss s ((hseen s).mp hs).1
      obtain ⟨s, hs, he, hle⟩ := latestOf_map (hdated best List.mem_cons_self)
        fun s hs => hdated s (List.mem_cons_of_mem _ hs)
      obtain ⟨hmem, hsees⟩ := (hseen s).mp hs
      refine .inl ⟨s, hmem, hsees, fun s' hs' hsees' => hle s' ((hseen s').mpr ⟨hs', hsees'⟩),
        fun now newId => ?_⟩
      simp only [List.map_cons, bind, Except.bind, pure, Except.pure,
        lastActivity_toValue (hdated best List.mem_cons_self).written, he, Except.mapError,
        restore_toValue (hdated s hs).written]

/-- The session is one of the contact's that a look sees. -/
structure Offers (st : Store) (contact flowId : String) (s : Session) : Prop where
  holds : st.Holds s
  contact : s.contact.id = contact
  seen : s.IsSeen flowId

/-- The documents of ids under which sessions are stored. -/
theorem rows_of_ids {ids : List String} (h : ∀ id ∈ ids, ∃ s, st.Holds s ∧ s.id = id) :
    ∃ ss : List Session, ids.filterMap st.rows.get? = ss.map Session.toValue ∧
      ss.map Session.id = ids ∧ ∀ s ∈ ss, st.Holds s := by
  induction ids with
  | nil => exact ⟨[], rfl, rfl, nofun⟩
  | cons id rest ih =>
      obtain ⟨s, hs, rfl⟩ := h id List.mem_cons_self
      obtain ⟨ss, hrows, hids, hholds⟩ := ih fun other ho => h other (List.mem_cons_of_mem _ ho)
      refine ⟨s :: ss, ?_, by rw [List.map_cons, hids], ?_⟩
      · rw [List.filterMap_cons, hs.row, hrows, List.map_cons]
      · intro s' hs'
        rcases List.mem_cons.mp hs' with rfl | hs'
        · exact hs
        · exact hholds s' hs'

/-- The documents of a contact are those of its sessions. -/
theorem Sound.rows_contact (h : st.Sound) (contact : String) :
    ∃ ss : List Session, (st.idsOf contact).filterMap st.rows.get? = ss.map Session.toValue ∧
      ∀ s, s ∈ ss ↔ st.Holds s ∧ s.contact.id = contact := by
  obtain ⟨ss, hrows, hids, hholds⟩ := rows_of_ids fun id hid =>
    let ⟨s, hs, he, _⟩ := h.owned contact id hid
    ⟨s, hs, he⟩
  refine ⟨ss, hrows, fun s => ⟨fun hs => ⟨hholds s hs, ?_⟩, fun ⟨hs, hc⟩ => ?_⟩⟩
  · have hmem : s.id ∈ st.idsOf contact := hids ▸ List.mem_map_of_mem hs
    obtain ⟨s', hs', he, hc⟩ := h.owned contact s.id hmem
    rw [← hc, hs'.eq (hholds s hs) he]
  · have hmem : s.id ∈ ss.map Session.id := hids ▸ hc ▸ h.listed hs
    obtain ⟨s', hs', he⟩ := List.mem_map.mp hmem
    exact (hholds s' hs').eq hs he ▸ hs'

/-- Among the contact's sessions that a look sees none was active later. -/
structure IsLatest (st : Store) (contact flowId : String) (s : Session) : Prop where
  offers : st.Offers contact flowId s
  latest {s' : Session} (h : st.Offers contact flowId s') :
    s'.lastActivityAt.reading ≤ s.lastActivityAt.reading

/-- **The session of a contact that was active last** among those that a look sees, or none when it
sees none. -/
theorem Sound.latest (h : st.Sound) (contact flowId : String) :
    (∃ s, st.IsLatest contact flowId s ∧
        ∀ now newId, st.latest now newId contact flowId = .ok (some s)) ∨
      (∀ s, ¬ st.Offers contact flowId s) ∧
        ∀ now newId, st.latest now newId contact flowId = .ok none := by
  obtain ⟨ss, hrows, hss⟩ := h.rows_contact contact
  have hdated : ∀ s ∈ ss, s.Dated := fun s hs => ((hss s).mp hs).1.timely.dated
  rcases latest_of_rows hrows hdated flowId with ⟨s, hs, hsees, hle, hlatest⟩ | ⟨hnone, hlatest⟩
  · obtain ⟨hholds, hcontact⟩ := (hss s).mp hs
    refine .inl ⟨s, ⟨⟨hholds, hcontact, hsees⟩, fun {s'} hs' => ?_⟩, hlatest⟩
    rw [← hs'.holds.timely.active.instant, ← hholds.timely.active.instant]
    exact hle s' ((hss s').mpr ⟨hs'.holds, hs'.contact⟩) hs'.seen
  · exact .inr ⟨fun s hs => hnone s ((hss s).mpr ⟨hs.holds, hs.contact⟩) hs.seen, hlatest⟩

variable {now : Moment} {newId id contact flowId : String}

/-- What is told as the session of an id is stored under it. -/
theorem Sound.of_get (h : st.Sound) (hs : st.get now newId id = .ok (some s)) :
    st.Holds s ∧ s.id = id := by
  rcases h.get now newId id with ⟨s', hs', he, hget⟩ | ⟨-, hget⟩ <;> rw [hs] at hget
  · obtain rfl : s = s' := Option.some.inj (Except.ok.inj hget)
    exact ⟨hs', he⟩
  · cases hget

/-- What is told as a contact's latest session is that. -/
theorem Sound.of_latest (h : st.Sound) (hs : st.latest now newId contact flowId = .ok (some s)) :
    st.IsLatest contact flowId s := by
  rcases h.latest contact flowId with ⟨s', hs', hlatest⟩ | ⟨-, hlatest⟩ <;>
    have hlatest := hlatest now newId <;> rw [hs] at hlatest
  · obtain rfl : s = s' := Option.some.inj (Except.ok.inj hlatest)
    exact hs'
  · cases hlatest

/-- When no latest session is told, there is none that a look sees. -/
theorem Sound.of_latest_none (h : st.Sound) (hs : st.latest now newId contact flowId = .ok none) :
    ¬ st.Offers contact flowId s := by
  rcases h.latest contact flowId with ⟨s', -, hlatest⟩ | ⟨hnone, -⟩
  · have hlatest := hlatest now newId
    rw [hs] at hlatest
    cases hlatest
  · exact hnone s

/-- The only session of a contact that a look sees is told. -/
theorem Sound.latest_of_only (h : st.Sound) (hs : st.Offers contact flowId s)
    (ho : ∀ s', st.Offers contact flowId s' → s' = s) :
    st.latest now newId contact flowId = .ok (some s) := by
  rcases h.latest contact flowId with ⟨s', hs', hlatest⟩ | ⟨hnone, -⟩
  · rw [hlatest, ho s' hs'.offers]
  · exact absurd hs (hnone s)

/-! ### What another contact is told -/

/-- The stored session of an id is told as before when another session was saved. -/
theorem get_save_of_ne (h : s.id ≠ id) :
    (st.save s).get now newId id = st.get now newId id := by
  cases hf : s.fits with
  | false => rw [save_of_not_fits st hf]
  | true =>
      rw [save_of_fits st hf, get_put]
      exact if_neg h

/-- What is told about a contact's sessions is as before when a session of another contact was saved
that was not stored for this one. -/
theorem Sound.latest_save (h : st.Sound) (hc : s.contact.id ≠ contact)
    (ho : ∀ s', st.Holds s' → s'.id = s.id → s'.contact.id = s.contact.id) :
    (st.save s).latest now newId contact flowId = st.latest now newId contact flowId := by
  cases hf : s.fits with
  | false => rw [save_of_not_fits st hf]
  | true =>
      have hrows : ((st.put s.dumped).idsOf contact).filterMap (st.put s.dumped).rows.get? =
          (st.idsOf contact).filterMap st.rows.get? := by
        rw [idsOf_put, Session.dumped_contact, if_neg hc]
        refine List.filterMap_congr fun id hid => ?_
        obtain ⟨s', hs', rfl, hs'c⟩ := h.owned contact id hid
        have hne : s.dumped.id ≠ s'.id := fun he => hc ((ho s' hs' he.symm).symm.trans hs'c)
        rw [rows_put, Entries.get?_put, if_neg hne]
      rw [save_of_fits st hf]
      unfold Store.latest latestRow
      rw [hrows]

end Store
end Parley
