import Parley.Proofs.Store.Sound

/-!
# What a store has under one id

`st.Has id s?`: under the id the store has the document of the session `s?`, or none, and no
document under another id is taken for a session with this one.  That is all there is to know of a
store for whoever has to do with one session: whatever is told as the session with the id is it
(`Has.of_get`, `Has.of_latest`), and a session that is saved under the id is the one that is there
then (`Has.save`).  What else happens in the store does not matter as long as it leaves the id alone
(`Spares`).

In a sound store it is so with every session (`Sound.has`).
-/

namespace Parley.Store

open Calendar

/-- No document under another id is taken for a session with the id. -/
def Apart (st : Store) (id : String) : Prop :=
  ∀ key row now newId s, st.rows.get? key = some row → restore now newId row = .ok s →
    s.id = id → key = id

/-- What the store has under the id. -/
structure Has (st : Store) (id : String) (s? : Option Session) : Prop where
  row : st.rows.get? id = s?.map Session.toValue
  session : ∀ s ∈ s?, s.id = id ∧ s.Written
  apart : st.Apart id

/-- What happened between the two stores has left the id alone. -/
structure Spares (id : String) (st st' : Store) : Prop where
  row : st'.rows.get? id = st.rows.get? id
  apart : st.Apart id → st'.Apart id

variable {st st' : Store} {id : String} {s s' : Session} {s? : Option Session}

/-- What leaves an id alone leaves what the store has under it. -/
theorem Has.spared (h : st.Has id s?) (hs : Spares id st st') : st'.Has id s? :=
  ⟨hs.row.trans h.row, h.session, hs.apart h.apart⟩

theorem Spares.refl (id : String) (st : Store) : Spares id st st := ⟨rfl, fun h => h⟩

theorem Spares.trans {st'' : Store} (h : Spares id st st') (h' : Spares id st' st'') :
    Spares id st st'' :=
  ⟨h'.row.trans h.row, fun ha => h'.apart (h.apart ha)⟩

theorem has_empty (id : String) : Has {} id none := ⟨rfl, nofun, fun _ _ _ _ _ h => nomatch h⟩

/-- In a sound store every session is under its own id. -/
theorem Sound.apart (h : st.Sound) (id : String) : st.Apart id := by
  intro key row now newId s hrow hs hid
  obtain ⟨s', hs', rfl, rfl⟩ := h.session key row hrow
  rw [restore_toValue hs'.timely.written] at hs
  exact Except.ok.inj hs ▸ hid

/-- A sound store has each session under its own id. -/
theorem Sound.has (h : st.Sound) (hs : st.Holds s) : st.Has s.id (some s) :=
  ⟨hs.row, fun _ hs' => Option.mem_some_iff.mp hs' ▸ ⟨rfl, hs.timely.written⟩, h.apart s.id⟩

/-! ### Saving -/

/-- Other documents are not taken for the session when one more is put. -/
theorem Apart.put (h : st.Apart id) (hw : s.Written) : (st.put s).Apart id := by
  intro key row now newId s' hrow hs' hid
  rw [rows_put, Entries.get?_put] at hrow
  split at hrow
  · next hkey =>
    obtain rfl := Option.some.inj hrow
    rw [restore_toValue hw] at hs'
    exact hkey.symm.trans (Except.ok.inj hs' ▸ hid)
  · exact h key row now newId s' hrow hs' hid

/-- What is put in its place under the id is what is there. -/
theorem Has.put (h : st.Has id s?) (hid : s.id = id) (hw : s.Written) :
    (st.put s).Has id (some s) where
  row := by rw [rows_put, Entries.get?_put, if_pos hid, Option.map_some]
  session _ hs' := Option.mem_some_iff.mp hs' ▸ ⟨hid, hw⟩
  apart := h.apart.put hw

/-- **What is saved under the id is what is there**, as a dump has it.  A session that cannot be
written is not saved. -/
theorem Has.save (h : st.Has id s?) (hid : s.id = id) (hw : s.Written) :
    (st.save s).Has id (if s.fits then some s.dumped else s?) := by
  cases hf : s.fits with
  | false => rwa [save_of_not_fits st hf]
  | true =>
      rw [save_of_fits st hf]
      exact h.put hid hw.dumped

/-- A plain session that is saved under the id is what is there. -/
theorem Has.save_of_plain (h : st.Has id s?) (hid : s.id = id) (hw : s.Written) (hp : s.Plain) :
    (st.save s).Has id (some s) := by
  have hsaved := h.save hid hw
  rwa [if_pos hp.fits, hp.dumped] at hsaved

/-! ### Looking for it -/

theorem of_bind_ok {ε α β : Type} {r : Except ε α} {g : α → Except ε β} {y : β}
    (h : (r >>= g) = .ok y) :
    ∃ x, r = .ok x ∧ g x = .ok y := by
  cases r with
  | error e => cases h
  | ok x => exact ⟨x, rfl, h⟩

theorem of_mapError_ok {ε ε' α : Type} {r : Except ε α} {f : ε → ε'} {x : α}
    (h : r.mapError f = .ok x) :
    r = .ok x := by
  cases r with
  | error e => cases h
  | ok y => exact congrArg Except.ok (Except.ok.inj h)

/-- Documents that were kept are among those that were sifted. -/
theorem mem_of_filterRows {test : Value → Except Fault Bool} {rows kept : List Value}
    (h : filterRows test rows = .ok kept) {row : Value} (hr : row ∈ kept) : row ∈ rows := by
  induction rows generalizing kept with
  | nil =>
      cases h
      cases hr
  | cons first rest ih =>
      obtain ⟨passes, -, h⟩ := of_bind_ok h
      obtain ⟨more, hmore, h⟩ := of_bind_ok h
      cases h
      split at hr
      · rcases List.mem_cons.mp hr with rfl | hr
        · exact List.mem_cons_self
        · exact List.mem_cons_of_mem _ (ih hmore hr)
      · exact List.mem_cons_of_mem _ (ih hmore hr)

/-- The latest document is one of them. -/
theorem mem_of_latestOf {best : Moment × Value} {rows : List Value} {row : Value}
    (h : latestOf best rows = .ok row) : row = best.2 ∨ row ∈ rows := by
  induction rows generalizing best with
  | nil => exact .inl (Except.ok.inj h).symm
  | cons first rest ih =>
      obtain ⟨moment, -, h⟩ := of_bind_ok h
      split at h
      · cases h
      · exact .inr ((ih h).elim (· ▸ List.mem_cons_self) (List.mem_cons_of_mem _))
      · exact (ih h).imp_right (List.mem_cons_of_mem _)

/-- What is told as a contact's latest session is read from a document, too. -/
theorem row_of_latest {now : Moment} {newId contact flowId : String}
    (h : st.latest now newId contact flowId = .ok (some s)) :
    ∃ key row, st.rows.get? key = some row ∧ restore now newId row = .ok s := by
  obtain ⟨row?, hlatest, h⟩ := of_bind_ok h
  split at h
  · cases h
  · next row =>
    obtain ⟨s', hs', h⟩ := of_bind_ok h
    cases h
    obtain ⟨rows, hrows, hlatest⟩ := of_bind_ok (of_mapError_ok hlatest)
    split at hlatest
    · cases hlatest
    · next first rest =>
      obtain ⟨moment, -, hlatest⟩ := of_bind_ok hlatest
      obtain ⟨row', hrow', hlatest⟩ := of_bind_ok hlatest
      cases hlatest
      have hmem : row ∈ first :: rest := (mem_of_latestOf hrow').elim (· ▸ List.mem_cons_self)
        (List.mem_cons_of_mem _)
      obtain ⟨key, -, hkey⟩ := List.mem_filterMap.mp (mem_of_filterRows hrows hmem)
      exact ⟨key, row, hkey, hs'⟩

/-- A session with the id that is read from any document is the one that is there. -/
theorem Has.of_restore (h : st.Has id s?) {now : Moment} {newId key : String} {row : Value}
    (hrow : st.rows.get? key = some row) (hs : restore now newId row = .ok s)
    (hid : s.id = id) : s? = some s := by
  obtain rfl : key = id := h.apart key row now newId s hrow hs hid
  rw [h.row] at hrow
  obtain ⟨s', rfl, rfl⟩ := Option.map_eq_some_iff.mp hrow
  rw [restore_toValue (h.session s' rfl).2] at hs
  exact congrArg some (Except.ok.inj hs)

/-- Whatever is told as the session with the id is what the store has under it. -/
theorem Has.of_get (h : st.Has id s?) {now : Moment} {newId key : String}
    (hs : st.get now newId key = .ok (some s)) (hid : s.id = id) : s? = some s := by
  obtain ⟨row, hrow, hs⟩ := row_of_get hs
  exact h.of_restore hrow hs hid

/-- So it is with what is told as a contact's latest session. -/
theorem Has.of_latest (h : st.Has id s?) {now : Moment} {newId contact flowId : String}
    (hs : st.latest now newId contact flowId = .ok (some s)) (hid : s.id = id) : s? = some s := by
  obtain ⟨key, row, hrow, hs⟩ := row_of_latest hs
  exact h.of_restore hrow hs hid

/-- The session that is there is told. -/
theorem Has.get (h : st.Has id (some s)) (now : Moment) (newId : String) :
    st.get now newId id = .ok (some s) := by
  obtain ⟨rfl, hw⟩ := h.session s rfl
  exact get_of_row h.row hw now newId

theorem Has.get_none (h : st.Has id none) (now : Moment) (newId : String) :
    st.get now newId id = .ok none := by
  rw [Store.get, h.row]
  rfl

end Parley.Store
