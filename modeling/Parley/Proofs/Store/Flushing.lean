import Parley.Proofs.Store.Reopening

/-!
# Changes that are flushed together

Where an interval is set, a store with a file writes the file some time after a change
(`Filed.mark`).  A store that is alone in its directory goes through changes, flushes at once and
the timer of the flush that is due, in any order, and the directory may fail it at any time
(`Course.after`).

The file then holds what is stored or a flush is due, as long as the last flush did not fail since
the last change (`flushed_or_due`).  A flush that fails is forgotten: the store is not dirty any
more and nothing is due.
-/

namespace Parley.Store

/-! ### Documents that a store can be opened on -/

/-- Every document tells whether it has a contact. -/
def IsIndexable (rows : Entries Value) : Prop := ∀ e ∈ rows, ∃ contact, contactOf e.2 = .ok contact

theorem indexOf_isOk {rows : Entries Value} {index : Entries (List String)} :
    (∃ index', indexOf index rows = .ok index') ↔ IsIndexable rows := by
  induction rows generalizing index with
  | nil => exact ⟨fun _ => nofun, fun _ => ⟨index, rfl⟩⟩
  | cons e rest ih =>
      obtain ⟨id, row⟩ := e
      have hsplit : IsIndexable ((id, row) :: rest) ↔ (∃ contact, contactOf row = .ok contact) ∧
          IsIndexable rest :=
        List.forall_mem_cons
      rw [hsplit, indexOf]
      cases hc : contactOf row with
      | error e =>
          constructor
          · rintro ⟨_, h⟩
            cases h
          · rintro ⟨⟨_, h⟩, -⟩
            cases h
      | ok contact =>
          refine Iff.trans ?_ (and_iff_right ⟨contact, rfl⟩).symm
          cases contact with
          | none => exact ih
          | some contact => exact ih

theorem ofRows_isOk {rows : Entries Value} :
    (∃ st, ofRows rows = .ok st) ↔ IsIndexable rows := by
  rw [← @indexOf_isOk rows [], ofRows]
  cases indexOf [] rows with
  | error e =>
      constructor <;> rintro ⟨_, h⟩ <;> cases h
  | ok index => exact ⟨fun _ => ⟨index, rfl⟩, fun _ => ⟨⟨rows, index⟩, rfl⟩⟩

theorem rows_ofRows {rows : Entries Value} {st : Store} (h : ofRows rows = .ok st) :
    st.rows = rows := by
  unfold ofRows at h
  cases hindex : indexOf [] rows with
  | error e =>
      rw [hindex] at h
      cases h
  | ok index =>
      rw [hindex] at h
      obtain rfl := Except.ok.inj h
      rfl

theorem isIndexable_ofFile {content : Option Content} {st : Store} (h : ofFile content = .ok st) :
    IsIndexable st.rows := by
  have hempty : IsIndexable ({} : Store).rows := nofun
  unfold ofFile at h
  split at h
  · exact Except.ok.inj h ▸ hempty
  · exact Except.ok.inj h ▸ hempty
  · cases h
  · exact rows_ofRows h ▸ ofRows_isOk.mp ⟨st, h⟩
  · exact Except.ok.inj h ▸ hempty

theorem isIndexable_save {st : Store} (h : IsIndexable st.rows) (s : Session) :
    IsIndexable (st.save s).rows := by
  refine save_cases (p := fun st => IsIndexable st.rows) h fun _ e he => ?_
  rcases Entries.mem_of_mem_put he with he | rfl
  · exact h e he
  · exact ⟨some s.contact.id, rfl⟩

/-- A document is deleted, or there is none and nothing changes. -/
theorem delete_cases {st : Store} (h : IsIndexable st.rows) (id : String) :
    st.delete id = (st, .ok false) ∨
      ∃ st', st.delete id = (st', .ok true) ∧ IsIndexable st'.rows := by
  cases hrow : st.rows.get? id with
  | none => exact .inl (delete_of_absent (Entries.get?_eq_none_iff.mp hrow))
  | some row =>
      have hrest : IsIndexable (st.delete id).1.rows := by
        rw [rows_delete]
        exact fun e he => h e (List.mem_of_mem_filter he)
      obtain ⟨contact, hc⟩ := h _ (Entries.mem_of_get? hrow)
      refine .inr ⟨_, Prod.ext rfl ?_, hrest⟩
      unfold delete
      rw [hrow]
      split
      · next hnone => cases hnone
      · next hnull =>
        obtain rfl := Option.some.inj hnull
        cases hc
      · next row' hrow' =>
        obtain rfl := Option.some.inj hrow'
        rw [hc]
        cases contact <;> rfl

/-! ### Courses -/

/-- What happens to a store with a file. -/
inductive Event where
  | save (session : Session)
  | delete (id : String)
  | flushAll
  /-- The timer of the flush that is due, if one is, goes off. -/
  | timer

/-- An event, when it happens, and whether files can be written in the directory then. -/
structure Occasion where
  event : Event
  clock : Rat
  writable : Bool

/-- A store with its directory, and how the last change or flush went. -/
structure Course where
  filed : Filed
  directory : Directory
  outcome : Except Fault Unit := .ok ()

namespace Course

/-- The course after what happens next.  A session that cannot be written is not saved, and an id of
none is not deleted. -/
def after (w : Course) (o : Occasion) : Course :=
  let d := { w.directory with writable := o.writable }
  match o.event with
  | .save s =>
    match w.filed.save d o.clock s with
    | (f, d, .error .tooDeep) => ⟨f, d, w.outcome⟩
    | (f, d, r) => ⟨f, d, r⟩
  | .delete id =>
    match w.filed.delete d o.clock id with
    | (f, d, .ok false) => ⟨f, d, w.outcome⟩
    | (f, d, r) => ⟨f, d, r.map fun _ => ()⟩
  | .flushAll =>
    let (f, d, r) := w.filed.flushAll d
    ⟨f, d, r⟩
  | .timer =>
    if w.filed.due.isSome then
      let (f, d, r) := w.filed.fire d
      ⟨f, d, r⟩
    else { w with directory := d }

/-- The file holds what is stored. -/
def InStep (w : Course) :
    Prop := ∃ st, ofFile w.directory.file = .ok st ∧ st.rows = w.filed.store.rows

/-- The store is dirty and a flush is due. -/
def Due (w : Course) : Prop := w.filed.dirty = true ∧ w.filed.due.isSome = true

/-- Neither. -/
def Idle (w : Course) : Prop := w.filed.dirty = false ∧ w.filed.due = none

/-- What holds all along: a store waits for its timer or for nothing, and unless a flush failed
since the last change the file holds what is stored or a flush is due. -/
structure Regular (w : Course) : Prop where
  interval : 0 < w.filed.interval
  indexable : IsIndexable w.filed.store.rows
  waits : w.Due ∨ w.Idle
  kept : w.outcome = .ok () → w.InStep ∨ w.Due
  failed (e : Fault) : w.outcome = .error e → w.Idle

theorem regular_of_ofDirectory {interval : Rat} (hi : 0 < interval) {d : Directory} {f : Filed}
    (h : Filed.ofDirectory interval d = .ok f) : Regular ⟨f, d, .ok ()⟩ := by
  unfold Filed.ofDirectory at h
  cases hfile : ofFile d.file with
  | error e =>
      rw [hfile] at h
      cases h
  | ok st =>
      rw [hfile] at h
      obtain rfl := Except.ok.inj h
      exact ⟨hi, isIndexable_ofFile hfile, .inr ⟨rfl, rfl⟩, fun _ => .inl ⟨st, hfile, rfl⟩,
        fun _ h => nomatch h⟩

/-- After a change of the store a flush is due. -/
theorem Regular.marked {f : Filed} (hi : 0 < f.interval) (hrows : IsIndexable f.store.rows)
    (d : Directory) (clock : Rat) :
    f.mark d clock = ({ f with dirty := true, due := some (f.due.getD (clock + f.interval)) },
      d, .ok ()) ∧
      Regular ⟨{ f with dirty := true, due := some (f.due.getD (clock + f.interval)) },
          d, .ok ()⟩ :=
  ⟨if_neg (Rat.not_le.mpr hi), hi, hrows, .inl ⟨rfl, rfl⟩, fun _ => .inr ⟨rfl, rfl⟩,
    fun _ h => nomatch h⟩

/-- A flush that succeeds puts into the file what is stored, and nothing is due after a flush either
way. -/
theorem Regular.flushed {f : Filed} (hi : 0 < f.interval) (hrows : IsIndexable f.store.rows)
    (d : Directory) :
    Regular ⟨{ f with dirty := false, due := none }, (f.flush d).1, (f.flush d).2⟩ := by
  refine ⟨hi, hrows, .inr ⟨rfl, rfl⟩, fun hok => .inl ?_, fun _ _ => ⟨rfl, rfl⟩⟩
  change (f.flush d).2 = .ok () at hok
  obtain ⟨st, hst⟩ := ofRows_isOk.mpr hrows
  refine ⟨st, ?_, rows_ofRows hst⟩
  unfold Filed.flush at hok ⊢
  split at hok
  · cases hok
  · next hw =>
    rw [if_neg hw]
    split at hok
    · cases hok
    · next hlong =>
      rw [if_neg hlong]
      exact hst

/-- **Whatever happens next** keeps a course regular. -/
theorem Regular.after {w : Course} (h : w.Regular) (o : Occasion) : (w.after o).Regular := by
  obtain ⟨hi, hrows, hwaits, hkept, hfailed⟩ := h
  -- a directory that changes its mind about files to come leaves the file as it is
  have hstill : Regular { w with directory := { w.directory with writable := o.writable } } :=
    ⟨hi, hrows, hwaits, hkept, hfailed⟩
  unfold Course.after
  cases o.event with
  | save s =>
      cases hf : s.fits with
      | false =>
          simp only [Filed.save_of_not_fits _ _ _ hf]
          exact hstill
      | true =>
          obtain ⟨hmark, hregular⟩ :=
            @Regular.marked { w.filed with store := w.filed.store.save s } hi
            (isIndexable_save hrows s) { w.directory with writable := o.writable } o.clock
          simp only [Filed.save_of_fits _ _ _ hf, hmark]
          exact hregular
  | delete id =>
      rcases delete_cases hrows id with hdelete | ⟨st', hdelete, hrows'⟩
      · simp only [Filed.delete, hdelete]
        exact hstill
      · obtain ⟨hmark, hregular⟩ := @Regular.marked { w.filed with store := st' } hi hrows'
          { w.directory with writable := o.writable } o.clock
        simp only [Filed.delete, hdelete, hmark, Except.map]
        exact hregular
  | flushAll => exact Regular.flushed hi hrows _
  | timer =>
      simp only
      split
      · next hdue =>
        have hdirty : w.filed.dirty = true := by
          rcases hwaits with hwaits | ⟨-, hnone⟩
          · exact hwaits.1
          · rw [hnone] at hdue
            cases hdue
        have hfire (d : Directory) : w.filed.fire d =
            ({ w.filed with dirty := false, due := none }, w.filed.flush d) := by
          rw [Filed.fire, if_pos hdirty]
        rw [hfire]
        exact Regular.flushed hi hrows _
      · exact hstill

/-- A store that was opened, before anything happens. -/
def opened (f : Filed) (d : Directory) : Course := ⟨f, d, .ok ()⟩

/-- **The file holds what is stored or a flush is due**, whatever happened to a store since it was
opened with an interval on its directory, as long as no flush failed since the last change.  After a
flush that failed the store is not dirty, and nothing is due. -/
theorem flushed_or_due {interval : Rat} (hi : 0 < interval) {d : Directory} {f : Filed}
    (h : Filed.ofDirectory interval d = .ok f) (occasions : List Occasion) :
    let w := occasions.foldl Course.after (opened f d)
    (w.outcome = .ok () → w.InStep ∨ w.Due) ∧ ∀ e, w.outcome = .error e → w.Idle := by
  have hregular : (occasions.foldl Course.after (opened f d)).Regular :=
    List.foldlRecOn occasions Course.after (regular_of_ofDirectory hi h) fun w hw o _ => hw.after o
  exact ⟨hregular.kept, hregular.failed⟩

/-- A session is saved, and at the end of the interval the directory is full. -/
def fullDirectory : List Occasion := [⟨.save (visit "a" "ana"), 0, true⟩, ⟨.timer, 5, false⟩]

/-- Once the directory was full nothing is due although the session is not in the file; after the
next change a flush is due again. -/
theorem flushed_or_due_fullDirectory :
    let w := fullDirectory.foldl Course.after (opened { interval := 5 } {})
    (w.Idle ∧ ¬ w.InStep) ∧
        ((w.after ⟨.delete "a", 6, true⟩).InStep ∨ (w.after ⟨.delete "a", 6, true⟩).Due) := by
  have hi : (0 : Rat) < 5 := by decide
  refine ⟨⟨(flushed_or_due hi (d := {}) rfl fullDirectory).2 .cannotWrite rfl, ?_⟩, ?_⟩
  · rintro ⟨st, hst, hrows⟩
    obtain rfl := Except.ok.inj hst
    cases hrows
  · exact (flushed_or_due hi (d := {}) rfl (fullDirectory ++ [⟨.delete "a", 6, true⟩])).1 rfl

end Course
end Parley.Store
