import Mathlib.Data.List.Induction
import Parley.Proofs.Store.Sound
import Parley.Store.File

/-!
# Stores that are opened again

A store that writes its file at every change (`Filed.ran`) keeps the ids of a contact's sessions as
they come and go.  A store that is opened on the file gathers them from the documents.  Both have
them in the same order, that of the documents, as long as a session stays with its contact
(`Indexed`): ids join at the end and leave from where they are in both.

So the store that is opened tells what the live one does (`reopened_alike`).  Only whole numbers
with too many digits come between them: while one is stored the file cannot be written, and stays
what it was.
-/

namespace Parley.Store

open Calendar

/-! ### Stores that tell the same -/

/-- The stores tell the same. -/
structure Alike (st st' : Store) : Prop where
  get (now : Moment) (newId id : String) : st.get now newId id = st'.get now newId id
  latest (now : Moment) (newId contact flowId : String) :
    st.latest now newId contact flowId = st'.latest now newId contact flowId
  list (now : Moment) (newId : Nat → String) (status : Option Session.Status) (limit : Int) :
    st.list now newId status limit = st'.list now newId status limit
  count : st.count = st'.count

/-- Stores with the same documents under the same ids answer alike. -/
theorem alike_of_rows {st st' : Store} (hrows : st.rows = st'.rows)
    (hids : ∀ contact, st.idsOf contact = st'.idsOf contact) : st.Alike st' where
  get _ _ _ := by rw [Store.get, Store.get, hrows]
  latest _ _ _ _ := by rw [Store.latest, Store.latest, latestRow, latestRow, hrows, hids]
  list _ _ _ _ := by rw [Store.list, Store.list, hrows]
  count := by rw [count, count, hrows]

/-! ### The ids of a contact -/

/-- The documents are of sessions whose contacts `owner` tells, and the ids of a contact are those
of its sessions, in the order of the documents. -/
structure Indexed (owner : String → String) (st : Store) : Prop where
  owned : ∀ e ∈ st.rows, contactOf e.2 = .ok (some (owner e.1))
  nodup : st.rows.names.Nodup
  ids (contact : String) : st.idsOf contact = st.rows.names.filter (owner · = contact)

variable {owner : String → String} {st : Store}

theorem indexed_empty (owner : String → String) :
    Indexed owner {} := ⟨nofun, List.nodup_nil, fun _ => rfl⟩

/-- An id that is put in its place anew is the last among the documents and among the ids of its
contact. -/
theorem Indexed.put (h : st.Indexed owner) {s : Session} (hs : owner s.id = s.contact.id) :
    (st.put s).Indexed owner where
  owned e he := by
    rcases Entries.mem_of_mem_put he with he | rfl
    · exact h.owned e he
    · exact congrArg (Except.ok ∘ some) hs.symm
  nodup := Entries.nodup_names_put h.nodup s.id s.toValue
  ids contact := by
    have hmem : s.id ∈ st.idsOf s.contact.id ↔ s.id ∈ st.rows.names := by
      rw [h.ids, List.mem_filter, decide_eq_true hs, and_iff_left rfl]
    rw [idsOf_put, rows_put, Entries.names_put]
    by_cases hold : s.id ∈ st.rows.names
    · rw [if_pos hold, ← h.ids]
      split
      · next hc => rw [← hc, joinId, if_pos (hmem.mpr hold)]
      · rfl
    · rw [if_neg hold, List.filter_append, ← h.ids]
      split
      · next hc => rw [← hc, joinId, if_neg (hold ∘ hmem.mp), List.filter_singleton,
          decide_eq_true hs, cond_true]
      · next hc =>
        rw [List.filter_singleton, decide_eq_false (hs ▸ hc), cond_false, List.append_nil]

/-- **Saving** keeps every id with its contact. -/
theorem Indexed.save (h : st.Indexed owner) {s : Session}
    (hs : s.fits = true → owner s.id = s.contact.id) : (st.save s).Indexed owner :=
  save_cases h fun hf => h.put (hs hf)

/-- To delete what is not there changes nothing. -/
theorem delete_of_absent {id : String} (h : id ∉ st.rows.names) :
    st.delete id = (st, .ok false) := by
  have hrows : st.rows.remove id = st.rows :=
    List.filter_eq_self.mpr fun e he => bne_iff_ne.mpr fun hid => h (hid ▸ List.mem_map_of_mem he)
  rw [delete, Entries.get?_eq_none_iff.mpr h, hrows]

/-- What is deleted goes with its id. -/
theorem delete_of_contact {id contact : String} {row : Value} (hrow : st.rows.get? id = some row)
    (hc : contactOf row = .ok (some contact)) :
    st.delete id = (⟨st.rows.remove id, dropId st.index contact id⟩, .ok true) := by
  unfold delete
  rw [hrow]
  split
  · next hnone => cases hnone
  · next hnull =>
    obtain rfl := Option.some.inj hnull
    cases hc
  · next row' hrow' =>
    obtain rfl := Option.some.inj hrow'
    rw [hc]

/-- **Deleting** takes the id away from the documents and from the ids of its contact. -/
theorem Indexed.delete (h : st.Indexed owner) (id : String) : (st.delete id).1.Indexed owner where
  owned e he := by
    rw [rows_delete] at he
    exact h.owned e (List.mem_of_mem_filter he)
  nodup := by
    rw [rows_delete, Entries.names_remove]
    exact h.nodup.filter _
  ids contact := by
    rw [rows_delete, Entries.names_remove, List.filter_filter]
    by_cases hid : id ∈ st.rows.names
    · obtain ⟨row, hrow⟩ := Option.isSome_iff_exists.mp (Entries.has_eq_true_iff.mpr hid)
      rw [delete_of_contact hrow (h.owned (id, row) (Entries.mem_of_get? hrow)), idsOf_dropId]
      change (if _ then (st.idsOf contact).erase id else st.idsOf contact) = _
      rw [h.ids]
      split
      · rw [(h.nodup.filter _).erase_eq_filter, List.filter_filter]
        exact List.filter_congr fun other _ => Bool.and_comm ..
      · next hc =>
        exact List.filter_congr fun other _ => by
          by_cases he : other = id <;> simp [he, hc]
    · rw [delete_of_absent hid, h.ids]
      exact List.filter_congr fun other ho => by
        have hne : other ≠ id := fun he => hid (he ▸ ho)
        simp [hne]

/-! ### Opening -/

/-- Gathered from documents, an id joins the others of its contact at the end. -/
theorem indexOf_of_owned {rows : Entries Value}
    (h : ∀ e ∈ rows, contactOf e.2 = .ok (some (owner e.1))) (index : Entries (List String)) :
    ∃ index', indexOf index rows = .ok index' ∧
      ∀ contact, (index'.get? contact).getD [] =
        (index.get? contact).getD [] ++ rows.names.filter (owner · = contact) := by
  induction rows generalizing index with
  | nil => exact ⟨index, rfl, fun _ => (List.append_nil _).symm⟩
  | cons e rest ih =>
      obtain ⟨id, row⟩ := e
      obtain ⟨index', he, hids⟩ := ih (fun e he => h e (List.mem_cons_of_mem _ he))
        (index.put (owner id) ((index.get? (owner id)).getD [] ++ [id]))
      refine ⟨index', ?_, fun contact => ?_⟩
      · rw [indexOf, h _ List.mem_cons_self]
        exact he
      · rw [hids, Entries.get?_put, show Entries.names ((id, row) :: rest) =
          id :: Entries.names rest from rfl,
          List.filter_cons]
        by_cases hc : owner id = contact
        · subst hc
          simp
        · simp [hc]

/-- **A store that is opened on the documents of a store** tells the same. -/
theorem Indexed.ofRows (h : st.Indexed owner) :
    ∃ st', Store.ofRows st.rows = .ok st' ∧ st.Alike st' := by
  obtain ⟨index, hindex, hids⟩ := indexOf_of_owned h.owned []
  refine ⟨⟨st.rows, index⟩, ?_, alike_of_rows rfl fun contact => ?_⟩
  · rw [Store.ofRows, hindex]
    rfl
  · exact (h.ids contact).trans (hids contact).symm

/-! ### Changes -/

/-- No stored whole number has more digits than are written. -/
def IsWritable (st : Store) : Prop := (Value.object st.rows).hasLongInt = false

instance (st : Store) : Decidable st.IsWritable := inferInstanceAs (Decidable (_ = _))

/-- A change to a store. -/
inductive Change where
  | save (session : Session)
  | delete (id : String)

/-- What the change makes of the store. -/
def Change.alter : Change → Store → Store
  | .save s, st => st.save s
  | .delete id, st => (st.delete id).1

/-- The store and its directory after the change, whatever is answered. -/
def Change.apply (clock : Rat) : Change → Filed × Directory → Filed × Directory
  | .save s, (f, d) =>
    let (f, d, _) := f.save d clock s
    (f, d)
  | .delete id, (f, d) =>
    let (f, d, _) := f.delete d clock id
    (f, d)

/-- The sessions that the changes save: those that can be written. -/
def saved (changes : List (Rat × Change)) : List Session :=
  changes.filterMap fun
    | (_, .save s) => if s.fits then some s else none
    | (_, .delete _) => none

theorem saved_append (changes more : List (Rat × Change)) :
    saved (changes ++ more) = saved changes ++ saved more := List.filterMap_append

/-- Whenever a session is saved it is for one contact. -/
def OneContact (changes : List (Rat × Change)) : Prop :=
  ∀ s ∈ saved changes, ∀ s' ∈ saved changes, s.id = s'.id → s.contact.id = s'.contact.id

namespace Filed

/-- A store that writes its file at every change, and the directory, empty at first, after changes
at some moments. -/
def ran (changes : List (Rat × Change)) : Filed × Directory :=
  changes.foldl (fun fd c => c.2.apply c.1 fd) ({}, {})

theorem ran_concat (changes : List (Rat × Change)) (c : Rat × Change) :
    ran (changes ++ [c]) = c.2.apply c.1 (ran changes) := by
  rw [ran, List.foldl_append]
  rfl

variable {f : Filed} {d : Directory}

/-- A store is opened on what was flushed. -/
theorem ofFile_flush (hw : d.writable = true) (hs : f.store.IsWritable) :
    ofFile (f.flush d).1.file = ofRows f.store.rows := by
  rw [file_flush f hw hs]
  rfl

/-- Documents with a number that is too long are not flushed. -/
theorem flush_of_not_writable (hs : ¬ f.store.IsWritable) : (f.flush d).1 = d := by
  have hlong : (Value.object f.store.rows).hasLongInt = true := by
    simpa [IsWritable] using hs
  unfold flush
  rw [if_pos hlong]
  split <;> rfl

theorem writable_flush (f : Filed) (d : Directory) : (f.flush d).1.writable = d.writable := by
  unfold flush
  split
  · rfl
  · split <;> rfl

/-- After a change of a store that writes at once, the file has been written unless nothing has
changed. -/
structure Steps (c : Change) (f : Filed) (d : Directory) (f' : Filed) (d' : Directory) : Prop where
  store : f'.store = c.alter f.store
  interval : f'.interval = f.interval
  file : d' = (f'.flush d).1 ∨ d' = d ∧ f'.store = f.store

/-- A change of a store that writes at once is in its file, or has changed nothing. -/
theorem steps_apply (h : f.store.Indexed owner) (hi : f.interval ≤ 0) (c : Change) (clock : Rat) :
    Steps c f d (c.apply clock (f, d)).1 (c.apply clock (f, d)).2 := by
  -- without an interval every mark is a flush
  have hmark (st : Store) : mark { f with store := st } d clock =
      ({ f with store := st }, flush { f with store := st } d) := if_pos hi
  cases c with
  | save s =>
      cases hf : s.fits with
      | false =>
          have happly : Change.apply clock (.save s) (f, d) = (f, d) := by
            rw [Change.apply, save_of_not_fits f d clock hf]
          rw [happly]
          exact ⟨(Store.save_of_not_fits f.store hf).symm, rfl, .inr ⟨rfl, rfl⟩⟩
      | true =>
          have happly : Change.apply clock (.save s) (f, d) =
              ({ f with store := f.store.save s },
                  (Filed.flush { f with store := f.store.save s } d).1) := by
            rw [Change.apply, save_of_fits f d clock hf, hmark]
          rw [happly]
          exact ⟨rfl, rfl, .inl rfl⟩
  | delete id =>
      by_cases hid : id ∈ f.store.rows.names
      · obtain ⟨row, hrow⟩ := Option.isSome_iff_exists.mp (Entries.has_eq_true_iff.mpr hid)
        have hdelete := delete_of_contact hrow (h.owned (id, row) (Entries.mem_of_get? hrow))
        have happly : Change.apply clock (.delete id) (f, d) =
            ({ f with store := (f.store.delete id).1 },
              (Filed.flush { f with store := (f.store.delete id).1 } d).1) := by
          rw [Change.apply, Filed.delete, hdelete]
          dsimp only
          rw [hmark]
        rw [happly]
        exact ⟨rfl, rfl, .inl rfl⟩
      · have happly : Change.apply clock (.delete id) (f, d) = (f, d) := by
          rw [Change.apply, Filed.delete, delete_of_absent hid]
        rw [happly]
        exact ⟨(congrArg Prod.fst (delete_of_absent hid)).symm, rfl, .inr ⟨rfl, rfl⟩⟩

end Filed

/-- Ids stay filed when a session is saved for its own contact. -/
theorem indexed_alter (h : st.Indexed owner) (c : Change)
    (hc : ∀ s, c = .save s → s.fits = true → owner s.id = s.contact.id) :
    (c.alter st).Indexed owner := by
  cases c with
  | save s => exact h.save (hc s rfl)
  | delete id => exact h.delete id

/-! ### Runs -/

namespace Filed

/-- The store is as after the changes `kept ++ lost`, of which those in `kept` are in its file: the
file was written after the last of them, and could not be written since. -/
structure WrittenUpTo (owner : String → String) (kept lost : List (Rat × Change)) : Prop where
  indexed : (ran kept).1.store.Indexed owner
  file : ofFile (ran (kept ++ lost)).2.file = ofRows (ran kept).1.store.rows
  lost : ∀ more, more ≠ [] → more <+: lost → ¬ (ran (kept ++ more)).1.store.IsWritable

structure Running (owner : String → String) (changes : List (Rat × Change)) : Prop where
  indexed : (ran changes).1.store.Indexed owner
  interval : (ran changes).1.interval ≤ 0
  writable : (ran changes).2.writable = true
  written : ∃ kept lost, kept ++ lost = changes ∧ WrittenUpTo owner kept lost

/-- A store goes on running with one more change. -/
theorem Running.concat {changes : List (Rat × Change)} (h : Running owner changes)
    (c : Rat × Change) (hc : ∀ s, c.2 = .save s → s.fits = true → owner s.id = s.contact.id) :
    Running owner (changes ++ [c]) := by
  obtain ⟨hindexed, hinterval, hwritable, kept, lost, rfl, hwritten⟩ := h
  have hsteps := @steps_apply owner _ (ran (kept ++ lost)).2 hindexed hinterval c.2 c.1
  change Steps c.2 (ran (kept ++ lost)).1 (ran (kept ++ lost)).2
    (c.2.apply c.1 (ran (kept ++ lost))).1
    (c.2.apply c.1 (ran (kept ++ lost))).2 at hsteps
  rw [← ran_concat] at hsteps
  have hindexed' : (ran (kept ++ lost ++ [c])).1.store.Indexed owner :=
    hsteps.store ▸ indexed_alter hindexed c.2 hc
  refine ⟨hindexed', hsteps.interval ▸ hinterval, ?_, ?_⟩
  · rcases hsteps.file with hd | ⟨hd, -⟩
    · rw [hd, writable_flush, hwritable]
    · rw [hd, hwritable]
  · by_cases hs : (ran (kept ++ lost ++ [c])).1.store.IsWritable
    · -- the file is that of the store as it is now
      refine ⟨kept ++ lost ++ [c], [], List.append_nil _, hindexed', ?_, fun more hne hmore => ?_⟩
      · rw [List.append_nil]
        rcases hsteps.file with hd | ⟨hd, hst⟩
        · rw [hd, ofFile_flush hwritable hs]
        · have hlost : lost = [] := by
            by_contra hne
            exact hwritten.lost lost hne (List.prefix_refl lost) (hst ▸ hs)
          rw [hd, hst, hwritten.file, hlost, List.append_nil]
      · exact absurd (List.prefix_nil.mp hmore) hne
    · -- the file stays what it was
      refine ⟨kept, lost ++ [c], (List.append_assoc ..).symm, hwritten.indexed, ?_,
        fun more hne hmore => ?_⟩
      · rw [← hwritten.file, ← List.append_assoc]
        rcases hsteps.file with hd | ⟨hd, -⟩
        · rw [hd, flush_of_not_writable hs]
        · rw [hd]
      · rcases List.prefix_concat_iff.mp hmore with rfl | hmore
        · rwa [← List.append_assoc]
        · exact hwritten.lost more hne hmore

/-- A store runs when each id is saved for one contact only. -/
theorem running_ran {changes : List (Rat × Change)}
    (h : ∀ s ∈ saved changes, owner s.id = s.contact.id) :
    Running owner changes := by
  induction changes using List.reverseRecOn with
  | nil => exact ⟨indexed_empty owner, Rat.le_refl, rfl, [], [], rfl, indexed_empty owner, rfl,
      fun more hne hmore => absurd (List.prefix_nil.mp hmore) hne⟩
  | append_singleton changes c ih =>
      have hsaved := saved_append changes [c]
      refine (ih fun s hs => h s (hsaved ▸ List.mem_append_left _ hs)).concat c fun s hs hf => ?_
      refine h s (hsaved ▸ List.mem_append_right _ ?_)
      obtain ⟨clock, change⟩ := c
      obtain rfl : change = .save s := hs
      simp [saved, hf]

/-- A store is opened on a directory, and tells the same. -/
theorem WrittenUpTo.opened {kept lost : List (Rat × Change)} (h : WrittenUpTo owner kept lost)
    (interval : Rat) : ∃ f, ofDirectory interval (ran (kept ++ lost)).2 = .ok f ∧
      (ran kept).1.store.Alike f.store := by
  obtain ⟨st', hst', halike⟩ := h.indexed.ofRows
  refine ⟨{ store := st', interval := interval }, ?_, halike⟩
  rw [ofDirectory, h.file, hst']
  rfl

end Filed

/-- The contact that the sessions with an id are first saved for. -/
def firstContact (changes : List (Rat × Change)) (id : String) : String :=
  (((saved changes).find? (·.id = id)).map (·.contact.id)).getD ""

/-- With one contact for each id it is the first one. -/
theorem OneContact.firstContact {changes : List (Rat × Change)} (h : OneContact changes)
    {s : Session} (hs : s ∈ saved changes) : Store.firstContact changes s.id = s.contact.id := by
  unfold Store.firstContact
  cases hfind : (saved changes).find? (·.id = s.id) with
  | none => exact absurd (List.find?_eq_none.mp hfind s hs) (by simp)
  | some s' => exact h s' (List.mem_of_find?_eq_some hfind) s hs (by
    simpa using List.find?_some hfind)

/-- **A store that is opened on the file tells what the live store does**, after any changes that
leave every session with its contact, as long as what is stored can be written.  When it cannot, the
opened store tells what the live one did after the last change since which it could not. -/
theorem reopened_alike {changes : List (Rat × Change)} (h : OneContact changes) :
    ((Filed.ran changes).1.store.IsWritable → ∀ interval, ∃ f,
        Filed.ofDirectory interval (Filed.ran changes).2 = .ok f ∧
          (Filed.ran changes).1.store.Alike f.store) ∧
      ∃ kept lost, kept ++ lost = changes ∧
        (∀ interval, ∃ f, Filed.ofDirectory interval (Filed.ran changes).2 = .ok f ∧
          (Filed.ran kept).1.store.Alike f.store) ∧
        ∀ more, more ≠ [] → more <+: lost → ¬ (Filed.ran (kept ++ more)).1.store.IsWritable := by
  obtain ⟨-, -, -, kept, lost, rfl, hwritten⟩ := Filed.running_ran fun s hs => h.firstContact hs
  refine ⟨fun hs => ?_, kept, lost, rfl, hwritten.opened, hwritten.lost⟩
  have hlost : lost = [] := by
    by_contra hne
    exact hwritten.lost lost hne (List.prefix_refl lost) hs
  subst hlost
  simpa only [List.append_nil] using hwritten.opened

/-- A session of the contact in which nothing has happened. -/
def visit (id contact : String) : Session :=
  { id := id, flowId := "greeting", contact := { id := contact },
    startedAt := ⟨⟨2024, 1, 1⟩, 0, some 0⟩
    lastActivityAt := ⟨⟨2024, 1, 1⟩, 0, some 0⟩ }

/-- Ana has two sessions and Rui one; the first of Ana's is deleted and saved anew. -/
def visits : List (Rat × Change) :=
  [(0, .save (visit "a" "ana")), (1, .save (visit "b" "ana")), (2, .save (visit "c" "rui")),
    (3, .delete "a"), (4, .delete "x"), (5, .save (visit "a" "ana"))]

theorem reopened_alike_visits : ∃ f, Filed.ofDirectory 0 (Filed.ran visits).2 = .ok f ∧
    (Filed.ran visits).1.store.Alike f.store := by
  have hone : OneContact visits := by
    unfold OneContact
    decide
  have hrows : (Filed.ran visits).1.store.rows = [("b", (visit "b" "ana").toValue),
      ("c", (visit "c" "rui").toValue), ("a", (visit "a" "ana").toValue)] := rfl
  refine (reopened_alike hone).1 ?_ 0
  rw [IsWritable, hrows]
  have hone : Number.isTooLong 1 = false := @Number.isTooLong_eq_false 1 1 (by decide) (by decide)
  have hzero : Number.isTooLong 0 = false := @Number.isTooLong_eq_false 0 1 (by decide) (by decide)
  simp [Value.hasLongInt, Value.hasLongIntFields, Session.toValue, visit, Contact.toValue,
    Value.hasLongIntItems, hone, hzero]

end Parley.Store
