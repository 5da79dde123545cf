import Mathlib.Data.List.Nodup
import Parley.Value.Fields

/-!
# Reading entries that were updated

An update prefers the newer entries (`Entries.get?_update`).  Here is what that comes to when the
newer entries leave a name alone, when all that is known of a value is that it was read, and when
the newer entries have every name once, as all entries have that were written by `put`.
-/

namespace Parley.Entries

variable {α : Type}

theorem get?_eq_none_iff {es : Entries α} {name : String} :
    es.get? name = none ↔ name ∉ es.names := by
  induction es with
  | nil => simp [get?, names]
  | cons e rest ih =>
      obtain ⟨k, v⟩ := e
      by_cases h : k = name
      · simp [get?, names, h]
      · simpa [get?, names, h, Ne.symm h] using ih

theorem has_eq_true_iff {es : Entries α} {name : String} :
    es.has name = true ↔ name ∈ es.names := by
  rw [has, Option.isSome_iff_ne_none, Ne, get?_eq_none_iff, not_not]

theorem has_eq_false_iff {es : Entries α} {name : String} :
    es.has name = false ↔ name ∉ es.names := by
  rw [← has_eq_true_iff, Bool.not_eq_true]

theorem mem_of_get? {es : Entries α} {name : String} {v : α} (h : es.get? name = some v) :
    (name, v) ∈ es := by
  induction es with
  | nil => cases h
  | cons e rest ih =>
      obtain ⟨k, w⟩ := e
      rw [get?] at h
      split at h
      · next hk => exact hk ▸ Option.some.inj h ▸ List.mem_cons_self
      · exact List.mem_cons_of_mem _ (ih h)

/-- Where no name is repeated, each entry is found under its name. -/
theorem get?_of_mem {es : Entries α} (h : es.names.Nodup) {e : String × α}
    (he : e ∈ es) : es.get? e.1 = some e.2 := by
  induction es with
  | nil => cases he
  | cons first rest ih =>
      obtain ⟨hk, hrest⟩ := List.nodup_cons.mp h
      rcases List.mem_cons.mp he with rfl | he
      · exact if_pos rfl
      · have hne : first.1 ≠ e.1 := fun hn =>
          hk (List.mem_map.mpr ⟨e, he, hn.symm⟩)
        rw [get?, if_neg hne]
        exact ih hrest he

/-- An entry after a change was there before, or is the new one. -/
theorem mem_of_mem_put {es : Entries α} {name : String} {v : α} {e : String × α}
    (h : e ∈ es.put name v) : e ∈ es ∨ e = (name, v) := by
  induction es with
  | nil => exact .inr (List.mem_singleton.mp h)
  | cons first rest ih =>
      obtain ⟨k, w⟩ := first
      rw [put] at h
      split at h
      · next hk =>
        rcases List.mem_cons.mp h with rfl | h
        · exact .inr (hk ▸ rfl)
        · exact .inl (List.mem_cons_of_mem _ h)
      · rcases List.mem_cons.mp h with rfl | h
        · exact .inl List.mem_cons_self
        · exact (ih h).imp_left (List.mem_cons_of_mem _)

/-- What is removed is no longer found, and everything else is. -/
theorem get?_remove (es : Entries α) (name other : String) :
    (es.remove name).get? other = if name = other then none else es.get? other := by
  induction es with
  | nil => simp [remove, get?]
  | cons e rest ih =>
      obtain ⟨k, v⟩ := e
      rw [remove] at ih ⊢
      by_cases hk : k = name
      · subst hk
        rw [List.filter_cons_of_neg (by simp), ih, get?]
        by_cases ho : k = other <;> simp [ho]
      · rw [List.filter_cons_of_pos (by simpa using hk), get?, get?, ih]
        by_cases ho : k = other
        · subst ho
          simp [Ne.symm hk]
        · simp [ho]

theorem names_remove (es : Entries α) (name : String) :
    (es.remove name).names = es.names.filter (· != name) := by
  rw [names, names, List.filter_map, remove]
  rfl

/-- Of two writes of one name the later counts. -/
theorem put_put_self (es : Entries α) (name : String) (v w : α) :
    (es.put name v).put name w = es.put name w := by
  induction es with
  | nil => simp [put]
  | cons e rest ih =>
      obtain ⟨k, u⟩ := e
      by_cases hk : k = name <;> simp [put, hk, ih]

/-- To write what is there already changes nothing. -/
theorem put_eq_self {es : Entries α} {name : String} {v : α} (h : es.get? name = some v) :
    es.put name v = es := by
  induction es with
  | nil => cases h
  | cons e rest ih =>
      obtain ⟨k, w⟩ := e
      rw [get?] at h
      rw [put]
      split at h
      · next hk => rw [if_pos hk, Option.some.inj h]
      · next hk => rw [if_neg hk, ih h]

/-! ### Updates -/

/-- What an update does not name stays as it was. -/
theorem get?_update_of_notMem {es newer : Entries α} {name : String} (h : name ∉ newer.names) :
    (es.update newer).get? name = es.get? name := by
  have hnone : newer.reverse.find? (·.1 == name) = none := by
    rw [List.find?_eq_none]
    intro e he hn
    exact h (List.mem_map.mpr ⟨e, List.mem_reverse.mp he, eq_of_beq hn⟩)
  rw [get?_update, hnone]
  rfl

theorem mem_names_update {es newer : Entries α} {name : String} :
    name ∈ (es.update newer).names ↔ name ∈ es.names ∨ name ∈ newer.names := by
  induction newer generalizing es with
  | nil => simp [update, names]
  | cons e rest ih =>
      have hstep : es.update (e :: rest) = (es.put e.1 e.2).update rest := rfl
      have hnames : names (e :: rest) = e.1 :: names rest := rfl
      rw [hstep, ih, names_put, hnames, List.mem_cons]
      split
      · next he =>
        refine ⟨fun h => h.imp_right .inr, fun h => ?_⟩
        rcases h with h | rfl | h
        exacts [.inl h, .inl he, .inr h]
      · rw [List.mem_append, List.mem_singleton, or_assoc]

/-- What is read after an update was written by it, or was there before. -/
theorem of_get?_update {es newer : Entries α} {name : String} {v : α}
    (h : (es.update newer).get? name = some v) : (name, v) ∈ newer ∨ es.get? name = some v := by
  rw [get?_update] at h
  cases hf : newer.reverse.find? (·.1 == name) with
  | none =>
      rw [hf] at h
      exact .inr h
  | some e =>
      rw [hf] at h
      obtain rfl : e.2 = v := Option.some.inj h
      obtain rfl : e.1 = name := by simpa using List.find?_some hf
      exact .inl (List.mem_reverse.mp (List.mem_of_find?_eq_some hf))

/-- An entry after an update is an old one or one of the update. -/
theorem mem_of_mem_update {es newer : Entries α} {e : String × α} (h : e ∈ es.update newer) :
    e ∈ es ∨ e ∈ newer := by
  induction newer generalizing es with
  | nil => exact .inl h
  | cons first rest ih =>
      rcases @ih (es.put first.1 first.2) h with he | he
      · rcases mem_of_mem_put he with he | rfl
        · exact .inl he
        · exact .inr List.mem_cons_self
      · exact .inr (List.mem_cons_of_mem _ he)

theorem mem_of_mem_ofPairs {pairs : List (String × α)} {e : String × α} (h : e ∈ ofPairs pairs) :
    e ∈ pairs :=
  (mem_of_mem_update h).resolve_left List.not_mem_nil

/-! ### Entries that have every name once -/

/-- No name comes to be repeated by a change. -/
theorem nodup_names_put {es : Entries α} (h : es.names.Nodup) (name : String) (v : α) :
    (es.put name v).names.Nodup := by
  rw [names_put]
  split
  · exact h
  · next hn =>
    exact h.append (List.nodup_singleton name) (by simpa using hn)

/-- No name comes to be repeated by an update. -/
theorem nodup_names_update {es : Entries α} (h : es.names.Nodup) (newer : Entries α) :
    (es.update newer).names.Nodup := by
  induction newer generalizing es with
  | nil => exact h
  | cons e rest ih => exact ih (nodup_names_put h e.1 e.2)

/-- No name is repeated among entries, whatever pairs they are made of. -/
theorem nodup_names_ofPairs (pairs : List (String × α)) : (ofPairs pairs).names.Nodup :=
  @nodup_names_update _ [] List.nodup_nil pairs

/-- Where every name is newer once, the newer entry counts, and else the old one. -/
theorem get?_update_of_nodup {newer : Entries α} (h : newer.names.Nodup) (es : Entries α)
    (name : String) : (es.update newer).get? name = (newer.get? name).or (es.get? name) := by
  induction newer generalizing es with
  | nil => rfl
  | cons e rest ih =>
      obtain ⟨k, v⟩ := e
      obtain ⟨hk, hrest⟩ := List.nodup_cons.mp h
      have hstep : es.update ((k, v) :: rest) = (es.put k v).update rest := rfl
      rw [hstep, ih hrest, get?_put, get?]
      by_cases hn : k = name
      · subst hn
        rw [get?_eq_none_iff.mpr hk, if_pos rfl, if_pos rfl]
        rfl
      · rw [if_neg hn, if_neg hn]

/-- A new name goes last. -/
theorem put_of_notMem {es : Entries α} {name : String} (h : name ∉ es.names) (v : α) :
    es.put name v = es ++ [(name, v)] := by
  induction es with
  | nil => rfl
  | cons e rest ih =>
      obtain ⟨k, w⟩ := e
      obtain ⟨hk, hrest⟩ := not_or.mp (mt List.mem_cons.mpr h)
      rw [put, if_neg (Ne.symm hk), ih hrest, List.cons_append]

/-- New names go last in their order. -/
theorem update_of_disjoint {es newer : Entries α} (h : (es ++ newer).names.Nodup) :
    es.update newer = es ++ newer := by
  induction newer generalizing es with
  | nil => exact (List.append_nil es).symm
  | cons e rest ih =>
      have hsplit : es ++ e :: rest = (es ++ [e]) ++ rest := by simp
      have hnew : e.1 ∉ es.names := by
        rw [names, List.map_append, List.map_cons] at h
        exact (List.nodup_middle.mp h).notMem ∘ List.mem_append_left _
      have hput : es.put e.1 e.2 = es ++ [e] := put_of_notMem hnew e.2
      have hstep : es.update (e :: rest) = (es.put e.1 e.2).update rest := rfl
      rw [hsplit] at h ⊢
      rw [hstep, hput, ih h]

/-- Entries that have every name once are what they are as pairs. -/
theorem ofPairs_of_nodup {es : Entries α} (h : es.names.Nodup) : ofPairs es = es :=
  @update_of_disjoint _ [] es h

/-- What is put under a name is removed with it. -/
theorem remove_put_self (es : Entries α) (name : String) (v : α) :
    (es.put name v).remove name = es.remove name := by
  induction es with
  | nil => simp [put, remove]
  | cons e rest ih =>
      obtain ⟨k, w⟩ := e
      by_cases hk : k = name
      · simp [put, remove, hk]
      · have hrest : List.filter (fun e => e.1 != name) (put rest name v) =
            List.filter (fun e => e.1 != name) rest := ih
        simp [put, remove, hk, hrest]

theorem remove_put_of_ne (es : Entries α) {name other : String} (h : name ≠ other)
    (v : α) : (es.put name v).remove other = (es.remove other).put name v := by
  induction es with
  | nil => simp [put, remove, h]
  | cons e rest ih =>
      obtain ⟨k, w⟩ := e
      have hrest : List.filter (fun e => e.1 != other) (put rest name v) =
          put (List.filter (fun e => e.1 != other) rest) name v := ih
      by_cases hk : k = name
      · subst hk
        simp [put, remove, h]
      · by_cases ho : k = other
        · subst ho
          simp [put, remove, hk, hrest]
        · simp [put, remove, hk, ho, hrest]

/-! ### Entries side by side, and names with the same beginning -/

/-- The first of two lists of entries is looked through first. -/
theorem get?_append (es es' : Entries α) (name : String) :
    get? (es ++ es') name = (es.get? name).or (es'.get? name) := by
  induction es with
  | nil => rfl
  | cons e rest ih =>
      rw [List.cons_append, get?, get?, ih]
      split <;> rfl

/-- The name begins so. -/
def begins (front name : String) : Bool := front.toList.isPrefixOf name.toList

theorem begins_append (front name : String) : begins front (front ++ name) = true := by
  rw [begins, String.toList_append, List.isPrefixOf_iff_prefix]
  exact List.prefix_append _ _

/-- Entries under longer names are read by the longer names. -/
theorem get?_map_append (front : String) (es : Entries α) (name : String) :
    get? (es.map fun e => (front ++ e.1, e.2)) (front ++ name) = es.get? name := by
  induction es with
  | nil => rfl
  | cons e rest ih =>
      rw [List.map_cons, get?, get?, ih]
      simp only [String.append_right_inj]

theorem nodup_names_map_append (front : String) {es : Entries α} (h : es.names.Nodup) :
    (names (es.map fun e => (front ++ e.1, e.2))).Nodup := by
  have hnames : names (es.map fun e => (front ++ e.1, e.2)) = es.names.map (front ++ ·) := by
    simp [names]
  rw [hnames]
  exact h.map fun _ _ => (String.append_right_inj _).mp

end Parley.Entries
