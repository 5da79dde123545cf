import Parley.Schema.Reading

/-!
# Parts that are read

A part is read back when it was written the way its reader takes it: `optional_ok` and `required_ok`
for a field, `list_map` for a list, `object_map` for named values and `nullable_ofOption` for a part
that need not be given. And what was read of several parts was read of each of them
(`Checked.of_seq`, `of_optional`, `of_list`).
-/

namespace Parley.Schema

variable {α β : Type}

/-! ### Parts that are read back -/

section Back

variable {fields : Fields} {k : Key} {read : Reader α} {write : α → Value} {default a : α}
  {v : Value}

/-- The name that designers write counts first. -/
theorem Key.get?_eq (h : fields.get? k.authored = some v) :
    k.get? fields = some v := by
  rw [get?, h, Option.some_or]

/-- A field that is there and can be read. -/
theorem optional_ok (hv : fields.get? k.authored = some v) (h : read v = .ok a) :
    optional fields k read default = .ok a := by
  rw [optional, Key.get?_eq hv]
  dsimp only
  rw [h]
  rfl

/-- A required field is read as its value is. -/
theorem required_ok (hv : fields.get? k.authored = some v) (h : read v = .ok a) :
    required fields k read = .ok a := by
  rw [required, Key.get?_eq hv]
  dsimp only
  rw [h]
  rfl

theorem text_text (s : String) : text (.text s) = .ok s := rfl

theorem int_int (n : Int) : int (.int n) = .ok n := rfl

/-- Entries of any values are read as they are. -/
theorem entries_any (fields : Fields) : entries any fields = .ok fields := by
  induction fields with
  | nil => rfl
  | cons e rest ih =>
      obtain ⟨k, v⟩ := e
      rw [entries, ih]
      rfl

theorem object_any (fields : Fields) :
    object any (.object fields) = .ok fields := entries_any fields

/-- The items of a list are read back when each of them is. -/
theorem list_map {as : List α} (h : ∀ a ∈ as, read (write a) = .ok a) :
    list read (.list (as.map write)) = .ok as := by
  have hitems (i : Nat) : items read i (as.map write) = .ok as := by
    induction as generalizing i with
    | nil => rfl
    | cons a rest ih =>
        rw [List.map_cons, items, h a List.mem_cons_self,
          ih (fun b hb => h b (List.mem_cons_of_mem _ hb))]
        rfl
  exact hitems 0

theorem float_float (x : Binary64) : float (.float x) = .ok x := rfl

/-- A list of texts is read as the texts. -/
theorem list_texts (ss : List String) : list text (.texts ss) = .ok ss :=
  list_map fun s _ => text_text s

/-- A part that need not be given is read back, when no part is written as null. -/
theorem nullable_ofOption (hnull : ∀ a, write a ≠ .null) (h : ∀ a, read (write a) = .ok a)
    (o : Option α) :
    nullable read (.ofOption write o) = .ok o := by
  cases o with
  | none => rfl
  | some a =>
      rw [Value.ofOption]
      unfold nullable
      split
      · next ha => exact absurd ha (hnull a)
      · rw [h]
        rfl

theorem nullable_text (o : Option String) : nullable text (.ofOption .text o) = .ok o :=
  nullable_ofOption (nofun) text_text o

theorem nullable_int (o : Option Int) : nullable int (.ofOption .int o) = .ok o :=
  nullable_ofOption (nofun) int_int o

theorem nullable_float (o : Option Binary64) : nullable float (.ofOption .float o) = .ok o :=
  nullable_ofOption (nofun) float_float o

/-- Named values are read back when each of them is. -/
theorem object_map (h : ∀ a, read (write a) = .ok a) (es : Entries α) :
    object read (.object (es.map fun e => (e.1, write e.2))) = .ok es := by
  rw [object]
  induction es with
  | nil => rfl
  | cons e rest ih =>
      rw [List.map_cons, entries, ih, h]
      rfl

end Back

/-! ### Parts that were read -/

/-- What was read part by part has parts that were read. -/
theorem Checked.of_seq {f : Checked (α → β)} {x : Checked α} {b : β} (h : f <*> x = .ok b) :
    ∃ g a, f = .ok g ∧ x = .ok a ∧ b = g a := by
  cases f <;> cases x <;> cases h
  exact ⟨_, _, rfl, rfl, rfl⟩

/-- A field that must be given was given. -/
theorem of_required {fields : Fields} {k : Key} {read : Reader α} {a : α}
    (h : required fields k read = .ok a) :
    ∃ v, k.get? fields = some v := by
  unfold required at h
  split at h
  · next v hv => exact ⟨v, hv⟩
  · cases h

/-- An optional field that was read is the default, or was read from a value. -/
theorem of_optional {fields : Fields} {k : Key} {read : Reader α} {default a : α}
    (h : optional fields k read default = .ok a) : a = default ∨ ∃ v, read v = .ok a := by
  unfold optional at h
  split at h
  · next v hv =>
    refine .inr ⟨v, ?_⟩
    cases hread : read v with
    | ok b => rwa [hread] at h
    | refused cs =>
        rw [hread] at h
        cases h
  · exact .inl (Checked.ok.inj h).symm

theorem of_items {read : Reader α} {i : Nat} {vs : List Value} {as : List α}
    (h : items read i vs = .ok as) :
    ∀ a ∈ as, ∃ v, read v = .ok a := by
  induction vs generalizing i as with
  | nil =>
      cases h
      exact nofun
  | cons v rest ih =>
      obtain ⟨g, more, hg, hmore, rfl⟩ := Checked.of_seq h
      obtain ⟨_, a, hcons, ha, rfl⟩ := Checked.of_seq hg
      cases hcons
      intro b hb
      rcases List.mem_cons.mp hb with rfl | hb
      · refine ⟨v, ?_⟩
        cases hread : read v with
        | ok c => rwa [hread] at ha
        | refused cs =>
            rw [hread] at ha
            cases ha
      · exact ih hmore b hb

/-- Each item of a list that was read was read from a value. -/
theorem of_list {read : Reader α} {v : Value} {as : List α} (h : list read v = .ok as) :
    ∀ a ∈ as, ∃ v, read v = .ok a := by
  unfold list at h
  split at h
  · exact of_items h
  · cases h

end Parley.Schema
