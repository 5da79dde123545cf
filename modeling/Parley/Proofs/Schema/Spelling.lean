import Mathlib.Data.List.Forall2
import Mathlib.Data.List.Pairwise
import Parley.Proofs.Schema.Parts
import Parley.Proofs.Value.Entries

/-!
# The spelling of names

A field of a block goes by two names, and a document may use either of them, here one and there the
other. A `Spelling` says which values are one value but for that: lists item by item, named values
name by name, and blocks entry by entry, where the name of a field may be its other name and what
the field holds is respelled in its turn. The names that are themselves data are kept. `Layout`
lists the fields of a block; `Layout.Respells` is what may become of one entry.

As long as no field is given twice, a reader that looks at a block through its fields alone reads
all spellings of it alike. Main statements: `Layout.Alike.get?`, that a field holds the same under
every spelling, and `Indifferent.block`, `Indifferent.list` and `Indifferent.object`, by which
readers of whole documents are made from readers of their parts.
-/

namespace Parley.Schema

variable {α β : Type}

/-! ### What was read, complaints aside -/

/-- What was read, if anything was. -/
def Checked.value? : Checked α → Option α
  | .ok a => some a
  | .refused _ => none

namespace Checked

@[simp] theorem value?_seq (f : Checked (α → β)) (x : Checked α) :
    (f <*> x).value? = f.value? <*> x.value? := by
  cases f <;> cases x <;> rfl

@[simp] theorem value?_mapped (f : α → β) (x : Checked α) : (f <$> x).value? = f <$> x.value? := by
  cases x <;> rfl

@[simp] theorem value?_map (f : α → β) (x : Checked α) : (x.map f).value? = x.value?.map f := by
  cases x <;> rfl

@[simp] theorem value?_under (key : String) (x : Checked α) : (x.under key).value? = x.value? := by
  cases x <;> rfl

end Checked

/-! ### The names of fields -/

deriving instance DecidableEq for Key

namespace Key

/-- The field goes by the name. -/
def Names (k : Key) (name : String) : Prop := name = k.authored ∨ name = k.plain

instance (k : Key) (name : String) : Decidable (k.Names name) := inferInstanceAs (Decidable (_ ∨ _))

/-- Two fields share no name. -/
def Apart (k k' : Key) : Prop := ¬ k.Names k'.authored ∧ ¬ k.Names k'.plain

instance (k k' : Key) : Decidable (k.Apart k') := inferInstanceAs (Decidable (_ ∧ _))

/-- Of two fields that are apart only one has a name. -/
theorem Apart.not_names {k k' : Key} (h : k.Apart k') {name : String} (hk : k.Names name) :
    ¬ k'.Names name := by
  rintro (rfl | rfl)
  · exact h.1 hk
  · exact h.2 hk

/-- A field with one name is looked up under it. -/
theorem get?_only (name : String) (o : Fields) : (only name).get? o = o.get? name := Option.or_self

/-- At most one entry gives the field. -/
def Once (k : Key) (o : Fields) : Prop := o.Pairwise fun e e' => k.Names e.1 → ¬ k.Names e'.1

instance (k : Key) (o : Fields) :
    Decidable (k.Once o) := inferInstanceAs (Decidable (List.Pairwise _ o))

/-- A field that is given once holds what its only entry holds. -/
theorem get?_of_once {k : Key} {o : Fields} (h : k.Once o) :
    k.get? o = (o.find? fun e => k.Names e.1).map Prod.snd := by
  induction o with
  | nil => rfl
  | cons e rest ih =>
    obtain ⟨name, v⟩ := e
    obtain ⟨hfirst, hrest⟩ := List.pairwise_cons.mp h
    by_cases hk : k.Names name
    · rw [List.find?_cons_of_pos (by simpa using hk), get?]
      have hnone (other : String) (hother : k.Names other) : Entries.get? rest other = none := by
        rw [Entries.get?_eq_none_iff]
        intro hmem
        obtain ⟨e', he', rfl⟩ := List.mem_map.mp hmem
        exact hfirst e' he' hk hother
      by_cases ha : name = k.authored
      · simp [Entries.get?, ha]
      · have hp : name = k.plain := hk.resolve_left ha
        rw [Entries.get?, if_neg ha, hnone _ (.inl rfl), Entries.get?, if_pos hp]
        rfl
    · rw [List.find?_cons_of_neg (by simpa using hk), ← ih hrest, get?, get?, Entries.get?,
        if_neg (fun ha => hk (.inl ha)), Entries.get?, if_neg (fun hp => hk (.inr hp))]

end Key

/-! ### Spellings -/

/-- What may differ in the names within a value. -/
structure Spelling where
  /-- The two values differ in the spelling of names only. -/
  Respells : Value → Value → Prop
  /-- No field within the value is given twice. -/
  Single : Value → Prop
  refl : ∀ v, Respells v v

namespace Spelling

/-- Data are spelled in one way only. -/
def exact : Spelling := ⟨Eq, fun _ => True, Eq.refl⟩

/-- Lists are respelled item by item. -/
def items (s : Spelling) : Spelling where
  Respells
    | .list vs, .list ws => List.Forall₂ s.Respells vs ws
    | v, w => v = w
  Single
    | .list vs => ∀ v ∈ vs, s.Single v
    | _ => True
  refl
    | .list _ => List.forall₂_same.mpr fun v _ => s.refl v
    | .null | .bool _ | .int _ | .float _ | .text _ | .object _ => rfl

/-- Named values are respelled one by one; their names are data. -/
def named (s : Spelling) : Spelling where
  Respells
    | .object o, .object o' => List.Forall₂ (fun e e' => e.1 = e'.1 ∧ s.Respells e.2 e'.2) o o'
    | v, w => v = w
  Single
    | .object o => ∀ e ∈ o, s.Single e.2
    | _ => True
  refl
    | .object _ => List.forall₂_same.mpr fun e _ => ⟨rfl, s.refl e.2⟩
    | .null | .bool _ | .int _ | .float _ | .text _ | .list _ => rfl

/-- A list is respelled item by item, and what is no list stays as it is. -/
theorem items_cases {s : Spelling} {v w : Value} (hvw : s.items.Respells v w)
    (hv : s.items.Single v) :
    (∃ vs ws, v = .list vs ∧ w = .list ws ∧ List.Forall₂ s.Respells vs ws ∧ ∀ v ∈ vs, s.Single v) ∨
      v = w := by
  cases v with
  | list vs =>
    cases w with
    | list ws => exact .inl ⟨vs, ws, rfl, rfl, hvw, hv⟩
    | _ => cases hvw
  | _ => exact .inr hvw

/-- An object is respelled value by value, and what is no object stays as it is. -/
theorem named_cases {s : Spelling} {v w : Value} (hvw : s.named.Respells v w)
    (hv : s.named.Single v) :
    (∃ o o', v = .object o ∧ w = .object o' ∧
      List.Forall₂ (fun e e' => e.1 = e'.1 ∧ s.Respells e.2 e'.2) o o' ∧ ∀ e ∈ o, s.Single e.2) ∨
        v = w := by
  cases v with
  | object o =>
    cases w with
    | object o' => exact .inl ⟨o, o', rfl, rfl, hvw, hv⟩
    | _ => cases hvw
  | _ => exact .inr hvw

/-- A test that tells no spelling of an item from another tells none of a list of them. -/
theorem any_items {s : Spelling} {test : Value → Bool}
    (h : ∀ {v w}, s.Respells v w → s.Single v → test v = test w) {v w : Value}
    (hvw : s.items.Respells v w) (hv : s.items.Single v) :
    (v.asList?.getD []).any test = (w.asList?.getD []).any test := by
  rcases items_cases hvw hv with ⟨vs, ws, rfl, rfl, hitems, hsingle⟩ | rfl
  · change vs.any test = ws.any test
    clear hvw hv
    induction hitems with
    | nil => rfl
    | cons hitem _ ih =>
      obtain ⟨hfirst, hrest⟩ := List.forall_mem_cons.mp hsingle
      rw [List.any_cons, List.any_cons, h hitem hfirst, ih hrest]
  · rfl

/-- What a value is decides how it may be respelled. -/
def depending (s : Value → Spelling) : Spelling :=
  ⟨fun v => (s v).Respells v, fun v => (s v).Single v, fun v => (s v).refl v⟩

end Spelling

/-- The fields of a block: those that hold data, and those whose parts have names of their own to
spell. No two of them share a name. -/
structure Layout where
  data : List Key
  parts : List (Key × Spelling) := []
  apart : (data ++ parts.map Prod.fst).Pairwise Key.Apart

namespace Layout

variable {l : Layout} {k : Key} {s : Spelling} {o o' : Fields}

/-- The names of all fields of a block. -/
def keys (l : Layout) : List Key := l.data ++ l.parts.map Prod.fst

/-- All fields of a block, with what they hold. -/
def fields (l : Layout) : List (Key × Spelling) := l.data.map (·, .exact) ++ l.parts

theorem mem_fields_of_data (h : k ∈ l.data) : (k, .exact) ∈ l.fields :=
  List.mem_append_left _ (List.mem_map_of_mem h)

theorem mem_fields_of_parts (h : (k, s) ∈ l.parts) : (k, s) ∈ l.fields := List.mem_append_right _ h

/-- An entry of a block and what may become of it: a field goes by either of its names, and what it
holds is respelled; any other entry is kept. -/
inductive Respells (l : Layout) : String × Value → String × Value → Prop where
  | field {k s name name' v w} : (k, s) ∈ l.fields → k.Names name → k.Names name' → s.Respells v w →
    Respells l (name, v) (name', w)
  | foreign {e} : (∀ f ∈ l.fields, ¬ f.1.Names e.1) → Respells l e e

/-- An entry is a spelling of itself. -/
theorem Respells.refl (l : Layout) (e : String × Value) : l.Respells e e := by
  by_cases h : ∃ f ∈ l.fields, f.1.Names e.1
  · obtain ⟨f, hf, hname⟩ := h
    exact .field hf hname hname (f.2.refl e.2)
  · exact .foreign fun f hf hname => h ⟨f, hf, hname⟩

/-- Every field is given once at most, and what is given is single in its turn. -/
def Single (l : Layout) (o : Fields) : Prop :=
  ∀ f ∈ l.fields, f.1.Once o ∧ ∀ e ∈ o, f.1.Names e.1 → f.2.Single e.2

/-- No field is given twice when none of the block's own is, and none of any part's. -/
theorem single_iff : l.Single o ↔ (∀ k ∈ l.keys, k.Once o) ∧
    ∀ p ∈ l.parts, ∀ e ∈ o, p.1.Names e.1 → p.2.Single e.2 := by
  constructor
  · intro h
    refine ⟨fun k hk => ?_, fun p hp => (h p (mem_fields_of_parts hp)).2⟩
    rcases List.mem_append.mp hk with hk | hk
    · exact (h _ (mem_fields_of_data hk)).1
    · obtain ⟨p, hp, rfl⟩ := List.mem_map.mp hk
      exact (h p (mem_fields_of_parts hp)).1
  · rintro ⟨honce, hparts⟩ f hf
    rcases List.mem_append.mp hf with hf | hf
    · obtain ⟨k, hk, rfl⟩ := List.mem_map.mp hf
      exact ⟨honce k (List.mem_append_left _ hk), fun _ _ _ => trivial⟩
    · exact ⟨honce f.1 (List.mem_append_right _ (List.mem_map_of_mem hf)), hparts f hf⟩

/-- Blocks are respelled entry by entry. -/
def spelling (l : Layout) : Spelling where
  Respells
    | .object o, .object o' => List.Forall₂ l.Respells o o'
    | v, w => v = w
  Single
    | .object o => l.Single o
    | _ => True
  refl
    | .object _ => List.forall₂_same.mpr fun e _ => .refl l e
    | .null | .bool _ | .int _ | .float _ | .text _ | .list _ => rfl

/-- A name belongs to one field at most. -/
theorem eq_of_names {f g : Key × Spelling} (hf : f ∈ l.fields) (hg : g ∈ l.fields) {name : String}
    (hfn : f.1.Names name) (hgn : g.1.Names name) : f = g := by
  have hapart : l.fields.Pairwise fun f g => f.1.Apart g.1 := by
    rw [← List.pairwise_map (f := Prod.fst) (R := Key.Apart), fields, List.map_append, List.map_map]
    simpa [Function.comp_def] using l.apart
  have hdisjoint : l.fields.Pairwise fun f g => ∀ name, f.1.Names name → ¬ g.1.Names name :=
    hapart.imp fun h name => h.not_names
  have hsymm : Std.Symm fun f g : Key × Spelling => ∀ name, f.1.Names name → ¬ g.1.Names name :=
    ⟨fun _ _ h name hg hf => h name hf hg⟩
  by_contra hne
  exact hdisjoint.forall hf hg hne name hfn hgn

namespace Respells

variable {e e' : String × Value}

/-- An entry gives a field in the one spelling when it does in the other. -/
theorem names_iff (h : l.Respells e e') (hf : (k, s) ∈ l.fields) : k.Names e.1 ↔ k.Names e'.1 := by
  cases h with
  | field hg hname hname' _ =>
    constructor
    · intro hk
      cases eq_of_names hf hg hk hname
      exact hname'
    · intro hk
      cases eq_of_names hf hg hk hname'
      exact hname
  | foreign _ => rfl

/-- The value of a field is respelled as the field says. -/
theorem value (h : l.Respells e e') (hf : (k, s) ∈ l.fields) (hk : k.Names e.1) :
    s.Respells e.2 e'.2 := by
  cases h with
  | field hg hname _ hv =>
    cases eq_of_names hf hg hk hname
    exact hv
  | foreign hno => exact absurd hk (hno _ hf)

/-- Data may be given under the plain name instead of the designer's. -/
theorem renamed (hk : k ∈ l.data) (v : Value) : l.Respells (k.authored, v) (k.plain, v) :=
  .field (mem_fields_of_data hk) (.inl rfl) (.inr rfl) rfl

/-- A part keeps its name and is respelled within. -/
theorem within (hf : (k, s) ∈ l.parts) {v w : Value} (h : s.Respells v w) :
    l.Respells (k.authored, v) (k.authored, w) :=
  .field (mem_fields_of_parts hf) (.inl rfl) (.inl rfl) h

/-- A part is given under the plain name instead of the designer's, and respelled within. -/
theorem renamedWithin (hf : (k, s) ∈ l.parts) {v w : Value} (h : s.Respells v w) :
    l.Respells (k.authored, v) (k.plain, w) :=
  .field (mem_fields_of_parts hf) (.inl rfl) (.inr rfl) h

end Respells

/-- The entries of a block as they are given in two documents that differ in their spelling only. -/
structure Alike (l : Layout) (o o' : Fields) : Prop where
  entries : List.Forall₂ l.Respells o o'
  single : l.Single o

namespace Alike

/-- The entries that give a field stand in the same places. -/
theorem map_names (h : List.Forall₂ l.Respells o o') (hf : (k, s) ∈ l.fields) :
    o.map (fun e => decide (k.Names e.1)) = o'.map fun e => decide (k.Names e.1) := by
  induction h with
  | nil => rfl
  | cons he _ ih => rw [List.map_cons, List.map_cons, ih, decide_eq_decide.mpr (he.names_iff hf)]

/-- A field that is given once is so in both spellings. -/
theorem once (h : l.Alike o o') (hf : (k, s) ∈ l.fields) : k.Once o' := by
  have honce : k.Once o := (h.single _ hf).1
  have hmarks (o : Fields) : k.Once o ↔
      (o.map fun e => decide (k.Names e.1)).Pairwise fun a b => a = true → ¬ b = true := by
    rw [List.pairwise_map]
    simp only [decide_eq_true_eq]
    rfl
  rwa [hmarks, ← map_names h.entries hf, ← hmarks]

/-- A field is given in both documents or in neither, and what it holds is respelled. -/
theorem get? (h : l.Alike o o') (hf : (k, s) ∈ l.fields) :
    Option.Rel (fun v w => s.Respells v w ∧ s.Single v) (k.get? o) (k.get? o') := by
  have hsingle : ∀ e ∈ o, k.Names e.1 → s.Single e.2 := (h.single _ hf).2
  have hentries := h.entries
  rw [Key.get?_of_once (h.single _ hf).1, Key.get?_of_once (h.once hf)]
  clear h
  induction hentries with
  | nil => exact .none
  | @cons e e' rest rest' he _ ih =>
    by_cases hk : k.Names e.1
    · have hk' : k.Names e'.1 := (he.names_iff hf).mp hk
      rw [List.find?_cons_of_pos (by simpa using hk), List.find?_cons_of_pos (by simpa using hk')]
      exact .some ⟨he.value hf hk, hsingle e List.mem_cons_self hk⟩
    · have hk' : ¬ k.Names e'.1 := fun h => hk ((he.names_iff hf).mpr h)
      rw [List.find?_cons_of_neg (by simpa using hk), List.find?_cons_of_neg (by simpa using hk')]
      exact ih fun e he => hsingle e (List.mem_cons_of_mem _ he)

/-- Data are the same in both documents. -/
theorem get?_data (h : l.Alike o o') (hk : k ∈ l.data) : k.get? o = k.get? o' := by
  have hrel := h.get? (mem_fields_of_data hk)
  generalize k.get? o = given, k.get? o' = given' at hrel ⊢
  cases hrel with
  | none => rfl
  | some hv => exact congrArg some hv.1

end Alike

/-- A block is respelled field by field, and what is no object stays as it is. -/
theorem spelling_cases {v w : Value} (hvw : l.spelling.Respells v w) (hv : l.spelling.Single v) :
    (∃ o o', v = .object o ∧ w = .object o' ∧ l.Alike o o') ∨ v = w := by
  cases v with
  | object o =>
    cases w with
    | object o' => exact .inl ⟨o, o', rfl, rfl, hvw, hv⟩
    | _ => cases hvw
  | _ => exact .inr hvw

end Layout

/-! ### Readers -/

/-- The reader gives the same for all spellings of a value, or fails for all of them. -/
def Indifferent (read : Reader α) (s : Spelling) : Prop :=
  ∀ ⦃v w⦄, s.Respells v w → s.Single v → (read v).value? = (read w).value?

theorem Indifferent.exact (read : Reader α) : Indifferent read .exact := by
  rintro v _ rfl -
  rfl

namespace Layout.Alike

variable {l : Layout} {k : Key} {s : Spelling} {o o' : Fields} {read : Reader α} {default : α}

/-- An optional field means the same in both spellings. -/
theorem optional (h : l.Alike o o') (hf : (k, s) ∈ l.fields) (hr : Indifferent read s) :
    (optional o k read default).value? = (Schema.optional o' k read default).value? := by
  have hrel := h.get? hf
  unfold Schema.optional
  generalize k.get? o = given, k.get? o' = given' at hrel ⊢
  cases hrel with
  | none => rfl
  | some hv =>
    dsimp only
    rw [Checked.value?_under, Checked.value?_under, hr hv.1 hv.2]

/-- A part with names of its own. -/
theorem optional_part (h : l.Alike o o') (hf : (k, s) ∈ l.parts) (hr : Indifferent read s) :
    (Schema.optional o k read default).value? = (Schema.optional o' k read default).value? :=
  h.optional (mem_fields_of_parts hf) hr

/-- An optional field of data means the same in both spellings. -/
theorem optional_data (h : l.Alike o o') (hk : k ∈ l.data) :
    (Schema.optional o k read default).value? = (Schema.optional o' k read default).value? :=
  h.optional (mem_fields_of_data hk) (.exact read)

/-- A required field means the same in both spellings. -/
theorem required_data (h : l.Alike o o') (hk : k ∈ l.data) :
    (required o k read).value? = (required o' k read).value? := by
  rw [required, required, h.get?_data hk]

end Layout.Alike

namespace Indifferent

variable {read : Reader α} {s : Spelling}

/-- A block is read alike when it is read through its fields. -/
theorem block {l : Layout} {read : Fields → Checked α} (name : String)
    (h : ∀ {o o'}, l.Alike o o' → (read o).value? = (read o').value?) :
    Indifferent (block name read) l.spelling := by
  intro v w hvw hv
  rcases l.spelling_cases hvw hv with ⟨o, o', rfl, rfl, halike⟩ | rfl
  · exact h halike
  · rfl

theorem items (h : Indifferent read s) {vs ws : List Value} (hvw : List.Forall₂ s.Respells vs ws)
    (hv : ∀ v ∈ vs, s.Single v) (i : Nat) :
    (items read i vs).value? = (Schema.items read i ws).value? := by
  induction hvw generalizing i with
  | nil => rfl
  | @cons v w vs ws hfirst _ ih =>
    obtain ⟨hsingle, hrest⟩ := List.forall_mem_cons.mp hv
    simp only [Schema.items, Checked.value?_seq, Checked.value?_mapped, Checked.value?_under,
      h hfirst hsingle, ih hrest (i + 1)]

/-- A list means the same in both spellings when its items do. -/
theorem list (h : Indifferent read s) : Indifferent (list read) s.items := by
  intro v w hvw hv
  rcases Spelling.items_cases hvw hv with ⟨vs, ws, rfl, rfl, hitems, hsingle⟩ | rfl
  · exact h.items hitems hsingle 0
  · rfl

theorem entries (h : Indifferent read s) {o o' : Fields}
    (hvw : List.Forall₂ (fun e e' => e.1 = e'.1 ∧ s.Respells e.2 e'.2) o o')
    (hv : ∀ e ∈ o, s.Single e.2) :
    (entries read o).value? = (Schema.entries read o').value? := by
  induction hvw with
  | nil => rfl
  | @cons e e' rest rest' hfirst _ ih =>
    obtain ⟨name, v⟩ := e
    obtain ⟨_, w⟩ := e'
    obtain ⟨rfl, hvw⟩ := hfirst
    obtain ⟨hsingle, hrest⟩ := List.forall_mem_cons.mp hv
    simp only [Schema.entries, Checked.value?_seq, Checked.value?_mapped, Checked.value?_map,
      Checked.value?_under, h hvw hsingle, ih hrest]

/-- An object means the same in both spellings when its values do. -/
theorem object (h : Indifferent read s) : Indifferent (object read) s.named := by
  intro v w hvw hv
  rcases Spelling.named_cases hvw hv with ⟨o, o', rfl, rfl, hentries, hsingle⟩ | rfl
  · exact h.entries hentries hsingle
  · rfl

end Indifferent
end Parley.Schema
