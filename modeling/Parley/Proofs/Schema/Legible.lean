import Parley.Proofs.Json.RoundTrip
import Parley.Proofs.Schema.Parts

/-!
# What is read from legible documents

A legible document has each name of an object once and no whole number with too many digits.
`Reads read P` says that whatever the reader takes from a legible document has a property.  A whole
number has not too many digits (`Reads.int`), named values have each name once (`Reads.object`), and
readers of parts make readers of blocks: of what is read together it is enough to ask the parts that
the property is about (`Checked.Yields.seq`).
-/

namespace Parley

/-! ### Whole numbers -/

namespace Number

theorem length_joinDigits?_le {cs ds : List Char} (h : joinDigits? cs = some ds) :
    ds.length ≤ cs.length := by
  fun_induction joinDigits? cs generalizing ds with
  | case1 => exact Option.some.inj h ▸ Nat.le_refl 0
  | case2 | case4 | case5 => cases h
  | case3 c d rest _ _ ih =>
      obtain ⟨ds, hds, rfl⟩ := Option.map_eq_some_iff.mp h
      exact Nat.succ_le_succ (Nat.le_succ_of_le (ih hds))
  | case6 c rest _ _ _ ih =>
      obtain ⟨ds, hds, rfl⟩ := Option.map_eq_some_iff.mp h
      exact Nat.succ_le_succ (ih hds)

theorem length_readSign_le (cs : List Char) : (readSign cs).2.length ≤ cs.length := by
  unfold readSign
  split
  · exact Nat.le_succ _
  · exact Nat.le_succ _
  · exact Nat.le_refl _

/-- A whole number that is read has no more digits than its text. -/
theorem not_isTooLong_of_readIntField {s : String} {n : Int} (h : readIntField s = .value n) :
    isTooLong n = false := by
  unfold readIntField at h
  dsimp only at h
  generalize Text.stripBy isNumberBlank s.toList = cs at h
  split at h
  · cases h
  next hlength =>
  split at h
  · next ds hds =>
    have hle : ds.length ≤ digitLimit :=
      calc ds.length ≤ ((readSign cs).2.takeWhile (· != '.')).length := length_joinDigits?_le hds
        _ ≤ (readSign cs).2.length := (List.takeWhile_sublist _).length_le
        _ ≤ cs.length := length_readSign_le cs
        _ ≤ digitLimit := Nat.not_lt.mp hlength
    rcases ite_eq_iff.mp h with ⟨-, h⟩ | ⟨-, h⟩
    · obtain rfl := IntField.value.inj h
      refine isTooLong_eq_false (Nat.lt_of_le_of_lt ?_ (ofDigitChars_lt ds)) hle
      split <;> simp
    · cases h
  · cases h

end Number

namespace Schema

variable {α β : Type}

/-! ### Parts that are read together -/

/-- Whatever is read has the property. -/
def Checked.Yields (P : α → Prop) (x : Checked α) : Prop := ∀ a, x = .ok a → P a

namespace Checked.Yields

variable {P : α → Prop} {Q : β → Prop} {f : Checked (α → β)} {x : Checked α}

/-- Parts that are read one after the other yield what each of them does. -/
theorem seq (hf : f.Yields fun g => ∀ a, P a → Q (g a)) (hx : x.Yields P) : (f <*> x).Yields Q := by
  intro b hb
  obtain ⟨g, a, hg, ha, rfl⟩ := Checked.of_seq hb
  exact hf g hg a (hx a ha)

/-- The property holds whatever is read in the last place. -/
theorem any (hf : f.Yields fun g => ∀ a, Q (g a)) : (f <*> x).Yields Q := by
  intro b hb
  obtain ⟨g, a, hg, -, rfl⟩ := Checked.of_seq hb
  exact hf g hg a

/-- What is made of a value yields what it is made to. -/
theorem map {f : α → β} (h : ∀ a, P a → Q (f a)) (hx : x.Yields P) : (f <$> x).Yields Q :=
  seq (f := .ok f) (fun _ hg => Checked.ok.inj hg ▸ h) hx

theorem map_any {f : α → β} (h : ∀ a, Q (f a)) : (f <$> x).Yields Q :=
  any (f := .ok f) fun _ hg => Checked.ok.inj hg ▸ h

/-- The same of a function that is applied to what is read. -/
theorem mapped {f : α → β} (h : x.Yields fun a => Q (f a)) : (x.map f).Yields Q := by
  cases x with
  | ok a => exact fun _ hb => Checked.ok.inj hb ▸ h a rfl
  | refused cs => exact fun _ hb => nomatch hb

/-- Where a value stands does not matter. -/
theorem under (h : x.Yields P) (key : String) : (x.under key).Yields P := by
  cases x with
  | ok a => exact h
  | refused cs => exact fun _ hb => nomatch hb

theorem refuse (p : Problem) : (Checked.refuse p).Yields P := fun _ h => nomatch h

end Checked.Yields

/-! ### Readers -/

/-- Whatever is read from a legible document has the property. -/
def Reads (read : Reader α) (P : α → Prop) : Prop := ∀ v : Value, v.Legible → (read v).Yields P

variable {fields : Fields} {k : Key} {read : Reader α} {default : α} {P : α → Prop}

/-- Of a legible document any part is legible. -/
theorem Reads.any : Reads any Value.Legible := fun _ hv _ h => Checked.ok.inj h ▸ hv

/-- What a number without a fraction stands for is below the bounds of machine words. -/
theorem yields_intOfFloat (x : Binary64) :
    (intOfFloat x).Yields fun n => Number.isTooLong n = false := by
  unfold intOfFloat
  split
  · exact .refuse _
  next n _ =>
  split
  · exact .refuse _
  split
  · next hbounds =>
    rintro _ ⟨⟩
    have hword : (Number.twoTo 63 : Int) = 9223372036854775808 := rfl
    simp only [hword, Bool.and_eq_true, decide_eq_true_eq] at hbounds
    exact Number.isTooLong_eq_false (k := 20) (show n.natAbs < 10 ^ 20 by omega) (by decide)
  · exact .refuse _

/-- A whole number that is read is short enough to be written. -/
theorem Reads.int : Reads int fun n => Number.isTooLong n = false := by
  intro v hv
  unfold Schema.int
  split
  · exact fun _ h => Checked.ok.inj h ▸ hv.short
  · next b =>
    have hone : Number.isTooLong 1 = false := @Number.isTooLong_eq_false 1 1 (by decide) (by decide)
    have hzero : Number.isTooLong 0 = false :=
      @Number.isTooLong_eq_false 0 1 (by decide) (by decide)
    cases b with
    | false => exact fun _ h => Checked.ok.inj h ▸ hzero
    | true => exact fun _ h => Checked.ok.inj h ▸ hone
  · exact yields_intOfFloat _
  · split
    · next hread => exact fun _ h => Checked.ok.inj h ▸ Number.not_isTooLong_of_readIntField hread
    · exact .refuse _
    · exact .refuse _
  · exact .refuse _

/-- A value that may be null is read as the value is. -/
theorem Reads.nullable (h : Reads read P) : Reads (nullable read) fun o => ∀ a ∈ o, P a := by
  intro v hv
  unfold Schema.nullable
  split
  · rintro _ ⟨⟩
    exact nofun
  · exact .mapped fun a ha b hb => Option.some.inj hb ▸ h v hv a ha

/-- A block is read as its fields are. -/
theorem Reads.block {name : String} {read : Fields → Checked α}
    (h : ∀ {fields : Fields}, (Value.object fields).Legible → (read fields).Yields P) :
    Reads (block name read) P := by
  intro v hv
  cases v with
  | object fields => exact h hv
  | _ => exact .refuse _

/-- A list is read as its items are. -/
theorem Reads.list (h : Reads read P) : Reads (list read) fun as => ∀ a ∈ as, P a := by
  have hitems (vs : List Value) (hvs : ∀ v ∈ vs, v.Legible) (i : Nat) :
      (items read i vs).Yields fun as => ∀ a ∈ as, P a := by
    induction vs generalizing i with
    | nil =>
        rintro _ ⟨⟩
        exact nofun
    | cons v rest ih =>
        obtain ⟨hv, hrest⟩ := List.forall_mem_cons.mp hvs
        exact .seq (.map (fun a ha as has => List.forall_mem_cons.mpr ⟨ha, has⟩) ((h v hv).under _))
          (ih hrest (i + 1))
  intro v hv
  cases v with
  | list vs => exact hitems vs (Value.legible_list.mp hv) 0
  | _ => exact .refuse _

/-- The names of entries stay as they are. -/
theorem entries_names (es : List (String × Value)) :
    (entries read es).Yields fun as => Entries.names as = Entries.names es := by
  induction es with
  | nil =>
      rintro _ ⟨⟩
      rfl
  | cons e rest ih =>
      obtain ⟨k, v⟩ := e
      refine .seq (.map (P := fun e => e.1 = k)
        (fun e he as has => congrArg₂ List.cons he has) ?_) ih
      exact .mapped fun _ _ => rfl

/-- The names of an object that was read are not repeated. -/
theorem Reads.object : Reads (object read) fun es => es.names.Nodup := by
  intro v hv
  cases v with
  | object es =>
      intro as has
      have hnames : as.names = Entries.names es := entries_names es as has
      exact hnames ▸ (Value.legible_object.mp hv).1
  | _ => exact .refuse _

/-- The value of a field is a part of its block. -/
theorem Key.legible_get? (h : (Value.object fields).Legible) {v : Value}
    (hv : k.get? fields = some v) :
    v.Legible := by
  have hfields := (Value.legible_object.mp h).2
  rcases Option.or_eq_some_iff.mp hv with hv | ⟨-, hv⟩
  · exact hfields _ (Entries.mem_of_get? hv)
  · exact hfields _ (Entries.mem_of_get? hv)

/-- An optional field is read as its value is, or as the default. -/
theorem Reads.optional (h : Reads read P) (hfields : (Value.object fields).Legible)
    (hdefault : P default) :
    (optional fields k read default).Yields P := by
  unfold Schema.optional
  split
  · next v hv => exact (h v (k.legible_get? hfields hv)).under _
  · exact fun _ ha => Checked.ok.inj ha ▸ hdefault

end Schema

end Parley
