import Parley.Proofs.Json.Numbers
import Parley.Proofs.Json.Strings
import Parley.Proofs.Value.Entries

/-!
# Values that are read back

`Writes v text`: the text is one of the value, with whatever blanks between its tokens.  The reader
takes every text of a value for the value (`Writes.reads`), and the printer writes one
(`writes_print`), if no whole number has too many digits and every object has each of its names once
(`Value.Distinct`).  So what is printed is read back (`read_json`).
-/

namespace Parley

mutual

/-- Every object in the value has each of its names once. -/
def Value.Distinct : Value → Prop
  | .list items => Value.DistinctItems items
  | .object fields => (Entries.names fields).Nodup ∧ Value.DistinctFields fields
  | _ => True

/-- The same of a list. -/
def Value.DistinctItems : List Value → Prop
  | [] => True
  | v :: rest => v.Distinct ∧ Value.DistinctItems rest

/-- The same of entries. -/
def Value.DistinctFields : List (String × Value) → Prop
  | [] => True
  | (_, v) :: rest => v.Distinct ∧ Value.DistinctFields rest

end

end Parley

namespace Parley.Json

/-! ### Texts of a value -/

/-- Nothing but white space. -/
def IsBlanks (cs : List Char) : Prop := ∀ c ∈ cs, isBlank c = true

/-- The text is a token of the value: it begins as names and numbers do, and is read as the value
when no number goes on after it. -/
structure IsToken (v : Value) (text : List Char) : Prop where
  first : BeginsToken text
  read {rest : List Char} (h : EndsNumber rest) : readAtom (text ++ rest) = .ok (v, rest)

mutual

/-- The text is one of the value. -/
inductive Writes : Value → List Char → Prop where
  | token {v : Value} {text : List Char} (h : IsToken v text) : Writes v text
  | text {s : String} {text : List Char} (h : Spells s.toList text) :
      Writes (.text s) ('"' :: (text ++ ['"']))
  | emptyList {blanks : List Char} (h : IsBlanks blanks) :
      Writes (.list []) ('[' :: (blanks ++ [']']))
  | list {items : List Value} {blanks text : List Char} (hblanks : IsBlanks blanks)
      (h : WritesItems items text) :
      Writes (.list items) ('[' :: (blanks ++ text))
  | emptyObject {blanks : List Char} (h : IsBlanks blanks) :
      Writes (.object []) ('\x7b' :: (blanks ++ ['\x7d']))
  | object {fields : Fields} {blanks text : List Char} (hblanks : IsBlanks blanks)
      (hnames : fields.names.Nodup)
      (h : WritesFields fields text) : Writes (.object fields) ('\x7b' :: (blanks ++ text))

/-- The text is one of the items, up to the bracket. -/
inductive WritesItems : List Value → List Char → Prop where
  | last {v : Value} {text after : List Char} (h : Writes v text) (hafter : IsBlanks after) :
      WritesItems [v] (text ++ (after ++ [']']))
  | cons {v : Value} {items : List Value} {text after before more : List Char} (h : Writes v text)
      (hafter : IsBlanks after) (hbefore : IsBlanks before) (hmore : WritesItems items more) :
      WritesItems (v :: items) (text ++ (after ++ ',' :: (before ++ more)))

/-- The text is one of the entries, up to the brace. -/
inductive WritesFields : List (String × Value) → List Char → Prop where
  | last {e : String × Value} {text after : List Char} (h : WritesEntry e text)
      (hafter : IsBlanks after) :
      WritesFields [e] (text ++ (after ++ ['\x7d']))
  | cons {e : String × Value} {fields : List (String × Value)} {text after before more : List Char}
      (h : WritesEntry e text) (hafter : IsBlanks after) (hbefore : IsBlanks before)
      (hmore : WritesFields fields more) :
      WritesFields (e :: fields) (text ++ (after ++ ',' :: (before ++ more)))

/-- The text is one of the entry. -/
inductive WritesEntry : String × Value → List Char → Prop where
  | mk {name : String} {v : Value} {spelt after before text : List Char}
      (hname : Spells name.toList spelt)
      (hafter : IsBlanks after) (hbefore : IsBlanks before) (h : Writes v text) :
      WritesEntry (name, v) ('"' :: (spelt ++ '"' :: (after ++ ':' :: (before ++ text))))

end

/-! ### Beginnings -/

variable {v : Value} {items : List Value} {fields : List (String × Value)} {e : String × Value}
  {text blanks rest : List Char} {c : Char}

/-- Blanks are skipped up to a character that is none. -/
theorem skip_to (h : IsBlanks blanks) (hc : isBlank c = false) (cs : List Char) :
    skip (blanks ++ c :: cs) = c :: cs := by
  rw [skip, List.dropWhile_append_of_pos h, List.dropWhile_cons_of_neg (by simp [hc])]

/-- A blank, a comma or a closing bracket ends a number. -/
theorem endsNumber_cons (h : isBlank c = true ∨ c = ',' ∨ c = ']' ∨ c = '\x7d') (cs : List Char) :
    EndsNumber (c :: cs) := by
  rintro _ ⟨⟩
  simp only [isBlank, Bool.or_eq_true, decide_eq_true_eq, or_assoc] at h
  rcases h with rfl | rfl | rfl | rfl | rfl | rfl | rfl <;> decide

/-- So do blanks before a comma or a closing bracket. -/
theorem endsNumber_after (h : IsBlanks blanks) (hc : c = ',' ∨ c = ']' ∨ c = '\x7d') (cs :
    List Char) :
    EndsNumber (blanks ++ c :: cs) := by
  cases blanks with
  | nil => exact endsNumber_cons (.inr hc) cs
  | cons b bs => exact endsNumber_cons (.inl (h b List.mem_cons_self)) _

/-- A token begins with none of the signs. -/
theorem IsToken.first_ne (h : IsToken v text) :
    ∃ c cs, text = c :: cs ∧ isBlank c = false ∧ c ≠ ']' ∧ c ≠ '"' ∧ c ≠ '[' ∧ c ≠ '\x7b' := by
  obtain ⟨c, cs, rfl, hc⟩ := h.first
  have hne (d : Char) (hd : d.isAlphanum = false ∧ d ≠ '-') : c ≠ d := by
    rintro rfl
    rcases hc with hc | hc
    · exact Bool.false_ne_true (hd.1.symm.trans hc)
    · exact hd.2 hc
  refine ⟨c, cs, rfl, ?_, hne _ (by decide), hne _ (by decide), hne _ (by decide),
    hne _ (by decide)⟩
  simp only [isBlank, Bool.or_eq_false_iff, decide_eq_false_iff_not]
  exact ⟨⟨⟨hne _ (by decide), hne _ (by decide)⟩, hne _ (by decide)⟩, hne _ (by decide)⟩

/-- How the text of a value begins. -/
theorem Writes.first (h : Writes v text) :
    ∃ c cs, text = c :: cs ∧ isBlank c = false ∧ c ≠ ']' := by
  cases h with
  | token h =>
      obtain ⟨c, cs, htext, hblank, hbracket, -⟩ := h.first_ne
      exact ⟨c, cs, htext, hblank, hbracket⟩
  | text => exact ⟨_, _, rfl, rfl, by decide⟩
  | emptyList => exact ⟨_, _, rfl, rfl, by decide⟩
  | list => exact ⟨_, _, rfl, rfl, by decide⟩
  | emptyObject => exact ⟨_, _, rfl, rfl, by decide⟩
  | object => exact ⟨_, _, rfl, rfl, by decide⟩

/-- Written items begin with neither a blank nor the end of the list. -/
theorem WritesItems.first (h : WritesItems items text) :
    ∃ c cs, text = c :: cs ∧ isBlank c = false ∧ c ≠ ']' := by
  cases h with
  | last h _ =>
      obtain ⟨c, cs, rfl, hc⟩ := h.first
      exact ⟨c, _, rfl, hc⟩
  | cons h _ _ _ =>
      obtain ⟨c, cs, rfl, hc⟩ := h.first
      exact ⟨c, _, rfl, hc⟩

/-- Written entries begin with a quotation mark. -/
theorem WritesFields.first (h : WritesFields fields text) : ∃ cs, text = '"' :: cs := by
  cases h with
  | last h _ =>
      cases h
      exact ⟨_, rfl⟩
  | cons h _ _ _ =>
      cases h
      exact ⟨_, rfl⟩

/-! ### Reading -/

/-- The reader takes the text for the value. -/
def ReadsValue (v : Value) (text : List Char) : Prop :=
  ∀ fuel rest, 2 * text.length ≤ fuel → EndsNumber rest → readValue (fuel + 1) (text ++ rest) =
    .ok (v, rest)

/-- The reader takes the text for the items. -/
def ReadsItems (items : List Value) (text : List Char) : Prop :=
  ∀ fuel rest, 2 * text.length < fuel → readItems (fuel + 1) (text ++ rest) = .ok (items, rest)

/-- The reader takes the text for the entries. -/
def ReadsFields (fields : List (String × Value)) (text : List Char) : Prop :=
  ∀ fuel rest, 2 * text.length < fuel → readPairs (fuel + 1) (text ++ rest) = .ok (fields, rest)

/-- A token is read as what it stands for. -/
theorem readsValue_token (h : IsToken v text) : ReadsValue v text := by
  intro fuel rest _ hrest
  rw [← h.read hrest]
  obtain ⟨c, cs, rfl, -, -, hquote, hbracket, hbrace⟩ := h.first_ne
  rw [List.cons_append, readValue.eq_def]
  dsimp only
  split
  · next he => exact absurd (List.cons.inj he).1 hquote
  · next he => exact absurd (List.cons.inj he).1 hbracket
  · next he => exact absurd (List.cons.inj he).1 hbrace
  · rfl

/-- A text in quotation marks is read as the text. -/
theorem readsValue_text {s : String} (h : Spells s.toList text) :
    ReadsValue (.text s) ('"' :: (text ++ ['"'])) := by
  intro fuel rest _ _
  rw [List.cons_append, List.append_assoc, readValue, List.singleton_append, readText_spells h]
  rfl

/-- A list is read as empty when there are only blanks in it. -/
theorem readsValue_emptyList (h : IsBlanks blanks) :
    ReadsValue (.list []) ('[' :: (blanks ++ [']'])) := by
  intro fuel rest _ _
  rw [List.cons_append, List.append_assoc, readValue, List.singleton_append, skip_to h rfl]
  rfl

/-- A list is read when its items are. -/
theorem readsValue_list (hblanks : IsBlanks blanks) (h : WritesItems items text)
    (hread : ReadsItems items text) :
    ReadsValue (.list items) ('[' :: (blanks ++ text)) := by
  intro fuel rest hfuel _
  rw [List.length_cons, List.length_append] at hfuel
  obtain ⟨fuel, rfl⟩ : ∃ n, fuel = n + 1 := ⟨fuel - 1, by omega⟩
  have hitems := hread fuel rest (by omega)
  obtain ⟨c, cs, rfl, hblank, hbracket⟩ := h.first
  rw [List.cons_append] at hitems
  rw [List.cons_append, List.append_assoc, List.cons_append, readValue, skip_to hblanks hblank]
  split
  · next he => exact absurd (List.cons.inj he).1 hbracket
  · rw [hitems]
    rfl

/-- An object is read as empty when there are only blanks in it. -/
theorem readsValue_emptyObject (h : IsBlanks blanks) :
    ReadsValue (.object []) ('\x7b' :: (blanks ++ ['\x7d'])) := by
  intro fuel rest _ _
  rw [List.cons_append, List.append_assoc, readValue, List.singleton_append, skip_to h rfl]
  rfl

/-- An object is read when its entries are, and keeps them all when no name is repeated. -/
theorem readsValue_object (hblanks : IsBlanks blanks) (hnames : (Entries.names fields).Nodup)
    (h : WritesFields fields text) (hread : ReadsFields fields text) :
    ReadsValue (.object fields) ('\x7b' :: (blanks ++ text)) := by
  intro fuel rest hfuel _
  rw [List.length_cons, List.length_append] at hfuel
  obtain ⟨fuel, rfl⟩ : ∃ n, fuel = n + 1 := ⟨fuel - 1, by omega⟩
  have hfields := hread fuel rest (by omega)
  obtain ⟨cs, rfl⟩ := h.first
  rw [List.cons_append] at hfields
  rw [List.cons_append, List.append_assoc, List.cons_append, readValue, skip_to hblanks rfl]
  split
  · next he => exact absurd (List.cons.inj he).1 (by decide)
  · rw [hfields, Except.map, Entries.ofPairs_of_nodup hnames]

/-- The last item is followed by the end of the list. -/
theorem readsItems_last {after : List Char} (h : ReadsValue v text) (hafter : IsBlanks after) :
    ReadsItems [v] (text ++ (after ++ [']'])) := by
  intro fuel rest hfuel
  rw [List.length_append] at hfuel
  obtain ⟨fuel, rfl⟩ : ∃ n, fuel = n + 1 := ⟨fuel - 1, by omega⟩
  rw [readItems, List.append_assoc, List.append_assoc, List.singleton_append,
    h fuel _ (by omega) (endsNumber_after hafter (by simp) rest)]
  have hskip := skip_to hafter (show isBlank ']' = false from rfl) rest
  simp only [Except.bind, bind, hskip]

/-- An item is followed by a comma and more items. -/
theorem readsItems_cons {after before more : List Char} (h : ReadsValue v text)
    (hafter : IsBlanks after) (hbefore : IsBlanks before) (hitems : WritesItems items more)
    (hmore : ReadsItems items more) :
    ReadsItems (v :: items) (text ++ (after ++ ',' :: (before ++ more))) := by
  intro fuel rest hfuel
  simp only [List.length_append, List.length_cons] at hfuel
  obtain ⟨fuel, rfl⟩ : ∃ n, fuel = n + 1 := ⟨fuel - 1, by omega⟩
  have hread := hmore fuel rest (by omega)
  obtain ⟨c, cs, rfl, hblank, -⟩ := hitems.first
  rw [List.cons_append] at hread
  rw [readItems, List.append_assoc, List.append_assoc, List.cons_append, List.append_assoc,
    List.cons_append, h fuel _ (by omega) (endsNumber_after hafter (by simp) _)]
  have hskip := skip_to hafter (show isBlank ',' = false from rfl)
  simp only [Except.bind, bind, hskip, skip_to hbefore hblank, hread, Except.map]

/-- The reader takes the text for the entry, after which the object is over or goes on. -/
def ReadsEntry (e : String × Value) (text : List Char) : Prop :=
  ∀ fuel rest tail, 2 * text.length ≤ fuel → EndsNumber rest →
    (skip rest = '\x7d' :: tail → readPairs (fuel + 2) (text ++ rest) = .ok ([e], tail)) ∧
    (skip rest = ',' :: tail →
      readPairs (fuel + 2) (text ++ rest) = (readPairs (fuel + 1) (skip tail)).map fun p =>
        (e :: p.1, p.2))

/-- An entry is a name, a colon and a value. -/
theorem readsEntry {name : String} {spelt after before : List Char}
    (hname : Spells name.toList spelt) (hafter : IsBlanks after) (hbefore : IsBlanks before)
    (hv : Writes v text) (h : ReadsValue v text) :
    ReadsEntry (name, v) ('"' :: (spelt ++ '"' :: (after ++ ':' :: (before ++ text)))) := by
  intro fuel rest tail hfuel hrest
  simp only [List.length_cons, List.length_append] at hfuel
  have hcolon := skip_to hafter (show isBlank ':' = false from rfl)
  have hbegin : skip (before ++ (text ++ rest)) = text ++ rest := by
    obtain ⟨c, cs, rfl, hblank, -⟩ := hv.first
    exact skip_to hbefore hblank _
  have hread := h fuel rest (by omega) hrest
  constructor
  all_goals
    intro hskip
    simp only [List.cons_append, List.append_assoc, readPairs, readText_spells hname, Except.bind,
      bind, hcolon, hbegin, hread, hskip]

/-- The last entry is followed by the end of the object. -/
theorem readsFields_last {after : List Char} (h : ReadsEntry e text) (hafter : IsBlanks after) :
    ReadsFields [e] (text ++ (after ++ ['\x7d'])) := by
  intro fuel rest hfuel
  simp only [List.length_append, List.length_cons] at hfuel
  obtain ⟨fuel, rfl⟩ : ∃ n, fuel = n + 1 := ⟨fuel - 1, by omega⟩
  rw [List.append_assoc, List.append_assoc, List.singleton_append]
  exact (h fuel _ rest (by omega) (endsNumber_after hafter (by simp) rest)).1
    (skip_to hafter rfl rest)

/-- An entry is followed by a comma and more entries. -/
theorem readsFields_cons {after before more : List Char} (h : ReadsEntry e text)
    (hafter : IsBlanks after) (hbefore : IsBlanks before) (hfields : WritesFields fields more)
    (hmore : ReadsFields fields more) :
    ReadsFields (e :: fields) (text ++ (after ++ ',' :: (before ++ more))) := by
  intro fuel rest hfuel
  simp only [List.length_append, List.length_cons] at hfuel
  obtain ⟨fuel, rfl⟩ : ∃ n, fuel = n + 1 := ⟨fuel - 1, by omega⟩
  have hread := hmore fuel rest (by omega)
  have hbegin : skip (before ++ (more ++ rest)) = more ++ rest := by
    obtain ⟨cs, rfl⟩ := hfields.first
    exact skip_to hbefore rfl _
  rw [List.append_assoc, List.append_assoc, List.cons_append, List.append_assoc,
    (h fuel _ _ (by omega) (endsNumber_after hafter (by simp) _)).2 (skip_to hafter rfl _),
    hbegin, hread]
  rfl

mutual

/-- Whatever is a text of a value is read as the value. -/
theorem Writes.reads {v : Value} {text : List Char} : Writes v text → ReadsValue v text
  | .token h => readsValue_token h
  | .text h => readsValue_text h
  | .emptyList h => readsValue_emptyList h
  | .list hblanks h => readsValue_list hblanks h h.reads
  | .emptyObject h => readsValue_emptyObject h
  | .object hblanks hnames h => readsValue_object hblanks hnames h h.reads

theorem WritesItems.reads {items : List Value} {text : List Char} :
    WritesItems items text → ReadsItems items text
  | .last h hafter => readsItems_last h.reads hafter
  | .cons h hafter hbefore hmore => readsItems_cons h.reads hafter hbefore hmore hmore.reads

theorem WritesFields.reads {fields : List (String × Value)} {text : List Char} :
    WritesFields fields text → ReadsFields fields text
  | .last h hafter => readsFields_last h.reads hafter
  | .cons h hafter hbefore hmore => readsFields_cons h.reads hafter hbefore hmore hmore.reads

theorem WritesEntry.reads {e : String × Value} {text : List Char} :
    WritesEntry e text → ReadsEntry e text
  | .mk hname hafter hbefore h => readsEntry hname hafter hbefore h h.reads

end

/-! ### Printing -/

/-- The separators are the signs, with blanks after them. -/
structure Style.IsPlain (st : Style) : Prop where
  item : ∃ blanks, st.afterItem = ',' :: blanks ∧ IsBlanks blanks
  name : ∃ blanks, st.afterName = ':' :: blanks ∧ IsBlanks blanks

theorem Style.isPlain_compact : Style.compact.IsPlain where
  item := ⟨[], rfl, by simp [IsBlanks]⟩
  name := ⟨[], rfl, by simp [IsBlanks]⟩

theorem Style.isPlain_spaced : Style.spaced.IsPlain where
  item := ⟨[' '], rfl, by simp [IsBlanks, isBlank]⟩
  name := ⟨[' '], rfl, by simp [IsBlanks, isBlank]⟩

theorem isBlanks_nil : IsBlanks [] := by simp [IsBlanks]

theorem isToken_null : IsToken .null "null".toList where
  first := ⟨'n', _, rfl, .inl rfl⟩
  read _ := readAtom_null _

theorem isToken_bool (b : Bool) : IsToken (.bool b) (if b then "true" else "false").toList where
  first := by
    cases b with
    | false => exact ⟨'f', _, rfl, .inl rfl⟩
    | true => exact ⟨'t', _, rfl, .inl rfl⟩
  read _ := readAtom_bool b _

/-- A whole number that is short enough is a token. -/
theorem isToken_int {n : Int} (h : Number.isTooLong n = false) :
    IsToken (.int n) (Number.intText n).toList where
  first := beginsToken_int n
  read := readAtom_int h

/-- A binary64 number is a token, the infinite ones and NaN too. -/
theorem isToken_float (x : Binary64) : IsToken (.float x) (printFloat x) where
  first := beginsToken_float x
  read := readAtom_float x

variable {st : Style}

theorem printItems_cons (v w : Value) (rest : List Value) :
    printItems st (v :: w :: rest) = print st v ++ st.afterItem ++ printItems st (w :: rest) := rfl

mutual

/-- What is printed is a text of the value. -/
theorem writes_print (hst : st.IsPlain) :
    ∀ v : Value, v.Distinct → v.hasLongInt = false → Writes v (print st v)
  | .null, _, _ => .token isToken_null
  | .bool b, _, _ => .token (isToken_bool b)
  | .int _, _, hlong => .token (isToken_int hlong)
  | .float x, _, _ => .token (isToken_float x)
  | .text s, _, _ => .text (spells_printed s.toList)
  | .list [], _, _ => .emptyList isBlanks_nil
  | .list (v :: rest), hdistinct, hlong =>
    @Writes.list _ [] _ isBlanks_nil
      (writesItems_print hst (v :: rest) (List.cons_ne_nil _ _) hdistinct hlong)
  | .object [], _, _ => .emptyObject isBlanks_nil
  | .object (e :: rest), hdistinct, hlong =>
    @Writes.object _ [] _ isBlanks_nil hdistinct.1
      (writesFields_print hst (e :: rest) (List.cons_ne_nil _ _) hdistinct.2 hlong)

/-- What is printed of items is a text of them. -/
theorem writesItems_print (hst : st.IsPlain) :
    ∀ items : List Value, items ≠ [] → Value.DistinctItems items →
    Value.hasLongIntItems items = false → WritesItems items (printItems st items ++ [']'])
  | [], hne, _, _ => absurd rfl hne
  | [v], _, hdistinct, hlong =>
    .last (writes_print hst v hdistinct.1 (Bool.or_eq_false_iff.mp hlong).1) isBlanks_nil
  | v :: w :: rest, _, hdistinct, hlong => by
    obtain ⟨hv, hrest⟩ := Bool.or_eq_false_iff.mp hlong
    obtain ⟨blanks, hafter, hblanks⟩ := hst.item
    have htext : printItems st (v :: w :: rest) ++ [']'] =
        print st v ++ ([] ++ ',' :: (blanks ++ (printItems st (w :: rest) ++ [']']))) := by
      simp only [printItems_cons, hafter, List.append_assoc, List.cons_append, List.nil_append]
    rw [htext]
    exact .cons (writes_print hst v hdistinct.1 hv) isBlanks_nil hblanks
      (writesItems_print hst (w :: rest) (List.cons_ne_nil _ _) hdistinct.2 hrest)

/-- What is printed of entries is a text of them. -/
theorem writesFields_print (hst : st.IsPlain) : ∀ fields : List (String × Value), fields ≠ [] →
    Value.DistinctFields fields → Value.hasLongIntFields fields = false →
    WritesFields fields (printFields st fields ++ ['\x7d'])
  | [], hne, _, _ => absurd rfl hne
  | [(k, v)], _, hdistinct, hlong => by
    obtain ⟨hv, -⟩ := Bool.or_eq_false_iff.mp hlong
    obtain ⟨blanks, hafter, hblanks⟩ := hst.name
    have htext : printFields st [(k, v)] ++ ['\x7d'] =
        '"' :: (k.toList.flatMap escapeChar ++ '"' :: ([] ++ ':' :: (blanks ++ print st v))) ++
            ([] ++ ['\x7d']) := by
      simp only [printFields, printText, hafter, List.append_assoc, List.cons_append,
        List.nil_append]
    rw [htext]
    exact .last (.mk (spells_printed k.toList) isBlanks_nil hblanks
      (writes_print hst v hdistinct.1 hv)) isBlanks_nil
  | (k, v) :: f :: rest, _, hdistinct, hlong => by
    obtain ⟨hv, hrest⟩ := Bool.or_eq_false_iff.mp hlong
    obtain ⟨blanks, hafter, hblanks⟩ := hst.name
    obtain ⟨blanks', hafter', hblanks'⟩ := hst.item
    have htext : printFields st ((k, v) :: f :: rest) ++ ['\x7d'] =
        '"' :: (k.toList.flatMap escapeChar ++ '"' :: ([] ++ ':' :: (blanks ++ print st v))) ++
          ([] ++ ',' :: (blanks' ++ (printFields st (f :: rest) ++ ['\x7d']))) := by
      simp only [printFields, printText, hafter, hafter', List.append_assoc, List.cons_append,
        List.nil_append]
    rw [htext]
    exact .cons (.mk (spells_printed k.toList) isBlanks_nil hblanks
      (writes_print hst v hdistinct.1 hv)) isBlanks_nil
      hblanks' (writesFields_print hst (f :: rest) (List.cons_ne_nil _ _) hdistinct.2 hrest)

end

/-- **What is printed is read back**, by either style. -/
theorem read_json {v : Value} (hst : st.IsPlain) (h : v.Distinct) {text : String}
    (htext : v.json st = .ok text) :
    read text = .ok v := by
  unfold Value.json at htext
  split at htext
  · cases htext
  next hlong =>
  obtain rfl := Except.ok.inj htext
  have hwrites := writes_print hst v h (Bool.eq_false_iff.mpr hlong)
  have hread := hwrites.reads (2 * (print st v).length + 1) [] (by omega) (fun _ h => nomatch h)
  rw [List.append_nil] at hread
  obtain ⟨c, cs, hprint, hblank, -⟩ := hwrites.first
  have hskip : skip (print st v) = print st v := by
    rw [hprint]
    exact skip_to isBlanks_nil hblank cs
  rw [read, String.toList_ofList]
  simp only [hskip, hread, bind, Except.bind]
  rfl

end Parley.Json

namespace Parley.Value

/-! ### Legible values -/

/-- Every object in the value has each of its names once, and no whole number has too many digits.
-/
structure Legible (v : Value) : Prop where
  distinct : v.Distinct
  short : v.hasLongInt = false

theorem legible_null : Legible .null := ⟨trivial, rfl⟩

theorem legible_bool (b : Bool) : Legible (.bool b) := ⟨trivial, rfl⟩

theorem legible_float (x : Binary64) : Legible (.float x) := ⟨trivial, rfl⟩

theorem legible_text (s : String) : Legible (.text s) := ⟨trivial, rfl⟩

/-- A whole number is legible when it is short enough. -/
theorem legible_int {n : Int} :
    Legible (.int n) ↔ Number.isTooLong n = false := ⟨(·.short), fun h => ⟨trivial, h⟩⟩

/-- A list is legible when all its items are. -/
theorem legible_list {items : List Value} : Legible (.list items) ↔ ∀ v ∈ items, v.Legible := by
  have hitems : DistinctItems items ∧ hasLongIntItems items = false ↔ ∀ v ∈ items, v.Legible := by
    induction items with
    | nil => exact iff_of_true ⟨trivial, rfl⟩ (List.forall_mem_nil _)
    | cons v rest ih =>
        rw [List.forall_mem_cons, ← ih, DistinctItems, hasLongIntItems, Bool.or_eq_false_iff]
        exact ⟨fun h => ⟨⟨h.1.1, h.2.1⟩, h.1.2, h.2.2⟩, fun h => ⟨⟨h.1.1, h.2.1⟩, h.1.2, h.2.2⟩⟩
  exact ⟨fun h => hitems.mp ⟨h.distinct, h.short⟩, fun h => ⟨(hitems.mpr h).1, (hitems.mpr h).2⟩⟩

/-- An object is legible when no name in it is repeated and all its values are legible. -/
theorem legible_object {fields : Fields} :
    Legible (.object fields) ↔ fields.names.Nodup ∧ ∀ e ∈ fields, e.2.Legible := by
  have hfields : DistinctFields fields ∧ hasLongIntFields fields = false ↔
      ∀ e ∈ fields, e.2.Legible := by
    induction fields with
    | nil => exact iff_of_true ⟨trivial, rfl⟩ (List.forall_mem_nil _)
    | cons e rest ih =>
        rw [List.forall_mem_cons, ← ih, DistinctFields, hasLongIntFields, Bool.or_eq_false_iff]
        exact ⟨fun h => ⟨⟨h.1.1, h.2.1⟩, h.1.2, h.2.2⟩, fun h => ⟨⟨h.1.1, h.2.1⟩, h.1.2, h.2.2⟩⟩
  exact ⟨fun h => ⟨h.distinct.1, hfields.mp ⟨h.distinct.2, h.short⟩⟩,
    fun h => ⟨⟨h.1, (hfields.mpr h.2).1⟩, (hfields.mpr h.2).2⟩⟩

/-- **A legible value is written, and what is written is read back.** -/
theorem Legible.read_json {v : Value} (h : v.Legible) {st : Json.Style} (hst : st.IsPlain) :
    ∃ text, v.json st = .ok text ∧ Json.read text = .ok v := by
  have htext : v.json st = .ok (String.ofList (Json.print st v)) :=
    if_neg (Bool.eq_false_iff.mp h.short)
  exact ⟨_, htext, Json.read_json hst h.distinct htext⟩

end Parley.Value
