import Parley.Proofs.Json.RoundTrip

/-!
# What the reader makes of any text

What the reader takes for a value is legible: its objects have each of their names once, and its
whole numbers are not too long (`read_legible`).  A string is read off at least as many characters
as it has, and off no more only when each of them stands for itself (`readText_taken`); so a text
never denotes itself (`length_lt_of_read_text`).
-/

namespace Parley.Json

variable {cs rest : List Char} {v : Value}

theorem map_eq_ok {ε α β : Type} {f : α → β} {r : Except ε α} {y : β} :
    r.map f = .ok y ↔ ∃ x, r = .ok x ∧ f x = y := by
  cases r <;> simp [Except.map]

theorem bind_eq_ok {ε α β : Type} {g : α → Except ε β} {r : Except ε α} {y : β} :
    (r >>= g) = .ok y ↔ ∃ x, r = .ok x ∧ g x = .ok y := by
  cases r <;> simp [bind, Except.bind]

/-! ### Strings -/

/-- A character stands for itself when it is no quote, no backslash and no control. -/
theorem escapeChar_eq_self_iff {c : Char} :
    escapeChar c = [c] ↔ c ≠ '"' ∧ c ≠ '\\' ∧ 0x20 ≤ c.toNat := by
  have hcontrol {d : Char} (hd : d.toNat < 0x20) : c ≠ d ∨ ¬ 0x20 ≤ c.toNat := by
    rcases eq_or_ne c d with rfl | hne
    · exact .inr (Nat.not_le.mpr hd)
    · exact .inl hne
  unfold escapeChar
  split_ifs with hquote hslash hn hr ht hb hf hc
  · exact ⟨nofun, fun h => absurd hquote h.1⟩
  · exact ⟨nofun, fun h => absurd hslash h.2.1⟩
  · exact ⟨nofun, fun h => absurd h.2.2 ((hcontrol (by decide)).resolve_left (not_not.mpr hn))⟩
  · exact ⟨nofun, fun h => absurd h.2.2 ((hcontrol (by decide)).resolve_left (not_not.mpr hr))⟩
  · exact ⟨nofun, fun h => absurd h.2.2 ((hcontrol (by decide)).resolve_left (not_not.mpr ht))⟩
  · exact ⟨nofun, fun h => absurd h.2.2 ((hcontrol (by decide)).resolve_left (not_not.mpr hb))⟩
  · exact ⟨nofun, fun h => absurd h.2.2 ((hcontrol (by decide)).resolve_left (not_not.mpr hf))⟩
  · exact ⟨nofun, fun h => absurd h.2.2 (Nat.not_le.mpr hc)⟩
  · exact ⟨fun _ => ⟨hquote, hslash, Nat.not_lt.mp hc⟩, fun _ => rfl⟩

/-- The characters before the closing quote of a string of so many units: not fewer than units, and
with as many each stands for itself. -/
structure Taken (cs rest text : List Char) (size : Nat) : Prop where
  eq : cs = text ++ '"' :: rest
  size_le : size ≤ text.length
  plain : size = text.length → ∀ c ∈ text, escapeChar c = [c]

/-- The units of a text are taken from its front. -/
theorem readUnits_taken {units : List Nat} (h : readUnits cs = .ok (units, rest)) :
    ∃ text, Taken cs rest text units.length := by
  -- an escape has more characters than units
  have hescape {cs more : List Char} {units : List Nat} {u : Nat} (escape : List Char)
    (hlong : 1 < escape.length)
      (hcs : cs = escape ++ more) (ih : ∃ text, Taken more rest text units.length) :
      ∃ text, Taken cs rest text (u :: units).length := by
    obtain ⟨text, rfl, hle, -⟩ := ih
    refine ⟨escape ++ text, by rw [hcs, List.append_assoc], ?_, fun heq => ?_⟩
    · rw [List.length_append, List.length_cons]
      omega
    · rw [List.length_append, List.length_cons] at heq
      omega
  fun_induction readUnits cs generalizing units with
  | case1 | case2 | case5 | case6 | case8 | case9 => cases h
  | case3 more =>
      cases h
      exact ⟨[], rfl, Nat.le_refl 0, fun _ => List.forall_mem_nil _⟩
  | case4 a b c d more _ _ _ _ _ _ _ _ _ ih =>
      obtain ⟨⟨units', rest'⟩, hread, heq⟩ := map_eq_ok.mp h
      cases heq
      exact hescape ['\\', 'u', a, b, c, d] (by simp) rfl (ih hread)
  | case7 c more _ e _ ih =>
      obtain ⟨⟨units', rest'⟩, hread, heq⟩ := map_eq_ok.mp h
      cases heq
      exact hescape ['\\', c] (by simp) rfl (ih hread)
  | case10 c more hend hquote hunit hshort hcontrol ih =>
      obtain ⟨⟨units', rest'⟩, hread, heq⟩ := map_eq_ok.mp h
      cases heq
      obtain ⟨text, rfl, hle, hplain⟩ := ih hread
      have hslash : c ≠ '\\' := by
        rintro rfl
        cases text with
        | nil => exact hshort _ _ rfl rfl
        | cons t text => exact hshort _ _ rfl rfl
      refine ⟨c :: text, rfl, Nat.succ_le_succ hle, fun heq => List.forall_mem_cons.mpr ⟨?_, ?_⟩⟩
      · exact escapeChar_eq_self_iff.mpr ⟨hquote, hslash, Nat.not_lt.mp hcontrol⟩
      · exact hplain (Nat.succ.inj heq)

/-- Units are joined to no more characters than there are of them. -/
theorem length_joinUnits_le (units : List Nat) : (joinUnits units).length ≤ units.length := by
  fun_induction joinUnits units with
  | case1 => exact Nat.le_refl 0
  | case2 hi lo more _ ih =>
      simp only [List.length_cons]
      omega
  | case3 hi lo more _ ih => exact Nat.succ_le_succ ih
  | case4 u => exact Nat.le_refl 1

/-- **A string is read off at least as many characters as it has**, and off no more only when each
stands for itself. -/
theorem readText_taken {s : String} (h : readText cs = .ok (s, rest)) :
    ∃ text, Taken cs rest text s.length := by
  unfold readText at h
  split at h
  · next units more hread =>
    cases h
    obtain ⟨text, rfl, hle, hplain⟩ := readUnits_taken hread
    have hjoin := length_joinUnits_le units
    rw [String.length_ofList]
    exact ⟨text, rfl, Nat.le_trans hjoin hle, fun heq => hplain (by omega)⟩
  · cases h
  · cases h

/-! ### Values -/

/-- A value that is read off the front of a text of `size` characters, of which `left` are left. -/
structure Front (v : Value) (size left : Nat) : Prop where
  lt : left < size
  legible : v.Legible
  /-- A string is put between quotes. -/
  text_le : ∀ s, v = .text s → s.length + left + 2 ≤ size

/-- What fits at the front of a text fits at that of a longer one. -/
theorem Front.mono {size size' left left' : Nat} (h : Front v size left) (hsize : size ≤ size')
    (hleft : left' ≤ left) :
    Front v size' left' where
  lt := by have := h.lt; omega
  legible := h.legible
  text_le s hs := by have := h.text_le s hs; omega

theorem length_skip_le (cs : List Char) :
    (skip cs).length ≤ cs.length := (List.dropWhile_suffix _).length_le

theorem digitsOf_append_self (cs : List Char) : (digitsOf cs).1 ++ (digitsOf cs).2 = cs :=
  List.takeWhile_append_dropWhile

theorem length_digitsOf_le (cs : List Char) : (digitsOf cs).2.length ≤ cs.length :=
  (List.dropWhile_suffix _).length_le

theorem length_readSign_le (cs : List Char) : (Number.readSign cs).2.length ≤ cs.length := by
  unfold Number.readSign
  split <;> simp

theorem length_readFraction_le (cs : List Char) : (readFraction cs).2.length ≤ cs.length := by
  unfold readFraction
  split
  · next rest =>
    dsimp only
    have hle := length_digitsOf_le rest
    split
    · exact Nat.le_refl _
    · exact Nat.le_succ_of_le hle
  · exact Nat.le_refl _

theorem length_readPower_le (cs : List Char) : (readPower cs).2.length ≤ cs.length := by
  unfold readPower
  split
  · next c rest =>
    split
    · dsimp only
      split
      · exact Nat.le_refl _
      · exact Nat.le_succ_of_le ((length_digitsOf_le _).trans (length_readSign_le rest))
    · exact Nat.le_refl _
  · exact Nat.le_refl _

/-- A number as it is read: digits, of which there are not too many when nothing makes it a binary64
number. -/
theorem readNumber_cases {negative : Bool} (h : readNumber negative cs = .ok (v, rest)) :
    ∃ whole after, whole ++ after = cs ∧ whole ≠ [] ∧ rest = (readPower (readFraction after).2).2 ∧
      ((∃ n : Int, v = .int n ∧ n.natAbs = Number.ofDigitChars whole ∧
        whole.length ≤ Number.digitLimit) ∨ ∃ x, v = .float x) := by
  -- a number without fraction and power is whole, and any other one is a float
  have hrest {whole after : List Char} {x : Binary64}
      (h : (if ((readFraction after).1.isEmpty && (readPower (readFraction after).2).1.isNone) =
          true then
          if Number.digitLimit < whole.length then .error (.tooLong whole.length)
          else .ok (.int (if negative = true then -(Number.ofDigitChars whole : Int)
            else Number.ofDigitChars whole),
            (readPower (readFraction after).2).2)
        else .ok (.float x, (readPower (readFraction after).2).2)) =
          (.ok (v, rest) : Except ReadFault _)) :
      rest = (readPower (readFraction after).2).2 ∧
        ((∃ n : Int, v = .int n ∧ n.natAbs = Number.ofDigitChars whole ∧
          whole.length ≤ Number.digitLimit) ∨
          ∃ x, v = .float x) := by
    split at h
    · split at h
      · cases h
      · next hlimit =>
        cases h
        exact ⟨rfl, .inl ⟨_, rfl, by cases negative <;> simp, Nat.not_lt.mp hlimit⟩⟩
    · cases h
      exact ⟨rfl, .inr ⟨x, rfl⟩⟩
  unfold readNumber at h
  split at h
  next whole after hparts =>
  have hcs : whole ++ after = cs := by
    split at hparts
    · cases hparts
      rfl
    · rw [← digitsOf_append_self cs, hparts]
  split at h
  · cases h
  · next hwhole => exact ⟨whole, after, hcs, fun hnil => hwhole (by rw [hnil]; rfl), hrest h⟩

/-- A number is no string, and when it is whole it is not too long. -/
theorem readNumber_front {negative : Bool} (h : readNumber negative cs = .ok (v, rest)) :
    Front v cs.length rest.length := by
  obtain ⟨whole, after, rfl, hwhole, rfl, hv⟩ := readNumber_cases h
  have hpos : 0 < whole.length := List.length_pos_iff.mpr hwhole
  have hfraction := length_readFraction_le after
  have hpower := length_readPower_le (readFraction after).2
  rw [List.length_append]
  rcases hv with ⟨n, rfl, hn, hlimit⟩ | ⟨x, rfl⟩
  · refine ⟨by omega, Value.legible_int.mpr (Number.isTooLong_eq_false ?_ hlimit), nofun⟩
    rw [hn]
    exact Number.ofDigitChars_lt whole
  · exact ⟨by omega, Value.legible_float x, nofun⟩

/-- A word that was found takes something of the text. -/
theorem length_of_after? {word : String} (hword : 0 < word.length)
    (h : after? word cs = some rest) :
    rest.length < cs.length := by
  unfold after? at h
  split at h
  · next hprefix =>
    cases h
    have hle := (List.isPrefixOf_iff_prefix.mp hprefix).length_le
    rw [String.length_toList] at hle
    rw [List.length_drop]
    omega
  · cases h

/-- An atom is taken from the front of a text. -/
theorem readAtom_front (h : readAtom cs = .ok (v, rest)) : Front v cs.length rest.length := by
  unfold readAtom at h
  split at h
  · cases h
    exact ⟨length_of_after? (by decide) ‹after? "null" cs = some _›, Value.legible_null, nofun⟩
  · cases h
    exact ⟨length_of_after? (by decide) ‹after? "true" cs = some _›, Value.legible_bool _, nofun⟩
  · cases h
    exact ⟨length_of_after? (by decide) ‹after? "false" cs = some _›, Value.legible_bool _, nofun⟩
  · cases h
    exact ⟨length_of_after? (by decide) ‹after? "NaN" cs = some _›, Value.legible_float _, nofun⟩
  · cases h
    exact ⟨length_of_after? (by decide) ‹after? "Infinity" cs = some _›,
      Value.legible_float _, nofun⟩
  · cases h
    exact ⟨length_of_after? (by decide) ‹after? "-Infinity" cs = some _›,
      Value.legible_float _, nofun⟩
  · split at h
    · exact (readNumber_front h).mono (Nat.le_succ _) (Nat.le_refl _)
    · exact readNumber_front h

/-- What is read off the front of a text, nested no deeper than the fuel. -/
structure Fronts (fuel : Nat) : Prop where
  value {cs rest : List Char} {v : Value} (h : readValue fuel cs = .ok (v, rest)) :
    Front v cs.length rest.length
  items {cs rest : List Char} {items : List Value} (h : readItems fuel cs = .ok (items, rest)) :
    rest.length < cs.length ∧ ∀ v ∈ items, v.Legible
  pairs {cs rest : List Char} {fields : List (String × Value)}
    (h : readPairs fuel cs = .ok (fields, rest)) :
    rest.length < cs.length ∧ ∀ e ∈ fields, Front e.2 cs.length rest.length

variable {fuel : Nat}

/-- A value is taken from the front, when its items and entries are. -/
theorem Fronts.value_succ (ih : Fronts fuel) (h : readValue (fuel + 1) cs = .ok (v, rest)) :
    Front v cs.length rest.length := by
  -- the first character decides; blanks that are skipped only shorten the rest
  rw [readValue.eq_def] at h
  dsimp only at h
  split at h
  · obtain ⟨⟨s, more⟩, hread, heq⟩ := map_eq_ok.mp h
    cases heq
    obtain ⟨text, rfl, hle, -⟩ := readText_taken hread
    refine ⟨?_, Value.legible_text s, ?_⟩
    · simp only [List.length_cons, List.length_append]
      omega
    · rintro _ ⟨⟩
      simp only [List.length_cons, List.length_append]
      omega
  · next body =>
    have hbody := length_skip_le body
    split at h
    · next after hskip =>
      cases h
      rw [hskip, List.length_cons] at hbody
      exact ⟨by rw [List.length_cons]; omega, Value.legible_list.mpr (List.forall_mem_nil _),
        fun _ hs => by cases hs⟩
    · obtain ⟨⟨items, more⟩, hread, heq⟩ := map_eq_ok.mp h
      cases heq
      obtain ⟨hlt, hitems⟩ := ih.items hread
      refine ⟨?_, Value.legible_list.mpr hitems, fun _ hs => by cases hs⟩
      dsimp only [List.length_cons]
      omega
  · next body =>
    have hbody := length_skip_le body
    split at h
    · next after hskip =>
      cases h
      rw [hskip, List.length_cons] at hbody
      exact ⟨by rw [List.length_cons]; omega,
        Value.legible_object.mpr ⟨List.nodup_nil, List.forall_mem_nil _⟩, fun _ hs => by cases hs⟩
    · obtain ⟨⟨fields, more⟩, hread, heq⟩ := map_eq_ok.mp h
      cases heq
      obtain ⟨hlt, hfields⟩ := ih.pairs hread
      refine ⟨?_, Value.legible_object.mpr ⟨Entries.nodup_names_ofPairs _, fun e he => ?_⟩,
        fun _ hs => by cases hs⟩
      · dsimp only [List.length_cons]
        omega
      · exact (hfields e (Entries.mem_of_mem_ofPairs he)).legible
  · exact readAtom_front h

/-- Items are taken from the front one after the other. -/
theorem Fronts.items_succ (ih : Fronts fuel) {items : List Value}
    (h : readItems (fuel + 1) cs = .ok (items, rest)) :
    rest.length < cs.length ∧ ∀ v ∈ items, v.Legible := by
  rw [readItems] at h
  obtain ⟨⟨v, more⟩, hread, h⟩ := bind_eq_ok.mp h
  have hv := ih.value hread
  have hlt := hv.lt
  have hmore := length_skip_le more
  dsimp only at h
  split at h
  · next after hskip =>
    cases h
    rw [hskip, List.length_cons] at hmore
    exact ⟨by omega, List.forall_mem_singleton.mpr hv.legible⟩
  · next after hskip =>
    obtain ⟨⟨items', rest'⟩, hread', heq⟩ := map_eq_ok.mp h
    cases heq
    rw [hskip, List.length_cons] at hmore
    obtain ⟨hlt', hitems⟩ := ih.items hread'
    have hafter := length_skip_le after
    exact ⟨by dsimp only; omega, List.forall_mem_cons.mpr ⟨hv.legible, hitems⟩⟩
  · cases h

/-- Entries are taken from the front one after the other. -/
theorem Fronts.pairs_succ (ih : Fronts fuel) {fields : List (String × Value)}
    (h : readPairs (fuel + 1) cs = .ok (fields, rest)) :
    rest.length < cs.length ∧ ∀ e ∈ fields, Front e.2 cs.length rest.length := by
  rw [readPairs.eq_def] at h
  dsimp only at h
  split at h
  · next body =>
    -- name, colon and value each take a part of the text
    obtain ⟨⟨name, afterName⟩, hname, h⟩ := bind_eq_ok.mp h
    obtain ⟨text, hbody, -, -⟩ := readText_taken hname
    have hcolon := length_skip_le afterName
    dsimp only at h
    split at h
    · next afterColon hskip =>
      rw [hskip, List.length_cons] at hcolon
      obtain ⟨⟨v, more⟩, hread, h⟩ := bind_eq_ok.mp h
      have hv := ih.value hread
      have hlt := hv.lt
      have hbegin := length_skip_le afterColon
      have hmore := length_skip_le more
      have hsize : (skip afterColon).length ≤ ('"' :: body).length := by
        simp only [hbody, List.length_cons, List.length_append]
        omega
      dsimp only at h
      split at h
      · next after hskip' =>
        cases h
        rw [hskip', List.length_cons] at hmore
        exact ⟨by omega, List.forall_mem_singleton.mpr (hv.mono hsize (by omega))⟩
      · next after hskip' =>
        obtain ⟨⟨fields', rest'⟩, hread', heq⟩ := map_eq_ok.mp h
        cases heq
        rw [hskip', List.length_cons] at hmore
        obtain ⟨hlt', hfields⟩ := ih.pairs hread'
        have hafter := length_skip_le after
        refine ⟨by dsimp only; omega, List.forall_mem_cons.mpr ⟨hv.mono hsize (by
          dsimp only; omega), ?_⟩⟩
        exact fun e he => (hfields e he).mono (by omega) (Nat.le_refl _)
      · cases h
    · cases h
  · cases h

/-- **What is read off the front of a text** is legible, and a string has fewer characters than were
read. -/
theorem fronts (fuel : Nat) : Fronts fuel := by
  induction fuel with
  | zero => exact ⟨nofun, nofun, nofun⟩
  | succ fuel ih => exact ⟨ih.value_succ, ih.items_succ, ih.pairs_succ⟩

/-- Whatever is read of a text was at its front, and fits in it. -/
theorem read_front {s : String} (h : read s = .ok v) : ∃ left, Front v s.length left := by
  obtain ⟨⟨v', rest⟩, hread, h⟩ := bind_eq_ok.mp h
  dsimp only at h
  split at h
  · cases h
    have hskip := length_skip_le s.toList
    rw [String.length_toList] at hskip
    exact ⟨_, ((fronts _).value hread).mono hskip (Nat.le_refl _)⟩
  · cases h

/-- **What is read is legible.** -/
theorem read_legible {s : String} (h : read s = .ok v) : v.Legible := by
  obtain ⟨left, hfront⟩ := read_front h
  exact hfront.legible

/-- **A text does not denote itself**: what denotes a string is longer than the string. -/
theorem length_lt_of_read_text {s t : String} (h : read s = .ok (.text t)) :
    t.length < s.length := by
  obtain ⟨left, hfront⟩ := read_front h
  have hle := hfront.text_le t rfl
  omega

end Parley.Json
