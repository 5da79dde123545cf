import Mathlib.Tactic.Linarith
import Parley.Json.Printer
import Parley.Json.Reader

/-!
# Strings in JSON text

`Spells cs text`: between quotes the text spells the characters, each as itself, by an escape of one
letter or by its code units.  What spells them is read as them (`readText_spells`), and a printed
string is spelt (`spells_printed`).
-/

namespace Parley.Json

/-! ### Code units -/

/-- A code unit as an escape. -/
def escapeUnit (u : Nat) : List Char := '\\' :: 'u' :: Text.hex 4 u

/-- The first of the two code units of a character. -/
def highUnit (c : Char) : Nat := 0xD800 + (c.toNat - 0x10000) / 0x400

/-- The second of the two code units of a character. -/
def lowUnit (c : Char) : Nat := 0xDC00 + (c.toNat - 0x10000) % 0x400

theorem hexDigit?_digitChar {d : Nat} (h : d < 16) : Text.hexDigit? (Nat.digitChar d) = some d := by
  have hall : ∀ d < 16, Text.hexDigit? (Nat.digitChar d) = some d := by decide
  exact hall d h

/-- The four digits of a code unit. -/
theorem hex_four {u : Nat} (hu : u < 0x10000) :
    Text.hex 4 u = [Nat.digitChar (u / 4096), Nat.digitChar (u / 256 % 16),
      Nat.digitChar (u / 16 % 16), Nat.digitChar (u % 16)] := by
  have hstep {n : Nat} (hn : 16 ≤ n) :
      Nat.toDigits 16 n = Nat.toDigits 16 (n / 16) ++ [Nat.digitChar (n % 16)] :=
    Nat.toDigits_of_base_le (by decide) hn
  have hlast {n : Nat} (hn : n < 16) : Nat.toDigits 16 n = [Nat.digitChar n] :=
    Nat.toDigits_of_lt_base hn
  have h256 : u / 16 / 16 = u / 256 := Nat.div_div_eq_div_mul ..
  have h4096 : u / 256 / 16 = u / 4096 := Nat.div_div_eq_div_mul ..
  unfold Text.hex
  rcases Nat.lt_or_ge u 16 with h | h
  · rw [hlast h, Nat.div_eq_of_lt (by omega : u < 4096), Nat.div_eq_of_lt (by omega : u < 256),
      Nat.div_eq_of_lt h, Nat.mod_eq_of_lt h]
    rfl
  rcases Nat.lt_or_ge u 256 with h' | h'
  · rw [hstep h, hlast (by omega), Nat.div_eq_of_lt (by omega : u < 4096), Nat.div_eq_of_lt h',
      Nat.mod_eq_of_lt (by omega : u / 16 < 16)]
    rfl
  rcases Nat.lt_or_ge u 4096 with h'' | h''
  · rw [hstep h, hstep (by omega), h256, hlast (by omega), Nat.div_eq_of_lt h'',
      Nat.mod_eq_of_lt (by omega : u / 256 < 16)]
    rfl
  · rw [hstep h, hstep (by omega), h256, hstep (by omega), h4096, hlast (by omega)]
    rfl

/-- The code unit of an escape is read. -/
theorem readUnits_escapeUnit {u : Nat} (hu : u < 0x10000) {rest : List Char} (hrest : rest ≠ []) :
    readUnits (escapeUnit u ++ rest) = (readUnits rest).map fun p => (u :: p.1, p.2) := by
  have hempty : rest.isEmpty = false := List.isEmpty_eq_false_iff.mpr hrest
  have hsum : ((u / 4096 * 16 + u / 256 % 16) * 16 + u / 16 % 16) * 16 + u % 16 = u := by omega
  rw [escapeUnit, hex_four hu]
  simp only [List.cons_append, List.nil_append]
  rw [readUnits, hexDigit?_digitChar (by omega), hexDigit?_digitChar (by omega),
    hexDigit?_digitChar (by omega), hexDigit?_digitChar (by omega), hempty]
  dsimp only
  rw [hsum]

/-- A unit that is no surrogate is a character. -/
theorem joinUnits_cons {u : Nat} (hu : ¬ (0xD800 ≤ u ∧ u < 0xE000)) (us : List Nat) :
    joinUnits (u :: us) = Char.ofNat u :: joinUnits us := by
  cases us with
  | nil => simp only [joinUnits, hu, if_false]
  | cons v us => rw [joinUnits, if_neg (by omega), if_neg hu]

theorem not_surrogate (c : Char) : ¬ (0xD800 ≤ c.toNat ∧ c.toNat < 0xE000) := by
  rcases c.valid with h | h
  · have : c.toNat < 0xD800 := h
    omega
  · have : 0xDFFF < c.toNat := h.1
    omega

theorem joinUnits_toNat (c : Char) (us : List Nat) :
    joinUnits (c.toNat :: us) = c :: joinUnits us := by
  rw [joinUnits_cons (not_surrogate c), Char.ofNat_toNat]

theorem toNat_lt (c : Char) : c.toNat < 0x110000 := by
  rcases c.valid with h | h
  · have : c.toNat < 0xD800 := h
    omega
  · exact h.2

theorem unit_bounds (c : Char) : highUnit c < 0x10000 ∧ lowUnit c < 0x10000 := by
  have hmax := toNat_lt c
  unfold highUnit lowUnit
  omega

/-- The two units of a character are the character. -/
theorem joinUnits_pair {c : Char} (hc : 0x10000 ≤ c.toNat) (us : List Nat) :
    joinUnits (highUnit c :: lowUnit c :: us) = c :: joinUnits us := by
  have hmax := toNat_lt c
  have hjoin : 0x10000 + (highUnit c - 0xD800) * 0x400 + (lowUnit c - 0xDC00) = c.toNat := by
    unfold highUnit lowUnit
    omega
  rw [joinUnits, if_pos (by unfold highUnit lowUnit; omega), hjoin, Char.ofNat_toNat]

/-! ### Spelling -/

/-- Between quotes the text spells the characters. -/
inductive Spells : List Char → List Char → Prop where
  | nil : Spells [] []
  | plain {c : Char} {cs text : List Char} (hquote : c ≠ '"') (hslash : c ≠ '\\')
      (hc : 0x20 ≤ c.toNat)
      (h : Spells cs text) : Spells (c :: cs) (c :: text)
  | short {e c : Char} {cs text : List Char} (he : shortEscape? e = some c) (h : Spells cs text) :
      Spells (c :: cs) ('\\' :: e :: text)
  | unit {c : Char} {cs text : List Char} (hc : c.toNat < 0x10000) (h : Spells cs text) :
      Spells (c :: cs) (escapeUnit c.toNat ++ text)
  | pair {c : Char} {cs text : List Char} (hc : 0x10000 ≤ c.toNat) (h : Spells cs text) :
      Spells (c :: cs) (escapeUnit (highUnit c) ++ (escapeUnit (lowUnit c) ++ text))

theorem readUnits_plain {c : Char} (hquote : c ≠ '"') (hslash : c ≠ '\\') (hc : 0x20 ≤ c.toNat)
    (rest : List Char) : readUnits (c :: rest) = (readUnits rest).map fun p =>
    (c.toNat :: p.1, p.2) := by
  rw [readUnits.eq_7 c rest (fun h => absurd h hslash) hquote (fun _ h => absurd h hslash)
    (fun _ _ h => absurd h hslash), if_neg (by omega)]

theorem readUnits_short {e c : Char} (he : shortEscape? e = some c) {rest : List Char} :
    readUnits ('\\' :: e :: rest) = (readUnits rest).map fun p => (c.toNat :: p.1, p.2) := by
  have hu : e ≠ 'u' := by
    rintro rfl
    cases he
  rw [readUnits.eq_6 e rest hu, he]

theorem readUnits_spells {cs text : List Char} (h : Spells cs text) (rest : List Char) :
    ∃ units, readUnits (text ++ '"' :: rest) = .ok (units, rest) ∧ joinUnits units = cs := by
  have hne {text : List Char} :
    text ++ '"' :: rest ≠ [] := List.append_ne_nil_of_right_ne_nil _ (List.cons_ne_nil _ _)
  induction h with
  | nil => exact ⟨[], readUnits.eq_3 rest, joinUnits.eq_1⟩
  | @plain c cs text hquote hslash hc h ih =>
      obtain ⟨units, hread, rfl⟩ := ih
      refine ⟨c.toNat :: units, ?_, joinUnits_toNat c units⟩
      rw [List.cons_append, readUnits_plain hquote hslash hc, hread]
      rfl
  | @short e c cs text he h ih =>
      obtain ⟨units, hread, rfl⟩ := ih
      refine ⟨c.toNat :: units, ?_, joinUnits_toNat c units⟩
      rw [List.cons_append, List.cons_append, readUnits_short he, hread]
      rfl
  | @unit c cs text hc h ih =>
      obtain ⟨units, hread, rfl⟩ := ih
      refine ⟨c.toNat :: units, ?_, joinUnits_toNat c units⟩
      rw [List.append_assoc, readUnits_escapeUnit hc hne, hread]
      rfl
  | @pair c cs text hc h ih =>
      obtain ⟨units, hread, rfl⟩ := ih
      refine ⟨highUnit c :: lowUnit c :: units, ?_, joinUnits_pair hc units⟩
      obtain ⟨hhigh, hlow⟩ := unit_bounds c
      rw [List.append_assoc, List.append_assoc,
        readUnits_escapeUnit hhigh (List.append_ne_nil_of_right_ne_nil _ hne),
        readUnits_escapeUnit hlow hne, hread]
      rfl

/-- **What spells a string is read as it.** -/
theorem readText_spells {s : String} {text : List Char} (h : Spells s.toList text)
    (rest : List Char) :
    readText (text ++ '"' :: rest) = .ok (s, rest) := by
  obtain ⟨units, hread, hjoin⟩ := readUnits_spells h rest
  rw [readText, hread]
  dsimp only
  rw [hjoin, String.ofList_toList]

/-! ### Printing -/

variable {c : Char} {cs text : List Char}

theorem Spells.escapeChar (c : Char) (h : Spells cs text) :
    Spells (c :: cs) (escapeChar c ++ text) := by
  have hshort {e d : Char} (he : shortEscape? e = some d) (hc : c = d) :
      Spells (c :: cs) ('\\' :: e :: text) :=
    .short (hc ▸ he) h
  unfold Json.escapeChar
  split
  · exact hshort rfl ‹_›
  split
  · exact hshort rfl ‹_›
  split
  · exact hshort rfl ‹_›
  split
  · exact hshort rfl ‹_›
  split
  · exact hshort rfl ‹_›
  split
  · exact hshort rfl ‹_›
  split
  · exact hshort rfl ‹_›
  split
  · exact .unit (by omega) h
  · exact .plain ‹_› ‹_› (by omega) h

/-- Character by character, a printed string is spelt. -/
theorem spells_printed (cs : List Char) : Spells cs (cs.flatMap Json.escapeChar) := by
  induction cs with
  | nil => exact .nil
  | cons c cs ih =>
      rw [List.flatMap_cons]
      exact ih.escapeChar c

end Parley.Json
