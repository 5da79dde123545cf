import Mathlib.Algebra.Group.Nat.Defs
import Mathlib.Data.List.Basic
import Parley.Calendar.Reading
import Parley.Schema.Moment

/-!
# Padded numbers

So many digits denote a number below so high a power of ten (`ofDigitChars_lt`).  A number below
`10 ^ width` that is filled with zeros up to that width is so many digits, and they denote the
number.  So it is read back from the front of a text, by the readers of ISO 8601
(`readDigits?_padded`) and by those of documents (`frontDigits?_padded`).
-/

namespace Parley.Number

/-- The digits are those of the core library. -/
theorem isDigit_eq (c : Char) : isDigit c = c.isDigit := by
  rw [Bool.eq_iff_iff, Char.isDigit_iff_toNat]
  unfold isDigit digit?
  simp only [Char.le_def, UInt32.le_iff_toNat_le]
  split
  · next h => simpa using h
  · next h => simpa using h

theorem digit?_eq_some {c : Char} (h : c.isDigit = true) :
    digit? c = some (c.toNat - '0'.toNat) := by
  rw [← isDigit_eq] at h
  unfold isDigit at h
  unfold digit? at h ⊢
  split at h
  · next hc => rw [if_pos hc]
  · cases h

/-- The value of digits: none is passed over. -/
theorem ofDigitChars_eq {cs : List Char} (h : ∀ c ∈ cs, c.isDigit = true) :
    ofDigitChars cs = Nat.ofDigitChars 10 cs 0 := by
  have hmap : cs.filterMap digit? = cs.map fun c => c.toNat - '0'.toNat := by
    rw [← List.filterMap_eq_map]
    exact List.filterMap_congr fun c hc => digit?_eq_some (h c hc)
  rw [ofDigitChars, hmap, ofDigits, List.foldl_map, Nat.ofDigitChars_eq_foldl]

/-- A number of so many digits. -/
theorem ofDigitChars_lt (cs : List Char) : ofDigitChars cs < 10 ^ cs.length := by
  have hdigit {c : Char} {d : Nat} (h : digit? c = some d) : d ≤ 9 := by
    unfold digit? at h
    split at h
    · next hc =>
      have := hc.2
      rw [Char.le_def, UInt32.le_iff_toNat_le] at this
      cases h
      have h9 : c.toNat ≤ 57 := this
      have h0 : '0'.toNat = 48 := rfl
      omega
    · cases h
  -- the fold stays below the power of ten for the digits it has taken
  have hfold (ds : List Nat) (hds : ∀ d ∈ ds, d ≤ 9) (acc k : Nat) (hacc : acc < 10 ^ k) :
      ds.foldl (fun acc d => 10 * acc + d) acc < 10 ^ (k + ds.length) := by
    induction ds generalizing acc k with
    | nil => exact hacc
    | cons d rest ih =>
        have hd := hds d List.mem_cons_self
        have hstep : 10 * acc + d < 10 ^ (k + 1) := by
          rw [Nat.pow_succ]
          omega
        have := ih (fun d hd => hds d (List.mem_cons_of_mem _ hd)) _ _ hstep
        rwa [List.length_cons, Nat.add_comm rest.length, ← Nat.add_assoc]
  have hlt := hfold (cs.filterMap digit?) (fun d hd => by
    obtain ⟨c, -, hc⟩ := List.mem_filterMap.mp hd
    exact hdigit hc) 0 0 (by decide)
  rw [Nat.zero_add] at hlt
  exact Nat.lt_of_lt_of_le hlt (Nat.pow_le_pow_right (by omega) (List.length_filterMap_le _ _))

/-- The digits of a number are read as the number. -/
theorem ofDigitChars_toDigits (n : Nat) : ofDigitChars (Nat.toDigits 10 n) = n := by
  rw [ofDigitChars_eq fun c => Nat.isDigit_of_mem_toDigits (by omega) (by omega),
    Nat.ofDigitChars_ten_toDigits]

/-- Zeros at the end are places. -/
theorem ofDigitChars_append_zeros {ds : List Char} (h : ∀ c ∈ ds, c.isDigit = true) (n : Nat) :
    ofDigitChars (ds ++ List.replicate n '0') = ofDigitChars ds * tenTo n := by
  have hall : ∀ c ∈ ds ++ List.replicate n '0', c.isDigit = true := fun c hc =>
    (List.mem_append.mp hc).elim (h c) fun hc => List.eq_of_mem_replicate hc ▸ rfl
  rw [ofDigitChars_eq hall, ofDigitChars_eq h, Nat.ofDigitChars_append,
    Nat.ofDigitChars_replicate_zero, Nat.mul_comm]
  rfl

/-- Zeros in front are nothing. -/
theorem ofDigitChars_zeros_append {ds : List Char} (h : ∀ c ∈ ds, c.isDigit = true) (n : Nat) :
    ofDigitChars (List.replicate n '0' ++ ds) = ofDigitChars ds := by
  have hall : ∀ c ∈ List.replicate n '0' ++ ds, c.isDigit = true := fun c hc =>
    (List.mem_append.mp hc).elim (fun hc => List.eq_of_mem_replicate hc ▸ rfl) (h c)
  rw [ofDigitChars_eq hall, ofDigitChars_eq h, Nat.ofDigitChars_append,
    Nat.ofDigitChars_replicate_zero, Nat.mul_zero]

/-- A number has as few digits as there are below a power of ten. -/
theorem length_toDigits_le {n k : Nat} (hk : 0 < k) :
    (Nat.toDigits 10 n).length ≤ k ↔ n < tenTo k :=
  Nat.length_toDigits_le_iff (by decide) hk

/-- The digits of a number do not begin with zero, unless that is all of them. -/
theorem toDigits_eq_cons {n : Nat} (hn : 0 < n) :
    ∃ c cs, Nat.toDigits 10 n = c :: cs ∧ c ≠ '0' := by
  cases hds : Nat.toDigits 10 n with
  | nil => exact absurd hds Nat.toDigits_ne_nil
  | cons c cs =>
      refine ⟨c, cs, rfl, ?_⟩
      rintro rfl
      have hdigits : ∀ c ∈ cs, c.isDigit = true := fun c hc =>
        Nat.isDigit_of_mem_toDigits (by omega) (by omega) (hds ▸ List.mem_cons_of_mem _ hc)
      have hvalue : n = ofDigitChars cs := by
        rw [← ofDigitChars_toDigits n, hds]
        exact ofDigitChars_zeros_append hdigits 1
      have hlt : n < tenTo cs.length := hvalue ▸ ofDigitChars_lt cs
      rcases Nat.eq_zero_or_pos cs.length with hnil | hpos
      · rw [hnil, tenTo_zero] at hlt
        omega
      · have hle := (length_toDigits_le hpos).mpr hlt
        rw [hds, List.length_cons] at hle
        omega

/-- A number with few enough digits is not too long. -/
theorem isTooLong_eq_false {n : Int} {k : Nat} (hn : n.natAbs < tenTo k) (hk : k ≤ digitLimit) :
    isTooLong n = false := by
  unfold isTooLong
  exact decide_eq_false (Nat.not_le.mpr (Nat.lt_of_lt_of_le hn (tenTo_le hk)))

/-- The digits of a number, with zeros in front. -/
def padded (width n : Nat) : List Char :=
  List.replicate (width - (Nat.toDigits 10 n).length) '0' ++ Nat.toDigits 10 n

theorem toList_pushn (s : String) (c : Char) (n : Nat) :
    (s.pushn c n).toList = s.toList ++ List.replicate n c := by
  rw [String.pushn_eq_repeat_push]
  induction n with
  | zero => simp [Nat.repeat]
  | succ n ih => rw [Nat.repeat, String.toList_push, ih, List.replicate_succ', List.append_assoc]

/-- A number is filled with zeros on the left. -/
theorem toList_padZeros (width n : Nat) : (padZeros width n).toList = padded width n := by
  unfold padZeros natText padded
  simp [toList_pushn]

/-- A number that fits is filled to the width. -/
theorem length_padded {w n : Nat} (hw : 0 < w) (h : n < 10 ^ w) :
    (padded w n).length = w := by
  have := (Nat.length_toDigits_le_iff (b := 10) (by omega) hw).mpr h
  rw [padded, List.length_append, List.length_replicate]
  omega

theorem isDigit_of_mem_padded {width n : Nat} {c : Char} (h : c ∈ padded width n) :
    c.isDigit = true := by
  rcases List.mem_append.mp h with h | h
  · rw [List.eq_of_mem_replicate h]
    rfl
  · exact Nat.isDigit_of_mem_toDigits (by omega) (by omega) h

/-- Zeros on the left do not count. -/
theorem ofDigitChars_padded (width n : Nat) : ofDigitChars (padded width n) = n := by
  rw [ofDigitChars_eq fun c => isDigit_of_mem_padded, padded, Nat.ofDigitChars_append,
    Nat.ofDigitChars_replicate_zero, Nat.mul_zero, Nat.ofDigitChars_ten_toDigits]

theorem all_isDigit_padded (width n : Nat) : (padded width n).all isDigit = true :=
  List.all_eq_true.mpr fun c hc => (isDigit_eq c).trans (isDigit_of_mem_padded hc)

/-- Digits are taken up to what is none. -/
theorem takeWhile_isDigit_padded (width n : Nat) {c : Char} (hc : isDigit c = false)
    (rest : List Char) : (padded width n ++ c :: rest).takeWhile isDigit = padded width n := by
  rw [List.takeWhile_append_of_pos fun d hd =>
    List.all_eq_true.mp (all_isDigit_padded width n) d hd]
  simp [hc]

theorem isEmpty_padded_append (width n : Nat) (rest : List Char) :
    (padded width n ++ rest).isEmpty = false := by
  cases hp : padded width n with
  | nil =>
      unfold padded at hp
      exact absurd (List.append_eq_nil_iff.mp hp).2 Nat.toDigits_ne_nil
  | cons c cs => rfl

theorem padded_ne_cons {w n : Nat} {c : Char} (hc : c.isDigit = false) (rest after : List Char) :
    padded w n ++ rest ≠ c :: after := by
  intro h
  cases hp : padded w n with
  | nil =>
      have hne := isEmpty_padded_append w n []
      rw [hp] at hne
      cases hne
  | cons d ds =>
      rw [hp] at h
      obtain rfl : d = c := (List.cons.inj h).1
      rw [isDigit_of_mem_padded (hp ▸ List.mem_cons_self)] at hc
      cases hc

theorem padded_two {n : Nat} (h : n < 10 ^ 2) : ∃ a b, padded 2 n = [a, b] :=
  List.length_eq_two.mp (length_padded (by omega) h)

theorem padded_four {n : Nat} (h : n < 10 ^ 4) : ∃ a b c d, padded 4 n = [a, b, c, d] := by
  have hlen := length_padded (by omega) h
  match padded 4 n, hlen with
  | [a, b, c, d], _ => exact ⟨a, b, c, d, rfl⟩

end Parley.Number

namespace Parley

open Number

variable {w n : Nat} (rest : List Char)

/-- A number is read from its width. -/
theorem Calendar.readDigits?_padded (hw : 0 < w) (h : n < 10 ^ w) :
    Calendar.readDigits? w (padded w n ++ rest) = some (n, rest) := by
  have hlen := length_padded hw h
  unfold Calendar.readDigits?
  rw [List.take_left' hlen, List.drop_left' hlen]
  simp [hlen, all_isDigit_padded, ofDigitChars_padded]

/-- So it is where moments are checked. -/
theorem Schema.frontDigits?_padded (hw : 0 < w) (h : n < 10 ^ w) :
    Schema.frontDigits? w (padded w n ++ rest) = some (n, rest) :=
  Calendar.readDigits?_padded rest hw h

end Parley
