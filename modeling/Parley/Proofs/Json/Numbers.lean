import Mathlib.Data.List.TakeWhile
import Parley.Json.Printer
import Parley.Json.Reader
import Parley.Proofs.Number.Shortest

/-!
# Numbers in JSON text

A number that was written is read back: a whole number that has not too many digits
(`readAtom_int`), and every binary64 number, whichever layout its digits have (`readAtom_float`).
What follows must not go on with it (`EndsNumber`).
-/

namespace Parley.Json

open Number

/-- The text does not go on with a number. -/
def EndsNumber (rest : List Char) : Prop :=
  ∀ c ∈ rest.head?, c.isDigit = false ∧ c ≠ '.' ∧ c ≠ 'e' ∧ c ≠ 'E'

variable {ds rest tail : List Char}

/-! ### Parts of a number -/

/-- Digits are taken up to what is none. -/
theorem digitsOf_append (hds : ∀ c ∈ ds, c.isDigit = true)
    (hrest : ∀ c ∈ rest.head?, c.isDigit = false) :
    digitsOf (ds ++ rest) = (ds, rest) := by
  have hpos : ∀ c ∈ ds, isDigit c = true := fun c hc => (isDigit_eq c).trans (hds c hc)
  have htake : rest.takeWhile isDigit = [] ∧ rest.dropWhile isDigit = rest := by
    cases rest with
    | nil => exact ⟨rfl, rfl⟩
    | cons c cs =>
        have hc : isDigit c = false := (isDigit_eq c).trans (hrest c rfl)
        simp [hc]
  rw [digitsOf, List.takeWhile_append_of_pos hpos, List.dropWhile_append_of_pos hpos,
    htake.1, htake.2, List.append_nil]

/-- A fraction is a point and digits. -/
theorem readFraction_append (hds : ∀ c ∈ ds, c.isDigit = true) (hne : ds ≠ [])
    (hrest : ∀ c ∈ rest.head?, c.isDigit = false) :
    readFraction ('.' :: (ds ++ rest)) = (ds, rest) := by
  have hempty : ds.isEmpty = false := List.isEmpty_eq_false_iff.mpr hne
  rw [readFraction, digitsOf_append hds hrest]
  simp [hempty]

/-- Without a point there is no fraction. -/
theorem readFraction_none (h : ∀ c ∈ rest.head?, c ≠ '.') : readFraction rest = ([], rest) := by
  unfold readFraction
  split
  · exact absurd rfl (h '.' rfl)
  · rfl

/-- Without an `e` there is no power of ten. -/
theorem readPower_none (h : ∀ c ∈ rest.head?, c ≠ 'e' ∧ c ≠ 'E') :
    readPower rest = (none, rest) := by
  unfold readPower
  split
  · next c cs =>
    rw [if_neg (by simpa using h c rfl)]
  · rfl

/-- A power of ten is an `e`, a sign and digits. -/
theorem readPower_append (negative : Bool) (hds : ∀ c ∈ ds, c.isDigit = true) (hne : ds ≠ [])
    (hrest : ∀ c ∈ rest.head?, c.isDigit = false) :
    readPower ('e' :: (if negative then '-' else '+') :: (ds ++ rest)) =
      (some (if negative then -(ofDigitChars ds : Int) else ofDigitChars ds), rest) := by
  have hempty : ds.isEmpty = false := List.isEmpty_eq_false_iff.mpr hne
  have hsign : readSign ((if negative then '-' else '+') :: (ds ++ rest)) =
      (negative, ds ++ rest) := by
    cases negative <;> rfl
  unfold readPower
  dsimp only
  rw [if_pos (by simp), hsign]
  dsimp only
  rw [digitsOf_append hds hrest]
  simp [hempty]

/-- Digits of a whole number: zero by itself, or not zero in front. -/
def IsWhole (ds : List Char) : Prop :=
  (ds = ['0'] ∨ ∃ c cs, ds = c :: cs ∧ c ≠ '0') ∧ ∀ c ∈ ds, c.isDigit = true

/-- A number from its parts. -/
theorem readNumber_append {negative : Bool} {fraction after : List Char} {power : Option Int}
    (hds : IsWhole ds) (htail : ∀ c ∈ tail.head?, c.isDigit = false)
    (hfraction : readFraction tail = (fraction, after)) (hpower : readPower after = (power, rest)) :
    readNumber negative (ds ++ tail) =
      if fraction.isEmpty && power.isNone then
        if digitLimit < ds.length then .error (.tooLong ds.length)
        else .ok (.int (if negative then -(ofDigitChars ds : Int) else ofDigitChars ds), rest)
      else .ok (.float (Binary64.ofDecimal negative (ofDigitChars (ds ++ fraction))
        (power.getD 0 - fraction.length)), rest) := by
  obtain ⟨hwhole, hdigits⟩ := hds
  have hne : ds.isEmpty = false := by
    rcases hwhole with rfl | ⟨c, cs, rfl, -⟩ <;> rfl
  unfold readNumber
  split
  next whole after' heq =>
    have hsplit : (whole, after') = (ds, tail) := by
      rw [← heq]
      rcases hwhole with rfl | ⟨c, cs, rfl, hc⟩
      · rfl
      · split
        · next he => exact absurd (List.cons.inj he).1 hc
        · exact digitsOf_append hdigits htail
    obtain ⟨rfl, rfl⟩ := Prod.mk.inj hsplit
    rw [hne, hfraction]
    dsimp only
    rw [hpower]
    rfl

/-! ### Whole numbers -/

/-- The digits of a natural number are those of a whole number. -/
theorem isWhole_toDigits (n : Nat) : IsWhole (Nat.toDigits 10 n) := by
  refine ⟨?_, fun c => Nat.isDigit_of_mem_toDigits (by omega) (by omega)⟩
  rcases Nat.eq_zero_or_pos n with rfl | hn
  · exact .inl rfl
  · exact .inr (toDigits_eq_cons hn)

/-- Digits that are not too many are read as the number that they are. -/
theorem readNumber_toDigits {n : Nat} (negative : Bool) (hn : n < tenTo digitLimit)
    (hrest : EndsNumber rest) :
    readNumber negative (Nat.toDigits 10 n ++ rest) =
      .ok (.int (if negative then -(n : Int) else n), rest) := by
  have hlength : (Nat.toDigits 10 n).length ≤ digitLimit := (length_toDigits_le (by decide)).mpr hn
  rw [readNumber_append (isWhole_toDigits n) (fun c hc => (hrest c hc).1)
    (readFraction_none fun c hc => (hrest c hc).2.1) (readPower_none fun c hc => (hrest c hc).2.2)]
  rw [ofDigitChars_toDigits]
  exact (if_pos rfl).trans (if_neg (Nat.not_lt.mpr hlength))

/-! ### Telling numbers from names -/

/-- A word is not found where another character stands. -/
theorem after?_eq_none {word : String} {w c : Char} {ws cs : List Char}
    (hword : word.toList = w :: ws) (hne : w ≠ c) :
    after? word (c :: cs) = none := by
  rw [after?, hword]
  simp [List.isPrefixOf, hne]

/-- An atom that begins with a digit is a number. -/
theorem readAtom_digit {c : Char} {cs : List Char} (hc : c.isDigit = true) :
    readAtom (c :: cs) = readNumber false (c :: cs) := by
  have hne (w : Char) (hw : w.isDigit = false) : w ≠ c := fun he => by
    rw [he, hc] at hw
    cases hw
  unfold readAtom
  rw [after?_eq_none rfl (hne 'n' rfl), after?_eq_none rfl (hne 't' rfl),
    after?_eq_none rfl (hne 'f' rfl), after?_eq_none rfl (hne 'N' rfl),
    after?_eq_none rfl (hne 'I' rfl), after?_eq_none rfl (hne '-' rfl)]
  dsimp only
  split
  · next he => exact absurd (List.cons.inj he).1.symm (hne '-' rfl)
  · rfl

/-- So is one that begins with a minus and a digit. -/
theorem readAtom_minus {c : Char} {cs : List Char} (hc : c.isDigit = true) :
    readAtom ('-' :: c :: cs) = readNumber true (c :: cs) := by
  have hInfinity : after? "-Infinity" ('-' :: c :: cs) = none := by
    have hne : 'I' ≠ c := fun he => by
      rw [← he] at hc
      cases hc
    rw [after?, show "-Infinity".toList = '-' :: 'I' ::
      ['n', 'f', 'i', 'n', 'i', 't', 'y'] from rfl]
    simp [List.isPrefixOf, hne]
  unfold readAtom
  rw [after?_eq_none rfl (show 'n' ≠ '-' by decide), after?_eq_none rfl (show 't' ≠ '-' by decide),
    after?_eq_none rfl (show 'f' ≠ '-' by decide), after?_eq_none rfl (show 'N' ≠ '-' by decide),
    after?_eq_none rfl (show 'I' ≠ '-' by decide), hInfinity]
  rfl

/-- A number of either sign. -/
theorem readAtom_signed (negative : Bool) {c : Char} {cs : List Char} (hc : c.isDigit = true) :
    readAtom ((if negative then ['-'] else []) ++ c :: cs) = readNumber negative (c :: cs) := by
  cases negative with
  | false => exact readAtom_digit hc
  | true => exact readAtom_minus hc

theorem not_isTooLong {n : Int} : isTooLong n = false ↔ n.natAbs < tenTo digitLimit := by
  unfold isTooLong
  rw [decide_eq_false_iff_not, not_le]

/-- A whole number is written as a sign, if it is negative, and digits. -/
theorem toList_intText (n : Int) :
    (intText n).toList = (if decide (n < 0) then ['-'] else []) ++ Nat.toDigits 10 n.natAbs := by
  unfold intText natText
  by_cases h : n < 0 <;> simp [h]

/-- **A whole number is read back** that has not too many digits. -/
theorem readAtom_int {n : Int} (hn : isTooLong n = false) (hrest : EndsNumber rest) :
    readAtom ((intText n).toList ++ rest) = .ok (.int n, rest) := by
  have hread := readNumber_toDigits (decide (n < 0)) (not_isTooLong.mp hn) hrest
  have hvalue : (if decide (n < 0) then -(n.natAbs : Int) else n.natAbs) = n := by
    by_cases h : n < 0 <;>
      simp only [h, decide_true, decide_false, if_true, Bool.false_eq_true, if_false] <;> omega
  rw [hvalue] at hread
  rw [toList_intText, List.append_assoc]
  cases hdigits : Nat.toDigits 10 n.natAbs with
  | nil => exact absurd hdigits Nat.toDigits_ne_nil
  | cons c cs =>
      have hc : c.isDigit = true := Nat.isDigit_of_mem_toDigits (by omega) (by omega)
        (hdigits ▸ List.mem_cons_self)
      rw [hdigits] at hread
      exact (readAtom_signed _ hc).trans hread

/-! ### Layouts of digits -/

/-- The text is read as a decimal number with the value of the digits when their point stands after
the first `point` of them. -/
structure Lays (ds : List Char) (point : Int) (text : List Char) : Prop where
  first : ∃ c cs, text = c :: cs ∧ c.isDigit = true
  read : ∃ digits exp10 zeros, digits = ofDigitChars ds * tenTo zeros ∧
    exp10 + zeros = point - ds.length ∧
    (ofDigitChars ds < tenTo 18 → digits < tenTo 18) ∧
    ∀ negative rest, EndsNumber rest →
      readNumber negative (text ++ rest) = .ok
        (.float (Binary64.ofDecimal negative digits exp10), rest)

/-- A whole number begins with a digit. -/
theorem IsWhole.first (h : IsWhole ds) (tail : List Char) :
    ∃ c cs, ds ++ tail = c :: cs ∧ c.isDigit = true := by
  obtain ⟨rfl | ⟨c, cs, rfl, -⟩, hdigits⟩ := h
  · exact ⟨'0', tail, rfl, rfl⟩
  · exact ⟨c, cs ++ tail, rfl, hdigits c List.mem_cons_self⟩

theorem EndsNumber.isDigit (h : EndsNumber rest) :
    ∀ c ∈ rest.head?, c.isDigit = false := fun c hc => (h c hc).1

/-- The point and digits after it. -/
theorem lays_point {whole fraction : List Char} {point : Int} (zeros : Nat) (hwhole : IsWhole whole)
    (hdigits : ∀ c ∈ fraction, c.isDigit = true) (hne : fraction ≠ [])
    (hvalue : ofDigitChars (whole ++ fraction) = ofDigitChars ds * tenTo zeros)
    (hpoint : (zeros : Int) - fraction.length = point - ds.length)
    (hbound : ofDigitChars ds < tenTo 18 → ofDigitChars (whole ++ fraction) < tenTo 18) :
    Lays ds point (whole ++ '.' :: fraction) where
  first := hwhole.first _
  read := by
    refine ⟨_, 0 - fraction.length, zeros, hvalue, by omega, hbound, fun negative rest hrest => ?_⟩
    have hempty : fraction.isEmpty = false := List.isEmpty_eq_false_iff.mpr hne
    rw [List.append_assoc, List.cons_append, readNumber_append hwhole (by simp)
      (readFraction_append hdigits hne hrest.isDigit) (readPower_none fun c hc => (hrest c hc).2.2),
      hempty]
    rfl

/-- An exponent, perhaps with the point and digits before it. -/
theorem lays_power {c : Char} {fraction : List Char} {point : Int} (hc : c.isDigit = true)
    (hzero : c ≠ '0') (hdigits : ∀ d ∈ fraction, d.isDigit = true) (hds : ds = c :: fraction)
    {digits : List Char} (hpower : ∀ d ∈ digits, d.isDigit = true) (hne : digits ≠ [])
    (negative : Bool)
    (hpoint : (if negative then -(ofDigitChars digits : Int) else ofDigitChars digits) =
      point - 1) :
    Lays ds point ([c] ++ (if fraction = [] then [] else '.' :: fraction) ++
      'e' :: (if negative then '-' else '+') :: digits) where
  first := ⟨c, _, rfl, hc⟩
  read := by
    have hwhole : IsWhole [c] :=
      ⟨.inr ⟨c, [], rfl, hzero⟩, fun d hd => List.mem_singleton.mp hd ▸ hc⟩
    refine ⟨ofDigitChars ds, point - ds.length, 0, (Nat.mul_one _).symm,
      by omega, id, fun sign rest hrest => ?_⟩
    have hread := readPower_append negative hpower hne hrest.isDigit
    rw [hpoint] at hread
    -- the fraction ends where the power begins, and so does what stands before a point
    have hfraction : readFraction ((if fraction = [] then [] else '.' :: fraction) ++
        'e' :: (if negative then '-' else '+') :: (digits ++ rest)) =
        (fraction, 'e' :: (if negative then '-' else '+') :: (digits ++ rest)) := by
      split
      · next hnil =>
        subst hnil
        exact readFraction_none (by simp)
      · next hcons => exact readFraction_append hdigits hcons (by simp)
    have htail : ∀ d ∈ ((if fraction = [] then [] else '.' :: fraction) ++
        'e' :: (if negative then '-' else '+') :: (digits ++ rest)).head?, d.isDigit = false := by
      split <;> simp
    have htext : [c] ++ (if fraction = [] then [] else '.' :: fraction) ++
        'e' :: (if negative then '-' else '+') :: digits ++ rest =
        [c] ++ ((if fraction = [] then [] else '.' :: fraction) ++
          'e' :: (if negative then '-' else '+') :: (digits ++ rest)) := by
      simp only [List.append_assoc, List.cons_append, List.nil_append]
    rw [htext, readNumber_append hwhole htail hfraction hread, Option.isNone_some, Bool.and_false,
      if_neg Bool.false_ne_true, hds]
    have hexp : (some (point - 1)).getD 0 - (fraction.length : Int) =
        point - (c :: fraction).length := by
      rw [List.length_cons, Option.getD_some]
      push_cast
      ring
    rw [hexp]
    rfl

section Layout

variable {c : Char} {cs : List Char} {point : Int}

/-- Zeros between the point and the digits. -/
theorem lays_small (hdigits : ∀ d ∈ c :: cs, d.isDigit = true) (hpoint : point ≤ 0) :
    Lays (c :: cs) point ("0." ++ "".pushn '0' (-point).toNat ++
      String.ofList (c :: cs)).toList := by
  have htext : ("0." ++ "".pushn '0' (-point).toNat ++ String.ofList (c :: cs)).toList =
      ['0'] ++ '.' :: (List.replicate (-point).toNat '0' ++ c :: cs) := by
    simp [toList_pushn]
  have hall : ∀ d ∈ List.replicate (-point).toNat '0' ++ c :: cs, d.isDigit = true := fun d hd =>
    (List.mem_append.mp hd).elim (fun h => List.eq_of_mem_replicate h ▸ rfl) (hdigits d)
  have hvalue : ofDigitChars (['0'] ++ (List.replicate (-point).toNat '0' ++ c :: cs)) =
      ofDigitChars (c :: cs) := by
    rw [← List.append_assoc, ← List.replicate_one, List.replicate_append_replicate]
    exact ofDigitChars_zeros_append hdigits _
  rw [htext]
  refine lays_point 0 ⟨.inl rfl, by simp⟩ hall (by simp)
    (by rw [hvalue]; exact (Nat.mul_one _).symm) ?_
    (by rw [hvalue]; exact id)
  rw [List.length_append, List.length_replicate]
  omega

/-- Zeros between the digits and the point. -/
theorem lays_whole (hdigits : ∀ d ∈ c :: cs, d.isDigit = true) (hc : c ≠ '0')
    (hshort : ((c :: cs).length : Int) ≤ point) (hpoint : point ≤ 16) : Lays (c :: cs) point
      (String.ofList (c :: cs) ++ "".pushn '0' (point - (c :: cs).length).toNat ++
        ".0").toList := by
  have htext : (String.ofList (c :: cs) ++ "".pushn '0' (point - (c :: cs).length).toNat ++
    ".0").toList =
      (c :: cs ++ List.replicate (point - (c :: cs).length).toNat '0') ++ ['.', '0'] := by
    simp [toList_pushn]
  have hall : ∀ d ∈ c :: cs ++ List.replicate (point - (c :: cs).length).toNat '0',
      d.isDigit = true := fun d hd =>
    (List.mem_append.mp hd).elim (hdigits d) fun h => List.eq_of_mem_replicate h ▸ rfl
  have hvalue : ofDigitChars
    ((c :: cs ++ List.replicate (point - (c :: cs).length).toNat '0') ++ ['0']) =
      ofDigitChars (c :: cs) * tenTo ((point - (c :: cs).length).toNat + 1) := by
    rw [List.append_assoc, ← List.replicate_one, List.replicate_append_replicate]
    exact ofDigitChars_append_zeros hdigits _
  rw [htext]
  refine lays_point _ ⟨.inr ⟨c, _, rfl, hc⟩, hall⟩ (by simp) (by simp) hvalue ?_ fun _ => ?_
  · rw [List.length_singleton]
    omega
  · rw [hvalue]
    calc ofDigitChars (c :: cs) * tenTo ((point - (c :: cs).length).toNat + 1)
        < tenTo (c :: cs).length * tenTo ((point - (c :: cs).length).toNat + 1) :=
          Nat.mul_lt_mul_of_pos_right (ofDigitChars_lt _) (tenTo_pos _)
      _ = tenTo ((c :: cs).length + ((point - (c :: cs).length).toNat + 1)) := (tenTo_add _ _).symm
      _ ≤ tenTo 18 := tenTo_le (by omega)

/-- The point between the digits. -/
theorem lays_between (hdigits : ∀ d ∈ c :: cs, d.isDigit = true) (hc : c ≠ '0') (hpoint : 0 < point)
    (hlong : point < (c :: cs).length) : Lays (c :: cs) point
      (String.ofList ((c :: cs).take point.toNat) ++ "." ++
        String.ofList ((c :: cs).drop point.toNat)).toList := by
  obtain ⟨n, hn⟩ : ∃ n, point.toNat = n + 1 := ⟨point.toNat - 1, by omega⟩
  have htext :
      (String.ofList ((c :: cs).take point.toNat) ++ "." ++
        String.ofList ((c :: cs).drop point.toNat)).toList =
        (c :: cs).take point.toNat ++ '.' :: (c :: cs).drop point.toNat := by
    simp
  have hvalue := congrArg ofDigitChars (List.take_append_drop point.toNat (c :: cs))
  have hdrop : ((c :: cs).drop point.toNat).length = (c :: cs).length - point.toNat :=
    List.length_drop
  rw [htext]
  refine lays_point 0 ⟨.inr ⟨c, cs.take n, by rw [hn, List.take_succ_cons], hc⟩,
    fun d hd => hdigits d (List.mem_of_mem_take hd)⟩
      (fun d hd => hdigits d (List.mem_of_mem_drop hd)) ?_
    (by rw [hvalue]; exact (Nat.mul_one _).symm) ?_ (by rw [hvalue]; exact id)
  · rw [← List.length_pos_iff]
    omega
  · omega

/-- An exponent, with two digits at least. -/
theorem lays_exponent (hdigits : ∀ d ∈ c :: cs, d.isDigit = true) (hc : c ≠ '0') :
    Lays (c :: cs) point
    (String.ofList ((c :: cs).take 1) ++
      (if (c :: cs).length ≤ 1 then "" else "." ++ String.ofList ((c :: cs).drop 1)) ++
      (if point - 1 < 0 then "e-" else "e+") ++ padZeros 2 (point - 1).natAbs).toList := by
  have hsign : (if point - 1 < 0 then "e-" else "e+").toList =
      ['e', if decide (point - 1 < 0) then '-' else '+'] := by
    by_cases h : point - 1 < 0 <;> simp [h]
  have htail : (if (c :: cs).length ≤ 1 then "" else "." ++
    String.ofList ((c :: cs).drop 1)).toList =
      if cs = [] then [] else '.' :: cs := by
    cases cs <;> simp
  have htext : (String.ofList ((c :: cs).take 1) ++
      (if (c :: cs).length ≤ 1 then "" else "." ++ String.ofList ((c :: cs).drop 1)) ++
      (if point - 1 < 0 then "e-" else "e+") ++ padZeros 2 (point - 1).natAbs).toList =
      [c] ++ (if cs = [] then [] else '.' :: cs) ++
        'e' :: (if decide (point - 1 < 0) then '-' else '+') :: padded 2 (point - 1).natAbs := by
    rw [String.toList_append, String.toList_append, String.toList_append, htail, hsign,
      toList_padZeros, String.toList_ofList, List.append_assoc]
    rfl
  rw [htext]
  refine lays_power (hdigits c List.mem_cons_self) hc
    (fun d hd => hdigits d (List.mem_cons_of_mem c hd)) rfl
    (fun d => isDigit_of_mem_padded) ?_ _ ?_
  · exact List.isEmpty_eq_false_iff.mp (List.append_nil (padded 2 _) ▸ isEmpty_padded_append 2 _ [])
  · rw [ofDigitChars_padded]
    by_cases h : point - 1 < 0 <;>
      simp only [h, decide_true, decide_false, if_true, Bool.false_eq_true, if_false] <;>
      omega

/-- **Every layout of digits** keeps their value. -/
theorem lays_layout (hdigits : ∀ d ∈ c :: cs, d.isDigit = true) (hc : c ≠ '0') (point : Int) :
    Lays (c :: cs) point (Binary64.layout (c :: cs) point).toList := by
  unfold Binary64.layout
  dsimp only
  split
  · next hrange =>
    split
    · next hsmall => exact lays_small hdigits hsmall
    · next hlarge =>
      split
      · next hshort => exact lays_whole hdigits hc hshort hrange.2
      · next hlong => exact lays_between hdigits hc (by omega) (by omega)
  · exact lays_exponent hdigits hc

end Layout

/-! ### Binary64 numbers -/

/-- Only zeros at the end are trimmed. -/
theorem trimZeros_spec {c : Char} {cs : List Char} (hc : c ≠ '0') :
    ∃ cs' n, Binary64.trimZeros (c :: cs) = c :: cs' ∧
      c :: cs = c :: cs' ++ List.replicate n '0' := by
  have hsplit : c :: cs = ((c :: cs).reverse.dropWhile (· == '0')).reverse ++
      ((c :: cs).reverse.takeWhile (· == '0')).reverse := by
    rw [← List.reverse_append, List.takeWhile_append_dropWhile, List.reverse_reverse]
  have hzeros : ∀ d ∈ ((c :: cs).reverse.takeWhile (· == '0')).reverse, d = '0' := fun d hd => by
    simpa using List.mem_takeWhile_imp (List.mem_reverse.mp hd)
  rw [List.eq_replicate_of_mem hzeros] at hsplit
  unfold Binary64.trimZeros
  cases hkept : ((c :: cs).reverse.dropWhile (· == '0')).reverse with
  | nil =>
      rw [hkept, List.nil_append] at hsplit
      exact absurd (List.eq_of_mem_replicate (hsplit ▸ List.mem_cons_self)) hc
  | cons d ds =>
      rw [hkept] at hsplit
      obtain rfl : c = d := (List.cons.inj hsplit).1
      exact ⟨ds, _, rfl, hsplit⟩

/-- The text of a magnitude is read as the number of its rank. -/
theorem readNumber_magnitudeText {r : Nat} (hr : r < Binary64.rankBound) (negative : Bool)
    (hrest : EndsNumber rest) :
    readNumber negative ((Binary64.magnitudeText r).toList ++ rest) =
      .ok (.float (.finite negative r hr), rest) ∧
      ∃ c cs, (Binary64.magnitudeText r).toList = c :: cs ∧ c.isDigit = true := by
  have hrank : Binary64.ofRank negative r = .finite negative r hr := dif_pos hr
  rcases Nat.eq_zero_or_pos r with rfl | hpos
  · have hread := @readNumber_append ['0'] rest ('.' :: (['0'] ++ rest)) negative ['0'] rest none
      ⟨.inl rfl, by simp⟩
      (by simp) (readFraction_append (by simp) (by simp) hrest.isDigit)
        (readPower_none fun c hc => (hrest c hc).2.2)
    refine ⟨hread.trans ?_, '0', _, rfl, rfl⟩
    rw [← hrank]
    rfl
  · obtain ⟨hdenotes, hbound⟩ := Binary64.denotes_shortest hpos
    have htext : Binary64.magnitudeText r = Binary64.layout
        (Binary64.trimZeros (Nat.toDigits 10 (Binary64.shortest r).1))
        ((Nat.toDigits 10 (Binary64.shortest r).1).length + (Binary64.shortest r).2) :=
          if_neg hpos.ne'
    generalize (Binary64.shortest r).1 = digits at *
    generalize (Binary64.shortest r).2 = exp10 at *
    have hdigits : 0 < digits := hdenotes.pos hpos
    obtain ⟨c, cs, hds, hc⟩ := toDigits_eq_cons hdigits
    obtain ⟨cs', n, htrim, hzeros⟩ := @trimZeros_spec c cs hc
    have hall : ∀ d ∈ c :: cs', d.isDigit = true := fun d hd =>
      Nat.isDigit_of_mem_toDigits (by omega) (by omega) (hds ▸ hzeros ▸ List.mem_append_left _ hd)
    have hvalue : digits = ofDigitChars (c :: cs') * tenTo n := by
      rw [← ofDigitChars_append_zeros hall, ← hzeros, ← hds, ofDigitChars_toDigits]
    rw [htext, hds, htrim]
    obtain ⟨hfirst, digits', exp10', zeros, hdigits', hexp, hsmall, hread⟩ :=
      lays_layout hall hc ((c :: cs).length + exp10)
    refine ⟨(hread negative rest hrest).trans ?_, hfirst⟩
    have hlength := congrArg List.length hzeros
    rw [List.length_append, List.length_replicate] at hlength
    -- the zeros that are trimmed off go into the exponent
    have hplaces : exp10' + zeros = exp10 + n := by omega
    have hdenotes' : Binary64.Denotes r digits' exp10' := by
      rw [hdigits', Binary64.denotes_zeros, hplaces, ← Binary64.denotes_zeros, ← hvalue]
      exact hdenotes
    have hfew : ofDigitChars (c :: cs') < tenTo 18 :=
      calc ofDigitChars (c :: cs') ≤ digits := hvalue ▸ Nat.le_mul_of_pos_right _ (tenTo_pos n)
        _ ≤ tenTo 17 := hbound
        _ < tenTo 18 := by decide
    rw [Binary64.ofDecimal_eq hdenotes' hpos hr (hsmall hfew), hrank]

/-! ### Names -/

/-- A word is found at its place. -/
theorem after?_append (word : String) (rest : List Char) :
    after? word (word.toList ++ rest) = some rest := by
  have hlength : word.length = word.toList.length := String.length_toList.symm
  rw [after?, if_pos (List.isPrefixOf_iff_prefix.mpr (List.prefix_append _ _)), hlength,
    List.drop_left]

theorem after?_other {word other : String} {w c : Char} {ws cs : List Char}
    (hword : word.toList = w :: ws) (hother : other.toList = c :: cs) (hne : w ≠ c) :
    after? word (other.toList ++ rest) = none := by
  rw [hother]
  exact after?_eq_none hword hne

theorem readAtom_null (rest : List Char) :
    readAtom ("null".toList ++ rest) = .ok (.null, rest) := by
  unfold readAtom
  rw [after?_append]

theorem readAtom_bool (b : Bool) (rest : List Char) :
    readAtom ((if b then "true" else "false").toList ++ rest) = .ok (.bool b, rest) := by
  unfold readAtom
  cases b with
  | true =>
      rw [if_pos rfl, after?_append, after?_other rfl rfl (show 'n' ≠ 't' by decide)]
  | false =>
      rw [if_neg Bool.false_ne_true, after?_append, after?_other rfl rfl (show 'n' ≠ 'f' by decide),
        after?_other rfl rfl (show 't' ≠ 'f' by decide)]

/-- A finite number is written as a sign, if it is negative, and its magnitude. -/
theorem printFloat_finite (negative : Bool) {r : Nat} (hr : r < Binary64.rankBound) :
    printFloat (.finite negative r hr) =
      (if negative then ['-'] else []) ++ (Binary64.magnitudeText r).toList := by
  change ((if negative then "-" else "") ++ Binary64.magnitudeText r).toList = _
  cases negative <;> simp

/-! ### Beginnings -/

/-- The text begins as numbers and names do. -/
def BeginsToken (text : List Char) :
    Prop := ∃ c cs, text = c :: cs ∧ (c.isAlphanum = true ∨ c = '-')

theorem beginsToken_signed (negative : Bool) {c : Char} {cs : List Char} (hc : c.isDigit = true) :
    BeginsToken ((if negative then ['-'] else []) ++ c :: cs) := by
  cases negative with
  | false => exact ⟨c, cs, rfl, .inl (by simp [Char.isAlphanum, hc])⟩
  | true => exact ⟨'-', c :: cs, rfl, .inr rfl⟩

/-- A whole number begins like a token. -/
theorem beginsToken_int (n : Int) : BeginsToken (intText n).toList := by
  rw [toList_intText]
  cases hdigits : Nat.toDigits 10 n.natAbs with
  | nil => exact absurd hdigits Nat.toDigits_ne_nil
  | cons c cs =>
      exact beginsToken_signed _
        (Nat.isDigit_of_mem_toDigits (by omega) (by omega) (hdigits ▸ List.mem_cons_self))

/-- So does a binary64 number. -/
theorem beginsToken_float (x : Binary64) : BeginsToken (printFloat x) := by
  cases x with
  | nan => exact ⟨'N', _, rfl, .inl rfl⟩
  | infinite negative =>
      cases negative with
      | true => exact ⟨'-', _, rfl, .inr rfl⟩
      | false => exact ⟨'I', _, rfl, .inl rfl⟩
  | finite negative r hr =>
      have hnil : EndsNumber [] := fun _ h => nomatch h
      obtain ⟨-, c, cs, htext, hc⟩ := readNumber_magnitudeText hr negative hnil
      rw [printFloat_finite, htext]
      exact beginsToken_signed negative hc

/-! ### Binary64 numbers and names -/

/-- **A binary64 number is read back**, and so are infinity and NaN. -/
theorem readAtom_float (x : Binary64) (hrest : EndsNumber rest) :
    readAtom (printFloat x ++ rest) = .ok (.float x, rest) := by
  cases x with
  | nan =>
      unfold readAtom printFloat
      dsimp only
      rw [after?_append, after?_other rfl rfl (show 'n' ≠ 'N' by decide),
        after?_other rfl rfl (show 't' ≠ 'N' by decide),
        after?_other rfl rfl (show 'f' ≠ 'N' by decide)]
  | infinite negative =>
      unfold readAtom printFloat
      cases negative with
      | true =>
          dsimp only
          rw [if_pos rfl, after?_append, after?_other rfl rfl (show 'n' ≠ '-' by decide),
            after?_other rfl rfl (show 't' ≠ '-' by decide),
            after?_other rfl rfl (show 'f' ≠ '-' by decide), after?_other rfl rfl
              (show 'N' ≠ '-' by decide), after?_other rfl rfl (show 'I' ≠ '-' by decide)]
      | false =>
          dsimp only
          rw [if_neg Bool.false_ne_true, after?_append,
            after?_other rfl rfl (show 'n' ≠ 'I' by decide), after?_other rfl rfl
              (show 't' ≠ 'I' by decide), after?_other rfl rfl (show 'f' ≠ 'I' by decide),
            after?_other rfl rfl (show 'N' ≠ 'I' by decide)]
  | finite negative r hr =>
      obtain ⟨hread, c, cs, htext, hc⟩ := readNumber_magnitudeText hr negative hrest
      rw [printFloat_finite, List.append_assoc]
      rw [htext] at hread ⊢
      exact (readAtom_signed negative hc).trans hread

end Parley.Json
