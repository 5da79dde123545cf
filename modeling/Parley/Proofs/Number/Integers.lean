import Parley.Proofs.Number.Rounding

/-!
# Whole numbers among the binary64 numbers

Rounding keeps the order (`nearestRank_mono`), so of two whole numbers the greater one never becomes
the smaller binary64 number; but they can become the same one.  That happens to none below 2 ^ 53
(`nearestRank_lt`), and above only to two that lie close together (`close_of_nearestRank_eq`).  With
signs this is the order of the binary64 numbers of two whole numbers (`lt_ofInt_iff`,
`apart_of_ofInt_eq`).
-/

namespace Parley.Binary64

open Number

variable {num num' den a b : Nat}

/-! ### Rounding keeps the order -/

theorem roundDiv_bounds (num : Nat) (hden : 0 < den) :
    2 * (roundDiv num den * den) ≤ 2 * num + den ∧
      2 * num ≤ 2 * (roundDiv num den * den) + den := by
  have hsplit := Nat.div_add_mod num den
  have hmod := Nat.mod_lt num hden
  have hnext : (num / den + 1) * den = den * (num / den) + den := by
    rw [Nat.add_mul, Nat.one_mul, Nat.mul_comm]
  have hself : num / den * den = den * (num / den) := Nat.mul_comm ..
  unfold roundDiv
  dsimp only
  split
  · omega
  · split
    · omega
    · split <;> omega

theorem roundDiv_mul (hden : 0 < den) : roundDiv (a * den) den = a :=
  roundDiv_eq (by omega) (by omega) (by omega) hden

theorem roundDiv_mono (hden : 0 < den) (h : num ≤ num') : roundDiv num den ≤ roundDiv num' den := by
  obtain ⟨hlow, -⟩ := roundDiv_bounds num hden
  obtain ⟨-, hhigh⟩ := roundDiv_bounds num' hden
  by_contra hlt
  have hnext := Nat.mul_le_mul_right den (Nat.succ_le_of_lt (Nat.lt_of_not_le hlt))
  rw [Nat.succ_mul] at hnext
  -- the two quotients could only be the same half
  obtain rfl : num = num' := by omega
  exact hlt le_rfl

/-- A quotient of at most a whole number rounds to it at most. -/
theorem roundDiv_le (hden : 0 < den) (h : num ≤ den * a) : roundDiv num den ≤ a := by
  have := roundDiv_mono hden h
  rwa [Nat.mul_comm, roundDiv_mul hden] at this

theorem le_roundDiv (hden : 0 < den) (h : den * a ≤ num) : a ≤ roundDiv num den := by
  have := roundDiv_mono hden h
  rwa [Nat.mul_comm, roundDiv_mul hden] at this

theorem liftOf_mono (hnum : 0 < num) (hden : 0 < den) (h : num ≤ num') :
    liftOf num den ≤ liftOf num' den := by
  by_contra hlt
  obtain ⟨j, hj⟩ := Nat.exists_eq_add_of_lt (Nat.lt_of_not_le hlt)
  have hleast := (liftOf_spec hnum hden).2.resolve_left (by omega)
  have hsize := (liftOf_spec (Nat.lt_of_lt_of_le hnum h) hden).1
  have : num' * twoTo 1074 < num' * twoTo 1074 :=
    calc num' * twoTo 1074 < den * twoTo (liftOf num' den) * twoTo 53 := hsize
      _ = den * twoTo (liftOf num' den + 1) * twoTo 52 := by
        rw [twoTo_succ 52, twoTo_succ (liftOf _ _)]; ring
      _ ≤ den * twoTo (liftOf num den) * twoTo 52 :=
        Nat.mul_le_mul_right _ (Nat.mul_le_mul_left _ (twoTo_le (by omega)))
      _ ≤ num * twoTo 1074 := hleast
      _ ≤ num' * twoTo 1074 := Nat.mul_le_mul_right _ h
  exact Nat.lt_irrefl _ this

theorem nearestRank_eq_add (hnum : 0 < num) : nearestRank num den =
    roundDiv (num * twoTo 1074) (den * twoTo (liftOf num den)) + liftOf num den * twoTo 52 :=
      if_neg hnum.ne'

/-- At its exponent a quotient rounds to 2 ^ 53 at most. -/
theorem roundDiv_liftOf_le (hnum : 0 < num) (hden : 0 < den) :
    roundDiv (num * twoTo 1074) (den * twoTo (liftOf num den)) ≤ twoTo 53 :=
  roundDiv_le (Nat.mul_pos hden (twoTo_pos _)) (liftOf_spec hnum hden).1.le

/-- At an exponent above the least one a quotient rounds to 2 ^ 52 at least. -/
theorem le_roundDiv_liftOf (hnum : 0 < num) (hden : 0 < den) (h : 0 < liftOf num den) :
    twoTo 52 ≤ roundDiv (num * twoTo 1074) (den * twoTo (liftOf num den)) :=
  le_roundDiv (Nat.mul_pos hden (twoTo_pos _)) ((liftOf_spec hnum hden).2.resolve_left h.ne')

/-- **A greater quotient has no smaller rank.** -/
theorem nearestRank_mono (hden : 0 < den) (h : num ≤ num') :
    nearestRank num den ≤ nearestRank num' den := by
  rcases Nat.eq_zero_or_pos num with rfl | hnum
  · exact (if_pos rfl : nearestRank 0 den = 0) ▸ Nat.zero_le _
  have hnum' := Nat.lt_of_lt_of_le hnum h
  rw [nearestRank_eq_add hnum, nearestRank_eq_add hnum']
  rcases Nat.eq_or_lt_of_le (liftOf_mono hnum hden h) with hk | hk
  · rw [hk]
    exact Nat.add_le_add_right
      (roundDiv_mono (Nat.mul_pos hden (twoTo_pos _)) (Nat.mul_le_mul_right _ h)) _
  · have hle := roundDiv_liftOf_le hnum hden
    have hge := le_roundDiv_liftOf hnum' hden (Nat.zero_lt_of_lt hk)
    rw [twoTo_53] at hle
    rw [twoTo_52] at hge ⊢
    omega

/-! ### Which whole numbers are told apart -/

/-- Below 2 ^ 53 whole numbers have an exponent at which they are exact. -/
theorem roundDiv_liftOf_eq (hpos : 0 < a) (h : a < twoTo 53) : ∃ j, a * twoTo j < twoTo 53 ∧
    ∀ n, roundDiv (n * twoTo 1074) (1 * twoTo (liftOf a 1)) = n * twoTo j := by
  obtain ⟨hsize, hleast⟩ := liftOf_spec hpos Nat.one_pos
  have hk : liftOf a 1 ≤ 1074 := by
    by_contra hlt
    have : a * twoTo 1074 < a * twoTo 1074 :=
      calc a * twoTo 1074 < twoTo 53 * twoTo 1074 := Nat.mul_lt_mul_of_pos_right h (twoTo_pos _)
        _ = 1 * twoTo 1075 * twoTo 52 := by rw [twoTo_succ 52, twoTo_succ 1074]; ring
        _ ≤ 1 * twoTo (liftOf a 1) * twoTo 52 :=
          Nat.mul_le_mul_right _ (Nat.mul_le_mul_left _ (twoTo_le (by omega)))
        _ ≤ a * twoTo 1074 := hleast.resolve_left (by omega)
    exact Nat.lt_irrefl _ this
  obtain ⟨j, hj⟩ := Nat.exists_eq_add_of_le hk
  have hscale (n : Nat) : n * twoTo 1074 = n * twoTo j * (1 * twoTo (liftOf a 1)) := by
    rw [hj, twoTo_add]
    ring
  refine ⟨j, Nat.lt_of_mul_lt_mul_right (a := 1 * twoTo (liftOf a 1)) ?_, fun n => ?_⟩
  · rwa [← hscale, Nat.mul_comm (twoTo 53)]
  · rw [hscale, roundDiv_mul (Nat.mul_pos Nat.one_pos (twoTo_pos _))]

/-- **Below 2 ^ 53 a smaller whole number has a smaller rank.** -/
theorem nearestRank_lt (hab : a < b) (h : a < twoTo 53) : nearestRank a 1 < nearestRank b 1 := by
  have hb := Nat.zero_lt_of_lt hab
  rcases Nat.eq_zero_or_pos a with rfl | ha
  · have hone : 0 < nearestRank 1 1 := by decide +kernel
    exact (if_pos rfl : nearestRank 0 1 = 0) ▸ Nat.lt_of_lt_of_le hone
      (nearestRank_mono Nat.one_pos hb)
  obtain ⟨j, hlt, hexact⟩ := roundDiv_liftOf_eq ha h
  rw [nearestRank_eq_add ha, nearestRank_eq_add hb]
  rcases Nat.eq_or_lt_of_le (liftOf_mono ha Nat.one_pos hab.le) with hk | hk
  · rw [← hk, hexact, hexact]
    exact Nat.add_lt_add_right (Nat.mul_lt_mul_of_pos_right hab (twoTo_pos j)) _
  · have hge := le_roundDiv_liftOf hb Nat.one_pos (Nat.zero_lt_of_lt hk)
    rw [hexact]
    rw [twoTo_53] at hlt
    rw [twoTo_52] at hge ⊢
    omega

/-- **Whole numbers of one rank lie close together**, within one part in 2 ^ 52. -/
theorem close_of_nearestRank_eq (hab : a < b) (h : nearestRank a 1 = nearestRank b 1) :
    (b - a) * twoTo 52 ≤ a := by
  have hlarge : twoTo 53 ≤ a := Nat.le_of_not_lt fun hlt => (nearestRank_lt hab hlt).ne h
  have ha := Nat.lt_of_lt_of_le (twoTo_pos 53) hlarge
  have hb := Nat.zero_lt_of_lt hab
  have hleast := (liftOf_spec ha Nat.one_pos).2.resolve_left fun hzero => by
    have hsize := (liftOf_spec ha Nat.one_pos).1
    rw [hzero, twoTo_zero] at hsize
    have := Nat.le_mul_of_pos_right a (twoTo_pos 1074)
    omega
  have hle := roundDiv_liftOf_le ha Nat.one_pos
  have hge := le_roundDiv_liftOf hb Nat.one_pos
  have hlift := liftOf_mono ha Nat.one_pos hab.le
  have hlower := (roundDiv_bounds (a * twoTo 1074)
    (Nat.mul_pos Nat.one_pos (twoTo_pos (liftOf a 1)))).1
  have hupper := (roundDiv_bounds (b * twoTo 1074)
    (Nat.mul_pos Nat.one_pos (twoTo_pos (liftOf b 1)))).2
  rw [nearestRank_eq_add ha, nearestRank_eq_add hb] at h
  generalize roundDiv (a * twoTo 1074) _ = p at *
  generalize roundDiv (b * twoTo 1074) _ = q at *
  refine Nat.le_of_mul_le_mul_right ?_ (twoTo_pos 1074)
  rw [Nat.mul_right_comm, Nat.sub_mul]
  generalize a * twoTo 1074 = n at *
  generalize b * twoTo 1074 = m at *
  generalize liftOf a 1 = k at *
  generalize liftOf b 1 = k' at *
  rw [Nat.one_mul] at *
  rw [twoTo_52] at *
  rw [twoTo_53] at *
  rcases Nat.eq_or_lt_of_le hlift with he | hlt
  · -- the two are rounded to one significand, from half a place at most
    rw [← he] at h hupper
    obtain rfl := Nat.add_right_cancel h
    have hdiff : m - n ≤ twoTo k := by omega
    exact (Nat.mul_le_mul_right _ hdiff).trans hleast
  · -- the greater one is rounded down to a power of two and the smaller one up to it
    have hge := hge (Nat.zero_lt_of_lt hlt)
    obtain ⟨rfl, rfl, hnext⟩ : p = 9007199254740992 ∧ q = 4503599627370496 ∧ k' = k + 1 := by omega
    rw [hnext, twoTo_succ] at hupper
    have hdiff : 2 * (m - n) ≤ 3 * twoTo k := by omega
    linarith

/-! ### The order of the numbers of whole numbers -/

section
variable {a b : Int} {x y : Binary64}

/-- The number of a whole number has its sign, and the rank of its magnitude. -/
theorem eq_of_ofInt (h : ofInt? a = some x) :
    ∃ hr, x = .finite (decide (a < 0)) (nearestRank a.natAbs 1) hr := by
  by_cases hr : nearestRank a.natAbs 1 < rankBound
  · refine ⟨hr, ?_⟩
    rw [ofInt?, round, ofRank, dif_pos hr] at h
    exact (Option.some.inj h).symm
  · rw [ofInt?, round, ofRank, dif_neg hr] at h
    cases h

theorem nearestRank_pos (h : 0 < num) : 0 < nearestRank num 1 :=
  Nat.zero_lt_of_lt (nearestRank_lt h (twoTo_pos 53))

/-- **The numbers of two whole numbers stand in their order**, unless they are the same number. -/
theorem lt_ofInt_iff (ha : ofInt? a = some x) (hb : ofInt? b = some y) :
    x.lt y = true ↔ a < b ∧ x ≠ y := by
  obtain ⟨hr, rfl⟩ := eq_of_ofInt ha
  obtain ⟨hr', rfl⟩ := eq_of_ofInt hb
  have hmono {n m : Nat} (h : n ≤ m) : nearestRank n 1 ≤ nearestRank m 1 :=
    nearestRank_mono Nat.one_pos h
  unfold lt position?
  rcases lt_or_ge a 0 with hna | hna <;> rcases lt_or_ge b 0 with hnb | hnb
  · have hle := hmono (n := a.natAbs) (m := b.natAbs)
    have hge := hmono (n := b.natAbs) (m := a.natAbs)
    simp only [hna, hnb, decide_true, ↓reduceIte, neg_lt_neg_iff, Nat.cast_lt, decide_eq_true_eq,
      ne_eq, finite.injEq, true_and]
    omega
  · have hpos := nearestRank_pos (Int.natAbs_pos.mpr hna.ne)
    simp only [hna, hnb.not_gt, decide_true, decide_false, ↓reduceIte, Bool.false_eq_true,
      decide_eq_true_eq, ne_eq, finite.injEq, Bool.true_eq_false, false_and,
      not_false_eq_true, and_true]
    omega
  · have hpos := nearestRank_pos (Int.natAbs_pos.mpr hnb.ne)
    simp only [hna.not_gt, hnb, decide_true, decide_false, ↓reduceIte, Bool.false_eq_true,
      decide_eq_true_eq, ne_eq, finite.injEq, false_and, not_false_eq_true, and_true]
    omega
  · have hle := hmono (n := a.natAbs) (m := b.natAbs)
    have hge := hmono (n := b.natAbs) (m := a.natAbs)
    simp only [hna.not_gt, hnb.not_gt, decide_false, ↓reduceIte, Bool.false_eq_true, Nat.cast_lt,
      decide_eq_true_eq, ne_eq, finite.injEq, true_and]
    omega

/-- **Whole numbers that have the same number are 2 ^ 53 at least, and close together.** -/
theorem apart_of_ofInt_eq (ha : ofInt? a = some x) (hb : ofInt? b = some x) (hne : a ≠ b) :
    2 ^ 53 ≤ a.natAbs ∧ 2 ^ 53 ≤ b.natAbs ∧ (a - b).natAbs * 2 ^ 52 ≤ min a.natAbs b.natAbs := by
  obtain ⟨hr, rfl⟩ := eq_of_ofInt ha
  obtain ⟨hr', he⟩ := eq_of_ofInt hb
  rw [finite.injEq, decide_eq_decide] at he
  obtain ⟨hsign, hrank⟩ := he
  rcases Nat.lt_or_gt_of_ne (show a.natAbs ≠ b.natAbs by omega) with hlt | hlt
  · have hlarge : 2 ^ 53 ≤ a.natAbs := Nat.le_of_not_lt fun h => (nearestRank_lt hlt h).ne hrank
    have hclose : (b.natAbs - a.natAbs) * 2 ^ 52 ≤ a.natAbs := close_of_nearestRank_eq hlt hrank
    rw [show (a - b).natAbs = b.natAbs - a.natAbs by omega, Nat.min_eq_left hlt.le]
    exact ⟨hlarge, hlarge.trans hlt.le, hclose⟩
  · have hlarge : 2 ^ 53 ≤ b.natAbs := Nat.le_of_not_lt fun h =>
      (nearestRank_lt hlt h).ne hrank.symm
    have hclose : (a.natAbs - b.natAbs) * 2 ^ 52 ≤ b.natAbs :=
      close_of_nearestRank_eq hlt hrank.symm
    rw [show (a - b).natAbs = a.natAbs - b.natAbs by omega, Nat.min_eq_right hlt.le]
    exact ⟨hlarge.trans hlt.le, hlarge, hclose⟩

end

end Parley.Binary64
