import Mathlib.Tactic.Linarith
import Mathlib.Tactic.Ring
import Parley.Number.Binary64

/-!
# What rounds to a number

Every rank has an interval of quotients around its magnitude, up to halfway to the ranks next to it
(`Nearby`); below a power of two it reaches half as far, and its ends belong to it when the
significand is even.  **What lies in the interval rounds to the rank** (`nearestRank_eq`), so a
decimal number in it is read as the number of that rank (`ofDecimal_eq`).
-/

namespace Parley.Binary64

open Number

/-! ### Rounding a quotient -/

/-- A quotient that lies halfway at most from a whole number rounds to it; an even one takes both
ends. -/
theorem roundDiv_eq {num den n : Nat} (hlo : 2 * (n * den) ≤ 2 * num + den)
    (hhi : 2 * num ≤ 2 * (n * den) + den)
    (htie : n % 2 = 0 ∨ 2 * (n * den) < 2 * num + den ∧ 2 * num < 2 * (n * den) + den)
    (hden : 0 < den) :
    roundDiv num den = n := by
  have hsplit := Nat.div_add_mod num den
  have hmod := Nat.mod_lt num hden
  have hle : num / den ≤ n := by
    by_contra hlt
    have := Nat.mul_le_mul_left den (Nat.succ_le_of_lt (Nat.lt_of_not_le hlt))
    rw [Nat.mul_succ, Nat.mul_comm den n] at this
    omega
  have hge : n ≤ num / den + 1 := by
    by_contra hlt
    have := Nat.mul_le_mul_left den (Nat.succ_le_of_lt (Nat.lt_of_not_le hlt))
    rw [Nat.mul_succ, Nat.mul_succ, Nat.mul_comm den n] at this
    omega
  unfold roundDiv
  dsimp only
  -- only the quotient and its successor are near enough; the remainder tells which
  obtain he | he : n = num / den ∨ n = num / den + 1 := by omega
  · have hmul : n * den = den * (num / den) := by rw [he, Nat.mul_comm]
    split
    · exact he.symm
    · split
      · omega
      · split
        · exact he.symm
        · omega
  · have hmul : n * den = den * (num / den) + den := by rw [he, Nat.mul_comm, Nat.mul_succ]
    split
    · omega
    · split
      · exact he.symm
      · split
        · omega
        · exact he.symm

/-- The exponent at which a quotient has 53 bits, or fewer if it is the least one. -/
theorem liftOf_spec {num den : Nat} (hnum : 0 < num) (hden : 0 < den) :
    num * twoTo 1074 < den * twoTo (liftOf num den) * twoTo 53 ∧
      (liftOf num den = 0 ∨ den * twoTo (liftOf num den) * twoTo 52 ≤ num * twoTo 1074) := by
  have hnum₁ : twoTo num.log2 ≤ num := Nat.log2_self_le hnum.ne'
  have hnum₂ : num < twoTo (num.log2 + 1) := Nat.lt_log2_self
  have hden₁ : twoTo den.log2 ≤ den := Nat.log2_self_le hden.ne'
  have hden₂ : den < twoTo (den.log2 + 1) := Nat.lt_log2_self
  -- the lengths of the terms bound the quotient from both sides
  have hbelow {k : Nat} (h : num.log2 + 1075 ≤ den.log2 + k + 53) :
      num * twoTo 1074 < den * twoTo k * twoTo 53 :=
    calc num * twoTo 1074 < twoTo (num.log2 + 1) * twoTo 1074 :=
      Nat.mul_lt_mul_of_pos_right hnum₂ (twoTo_pos _)
      _ = twoTo (num.log2 + 1 + 1074) := (twoTo_add _ _).symm
      _ ≤ twoTo (den.log2 + k + 53) := twoTo_le h
      _ = twoTo den.log2 * twoTo k * twoTo 53 := by rw [twoTo_add, twoTo_add]
      _ ≤ den * twoTo k * twoTo 53 := Nat.mul_le_mul_right _ (Nat.mul_le_mul_right _ hden₁)
  have habove {k : Nat} (h : den.log2 + 1 + k + 52 ≤ num.log2 + 1074) :
      den * twoTo k * twoTo 52 ≤ num * twoTo 1074 :=
    calc den * twoTo k * twoTo 52 ≤ twoTo (den.log2 + 1) * twoTo k * twoTo 52 :=
          Nat.mul_le_mul_right _ (Nat.mul_le_mul_right _ hden₂.le)
      _ = twoTo (den.log2 + 1 + k + 52) := by rw [twoTo_add (_ + k), twoTo_add _ k]
      _ ≤ twoTo (num.log2 + 1074) := twoTo_le h
      _ = twoTo num.log2 * twoTo 1074 := twoTo_add _ _
      _ ≤ num * twoTo 1074 := Nat.mul_le_mul_right _ hnum₁
  have hpos (k : Nat) : 0 < den * twoTo k := Nat.mul_pos hden (twoTo_pos k)
  obtain ⟨k, hk⟩ : ∃ k, k = ((num.log2 : Int) - den.log2 - 52 + 1074).toNat := ⟨_, rfl⟩
  have hlift : liftOf num den =
      if num * twoTo 1074 / (den * twoTo k) < twoTo 52 then k - 1 else k := by rw [hk]; rfl
  rw [hlift]
  split
  · next hsmall =>
    have hsmall : num * twoTo 1074 < den * twoTo k * twoTo 52 := by
      rwa [Nat.div_lt_iff_lt_mul (hpos k), Nat.mul_comm (twoTo 52)] at hsmall
    cases k with
    | zero =>
        refine ⟨hsmall.trans_le (Nat.mul_le_mul_left _ (twoTo_le (by decide))), .inl rfl⟩
    | succ k =>
        rw [Nat.add_sub_cancel]
        refine ⟨hsmall.trans_le (le_of_eq ?_), .inr (habove (by omega))⟩
        rw [twoTo_succ, twoTo_succ 52]
        ring
  · next hlarge =>
    refine ⟨hbelow (by omega), .inr ?_⟩
    rwa [not_lt, Nat.le_div_iff_mul_le (hpos k), Nat.mul_comm (twoTo 52)] at hlarge

/-! ### The interval of a rank -/

theorem twoTo_52 : twoTo 52 = 4503599627370496 := rfl

theorem twoTo_53 : twoTo 53 = 9007199254740992 := rfl

theorem mantissa_lt (r : Nat) : mantissa r < twoTo 53 := by
  rw [mantissa, twoTo_52, twoTo_53]
  split <;> omega

theorem le_mantissa {r : Nat} (h : 0 < lift r) : twoTo 52 ≤ mantissa r := by
  rw [lift, twoTo_52] at h
  rw [mantissa, twoTo_52]
  split <;> omega

/-- A rank is its mantissa and its lift. -/
theorem mantissa_add_lift (r : Nat) : mantissa r + lift r * twoTo 52 = r := by
  rw [mantissa, lift, twoTo_52]
  split <;> omega

theorem mantissa_pos {r : Nat} (h : 0 < r) : 0 < mantissa r := by
  rw [mantissa, twoTo_52]
  split <;> omega

/-- How far the interval of a rank reaches below its magnitude, in quarters of the last place. -/
def below (r : Nat) : Nat := if mantissa r = twoTo 52 ∧ 0 < lift r then 1 else 2

/-- The quotient lies in the interval of the rank. -/
structure Nearby (r num den : Nat) : Prop where
  low : (4 * mantissa r - below r) * (den * twoTo (lift r)) ≤ num * twoTo 1076
  high : num * twoTo 1076 ≤ (4 * mantissa r + 2) * (den * twoTo (lift r))
  /-- An odd significand leaves the ends to its neighbours. -/
  tie : mantissa r % 2 = 0 ∨ (4 * mantissa r - below r) * (den * twoTo (lift r)) <
    num * twoTo 1076 ∧
    num * twoTo 1076 < (4 * mantissa r + 2) * (den * twoTo (lift r))

/-- The gap below a number is half as wide at the powers of two. -/
theorem below_cases (r : Nat) : below r = 1 ∧ mantissa r = twoTo 52 ∨ below r = 2 := by
  unfold below
  split
  · next h => exact .inl ⟨rfl, h.1⟩
  · exact .inr rfl

/-- A number that is not zero is near no zero. -/
theorem Nearby.num_pos {r num den : Nat} (h : Nearby r num den) (hr : 0 < r) (hden : 0 < den) :
    0 < num := by
  have hm := mantissa_pos hr
  have hbelow := below_cases r
  have hend := Nat.mul_pos (show 0 < 4 * mantissa r - below r by omega)
    (Nat.mul_pos hden (twoTo_pos (lift r)))
  exact Nat.pos_of_mul_pos_right (Nat.lt_of_lt_of_le hend h.low)

theorem mul_twoTo_1076 (num : Nat) : num * twoTo 1076 = 4 * (num * twoTo 1074) := by
  rw [twoTo_succ, twoTo_succ]
  ring

/-- What lies in the interval of a rank is rounded at the exponent of the rank.  Only below a power
of two there is a place more. -/
theorem Nearby.liftOf_cases {r num den : Nat} (h : Nearby r num den) (hr : 0 < r) (hden : 0 < den) :
    liftOf num den = lift r ∨ lift r = liftOf num den + 1 ∧ mantissa r = twoTo 52 := by
  obtain ⟨hsize, hleast⟩ := liftOf_spec (h.num_pos hr hden) hden
  obtain ⟨hlow, hhigh, -⟩ := h
  have hlt := mantissa_lt r
  have hu : 0 < den * twoTo (lift r) := Nat.mul_pos hden (twoTo_pos _)
  rw [mul_twoTo_1076] at hlow hhigh
  rw [Nat.sub_mul, Nat.mul_assoc] at hlow
  rw [Nat.add_mul, Nat.mul_assoc] at hhigh
  generalize num * twoTo 1074 = n at *
  generalize liftOf num den = k at *
  rcases Nat.lt_trichotomy k (lift r) with hk | rfl | hk
  -- the quotient is too great for as few places, unless it is next to a power of two
  · refine .inr (by_contra fun hne => ?_)
    obtain ⟨j, hj⟩ := Nat.exists_eq_add_of_lt hk
    have hmin := le_mantissa (Nat.zero_lt_of_lt hk)
    have hplaces : den * twoTo (lift r) = 2 * (den * twoTo k * twoTo j) := by
      rw [hj, twoTo_succ, twoTo_add]
      ring
    have hv := Nat.le_mul_of_pos_right (den * twoTo k) (twoTo_pos j)
    rw [hplaces] at hlow
    rw [twoTo_53] at hsize
    -- below a power of two the neighbours lie at half the distance
    by_cases hpower : mantissa r = twoTo 52
    · rw [show below r = 1 from if_pos ⟨hpower, Nat.zero_lt_of_lt hk⟩, hpower, twoTo_52] at hlow
      obtain ⟨i, rfl⟩ : ∃ i, j = i + 1 := ⟨j - 1, by omega⟩
      have htwice : den * twoTo k * twoTo (i + 1) = 2 * (den * twoTo k * twoTo i) := by
        rw [twoTo_succ]
        ring
      have hv := Nat.le_mul_of_pos_right (den * twoTo k) (twoTo_pos i)
      rw [htwice] at hlow
      omega
    · rw [show below r = 2 from if_neg fun h => hpower h.1] at hlow
      have := Nat.mul_le_mul_right (2 * (den * twoTo k * twoTo j))
        (Nat.succ_le_of_lt (Nat.lt_of_le_of_ne hmin (Ne.symm hpower)))
      rw [twoTo_52] at this
      omega
  · exact .inl rfl
  · -- the quotient is too small for more places
    obtain ⟨j, rfl⟩ := Nat.exists_eq_add_of_lt hk
    have hleast := hleast.resolve_left (Nat.succ_ne_zero _)
    have hplaces : den * twoTo (lift r + j + 1) * twoTo 52 =
        den * twoTo (lift r) * twoTo 53 * twoTo j := by
      rw [twoTo_succ, twoTo_succ 52, twoTo_add]
      ring
    have := Nat.le_mul_of_pos_right (den * twoTo (lift r) * twoTo 53) (twoTo_pos j)
    have := Nat.mul_le_mul_right (den * twoTo (lift r)) (Nat.le_sub_one_of_lt hlt)
    rw [twoTo_53] at *
    omega

/-- At the exponent of the rank the quotient rounds to its significand. -/
theorem Nearby.roundDiv_eq {r num den : Nat} (h : Nearby r num den) (hr : 0 < r) (hden : 0 < den) :
    roundDiv (num * twoTo 1074) (den * twoTo (lift r)) = mantissa r := by
  obtain ⟨hlow, hhigh, htie⟩ := h
  have hm := mantissa_pos hr
  have hbelow := below_cases r
  rw [mul_twoTo_1076] at hlow hhigh htie
  rw [Nat.sub_mul, Nat.mul_assoc] at hlow htie
  rw [Nat.add_mul, Nat.mul_assoc] at hhigh htie
  refine Binary64.roundDiv_eq ?_ ?_ ?_ (Nat.mul_pos hden (twoTo_pos _))
  · rcases hbelow with ⟨hb, -⟩ | hb <;> rw [hb] at hlow <;> omega
  · omega
  · rcases htie with heven | ⟨hlow, hhigh⟩
    · exact .inl heven
    · rcases hbelow with ⟨-, hb⟩ | hb
      · exact .inl (hb ▸ rfl)
      · rw [hb] at hlow
        exact .inr ⟨by omega, by omega⟩

/-- Below a power of two the quotient has a place more, and rounds up. -/
theorem Nearby.roundDiv_power {r k num den : Nat} (h : Nearby r num den) (hden : 0 < den)
    (hk : lift r = k + 1) (hpower : mantissa r = twoTo 52)
    (hsize : num * twoTo 1074 < den * twoTo k * twoTo 53) :
    roundDiv (num * twoTo 1074) (den * twoTo k) = twoTo 53 := by
  have hlow := h.low
  have hplaces : den * twoTo (k + 1) = 2 * (den * twoTo k) := by
    rw [twoTo_succ]
    exact Nat.mul_left_comm ..
  rw [show below r = 1 from if_pos ⟨hpower, hk ▸ Nat.succ_pos k⟩, hpower, hk, hplaces,
    mul_twoTo_1076, twoTo_52] at hlow
  rw [twoTo_53] at hsize ⊢
  exact Binary64.roundDiv_eq (by omega) (by omega) (.inl rfl) (Nat.mul_pos hden (twoTo_pos k))

/-- **What lies in the interval of a rank rounds to it.** -/
theorem nearestRank_eq {r num den : Nat} (hr : 0 < r) (hden : 0 < den) (h : Nearby r num den) :
    nearestRank num den = r := by
  have hnum := h.num_pos hr hden
  have hsum := mantissa_add_lift r
  rw [nearestRank, if_neg hnum.ne']
  dsimp only
  rcases h.liftOf_cases hr hden with hk | ⟨hk, hpower⟩
  · rw [hk, h.roundDiv_eq hr hden, hsum]
  · rw [h.roundDiv_power hden hk hpower (liftOf_spec hnum hden).1, ← hsum, hpower, hk,
      twoTo_53, twoTo_52]
    ring

/-! ### Decimal numbers -/

/-- Whether a quotient lies in an interval does not depend on its terms. -/
theorem Nearby.of_ratio {r num den num' den' : Nat} (h : Nearby r num den) (hden : 0 < den)
    (hden' : 0 < den') (he : num' * den = num * den') : Nearby r num' den' := by
  have hnum (c : Nat) : num' * c * den = num * c * den' := by
    rw [Nat.mul_right_comm, he, Nat.mul_right_comm]
  have hbound (a c : Nat) : a * (den' * c) * den = a * (den * c) * den' := by ring
  refine ⟨?_, ?_, h.tie.imp_right fun ⟨hlow, hhigh⟩ => ⟨?_, ?_⟩⟩
  · refine Nat.le_of_mul_le_mul_right ?_ hden
    rw [hnum, hbound]
    exact Nat.mul_le_mul_right _ h.low
  · refine Nat.le_of_mul_le_mul_right ?_ hden
    rw [hnum, hbound]
    exact Nat.mul_le_mul_right _ h.high
  · refine Nat.lt_of_mul_lt_mul_right (a := den) ?_
    rw [hnum, hbound]
    exact Nat.mul_lt_mul_of_pos_right hlow hden'
  · refine Nat.lt_of_mul_lt_mul_right (a := den) ?_
    rw [hnum, hbound]
    exact Nat.mul_lt_mul_of_pos_right hhigh hden'

/-- The decimal number `digits · 10 ^ exp10` lies in the interval of the rank. -/
def Denotes (r digits : Nat) (exp10 : Int) : Prop :=
  Nearby r (digits * tenTo exp10.toNat) (tenTo (-exp10).toNat)

theorem Denotes.pos {r digits : Nat} {exp10 : Int} (h : Denotes r digits exp10) (hr : 0 < r) :
    0 < digits :=
  Nat.pos_of_mul_pos_right (h.num_pos hr (tenTo_pos _))

/-- Zeros at the end count as places. -/
theorem denotes_zeros {r digits zeros : Nat} {exp10 : Int} :
    Denotes r (digits * tenTo zeros) exp10 ↔ Denotes r digits (exp10 + zeros) := by
  have he : digits * tenTo zeros * tenTo exp10.toNat * tenTo (-(exp10 + zeros)).toNat =
      digits * tenTo (exp10 + zeros).toNat * tenTo (-exp10).toNat := by
    rw [Nat.mul_assoc, Nat.mul_assoc, Nat.mul_assoc, ← tenTo_add, ← tenTo_add, ← tenTo_add]
    congr 2
    omega
  exact ⟨fun h => h.of_ratio (tenTo_pos _) (tenTo_pos _) he.symm,
    fun h => h.of_ratio (tenTo_pos _) (tenTo_pos _) he⟩

/-- The lift of a finite number is bounded. -/
theorem lift_lt {r : Nat} (h : r < rankBound) : lift r ≤ 2045 := by
  rw [rankBound, twoTo_52] at h
  rw [lift, twoTo_52]
  omega

/-- The exponent of a decimal number of 18 digits that lies in the interval of a finite rank. -/
theorem Denotes.bounds {r digits : Nat} {exp10 : Int} (h : Denotes r digits exp10) (hr : 0 < r)
    (hfinite : r < rankBound) (hdigits : digits < tenTo 18) : -342 < exp10 ∧ exp10 < 309 := by
  have hpos := h.pos hr
  have hm := mantissa_pos hr
  have hbelow := below_cases r
  constructor
  -- with a smaller exponent the digits stay below the least magnitude
  · by_contra hle
    have : tenTo 342 < tenTo 342 :=
      calc tenTo 342 ≤ tenTo (-exp10).toNat := tenTo_le (by omega)
        _ ≤ tenTo (-exp10).toNat * twoTo (lift r) := Nat.le_mul_of_pos_right _ (twoTo_pos _)
        _ ≤ (4 * mantissa r - below r) * (tenTo (-exp10).toNat * twoTo (lift r)) :=
          Nat.le_mul_of_pos_left _ (by omega)
        _ ≤ digits * tenTo exp10.toNat * twoTo 1076 := h.low
        _ = digits * twoTo 1076 := by rw [show exp10.toNat = 0 by omega, tenTo_zero, Nat.mul_one]
        _ < tenTo 18 * twoTo 1076 := Nat.mul_lt_mul_of_pos_right hdigits (twoTo_pos _)
        _ ≤ tenTo 342 := by decide +kernel
    exact Nat.lt_irrefl _ this
  -- with a greater exponent they come out above every finite magnitude
  · by_contra hle
    have hlt := mantissa_lt r
    have hlift := lift_lt hfinite
    rw [twoTo_53] at hlt
    have : tenTo 309 * twoTo 1076 < tenTo 309 * twoTo 1076 :=
      calc tenTo 309 * twoTo 1076 ≤ tenTo exp10.toNat * twoTo 1076 :=
        Nat.mul_le_mul_right _ (tenTo_le (by omega))
        _ ≤ digits * tenTo exp10.toNat * twoTo 1076 :=
          Nat.mul_le_mul_right _ (Nat.le_mul_of_pos_left _ hpos)
        _ ≤ (4 * mantissa r + 2) * (tenTo (-exp10).toNat * twoTo (lift r)) := h.high
        _ ≤ twoTo 55 * (tenTo (-exp10).toNat * twoTo (lift r)) := Nat.mul_le_mul_right _ (by
          rw [show twoTo 55 = 36028797018963968 from rfl]
          omega)
        _ = twoTo 55 * twoTo (lift r) := by
          rw [show (-exp10).toNat = 0 by omega, tenTo_zero, Nat.one_mul]
        _ ≤ twoTo 55 * twoTo 2045 := Nat.mul_le_mul_left _ (twoTo_le hlift)
        _ < tenTo 309 * twoTo 1076 := by decide +kernel
    exact Nat.lt_irrefl _ this

/-- **A decimal number in the interval of a rank is read as the number of that rank.** -/
theorem ofDecimal_eq {r digits : Nat} {exp10 : Int} (h : Denotes r digits exp10) (hr : 0 < r)
    (hfinite : r < rankBound) (hdigits : digits < tenTo 18) (negative : Bool) :
    ofDecimal negative digits exp10 = ofRank negative r := by
  have hpos := h.pos hr
  have hbounds := h.bounds hr hfinite hdigits
  have hlog : Nat.log2 digits < 60 := (Nat.log2_lt hpos.ne').mpr (hdigits.trans (by decide +kernel))
  have hround := nearestRank_eq hr (tenTo_pos _) h
  rw [ofDecimal, if_neg hpos.ne']
  dsimp only
  rw [if_neg (by omega), if_neg (by omega)]
  split
  · next hexp =>
    rw [show (-exp10).toNat = 0 by omega] at hround
    exact congrArg (ofRank negative) hround
  · next hexp =>
    rw [show exp10.toNat = 0 by omega, tenTo_zero, Nat.mul_one] at hround
    exact congrArg (ofRank negative) hround

end Parley.Binary64
