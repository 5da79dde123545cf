import Parley.Number.Shortest
import Parley.Proofs.Number.Digits
import Parley.Proofs.Number.Rounding

/-!
# Shortest digits

The grid of 17 digits is finer than the interval of any rank (`grid_isFine`), so some grid that is
tried has a point in it.  Hence **the shortest digits lie in the interval of their rank**
(`denotes_shortest`), and are at most 17.
-/

namespace Parley.Binary64

open Number

/-! ### The two forms of an interval -/

/-- The powers of two that are split between both sides. -/
theorem exists_split (l : Nat) :
    ∃ c, 0 < c ∧ twoTo l = twoTo (l - 1076) * c ∧ twoTo 1076 = twoTo (1076 - l) * c := by
  rcases Nat.le_total l 1076 with h | h
  · refine ⟨twoTo l, twoTo_pos l, ?_, ?_⟩ <;> rw [← twoTo_add] <;> congr 1 <;> omega
  · refine ⟨twoTo 1076, twoTo_pos _, ?_, ?_⟩ <;> rw [← twoTo_add] <;> congr 1 <;> omega

theorem denotes_of_holds {r digits : Nat} {exp10 : Int}
    (h : (interval r).holds digits exp10 = true) :
    Denotes r digits exp10 := by
  obtain ⟨c, hc, hl, hs⟩ := exists_split (lift r)
  -- the interval is kept over a smaller scale, which `c` makes up for
  have hlow : (4 * mantissa r - below r) * (tenTo (-exp10).toNat * twoTo (lift r)) =
      (interval r).low * tenTo (-exp10).toNat * c := by
    rw [hl]
    change _ = (4 * mantissa r - below r) * twoTo (lift r - 1076) * _ * c
    ring
  have hhigh : (4 * mantissa r + 2) * (tenTo (-exp10).toNat * twoTo (lift r)) =
      (interval r).high * tenTo (-exp10).toNat * c := by
    rw [hl]
    change _ = (4 * mantissa r + 2) * twoTo (lift r - 1076) * _ * c
    ring
  have hpoint : digits * tenTo exp10.toNat * twoTo 1076 =
      digits * tenTo exp10.toNat * (interval r).scale * c := by
    rw [hs]
    exact (Nat.mul_assoc ..).symm
  unfold Interval.holds at h
  dsimp only at h
  split at h
  · next hclosed =>
    have heven : mantissa r % 2 = 0 := of_decide_eq_true hclosed
    obtain ⟨h₁, h₂⟩ := Bool.and_eq_true_iff.mp h
    exact ⟨by rw [hlow, hpoint]; exact Nat.mul_le_mul_right c (of_decide_eq_true h₁),
      by rw [hhigh, hpoint]; exact Nat.mul_le_mul_right c (of_decide_eq_true h₂), .inl heven⟩
  · obtain ⟨h₁, h₂⟩ := Bool.and_eq_true_iff.mp h
    have hlt₁ : (4 * mantissa r - below r) * (tenTo (-exp10).toNat * twoTo (lift r)) <
        digits * tenTo exp10.toNat * twoTo 1076 := by
      rw [hlow, hpoint]
      exact Nat.mul_lt_mul_of_pos_right (of_decide_eq_true h₁) hc
    have hlt₂ : digits * tenTo exp10.toNat * twoTo 1076 <
        (4 * mantissa r + 2) * (tenTo (-exp10).toNat * twoTo (lift r)) := by
      rw [hhigh, hpoint]
      exact Nat.mul_lt_mul_of_pos_right (of_decide_eq_true h₂) hc
    exact ⟨hlt₁.le, hlt₂.le, .inr ⟨hlt₁, hlt₂⟩⟩

/-! ### Points of a grid -/

namespace Interval

variable {i : Interval} {exp10 : Int} {digits : Nat}

/-- The digits that are found lie in the interval, next to its value or above. -/
theorem point?_spec (h : i.point? exp10 = some digits) : i.holds digits exp10 = true ∧
    digits ≤ i.value * tenTo (-exp10).toNat / (i.scale * tenTo exp10.toNat) + 1 := by
  unfold point? at h
  dsimp only at h
  split at h
  · next h₁ h₂ =>
    obtain rfl := Option.some.inj h
    unfold roundDiv
    dsimp only
    split
    · exact ⟨h₁, Nat.le_succ _⟩
    · split
      · exact ⟨h₂, le_rfl⟩
      · split
        · exact ⟨h₁, Nat.le_succ _⟩
        · exact ⟨h₂, le_rfl⟩
  · next h₁ _ =>
    obtain rfl := Option.some.inj h
    exact ⟨h₁, Nat.le_succ _⟩
  · next _ h₂ =>
    obtain rfl := Option.some.inj h
    exact ⟨h₂, le_rfl⟩
  · cases h

theorem holds_of_lt (hlow : i.low * tenTo (-exp10).toNat < digits * tenTo exp10.toNat * i.scale)
    (hhigh : digits * tenTo exp10.toNat * i.scale < i.high * tenTo (-exp10).toNat) :
    i.holds digits exp10 = true := by
  unfold holds
  split <;> simp [hlow, hhigh, hlow.le, hhigh.le]

/-- A grid that is finer than the interval has a point in it. -/
theorem exists_point? (hscale : 0 < i.scale) (hlow : i.low < i.value) (hhigh : i.value < i.high)
    (hfine : i.scale * tenTo exp10.toNat < (i.high - i.low) * tenTo (-exp10).toNat) :
    ∃ digits, i.point? exp10 = some digits := by
  have hunit := tenTo_pos (-exp10).toNat
  have hstep : 0 < i.scale * tenTo exp10.toNat := Nat.mul_pos hscale (tenTo_pos _)
  have hfloor := Nat.div_add_mod (i.value * tenTo (-exp10).toNat) (i.scale * tenTo exp10.toNat)
  have hrest := Nat.mod_lt (i.value * tenTo (-exp10).toNat) hstep
  have hlow' := Nat.mul_lt_mul_of_pos_right hlow hunit
  have hhigh' := Nat.mul_lt_mul_of_pos_right hhigh hunit
  rw [Nat.sub_mul] at hfine
  unfold point?
  dsimp only
  generalize i.value * tenTo (-exp10).toNat / (i.scale * tenTo exp10.toNat) = q at *
  have hpoint (d : Nat) :
    d * tenTo exp10.toNat * i.scale = i.scale * tenTo exp10.toNat * d := by ring
  by_cases hq : i.low * tenTo (-exp10).toNat < i.scale * tenTo exp10.toNat * q
  · have hholds : i.holds q exp10 = true := holds_of_lt (by rwa [hpoint]) (by rw [hpoint]; omega)
    rw [hholds]
    cases i.holds (q + 1) exp10 <;> exact ⟨_, rfl⟩
  · have hholds : i.holds (q + 1) exp10 = true := by
      refine holds_of_lt ?_ ?_ <;> rw [hpoint, Nat.mul_succ] <;> omega
    rw [hholds]
    cases i.holds q exp10 <;> exact ⟨_, rfl⟩

/-- The value has so many digits before the point as its magnitude tells. -/
theorem magnitude_spec (hvalue : i.scale ≤ i.value * tenTo 350) (hscale : 0 < i.scale) :
    ∃ len : Nat, i.magnitude = len - 350 ∧ 0 < len ∧
      tenTo (len - 1) * i.scale ≤ i.value * tenTo 350 ∧
      i.value * tenTo 350 < tenTo len * i.scale := by
  have hmagnitude : i.magnitude =
    ((Nat.toDigits 10 (i.value * tenTo 350 / i.scale)).length : Int) - 350 := rfl
  have hpos : 0 < (Nat.toDigits 10 (i.value * tenTo 350 / i.scale)).length :=
    List.length_pos_iff.mpr Nat.toDigits_ne_nil
  refine ⟨_, hmagnitude, hpos, ?_, ?_⟩
  · rw [← Nat.le_div_iff_mul_le hscale]
    by_contra hlt
    rcases Nat.eq_zero_or_pos ((Nat.toDigits 10 (i.value * tenTo 350 / i.scale)).length - 1)
      with hzero | hmore
    · rw [hzero, tenTo_zero] at hlt
      exact hlt ((Nat.one_le_div_iff hscale).mpr hvalue)
    · have := (length_toDigits_le hmore).mpr (Nat.lt_of_not_le hlt)
      omega
  · rw [← Nat.div_lt_iff_lt_mul hscale]
    exact (length_toDigits_le hpos).mp le_rfl

/-- A grid of so many digits has no more digits up to the value. -/
theorem div_lt_tenTo (hvalue : i.scale ≤ i.value * tenTo 350) (hscale : 0 < i.scale) {places : Nat}
    (hexp : exp10 = i.magnitude - places) :
    i.value * tenTo (-exp10).toNat / (i.scale * tenTo exp10.toNat) < tenTo places := by
  obtain ⟨len, hmagnitude, -, -, hlen⟩ := magnitude_spec hvalue hscale
  rw [Nat.div_lt_iff_lt_mul (Nat.mul_pos hscale (tenTo_pos _))]
  refine Nat.lt_of_mul_lt_mul_right (a := tenTo 350) ?_
  calc i.value * tenTo (-exp10).toNat * tenTo 350 = i.value * tenTo 350 * tenTo (-exp10).toNat :=
    Nat.mul_right_comm ..
    _ < tenTo len * i.scale * tenTo (-exp10).toNat := Nat.mul_lt_mul_of_pos_right hlen (tenTo_pos _)
    _ = i.scale * (tenTo len * tenTo (-exp10).toNat) := by ring
    _ = i.scale * (tenTo places * tenTo exp10.toNat * tenTo 350) := by
      rw [← tenTo_add, ← tenTo_add, ← tenTo_add]
      congr 2
      omega
    _ = tenTo places * (i.scale * tenTo exp10.toNat) * tenTo 350 := by ring

end Interval

/-! ### The interval of a rank -/

section

variable {r : Nat}

theorem scale_pos (r : Nat) : 0 < (interval r).scale := twoTo_pos _

theorem low_lt_value (hr : 0 < r) : (interval r).low < (interval r).value := by
  have hm := mantissa_pos hr
  have hbelow := below_cases r
  change (4 * mantissa r - below r) * twoTo (lift r - 1076) < 4 * mantissa r * twoTo (lift r - 1076)
  exact Nat.mul_lt_mul_of_pos_right (by omega) (twoTo_pos _)

theorem value_lt_high (r : Nat) : (interval r).value < (interval r).high := by
  change 4 * mantissa r * twoTo (lift r - 1076) < (4 * mantissa r + 2) * twoTo (lift r - 1076)
  exact Nat.mul_lt_mul_of_pos_right (by omega) (twoTo_pos _)

theorem scale_le_value (hr : 0 < r) : (interval r).scale ≤ (interval r).value * tenTo 350 :=
  calc twoTo (1076 - lift r) ≤ twoTo 1076 := twoTo_le (Nat.sub_le ..)
    _ ≤ tenTo 350 := by decide +kernel
    _ ≤ (interval r).value * tenTo 350 :=
      Nat.le_mul_of_pos_left _
        (Nat.mul_pos (Nat.mul_pos (by decide) (mantissa_pos hr)) (twoTo_pos _))

/-- The grid of 17 digits is finer than the interval. -/
theorem grid_isFine (hr : 0 < r) {exp10 : Int} (hexp : exp10 = (interval r).magnitude - 17) :
    (interval r).scale * tenTo exp10.toNat < ((interval r).high - (interval r).low) * tenTo
    (-exp10).toNat := by
  obtain ⟨len, hmagnitude, hlen, hbound, -⟩ :=
    Interval.magnitude_spec (scale_le_value hr) (scale_pos r)
  have hm := mantissa_lt r
  have hbelow := below_cases r
  have hwidth : (interval r).high - (interval r).low = (2 + below r) * twoTo (lift r - 1076) := by
    change (4 * mantissa r + 2) * twoTo (lift r - 1076) - (4 * mantissa r - below r) * twoTo
      (lift r - 1076) = _
    rw [← Nat.sub_mul]
    congr 1
    have := mantissa_pos hr
    omega
  -- the last place is more than ten to the power of -16 of the value
  have hplace : 4 * mantissa r < (2 + below r) * tenTo 16 := by
    rw [show tenTo 16 = 10000000000000000 from rfl]
    rw [twoTo_53] at hm
    rcases hbelow with ⟨hb, hpower⟩ | hb
    · rw [hb, hpower, twoTo_52]
      decide
    · rw [hb]
      omega
  rw [hwidth]
  refine Nat.lt_of_mul_lt_mul_right (a := tenTo 366) ?_
  calc (interval r).scale * tenTo exp10.toNat * tenTo 366
      = tenTo (len - 1) * (interval r).scale * tenTo (-exp10).toNat := by
        have hexp' : tenTo exp10.toNat * tenTo 366 = tenTo (len - 1) * tenTo (-exp10).toNat := by
          rw [← tenTo_add, ← tenTo_add]
          exact congrArg tenTo (by omega)
        rw [Nat.mul_assoc, hexp']
        ring
    _ ≤ (interval r).value * tenTo 350 * tenTo (-exp10).toNat := Nat.mul_le_mul_right _ hbound
    _ = 4 * mantissa r * (twoTo (lift r - 1076) * tenTo 350 * tenTo (-exp10).toNat) := by
        change 4 * mantissa r * twoTo (lift r - 1076) * _ * _ = _
        ring
    _ < (2 + below r) * tenTo 16 * (twoTo (lift r - 1076) * tenTo 350 * tenTo (-exp10).toNat) :=
        Nat.mul_lt_mul_of_pos_right hplace
          (Nat.mul_pos (Nat.mul_pos (twoTo_pos _) (tenTo_pos _)) (tenTo_pos _))
    _ = (2 + below r) * twoTo (lift r - 1076) * tenTo (-exp10).toNat * tenTo 366 := by
        rw [show 366 = 16 + 350 from rfl, tenTo_add]
        ring

/-- The search ends with digits in the interval. -/
theorem search_spec (hr : 0 < r) {places fuel : Nat} (hsum : places + fuel = 17) :
    (interval r).holds ((interval r).search places (fuel + 1)).1
    ((interval r).search places (fuel + 1)).2 = true ∧
      ((interval r).search places (fuel + 1)).1 ≤ tenTo 17 := by
  have hfound {exp10 : Int} {digits places : Nat} (h : (interval r).point? exp10 = some digits)
      (hexp : exp10 = (interval r).magnitude - places) (hplaces : places ≤ 17) :
      (interval r).holds digits exp10 = true ∧ digits ≤ tenTo 17 := by
    obtain ⟨hholds, hle⟩ := Interval.point?_spec h
    have hlt := Interval.div_lt_tenTo (scale_le_value hr) (scale_pos r) hexp
    exact ⟨hholds, (hle.trans hlt).trans (tenTo_le hplaces)⟩
  induction fuel generalizing places with
  | zero =>
      obtain rfl : places = 17 := hsum
      obtain ⟨digits, hdigits⟩ := Interval.exists_point? (scale_pos r) (low_lt_value hr)
        (value_lt_high r)
        (grid_isFine hr rfl)
      rw [Interval.search]
      rw [show ((17 : Nat) : Int) = 17 from rfl, hdigits]
      exact hfound hdigits rfl le_rfl
  | succ fuel ih =>
      rw [Interval.search]
      cases hpoint : (interval r).point? ((interval r).magnitude - places) with
      | some digits => exact hfound hpoint rfl (by omega)
      | none => exact ih (by omega)

/-- **The shortest digits lie in the interval of their rank**, and are at most 17. -/
theorem denotes_shortest (hr : 0 < r) :
    Denotes r (shortest r).1 (shortest r).2 ∧ (shortest r).1 ≤ tenTo 17 := by
  obtain ⟨hholds, hle⟩ := @search_spec r hr 1 16 rfl
  exact ⟨denotes_of_holds hholds, hle⟩

end

end Parley.Binary64
