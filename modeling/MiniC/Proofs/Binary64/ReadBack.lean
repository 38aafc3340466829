import MiniC.Binary64.Shortest

/-!
# Digits that read back

The digits that a finite number is written with are read back as that number
(`Binary64.decimalMagnitude_shortest`). Most of this holds by the choice of the digits, which are
tried until some read back. What has to be shown is that the last candidate, the exact value, reads
back (`Binary64.decimalMagnitude_exactDecimal`): its quotient is a whole number of steps, and
nothing is rounded.

Rounding a quotient depends on its value only (`Binary64.nearestMagnitude_mul`), so digits may be
followed by more zeros behind the point.
-/

namespace MiniC.Binary64

-- Powers of natural numbers are those of the core library, whatever else is in scope.
attribute [local instance (high)] instPowNat

/-! ### Rounding -/

/-- Rounding depends on the value of a quotient only. -/
private theorem roundHalfEven_mul (num den : Nat) {k : Nat} (hk : 0 < k) :
    roundHalfEven (num * k) (den * k) = roundHalfEven num den := by
  have hquotient : num * k / (den * k) = num / den := Nat.mul_div_mul_right _ _ hk
  have hrest : num * k % (den * k) = num % den * k := Nat.mul_mod_mul_right ..
  have hleft : 2 * (num % den * k) < den * k ↔ 2 * (num % den) < den := by
    rw [← Nat.mul_assoc, Nat.mul_lt_mul_right hk]
  have hright : den * k < 2 * (num % den * k) ↔ den < 2 * (num % den) := by
    rw [← Nat.mul_assoc, Nat.mul_lt_mul_right hk]
  simp only [roundHalfEven, hquotient, hrest, hleft, hright]

private theorem nearestMagnitude_mul (num den : Nat) {k : Nat} (hk : 0 < k) :
    nearestMagnitude (num * k) (den * k) = nearestMagnitude num den := by
  have hscaled : num * k * 2 ^ stepExponent = num * 2 ^ stepExponent * k := Nat.mul_right_comm ..
  have hquotient : num * 2 ^ stepExponent * k / (den * k) = num * 2 ^ stepExponent / den :=
    Nat.mul_div_mul_right _ _ hk
  have hround (scale : Nat) : roundHalfEven (num * 2 ^ stepExponent * k) (den * k * 2 ^ scale)
      = roundHalfEven (num * 2 ^ stepExponent) (den * 2 ^ scale) := by
    rw [Nat.mul_right_comm den k, roundHalfEven_mul _ _ hk]
  simp only [nearestMagnitude, hscaled, hquotient, hround]

/-- Nothing is rounded where nothing is left over. -/
private theorem roundHalfEven_of_dvd (n : Nat) {den : Nat} (hden : 0 < den) :
    roundHalfEven (n * den) den = n := by
  simp [roundHalfEven, Nat.mul_div_cancel _ hden, hden]

/-! ### Exact values -/

private theorem steps_pos {m : Nat} (hm : m ≠ 0) : 0 < steps m := by
  have hsignificand : 0 < significand m := by
    simp only [significand, scale]
    omega
  exact Nat.mul_pos hsignificand (Nat.two_pow_pos _)

/-- The scale of a magnitude is the number of binary digits of its steps beyond 53. -/
private theorem log2_steps (m : Nat) : (steps m).log2 - 52 = scale m := by
  -- Without a scale the steps are the significand, which has 53 binary digits at most.
  rcases Nat.eq_zero_or_pos (scale m) with hscale | hscale
  · have hlt : steps m < 2 ^ 53 := by
      rw [steps, hscale, Nat.pow_zero, Nat.mul_one]
      exact significand_lt m
    rcases Nat.eq_zero_or_pos (steps m) with hzero | hpos
    · rw [hzero, hscale]
      rfl
    · have := (Nat.log2_lt (Nat.pos_iff_ne_zero.1 hpos)).2 hlt
      omega
  · have hge : 2 ^ 52 ≤ significand m := by
      simp only [significand, scale] at hscale ⊢
      omega
    have hlog : (steps m).log2 = 52 + scale m := by
      have hne : steps m ≠ 0 := by
        have := Nat.mul_pos (Nat.lt_of_lt_of_le (Nat.two_pow_pos 52) hge)
          (Nat.two_pow_pos (scale m))
        exact Nat.pos_iff_ne_zero.1 this
      refine (Nat.log2_eq_iff hne).2 ⟨?_, ?_⟩
      · rw [Nat.pow_add]
        exact Nat.mul_le_mul_right _ hge
      · rw [Nat.add_right_comm, Nat.pow_add]
        exact Nat.mul_lt_mul_of_pos_right (significand_lt m) (Nat.two_pow_pos _)
    omega

/-- A whole number of steps is the magnitude that it counts. -/
private theorem nearestMagnitude_steps {m : Nat} (hm : m ≤ infinityMagnitude) {den : Nat}
    (hden : 0 < den) {num : Nat} (hnum : num * 2 ^ stepExponent = steps m * den) :
    nearestMagnitude num den = m := by
  have hquotient : steps m * den / den = steps m := Nat.mul_div_cancel _ hden
  have hexact : steps m * den = significand m * (den * 2 ^ scale m) := by
    rw [steps, Nat.mul_assoc, Nat.mul_comm (2 ^ scale m)]
  have hround : roundHalfEven (steps m * den) (den * 2 ^ scale m) = significand m := by
    rw [hexact]
    exact roundHalfEven_of_dvd _ (Nat.mul_pos hden (Nat.two_pow_pos _))
  simp only [nearestMagnitude, hnum, hquotient, log2_steps, hround, scale_mul_add_significand]
  exact Nat.min_eq_right hm

/-- **The exact value of a number reads back.** -/
theorem decimalMagnitude_exactDecimal {m : Nat} (hm : m ≠ 0) (hfinite : m ≤ infinityMagnitude) :
    decimalMagnitude (exactDecimal m) = m := by
  have hstep : 0 < stepExponent := by decide
  have hdigits : 5 ^ stepExponent ≤ exactDigits m := Nat.le_mul_of_pos_left _ (steps_pos hm)
  have hne : exactDigits m ≠ 0 := by
    have := Nat.pow_pos (n := stepExponent) (show 0 < 5 by decide)
    omega
  have hplaces : ¬decisiveExponent + (exactDigits m).log2 < stepExponent := by
    -- Five to a power has more than twice as many binary digits.
    have hfour : 2 ^ (2 * stepExponent) ≤ 5 ^ stepExponent := by
      rw [Nat.pow_mul]
      exact Nat.pow_le_pow_left (by decide) _
    have := (Nat.le_log2 hne).2 (Nat.le_trans hfour hdigits)
    omega
  have hsign : ¬(0 : Int) ≤ -(stepExponent : Int) := by omega
  have hcount : (-(-(stepExponent : Int))).toNat = stepExponent := by omega
  have hnum : exactDigits m * 2 ^ stepExponent = steps m * 10 ^ stepExponent := by
    rw [exactDigits, Nat.mul_assoc, ← Nat.mul_pow]
  simp only [decimalMagnitude, exactDecimal, hne, hsign, hcount, hplaces, if_false]
  exact nearestMagnitude_steps hfinite (Nat.pow_pos (by decide)) hnum

/-- **The fewest digits of a number read back.** -/
theorem decimalMagnitude_shortest {m : Nat} (hfinite : m ≤ infinityMagnitude) :
    decimalMagnitude (shortest m) = m := by
  by_cases hm : m = 0
  · rw [hm]
    rfl
  · rw [shortest, if_neg hm]
    -- Either a candidate with fewer digits reads back, or the exact value is taken.
    rcases hfind : (candidates (exactDigits m)).find? fun d => decimalMagnitude d = m
      with - | d
    · exact decimalMagnitude_exactDecimal hm hfinite
    · have hreads := List.find?_some hfind
      exact of_decide_eq_true hreads

/-- A whole decimal number may be written with one more zero, behind the point. -/
theorem decimalMagnitude_point {digits exponent m : Nat} (hm : m < infinityMagnitude)
    (h : decimalMagnitude ⟨digits, exponent⟩ = m) :
    decimalMagnitude ⟨digits * 10 ^ exponent * 10, -1⟩ = m := by
  by_cases hdigits : digits = 0
  · rw [← h, hdigits]
    simp [decimalMagnitude]
  · have hpower : 0 < 10 ^ exponent := Nat.pow_pos (by decide)
    have hne : digits * 10 ^ exponent * 10 ≠ 0 := by
      have := Nat.mul_pos (Nat.pos_iff_ne_zero.2 hdigits) hpower
      omega
    have hsmall : ¬decisiveExponent + (digits * 10 ^ exponent * 10).log2 < 1 := by
      rw [decisiveExponent]
      omega
    have hnonneg : (0 : Int) ≤ (exponent : Int) := Int.natCast_nonneg _
    simp only [decimalMagnitude, hdigits, if_false, hnonneg, if_true, Int.toNat_natCast] at h
    split at h
    · exact absurd h (Nat.ne_of_gt hm)
    · have hmul := nearestMagnitude_mul (digits * 10 ^ exponent) 1 (show 0 < 10 by decide)
      simpa [decimalMagnitude, hne, hsmall, h] using hmul

theorem ofMagnitude_magnitude {x : Binary64} (hx : x.isNegative = false) :
    ofMagnitude x.magnitude = x := by
  have hlt : x.bits.toNat < 2 ^ 63 := by simpa [isNegative] using hx
  rw [ofMagnitude, magnitude, Nat.mod_eq_of_lt hlt, UInt64.ofNat_toNat]

end MiniC.Binary64
