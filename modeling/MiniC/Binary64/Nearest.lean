import MiniC.Binary64.Basic

/-!
# The nearest double-precision number

A quotient of natural numbers is rounded to the nearest magnitude, an exact half to the one whose
last bit is clear, and a quotient too large for any finite number becomes infinite. The rounding
works on the quotient counted in steps of `2⁻¹⁰⁷⁴`: the number of binary digits of its whole part
fixes the scale, and a carry out of the significand lands in the exponent field, where it belongs.

`ofDecimal` rounds a decimal number. Exponents beyond what any number of the format needs are
recognised first, so that no power of ten of that size is ever computed.
-/

namespace MiniC

-- Powers of natural numbers are those of the core library, whatever else is in scope.
attribute [local instance (high)] instPowNat

/-- A **decimal** number: the digits, as a natural number, times a power of ten. -/
structure Decimal where
  /-- The digits, as one natural number. -/
  digits : Nat
  /-- The exponent of the power of ten that multiplies them. -/
  exponent : Int
  deriving DecidableEq, Repr, Inhabited

namespace Binary64

/-- A quotient rounded to the nearest natural number, an exact half to the even neighbour. -/
def roundHalfEven (num den : Nat) : Nat :=
  let quotient := num / den
  let rest := num % den
  if 2 * rest < den then quotient
  else if den < 2 * rest then quotient + 1
  else quotient + quotient % 2

/-- The magnitude of the number nearest to a quotient. -/
def nearestMagnitude (num den : Nat) : Nat :=
  let scaled := num * 2 ^ stepExponent
  let scale := (scaled / den).log2 - 52
  min infinityMagnitude (scale * 2 ^ (52 : Nat) + roundHalfEven scaled (den * 2 ^ scale))

/-- The powers of ten that decide by themselves: `10 ^ 400` exceeds every finite number, and
`10 ^ -400` is below half of the smallest positive one. -/
def decisiveExponent : Nat := 400

/-- The magnitude of the number nearest to a decimal number. -/
def decimalMagnitude (d : Decimal) : Nat :=
  if d.digits = 0 then 0
  else if 0 ≤ d.exponent then
    if decisiveExponent < d.exponent.toNat then infinityMagnitude
    else nearestMagnitude (d.digits * 10 ^ d.exponent.toNat) 1
  else
    let places := (-d.exponent).toNat
    if decisiveExponent + d.digits.log2 < places then 0
    else nearestMagnitude d.digits (10 ^ places)

/-- The number nearest to a decimal number. -/
def ofDecimal (d : Decimal) : Binary64 := ofMagnitude (decimalMagnitude d)

theorem nearestMagnitude_le (num den : Nat) : nearestMagnitude num den ≤ infinityMagnitude :=
  Nat.min_le_left ..

theorem decimalMagnitude_le (d : Decimal) : decimalMagnitude d ≤ infinityMagnitude := by
  unfold decimalMagnitude
  split
  · exact Nat.zero_le _
  · split
    · split
      · exact Nat.le_refl _
      · exact nearestMagnitude_le _ _
    · dsimp only
      split
      · exact Nat.zero_le _
      · exact nearestMagnitude_le _ _

/-- What is read from digits has a clear sign bit. -/
theorem isNegative_ofDecimal (d : Decimal) : (ofDecimal d).isNegative = false := by
  have h := decimalMagnitude_le d
  simp only [infinityMagnitude] at h
  simp only [isNegative, ofDecimal, ofMagnitude, UInt64.toNat_ofNat', decide_eq_false_iff_not]
  omega

end Binary64

end MiniC
