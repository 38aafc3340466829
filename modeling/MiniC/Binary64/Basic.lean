/-!
# Double-precision numbers

A `Binary64` is the bit pattern of a number in the IEEE 754 format of that name: a sign bit, and
below it 63 bits that we call the **magnitude**. Magnitudes are ordered as the absolute values they
stand for, and those of the finite numbers are exactly the natural numbers below
`infinityMagnitude`; the ones above it are the NaNs.

The absolute value of a finite number is a whole number of **steps** of `2⁻¹⁰⁷⁴`, the smallest
positive value: `steps` is the significand shifted by the scale, both read off the magnitude. So the
exact value of a number is a natural number, and all conversions to and from decimal digits are
exact arithmetic on natural numbers.
-/

namespace MiniC

-- Powers of natural numbers are those of the core library, whatever else is in scope.
attribute [local instance (high)] instPowNat

/-- A number in the **binary64** format, as its bit pattern. Distinct patterns are distinct here,
also where the format compares them as equal; `Binary64.eqv` is its comparison. -/
structure Binary64 where
  /-- The bit pattern, sign bit first. -/
  bits : UInt64
  deriving DecidableEq, Repr, Inhabited

namespace Binary64

/-- Whether the sign bit is set. -/
def isNegative (x : Binary64) : Bool := 2 ^ (63 : Nat) ≤ x.bits.toNat

/-- The bits below the sign bit. -/
def magnitude (x : Binary64) : Nat := x.bits.toNat % 2 ^ (63 : Nat)

/-- The magnitude of the infinities: all exponent bits set, no other. -/
def infinityMagnitude : Nat := 0x7FF * 2 ^ (52 : Nat)

/-- The number with the given magnitude whose sign bit is clear. -/
def ofMagnitude (magnitude : Nat) : Binary64 := ⟨UInt64.ofNat magnitude⟩

/-- Zero, with a clear sign bit. -/
def zero : Binary64 := ofMagnitude 0

/-- Whether the pattern stands for no number. -/
def isNaN (x : Binary64) : Bool := infinityMagnitude < x.magnitude

/-- Whether the pattern stands for a real number. -/
def isFinite (x : Binary64) : Bool := x.magnitude < infinityMagnitude

/-- The comparison of the format: a NaN differs from every number, and both zeros are equal. -/
def eqv (x y : Binary64) : Bool :=
  !x.isNaN && !y.isNaN && (x == y || (x.magnitude == 0 && y.magnitude == 0))

/-! ### Exact values -/

/-- The binary places by which a magnitude's significand is shifted. Magnitudes below `2 ^ 53` have
scale zero: those without a leading bit, and the first exponent with one. -/
def scale (magnitude : Nat) : Nat := magnitude / 2 ^ (52 : Nat) - 1

/-- The significand of a magnitude, with its leading bit if it has one. -/
def significand (magnitude : Nat) : Nat := magnitude - scale magnitude * 2 ^ (52 : Nat)

/-- The absolute value that a magnitude stands for, as a multiple of `2⁻¹⁰⁷⁴`. -/
def steps (magnitude : Nat) : Nat := significand magnitude * 2 ^ scale magnitude

/-- The exponent of the smallest positive value, `2⁻¹⁰⁷⁴`, without its sign. -/
def stepExponent : Nat := 1074

theorem magnitude_ofMagnitude {m : Nat} (h : m < 2 ^ (63 : Nat)) :
    (ofMagnitude m).magnitude = m := by
  simp only [magnitude, ofMagnitude, UInt64.toNat_ofNat']
  omega

/-- A magnitude is put together again from its scale and its significand. -/
theorem scale_mul_add_significand (m : Nat) : scale m * 2 ^ (52 : Nat) + significand m = m := by
  have h : scale m * 2 ^ (52 : Nat) ≤ m := by
    simp only [scale]
    omega
  simp only [significand]
  omega

/-- A significand has at most 53 binary digits. -/
theorem significand_lt (m : Nat) : significand m < 2 ^ (53 : Nat) := by
  simp only [significand, scale]
  omega

end Binary64

end MiniC
