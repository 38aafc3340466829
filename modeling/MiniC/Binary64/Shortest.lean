import MiniC.Binary64.Nearest

/-!
# The fewest digits that read back

A magnitude is written with the fewest decimal digits from which it is read back. The exact value of
a magnitude is a natural number of units of `10⁻¹⁰⁷⁴`. For one digit, two digits, and so on up to
17, which always suffice, the two neighbours of that value on the grid with so many digits are
tried, the nearer one first and the larger one of two that are equally near.

The exact value ends the list of candidates, so that the answer reads back whatever the grids offer.
-/

namespace MiniC.Binary64

-- Powers of natural numbers are those of the core library, whatever else is in scope.
attribute [local instance (high)] instPowNat

/-- The exact value of a magnitude, in units of `10⁻¹⁰⁷⁴`. -/
def exactDigits (magnitude : Nat) : Nat := steps magnitude * 5 ^ stepExponent

/-- The exact value of a magnitude as a decimal number. -/
def exactDecimal (magnitude : Nat) : Decimal := ⟨exactDigits magnitude, -stepExponent⟩

/-- The neighbours of a value, in units of `10⁻¹⁰⁷⁴` and with `size` digits, among the decimal
numbers with `count` digits, the nearer one first. -/
def neighbours (digits size count : Nat) : List Decimal :=
  let cut := size - count
  let below := digits / 10 ^ cut
  let exponent : Int := cut - stepExponent
  let lower : Decimal := ⟨below, exponent⟩
  let upper : Decimal :=
    if below + 1 = 10 ^ count then ⟨1, exponent + count⟩ else ⟨below + 1, exponent⟩
  if 2 * (digits % 10 ^ cut) < 10 ^ cut then [lower, upper] else [upper, lower]

/-- The decimal numbers that are tried for a value in units of `10⁻¹⁰⁷⁴`, in order. -/
def candidates (digits : Nat) : List Decimal :=
  let size := (Nat.toDigits 10 digits).length
  (List.range 17).flatMap fun k => neighbours digits size (k + 1)

/-- The decimal number with the fewest digits that reads back as the magnitude. -/
def shortest (magnitude : Nat) : Decimal :=
  if magnitude = 0 then ⟨0, 0⟩
  else
    ((candidates (exactDigits magnitude)).find? fun d => decimalMagnitude d = magnitude).getD
      (exactDecimal magnitude)

end MiniC.Binary64
