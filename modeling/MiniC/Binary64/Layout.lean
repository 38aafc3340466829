import MiniC.Binary64.Shortest

/-!
# The two texts of a double-precision number

Both texts of a number hold its fewest digits, and both name what is not a finite number `NaN`,
`inf` and `-inf`.

* `plain` is positional for every number, however long that is, and has a point only where a digit
  follows it: `1`, `0.5`, `100000000000000000000`.
* `listed` has at least one decimal place, and leaves the positional form for an exponent when a
  number is not zero and is below `10⁻⁴` or not below `10¹⁶`: `1.0`, `1e16`, `1.5e-5`.
-/

namespace MiniC

namespace Decimal

/-- The number of digits before the point, or minus the number of zeros after it. -/
def pointPlace (d : Decimal) : Int := (Nat.toDigits 10 d.digits).length + d.exponent

/-- A decimal number in positional form. -/
def positional (d : Decimal) : List Char :=
  let digits := Nat.toDigits 10 d.digits
  if 0 ≤ d.exponent then digits ++ List.replicate d.exponent.toNat '0'
  else
    let places := (-d.exponent).toNat
    let padded := List.replicate (places + 1 - digits.length) '0' ++ digits
    padded.take (padded.length - places) ++ '.' :: padded.drop (padded.length - places)

/-- A decimal number with one digit before the point, if there is one, and an exponent. -/
def withExponent (d : Decimal) : List Char :=
  let exponent := 'e' :: (toString (d.pointPlace - 1)).toList
  match Nat.toDigits 10 d.digits with
  | [] => exponent
  | [digit] => digit :: exponent
  | digit :: more => digit :: '.' :: more ++ exponent

end Decimal

namespace Binary64

/-- The text of a number whose finite magnitudes are written by `finite`. -/
def signed (finite : Decimal → List Char) (x : Binary64) : String :=
  if x.isNaN then "NaN"
  else
    let sign := if x.isNegative then "-" else ""
    if x.isFinite then sign ++ String.ofList (finite (shortest x.magnitude)) else sign ++ "inf"

/-- The text of a number in positional form. -/
def plain (x : Binary64) : String := signed Decimal.positional x

/-- Whether a listing writes a decimal number with an exponent. -/
def needsExponent (d : Decimal) : Bool := d.digits ≠ 0 && (d.pointPlace < -3 || 16 < d.pointPlace)

/-- The digits of a number in a listing. -/
def listedDigits (d : Decimal) : List Char :=
  if needsExponent d then d.withExponent
  else if 0 ≤ d.exponent then d.positional ++ ['.', '0']
  else d.positional

/-- The text of a number in a listing. -/
def listed (x : Binary64) : String := signed listedDigits x

end Binary64

end MiniC
