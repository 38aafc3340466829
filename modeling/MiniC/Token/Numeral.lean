import MiniC.Token.Basic

/-!
# Numerals

A **numeral** is a run of digits, perhaps a point and more digits, perhaps an exponent. One that is
digits only stands for a whole number, and one with a point or an exponent for the nearest
double-precision number. A numeral whose value the type cannot hold has no value: a whole number
above `2 ^ 63 - 1`, or a number that rounds to infinity.
-/

namespace MiniC.Numeral

-- Powers of natural numbers are those of the core library, whatever else is in scope.
attribute [local instance (high)] instPowNat

/-- Whether a character marks an exponent. -/
def isExponentMark (c : Char) : Bool := c = 'e' || c = 'E'

/-- Whether a numeral stands for a double-precision number. -/
def isFloat (numeral : List Char) : Bool := numeral.any fun c => c = '.' || isExponentMark c

/-- The number that a run of digits stands for. -/
def ofDigits (digits : List Char) : Nat := Nat.ofDigitChars 10 digits 0

/-- The number that the digits of an exponent stand for. It is not counted up any further once it
has reached `2 ^ 16`, more than a mantissa of ordinary length can balance. -/
def exponentOfDigits (digits : List Char) : Nat :=
  digits.foldl (fun e c => if e < 2 ^ (16 : Nat) then 10 * e + (c.toNat - '0'.toNat) else e) 0

/-- The number that the text after an exponent mark stands for. -/
def signedExponent : List Char → Int
  | '-' :: digits => -(exponentOfDigits digits)
  | '+' :: digits => exponentOfDigits digits
  | digits => exponentOfDigits digits

/-- The decimal number that a numeral stands for. -/
def decimal (numeral : List Char) : Decimal :=
  let mantissa := numeral.takeWhile fun c => !isExponentMark c
  let exponent := signedExponent ((numeral.dropWhile fun c => !isExponentMark c).drop 1)
  let whole := mantissa.takeWhile (· ≠ '.')
  let places := (mantissa.dropWhile (· ≠ '.')).drop 1
  ⟨ofDigits (whole ++ places), exponent - places.length⟩

/-- The largest whole number that a literal may have. -/
def maxInt : Nat := 2 ^ (63 : Nat) - 1

/-- The value of a numeral, if its type holds it. -/
def value? (numeral : List Char) : Option Literal :=
  if isFloat numeral then
    let x := Binary64.ofDecimal (decimal numeral)
    if x.isFinite then some (.float x) else none
  else
    let n := ofDigits numeral
    if n ≤ maxInt then some (.int (Int64.ofNat n)) else none

/-- What stands in for the value of a numeral that has none: zero, of the same type. -/
def substitute (numeral : List Char) : Literal :=
  if isFloat numeral then .float .zero else .int 0

end MiniC.Numeral
