/-!
# Dialects of the language

Two capabilities differ between dialects of the language: an exponent on a numeral (`1e-3`), which
only the scanner looks at, and a prefix minus in expressions (`-x`), which only the grammar looks
at. A `Dialect` is fixed before a unit is read and never changes while it is read.
-/

namespace MiniC

/-- The **dialect** a unit is read in. By default every capability is on. -/
structure Dialect where
  /-- Numerals may end in an exponent. -/
  exponents : Bool := true
  /-- A factor may start with a minus. -/
  unaryMinus : Bool := true
  deriving DecidableEq, Repr, Inhabited

end MiniC
