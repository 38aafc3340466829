/-!
# Positions

A token or a diagnostic is placed by the number of its line and the name of the unit it was read
from. Lines are counted from one. There are no columns.

A line number has 32 bits. What comes of a count that goes past the largest number depends on the
build of the program. Arithmetic that is not checked starts again from zero (`LineNumber.after`);
checked arithmetic stops the program there (`LineNumber.after?`). A unit has to have `2 ^ 32 - 1`
line feeds for that.
-/

namespace MiniC

/-- The number of a line. -/
structure LineNumber where
  /-- The number, in 32 bits. -/
  bits : UInt32
  deriving DecidableEq, Repr, Inhabited

namespace LineNumber

/-- The line number that stands for a number, or for the remainder of it that 32 bits hold. -/
def ofNat (n : Nat) : LineNumber := ⟨.ofNat n⟩

instance : Coe Nat LineNumber := ⟨ofNat⟩

instance (n : Nat) : OfNat LineNumber n := ⟨ofNat n⟩

/-- The number that a line number stands for. -/
def toNat (n : LineNumber) : Nat := n.bits.toNat

/-- Counts line ends. The count starts again from zero where it overflows. -/
def after (n : LineNumber) (ends : Nat) : LineNumber := ⟨n.bits + .ofNat ends⟩

@[simp] theorem after_zero (n : LineNumber) : n.after 0 = n :=
  congrArg mk (UInt32.add_zero n.bits)

/-- Line ends may be counted in parts. -/
theorem after_after (n : LineNumber) (ends ends' : Nat) :
    (n.after ends).after ends' = n.after (ends + ends') := by
  rw [after, after, after, UInt32.ofNat_add, UInt32.add_assoc]

theorem after_ofNat (n ends : Nat) : (ofNat n).after ends = ofNat (n + ends) :=
  congrArg mk (UInt32.ofNat_add n ends).symm

theorem toNat_ofNat_of_lt {n : Nat} (h : n < UInt32.size) : (ofNat n).toNat = n :=
  UInt32.toNat_ofNat_of_lt' h

end LineNumber

/-- A line of a named unit. -/
structure Position where
  /-- The number of the line, counted from one. -/
  number : LineNumber
  /-- The name of the unit. -/
  unit : String
  deriving DecidableEq, Repr, Inhabited

namespace Position

/-- The number of the line. -/
def line (p : Position) : Nat := p.number.toNat

/-- The name of a unit that was given none. -/
def anonymousUnit : String := "shell"

/-- The first line of a unit, where an empty unit reports what it lacks. -/
def start (unit : Option String) : Position := ⟨1, unit.getD anonymousUnit⟩

end Position

end MiniC
