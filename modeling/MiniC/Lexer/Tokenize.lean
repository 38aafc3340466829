import MiniC.Lexer.Segment

/-!
# Tokens of a unit

`tokenize` scans a whole unit and sorts what it yields into tokens and diagnostics. It always
reaches the end of the unit.
-/

namespace MiniC

namespace Item

/-- The tokens among items. -/
def tokens (items : List Item) : List Token := items.filterMap fun
  | .ok token => some token
  | .error _ => none

/-- The diagnostics among items. -/
def diagnostics (items : List Item) : List Diagnostic := items.filterMap fun
  | .ok _ => none
  | .error diagnostic => some diagnostic

end Item

/-- Everything that a unit yields, in the order of its text. -/
def scan (dialect : Dialect) (unit : Option String) (source : String) : List Item :=
  Segment.itemsFrom (unit.getD Position.anonymousUnit) 1 (Segment.cut dialect source.toList)

/-- The tokens and the diagnostics of a unit. -/
def tokenize (dialect : Dialect) (unit : Option String) (source : String) :
    List Token × List Diagnostic :=
  let items := scan dialect unit source
  (Item.tokens items, Item.diagnostics items)

end MiniC
