import MiniC.Binary64.Layout
import MiniC.Listing.Basic
import MiniC.Position
import MiniC.Text.Align
import MiniC.Text.Quoted
import MiniC.Token.Kind

/-!
# Tokens

A `Token` has a kind, a text, a position, and, if it is a literal, the value it stands for. The text
of a character or string literal is what is between its quotes after the escapes are undone, and the
text of any other token is what was written.
-/

namespace MiniC

/-- The value of a literal. -/
inductive Literal where
  | int (value : Int64)
  | float (value : Binary64)
  | char (value : Char)
  | str (value : String)
  deriving DecidableEq, Repr

/-- A **token**. -/
structure Token where
  /-- What the grammar sees of the token. -/
  kind : Kind
  /-- The text of the token. -/
  value : String
  /-- The value, of a literal. -/
  literal : Option Literal
  /-- Where the token starts. -/
  position : Position
  deriving DecidableEq, Repr

/-! ### Listings -/

/-- The listing of a text between quotes. -/
def Listing.text (s : String) : Listing := .leaf (Text.quoted s)

/-- The listing of a whole number. -/
def Listing.int (value : Int64) : Listing := .leaf (toString value.toInt)

/-- The listing of a position. -/
def Position.listing (p : Position) : Listing :=
  .tuple "Position" [.leaf (toString p.line), .text p.unit]

/-- The listing of a literal's value. -/
def Literal.listing : Literal → Listing
  | int value => .tuple "Int" [.int value]
  | float value => .tuple "Float" [.leaf value.listed]
  | char value => .tuple "Char" [.leaf (Text.quotedChar value)]
  | str value => .tuple "Str" [.text value]

namespace Token

/-- The listing of a token. -/
def listing (t : Token) : Listing :=
  .record "Token"
    [("kind", .leaf t.kind.name), ("value", .text t.value),
      ("literal", .optional (t.literal.map Literal.listing)), ("position", t.position.listing)]

/-- A token in a table of tokens: its kind in a column of 14 characters, and what it stands for. -/
def row (t : Token) : String :=
  Text.alignLeft 14 t.kind.name ++
    match t.literal with
    | some literal => literal.listing.line
    | none => Text.quoted t.value

end Token

end MiniC
