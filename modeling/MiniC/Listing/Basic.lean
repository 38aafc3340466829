import MiniC.Text.Align

/-!
# Listings

A `Listing` is the outline of a value: leaves of text, labelled entries, and groups of listings
between a pair of brackets under a heading. Every value of the library that can be shown in full has
a listing, and all of them are laid out by the same two functions.

* `Listing.line` puts a listing on one line.
* `Listing.page` gives every item of a group a line of its own, four columns further in, with a
  comma behind it. A group without items stays on its line.
-/

namespace MiniC

/-- The brackets around the items of a group. -/
inductive Bracket where
  | round
  | square
  | curly
  deriving DecidableEq, Repr

namespace Bracket

/-- The opening bracket on one line. -/
def openLine : Bracket → String
  | round => "("
  | square => "["
  | curly => " \x7b "

/-- The closing bracket on one line. -/
def closeLine : Bracket → String
  | round => ")"
  | square => "]"
  | curly => " \x7d"

/-- The opening bracket before items on lines of their own. -/
def openPage : Bracket → String
  | round => "("
  | square => "["
  | curly => " \x7b"

/-- The closing bracket after items on lines of their own. -/
def closePage : Bracket → String
  | round => ")"
  | square => "]"
  | curly => "\x7d"

end Bracket

/-- The **listing** of a value. -/
inductive Listing where
  /-- A text that is shown as it is. -/
  | leaf (text : String)
  /-- A listing under a label. -/
  | entry (label : String) (value : Listing)
  /-- Listings between brackets, under a heading. -/
  | group (heading : String) (bracket : Bracket) (items : List Listing)
  deriving Repr, Inhabited

namespace Listing

/-! ### Common shapes -/

/-- A heading with its items in round brackets. -/
def tuple (heading : String) (items : List Listing) : Listing := group heading .round items

/-- A heading with labelled items in curly brackets. -/
def record (heading : String) (fields : List (String × Listing)) : Listing :=
  group heading .curly (fields.map fun f => entry f.1 f.2)

/-- Items in square brackets. -/
def sequence (items : List Listing) : Listing := group "" .square items

/-- What may be missing: the heading `None`, or `Some` around it. -/
def optional : Option Listing → Listing
  | none => leaf "None"
  | some value => tuple "Some" [value]

/-! ### Layout -/

mutual

/-- A listing on one line. -/
def line : Listing → String
  | leaf text => text
  | entry label value => label ++ ": " ++ line value
  | group heading bracket items =>
    heading ++ bracket.openLine ++ String.intercalate ", " (lineEach items) ++ bracket.closeLine

/-- Each of the listings on one line. -/
def lineEach : List Listing → List String
  | [] => []
  | item :: rest => line item :: lineEach rest

end

mutual

/-- A listing whose groups put each item on a line of its own. The first line is not indented, and
the others are by `indent` columns or more. -/
def pageAt (indent : Nat) : Listing → String
  | leaf text => text
  | entry label value => label ++ ": " ++ pageAt indent value
  | group heading bracket [] => heading ++ bracket.openPage ++ bracket.closePage
  | group heading bracket items@(_ :: _) =>
    heading ++ bracket.openPage ++ "\n" ++ pageEach (indent + 4) items ++ Text.spaces indent
      ++ bracket.closePage

/-- Each of the listings on lines of its own, with a comma behind it. -/
def pageEach (indent : Nat) : List Listing → String
  | [] => ""
  | item :: rest => Text.spaces indent ++ pageAt indent item ++ ",\n" ++ pageEach indent rest

end

/-- A listing whose groups put each item on a line of its own. -/
def page (l : Listing) : String := pageAt 0 l

theorem lineEach_eq_map (items : List Listing) : lineEach items = items.map line := by
  induction items with
  | nil => simp [lineEach]
  | cons item rest ih => simp [lineEach, ih]

end Listing

end MiniC
