/-!
# Alignment

A text in a column of a given width. A text that is wider than its column is kept whole: only
`truncate` shortens. Width counts characters.
-/

namespace MiniC.Text

/-- `count` spaces. -/
def spaces (count : Nat) : String := String.ofList (List.replicate count ' ')

/-- A text at the left of its column. -/
def alignLeft (width : Nat) (s : String) : String := s ++ spaces (width - s.length)

/-- A text at the right of its column. -/
def alignRight (width : Nat) (s : String) : String := spaces (width - s.length) ++ s

/-- A text in the middle of its column. An odd space goes to the right. -/
def alignCenter (width : Nat) (s : String) : String :=
  let free := width - s.length
  spaces (free / 2) ++ s ++ spaces (free - free / 2)

/-- The first `width` characters of a text. -/
def truncate (width : Nat) (s : String) : String := String.ofList (s.toList.take width)

end MiniC.Text
