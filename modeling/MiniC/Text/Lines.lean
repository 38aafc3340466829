/-!
# Lines

A text is cut into **lines** after each line feed. The line feed does not belong to the line, nor
does one carriage return right before it. What follows the last line feed is a line only if it is
not empty, and a carriage return at its end stays.

The rule is the same for characters and for bytes, so `splitLines` takes the two line-end marks as
arguments. The lines of a text are numbered from one, `line? source 1` being the first.
-/

namespace MiniC.Text

section

variable [DecidableEq α] (feed ret : α)

/-- A line that ended in a line feed, without a carriage return at its end. -/
def dropReturn (line : List α) : List α := if line.getLast? = some ret then line.dropLast else line

/-- The lines of a text whose current line already holds `seen`, in reverse order. -/
def splitLinesAfter (seen : List α) : List α → List (List α)
  | [] => if seen.isEmpty then [] else [seen.reverse]
  | a :: rest =>
    if a = feed then dropReturn ret seen.reverse :: splitLinesAfter [] rest
    else splitLinesAfter (a :: seen) rest

/-- The lines of a text, without their ends. -/
def splitLines (text : List α) : List (List α) := splitLinesAfter feed ret [] text

end

/-- The lines of a text, without their ends. -/
def lines (cs : List Char) : List (List Char) := splitLines '\n' '\r' cs

/-- The line of a text with the given number, counted from one. -/
def line? (source : String) (number : Nat) : Option String :=
  if number = 0 then none
  else (lines source.toList)[number - 1]?.map String.ofList

/-- The number of line feeds in a text. -/
def lineFeeds (cs : List Char) : Nat := cs.count '\n'

/-- The lines of a text in bytes. -/
def byteLines (bytes : List UInt8) : List (List UInt8) := splitLines 0x0A 0x0D bytes

end MiniC.Text
