import MiniC.Diagnostic.Basic
import MiniC.Text.Blank
import MiniC.Text.Lines

/-!
# Snippets

A diagnostic is shown to a reader as a **snippet**: a heading, the name of the unit, and the line of
the source it is on, framed by a gutter whose bars stand below each other.

A line that the source does not have leaves the snippet without the line and without the gutter
below it.
-/

namespace MiniC.Diagnostic

/-- The first line of a snippet. It holds the tip, or the message where there is no tip. -/
def heading (d : Diagnostic) : String :=
  "Error: " ++ d.fault.name ++ " (" ++ d.fault.tip?.getD d.fault.message ++ ")"

/-- The bar of the gutter, in the column after a line number and the blanks around it. -/
def gutter (d : Diagnostic) : String :=
  Text.alignRight ((toString d.position.line).length + 3) "|"

/-- The lines of the snippet of a diagnostic. -/
def snippetLines (d : Diagnostic) (source : String) : List String :=
  [d.heading, "-> " ++ d.position.unit, d.gutter] ++
    match Text.line? source d.position.line with
    | some line => [" " ++ toString d.position.line ++ " | " ++ Text.trim line, d.gutter]
    | none => []

/-- The **snippet** of a diagnostic of a unit with the given source. -/
def snippet (d : Diagnostic) (source : String) : String :=
  String.intercalate "\n" (d.snippetLines source)

end MiniC.Diagnostic
