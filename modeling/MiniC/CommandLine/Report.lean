import MiniC.Analysis
import MiniC.CommandLine.Settings
import MiniC.Diagnostic.Snippet
import MiniC.Syntax.Listing
import MiniC.Syntax.Render

/-!
# The report on a unit

For each unit the program prints the tokens, if they are asked for, then a snippet for each
diagnostic, and then the tree, if there is one.
-/

namespace MiniC

/-- A text with a line end. -/
def asLine (s : String) : String := s ++ "\n"

namespace Analysis

/-- The table of the tokens. -/
def tokenTable (a : Analysis) : String :=
  asLine "Tokens:" ++ String.join (a.tokens.map fun t => asLine ("  " ++ t.row))

/-- The snippets of the diagnostics. -/
def snippets (a : Analysis) (source : String) : String :=
  String.join (a.diagnostics.map fun d => asLine (d.snippet source))

/-- The tree, as text or as a listing. -/
def tree (a : Analysis) (asListing : Bool) : String :=
  match a.program with
  | some p =>
    asLine "Valid input. Syntax tree:" ++ asLine (if asListing then p.listing.page else p.render)
  | none => ""

end Analysis

/-- The report on a unit, and whether the unit could be read. -/
def report (settings : Settings) (unit : Option String) (source : String) : String × Bool :=
  let a := analyze settings.dialect unit source
  let table := if settings.showTokens then a.tokenTable else ""
  (table ++ a.snippets source ++ a.tree settings.showTree, a.accepted)

end MiniC
