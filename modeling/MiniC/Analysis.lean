import MiniC.Lexer.Tokenize
import MiniC.Parser.Grammar

/-!
# Analysis of a unit

A unit is scanned, and its tokens are read as a program. What the scanner could not use is left out
and does not keep the tokens from being read.
-/

namespace MiniC

/-- What is known of a unit. -/
structure Analysis where
  /-- The tokens. -/
  tokens : List Token
  /-- The diagnostics: all of the scanner, and after them that of the grammar, if there is one. -/
  diagnostics : List Diagnostic
  /-- The program, unless the grammar found a fault. -/
  program : Option Program

/-- Scans and reads a unit. -/
def analyze (dialect : Dialect) (unit : Option String) (source : String) : Analysis :=
  let (tokens, diagnostics) := tokenize dialect unit source
  match parse dialect unit tokens with
  | .ok program => ⟨tokens, diagnostics, some program⟩
  | .error diagnostic => ⟨tokens, diagnostics ++ [diagnostic], none⟩

/-- Whether a unit could be read. -/
def Analysis.accepted (a : Analysis) : Bool := a.program.isSome

end MiniC
