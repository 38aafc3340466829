import MiniC.Token.Basic

/-!
# Diagnostics

A `Fault` says what is wrong with a unit, and a `Diagnostic` where. Faults of the text are found by
the scanner, which goes on after each of them; faults of the grammar end the reading of the unit
they are found in. `Fault.phase` tells the two apart.

The wording is in this module only: `Fault.message` describes the fault, and `Fault.tip?` says what
may help, for the faults where something may.
-/

namespace MiniC

/-- What is wrong with a unit. -/
inductive Fault where
  /-- A character that starts no token. -/
  | unrecognisedCharacter (character : Char)
  /-- A double quote that starts no string literal. -/
  | unterminatedString
  /-- A single quote that starts no character literal, or a literal that holds more than one. -/
  | malformedChar
  /-- A numeral without a value. -/
  | numberParse (numeral : String)
  /-- A token that cannot come next. -/
  | unexpectedToken (token : String)
  /-- A token that cannot come next, with the reason. -/
  | unexpectedTokenDetailed (token message : String)
  /-- The tokens end where more is needed. -/
  | unexpectedEndOfInput
  /-- More levels are open at once than the limit allows. -/
  | nestingTooDeep (limit : Nat)
  deriving DecidableEq, Repr

/-- Where in the reading of a unit a fault belongs. -/
inductive Phase where
  /-- The scanner found it and went on. -/
  | lexical
  /-- The grammar found it and stopped. -/
  | grammatical
  deriving DecidableEq, Repr

namespace Phase

/-- The name a phase has in reports. -/
def name : Phase → String
  | lexical => "Lexical"
  | grammatical => "Syntax"

end Phase

namespace Fault

/-- The phase that finds a fault. -/
def phase : Fault → Phase
  | unrecognisedCharacter _ | unterminatedString | malformedChar | numberParse _ => .lexical
  | unexpectedToken _ | unexpectedTokenDetailed _ _ | unexpectedEndOfInput | nestingTooDeep _ =>
    .grammatical

/-- The name a fault has in reports. -/
def name : Fault → String
  | unrecognisedCharacter _ => "UnrecognisedCharacter"
  | unterminatedString => "UnterminatedString"
  | malformedChar => "MalformedChar"
  | numberParse _ => "NumberParseError"
  | unexpectedToken _ => "UnexpectedToken"
  | unexpectedTokenDetailed _ _ => "UnexpectedTokenDetailed"
  | unexpectedEndOfInput => "UnexpectedEndOfInput"
  | nestingTooDeep _ => "NestingTooDeep"

/-- What is wrong, in words. -/
def message : Fault → String
  | unrecognisedCharacter character => "unrecognised character: " ++ Text.quotedChar character
  | unterminatedString => "unterminated string literal"
  | malformedChar => "malformed char literal"
  | numberParse numeral => "error parsing number: " ++ Text.quoted numeral
  | unexpectedToken token => "unexpected token: " ++ Text.quoted token
  | unexpectedTokenDetailed token message =>
    "unexpected token (" ++ message ++ "): " ++ Text.quoted token
  | unexpectedEndOfInput => "unexpected end of input"
  | nestingTooDeep limit => "nesting deeper than " ++ toString limit ++ " levels"

/-- What may help. -/
def tip? : Fault → Option String
  | unrecognisedCharacter _ => none
  | unterminatedString => some "string literals must be closed on the line they start"
  | malformedChar => some "char literals hold exactly one character or escape"
  | numberParse numeral =>
    some ("Invalid number: `" ++ numeral ++ "`, is it above the integer limit?")
  | unexpectedToken token => some ("Unexpected token: `" ++ token ++ "`, did you miss a semicolon?")
  | unexpectedTokenDetailed token message =>
    some ("Unexpected token: `" ++ token ++ "`, " ++ message)
  | unexpectedEndOfInput =>
    some "the statement is incomplete, check for a missing `;` or `\x7d`"
  | nestingTooDeep limit =>
    some ("blocks, parentheses and unary minus may nest at most " ++ toString limit
      ++ " levels deep")

/-- The listing of a fault. -/
def listing (f : Fault) : Listing :=
  match f with
  | unrecognisedCharacter character =>
    .record f.name [("character", .leaf (Text.quotedChar character))]
  | numberParse numeral => .record f.name [("token", .text numeral)]
  | unexpectedToken token => .record f.name [("token", .text token)]
  | unexpectedTokenDetailed token message =>
    .record f.name [("token", .text token), ("message", .text message)]
  | nestingTooDeep limit => .record f.name [("limit", .leaf (toString limit))]
  | unterminatedString | malformedChar | unexpectedEndOfInput => .leaf f.name

end Fault

/-- A fault at its place. -/
structure Diagnostic where
  /-- What is wrong. -/
  fault : Fault
  /-- Where it is. -/
  position : Position
  deriving DecidableEq, Repr

namespace Diagnostic

/-- A diagnostic in one line. -/
def summary (d : Diagnostic) : String :=
  "line " ++ toString d.position.line ++ ": " ++ d.fault.message

/-- The listing of a diagnostic. -/
def listing (d : Diagnostic) : Listing :=
  .record "Error" [("internal_error", d.fault.listing), ("position", d.position.listing)]

end Diagnostic

end MiniC
