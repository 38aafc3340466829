import MiniC.Dialect
import MiniC.Text.Blank
import MiniC.Token.Kind
import MiniC.Token.Numeral

/-!
# Patterns

The scanner knows a text by its **patterns**. A pattern looks at the start of a text and says how
many characters it takes, if any; it never takes none. `Pattern.table` holds all patterns in the
order in which they are tried. The order decides where two patterns start alike: comments come
before the slash, whole literals before a lone quote, and longer punctuators before shorter ones.

No pattern but the blanks and the comments takes a line feed.
-/

namespace MiniC

/-- A **pattern** of the scanner. -/
inductive Pattern where
  /-- A run of spaces, tabs and line ends. -/
  | blank
  /-- Two slashes and the rest of the line. -/
  | lineComment
  /-- A comment between `/*` and the first `*/` after it. -/
  | blockComment
  /-- A letter or an underscore, and all letters, digits and underscores after it. -/
  | word
  /-- A run of digits, perhaps with a fraction, perhaps with an exponent. -/
  | numeral
  /-- One character, or a backslash and a character, between single quotes. -/
  | charLiteral
  /-- Any number of those between double quotes. -/
  | stringLiteral
  /-- A double quote by itself. -/
  | doubleQuote
  /-- A single quote by itself. -/
  | singleQuote
  /-- The spelling of a punctuator. -/
  | punctuator (kind : Kind)
  deriving DecidableEq, Repr

namespace Pattern

/-- All patterns, in the order in which they are tried. -/
def table : List Pattern :=
  [blank, lineComment, blockComment, word, numeral, charLiteral, stringLiteral, doubleQuote,
    singleQuote] ++ Kind.punctuators.map punctuator

/-! ### Character classes -/

/-- Whether a word may start with the character. -/
def isWordStart (c : Char) : Bool := c.isAlpha || c = '_'

/-- Whether a word may go on with the character. -/
def isWordRest (c : Char) : Bool := c.isAlphanum || c = '_'

/-! ### Match lengths -/

/-- The number of characters at the start of a text that satisfy a test. -/
def runLength (p : Char → Bool) (cs : List Char) : Nat := (cs.takeWhile p).length

/-- The length of a run that must not be empty. -/
def run? (p : Char → Bool) (cs : List Char) : Option Nat :=
  if runLength p cs = 0 then none else some (runLength p cs)

/-- The number of characters up to and with the first `*/`. -/
def throughCommentEnd? : List Char → Option Nat
  | [] => none
  | '*' :: '/' :: _ => some 2
  | _ :: cs => (throughCommentEnd? cs).map (· + 1)

/-- The length of a fraction: a point and at least one digit. -/
def fractionLength : List Char → Nat
  | '.' :: cs => if runLength Char.isDigit cs = 0 then 0 else 1 + runLength Char.isDigit cs
  | _ => 0

/-- The length of an optional sign. -/
def signLength : List Char → Nat
  | c :: _ => if c = '+' || c = '-' then 1 else 0
  | [] => 0

/-- The length of an exponent: a mark, perhaps a sign, and at least one digit. -/
def exponentLength : List Char → Nat
  | c :: cs =>
    let digits := runLength Char.isDigit (cs.drop (signLength cs))
    if Numeral.isExponentMark c && digits ≠ 0 then 1 + signLength cs + digits else 0
  | [] => 0

/-- The length of a numeral. -/
def numeral? (dialect : Dialect) (cs : List Char) : Option Nat :=
  (run? Char.isDigit cs).map fun whole =>
    let fraction := fractionLength (cs.drop whole)
    let exponent := if dialect.exponents then exponentLength (cs.drop (whole + fraction)) else 0
    whole + fraction + exponent

/-- The length of a character literal. The character after a backslash may be a quote, but neither
may be a line feed. -/
def charLiteral? : List Char → Option Nat
  | '\'' :: '\\' :: c :: '\'' :: _ => if c = '\n' then none else some 4
  | '\'' :: c :: '\'' :: _ => if c = '\\' || c = '\'' || c = '\n' then none else some 3
  | _ => none

/-- The number of characters up to and with the double quote that ends a string literal on its
line. -/
def throughStringEnd? : List Char → Option Nat
  | [] => none
  | '"' :: _ => some 1
  | '\\' :: c :: cs => if c = '\n' then none else (throughStringEnd? cs).map (· + 2)
  | c :: cs => if c = '\\' || c = '\n' then none else (throughStringEnd? cs).map (· + 1)

/-- The number of characters that a pattern takes at the start of a text, if it takes any. -/
def length? (dialect : Dialect) : Pattern → List Char → Option Nat
  | blank, cs => run? Text.isSpacing cs
  | lineComment, cs =>
    match cs with
    | '/' :: '/' :: rest => some (2 + runLength (· ≠ '\n') rest)
    | _ => none
  | blockComment, cs =>
    match cs with
    | '/' :: '*' :: rest => (throughCommentEnd? rest).map (2 + ·)
    | _ => none
  | word, cs =>
    match cs with
    | c :: rest => if isWordStart c then some (1 + runLength isWordRest rest) else none
    | [] => none
  | numeral, cs => numeral? dialect cs
  | charLiteral, cs => charLiteral? cs
  | stringLiteral, cs =>
    match cs with
    | '"' :: rest => (throughStringEnd? rest).map (1 + ·)
    | _ => none
  | doubleQuote, cs => if cs.head? = some '"' then some 1 else none
  | singleQuote, cs => if cs.head? = some '\'' then some 1 else none
  | punctuator kind, cs =>
    kind.spelling?.bind fun spelling =>
      if spelling.toList.isPrefixOf cs then some spelling.length else none

/-- The first pattern of the table that takes something at the start of a text, and how much. -/
def first? (dialect : Dialect) (cs : List Char) : Option (Pattern × Nat) :=
  table.findSome? fun p => (p.length? dialect cs).map (p, ·)

/-- Whether the scanner yields nothing for what a pattern takes. -/
def isSkipped : Pattern → Bool
  | blank | lineComment | blockComment => true
  | _ => false

end Pattern

end MiniC
