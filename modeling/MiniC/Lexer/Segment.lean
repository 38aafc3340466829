import MiniC.Diagnostic.Basic
import MiniC.Lexer.Pattern
import MiniC.Text.Lines

/-!
# Segments

The scanner cuts a text into **segments**, one after the other and without a gap. A segment is what
the first fitting pattern takes; where no pattern fits it is a single character.

`Segment.items` says what a segment yields: nothing for blanks and comments, a diagnostic and then a
token for a numeral without a value, and one token or diagnostic for everything else. Lines are
counted in blanks and comments only, which is enough because no other segment holds a line feed.
-/

namespace MiniC

/-- A piece of a text, and the pattern that took it, if one did. -/
structure Segment where
  /-- The pattern that took the piece. -/
  pattern : Option Pattern
  /-- The piece. -/
  text : List Char
  deriving DecidableEq, Repr

/-- What the scanner yields: a token, or a diagnostic. -/
abbrev Item := Except Diagnostic Token

namespace Segment

/-! ### Cutting -/

/-- The first segment of a text. -/
def first (dialect : Dialect) (cs : List Char) : Segment :=
  match Pattern.first? dialect cs with
  | some (pattern, length) => ⟨some pattern, cs.take length⟩
  | none => ⟨none, cs.take 1⟩

/-- The segments of a text after its first `skip` characters. -/
def cutAfter (dialect : Dialect) : Nat → List Char → List Segment
  | _, [] => []
  | 0, c :: cs =>
    let segment := first dialect (c :: cs)
    segment :: cutAfter dialect (segment.text.length - 1) cs
  | skip + 1, _ :: cs => cutAfter dialect skip cs

/-- The **segments** of a text. -/
def cut (dialect : Dialect) (cs : List Char) : List Segment := cutAfter dialect 0 cs

theorem cutAfter_eq_cut_drop (dialect : Dialect) (skip : Nat) (cs : List Char) :
    cutAfter dialect skip cs = cut dialect (cs.drop skip) := by
  induction cs generalizing skip with
  | nil => simp [cutAfter, cut]
  | cons c cs ih =>
    cases skip with
    | zero => rfl
    | succ skip => simpa [cutAfter] using ih skip

@[simp] theorem cut_nil (dialect : Dialect) : cut dialect [] = [] := rfl

/-! ### What a segment yields -/

/-- The text between the quotes of a literal, with its escapes undone. -/
def content (s : Segment) : List Char := Text.unescape s.text.tail.dropLast

/-- A token for the whole text of a segment. -/
def token (s : Segment) (position : Position) (kind : Kind) (literal : Option Literal) : Token :=
  ⟨kind, String.ofList s.text, literal, position⟩

/-- The tokens and diagnostics that a segment yields at its place. -/
def items (s : Segment) (position : Position) : List Item :=
  match s.pattern with
  | some .blank | some .lineComment | some .blockComment => []
  | some .word => [.ok (s.token position (Kind.ofWord (String.ofList s.text)) none)]
  | some .numeral =>
    match Numeral.value? s.text with
    | some value => [.ok (s.token position .number (some value))]
    | none =>
      [.error ⟨.numberParse (String.ofList s.text), position⟩,
        .ok (s.token position .number (some (Numeral.substitute s.text)))]
  | some .charLiteral =>
    match s.content with
    | [c] => [.ok ⟨.char, String.ofList [c], some (.char c), position⟩]
    | _ => [.error ⟨.malformedChar, position⟩]
  | some .stringLiteral =>
    [.ok ⟨.string, String.ofList s.content, some (.str (String.ofList s.content)), position⟩]
  | some .doubleQuote => [.error ⟨.unterminatedString, position⟩]
  | some .singleQuote => [.error ⟨.malformedChar, position⟩]
  | some (.punctuator kind) => [.ok (s.token position kind none)]
  | none => s.text.map fun c => .error ⟨.unrecognisedCharacter c, position⟩

/-- The number of lines that a segment ends. -/
def lineEnds (s : Segment) : Nat :=
  if s.pattern.any Pattern.isSkipped then Text.lineFeeds s.text else 0

/-- What segments yield when the first of them starts on the given line of a unit. -/
def itemsFrom (unit : String) : LineNumber → List Segment → List Item
  | _, [] => []
  | line, s :: rest => s.items ⟨line, unit⟩ ++ itemsFrom unit (line.after s.lineEnds) rest

end Segment

end MiniC
