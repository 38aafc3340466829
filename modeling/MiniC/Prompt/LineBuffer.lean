import MiniC.Listing.Basic
import MiniC.Text.Quoted

/-!
# Collecting lines into units

At the prompt a unit may take several lines. A `LineBuffer` collects lines until the braces they
open are closed again and no block comment is left open, and then hands the lines out as one unit. A
brace too many also completes the unit, so that the grammar can complain about it.

Braces in comments and in literals do not count. A literal ends with its line, and a backslash takes
the character after it along, so an escaped quote does not end a literal.

The number of open braces is an integer without bounds. A counter of 32 bits has the same value as
long as the lines of a unit hold fewer than `2 ^ 31` braces.
-/

namespace MiniC

/-- What a line leaves behind for the next one. -/
inductive ScanState where
  | code
  | blockComment
  deriving DecidableEq, Repr

/-- The name of a state in listings. -/
def ScanState.name : ScanState → String
  | code => "Code"
  | blockComment => "BlockComment"

/-! ### Scanning a line -/

/-- How a character of code changes the number of open braces. -/
def braceWeight (c : Char) : Int := if c = '{' then 1 else if c = '}' then -1 else 0

mutual

/-- Scans a line from a place in code on. The answer is the state after the line and the number of
open braces, of which there are `depth` so far. -/
def scanCode (depth : Int) : List Char → ScanState × Int
  | [] => (.code, depth)
  | '/' :: '/' :: _ => (.code, depth)
  | '/' :: '*' :: cs => scanComment depth cs
  | c :: cs =>
    if c = '"' || c = '\'' then scanLiteral depth c cs else scanCode (depth + braceWeight c) cs

/-- Scans a line from a place in a block comment on. -/
def scanComment (depth : Int) : List Char → ScanState × Int
  | [] => (.blockComment, depth)
  | '*' :: '/' :: cs => scanCode depth cs
  | _ :: cs => scanComment depth cs

/-- Scans a line from a place in a literal on, which ends at the given quote. -/
def scanLiteral (depth : Int) (quote : Char) : List Char → ScanState × Int
  | [] => (.code, depth)
  | '\\' :: _ :: cs => scanLiteral depth quote cs
  | c :: cs => if c = quote then scanCode depth cs else scanLiteral depth quote cs

end

/-- Scans a line that starts in the given state. -/
def ScanState.scan (state : ScanState) (depth : Int) (line : List Char) : ScanState × Int :=
  match state with
  | code => scanCode depth line
  | blockComment => scanComment depth line

/-! ### The buffer -/

/-- The lines of a unit that is not complete yet. -/
structure LineBuffer where
  /-- The lines, in order. -/
  lines : List String := []
  /-- The number of open braces. -/
  depth : Int := 0
  /-- Where the last line ended. -/
  state : ScanState := .code
  deriving DecidableEq, Repr

namespace LineBuffer

/-- The buffer without lines. -/
def empty : LineBuffer := {}

/-- Whether a unit has been started. -/
def isPending (b : LineBuffer) : Bool := !b.lines.isEmpty

/-- The buffer with a line added, complete or not. -/
def add (b : LineBuffer) (line : String) : LineBuffer :=
  let (state, depth) := b.state.scan b.depth line.toList
  ⟨b.lines ++ [line], depth, state⟩

/-- Whether the lines are a unit. -/
def isComplete (b : LineBuffer) : Bool := b.depth ≤ 0 && b.state = .code

/-- Adds a line. If the lines are a unit now, the unit is handed out and the buffer is empty
again. -/
def push (b : LineBuffer) (line : String) : Option String × LineBuffer :=
  let b := b.add line
  if b.isComplete then (some (String.intercalate "\n" b.lines), empty) else (none, b)

/-- The listing of a buffer. -/
def listing (b : LineBuffer) : Listing :=
  .record "LineBuffer"
    [("lines", .sequence (b.lines.map fun line => .leaf (Text.quoted line))),
      ("depth", .leaf (toString b.depth)), ("state", .leaf b.state.name)]

end LineBuffer

end MiniC
