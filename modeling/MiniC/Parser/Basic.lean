import MiniC.Diagnostic.Basic

/-!
# Reading tokens

A `Cursor` stands between two tokens of a unit. It holds the tokens that are left, the number of
levels that are open (blocks, parentheses and prefix minuses), and the position that stands for the
end of the unit. A `Parser` moves a cursor and answers a tree or a diagnostic; the cursor stays
where a failure found it, with the levels that were open then.

The parsers of this module look at one token at a time and know nothing of the grammar. What a
parser may open is limited by `room`, the number of levels that are still free: a construct that
opens a level is given the parser for the inside of the level, or none if there is no room
(`deeper`).
-/

namespace MiniC

/-- The largest number of levels that may be open at once. -/
def maxNesting : Nat := 256

/-- A place between two tokens of a unit. -/
structure Cursor where
  /-- The tokens that are left. -/
  rest : List Token
  /-- The number of open levels. -/
  depth : Nat
  /-- The position that is reported when the tokens have run out. -/
  endPosition : Position

namespace Cursor

/-- The cursor before the first token of a unit. The end of a unit is reported at its last token, if
it has any. -/
def ofTokens (unit : Option String) (tokens : List Token) : Cursor where
  rest := tokens
  depth := 0
  endPosition := (tokens.getLast?.map Token.position).getD (.start unit)

/-- The next token. -/
def current? (c : Cursor) : Option Token := c.rest.head?

/-- The kind of the next token. -/
def kind (c : Cursor) : Kind :=
  match c.rest with
  | [] => .endOfInput
  | t :: _ => t.kind

/-- The position of the next token. -/
def position (c : Cursor) : Position :=
  match c.rest with
  | [] => c.endPosition
  | t :: _ => t.position

/-- Whether a token is left. -/
def hasTokens (c : Cursor) : Bool := !c.rest.isEmpty

/-- The number of levels that may still be opened. -/
def room (c : Cursor) : Nat := maxNesting - c.depth

/-! ### Diagnostics -/

/-- The diagnostic for tokens that have run out. -/
def endOfInput (c : Cursor) : Diagnostic := ⟨.unexpectedEndOfInput, c.position⟩

/-- The diagnostic for a next token that cannot come next. -/
def unexpected (c : Cursor) : Diagnostic :=
  match c.rest with
  | [] => c.endOfInput
  | t :: _ => ⟨.unexpectedToken t.value, t.position⟩

/-- The diagnostic for a next token that cannot come next, with the reason. -/
def unexpectedBecause (message : String) (c : Cursor) : Diagnostic :=
  match c.rest with
  | [] => c.endOfInput
  | t :: _ => ⟨.unexpectedTokenDetailed t.value message, t.position⟩

/-- The diagnostic for a level too many. -/
def tooDeep (c : Cursor) : Diagnostic := ⟨.nestingTooDeep maxNesting, c.position⟩

end Cursor

/-- A **parser**: it moves a cursor, and answers a tree or fails with a diagnostic. -/
abbrev Parser := EStateM Diagnostic Cursor

namespace Parser

/-! ### One token -/

/-- Fails with a diagnostic that depends on the cursor. -/
def fail (diagnostic : Cursor → Diagnostic) : Parser α := fun c => .error (diagnostic c) c

/-- The kind of the next token. -/
def kind : Parser Kind := fun c => .ok c.kind c

/-- Takes the next token. -/
def advance : Parser Token := fun c =>
  match c.rest with
  | [] => .error c.endOfInput c
  | t :: rest => .ok t { c with rest := rest }

/-- Takes the next token, which must be of the given kind. -/
def expect (k : Kind) : Parser Token := do
  if (← kind) = k then advance else fail Cursor.unexpected

/-- Takes the next token, which must be of the given kind, or gives a reason. -/
def expectFor (message : String) (k : Kind) : Parser Token := do
  if (← kind) = k then advance else fail (Cursor.unexpectedBecause message)

/-- A part that is there exactly when a token of the given kind is next, which it starts with. -/
def optionalAfter (k : Kind) (part : Parser α) : Parser (Option α) := do
  if (← kind) = k then
    let _ ← advance
    some <$> part
  else pure none

/-! ### Repetition -/

/-- Repeats a parser while the cursor passes a test, at most `bound` times. -/
def manyAtMost (test : Cursor → Bool) (item : Parser α) : (bound : Nat) → Parser (List α)
  | 0 => pure []
  | bound + 1 => fun c =>
    if test c then
      (do
        let a ← item
        let rest ← manyAtMost test item bound
        pure (a :: rest)) c
    else .ok [] c

/-- Repeats a parser while the cursor passes a test. The parser takes at least one token whenever it
succeeds, so it cannot succeed more often than there are tokens, and the bound is never met. -/
def manyWhile (test : Cursor → Bool) (item : Parser α) : Parser (List α) :=
  fun c => manyAtMost test item (c.rest.length + 1) c

/-! ### Levels -/

/-- Runs a parser with one more level open. A failure leaves the level open. -/
def opened (body : Parser α) : Parser α := do
  modify fun c => { c with depth := c.depth + 1 }
  let a ← body
  modify fun c => { c with depth := c.depth - 1 }
  pure a

/-- Opens a level, whose inside is read by means of the given parser. Without one there is no
room. -/
def deeper (inside : Option (Parser α)) (body : Parser α → Parser β) : Parser β :=
  match inside with
  | none => fail Cursor.tooDeep
  | some inside => opened (body inside)

/-- What is available one level further in, if there is room for a level. -/
def below (level : Nat → α) : (room : Nat) → Option α
  | 0 => none
  | room + 1 => some (level room)

/-- Runs the parser for the room that the cursor has. -/
def withRoom (parser : Nat → Parser α) : Parser α := fun c => parser c.room c

/-- Opens a level and leaves it open. -/
def enter : Parser Unit := fun c =>
  if c.room = 0 then .error c.tooDeep c else .ok () { c with depth := c.depth + 1 }

/-- Closes a level, if one is open. -/
def exit : Parser Unit := fun c => .ok () { c with depth := c.depth - 1 }

end Parser

end MiniC
