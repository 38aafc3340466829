import MiniC.Dialect
import MiniC.Parser.Stmt

/-!
# Grammars

A `Grammar` says by which rule a factor or a statement is read, by the kind of its first token. The
grammar of a dialect is `Grammar.ofDialect`; a dialect without a prefix minus has no rule for a
factor that starts with one.

`Grammar.factorAt` and `Grammar.statementAt` tie the rules together. They recurse on the room, the
number of levels that may still be opened: the inside of a level is read with one less.
-/

namespace MiniC

/-- How a factor is read. -/
inductive FactorRule where
  | primary
  | grouping
  | negation
  deriving DecidableEq, Repr

/-- How a statement is read. -/
inductive StatementRule where
  | declaration
  | assignment
  | conditional
  | switch
  | whileLoop
  | forLoop
  | leave
  deriving DecidableEq, Repr

/-- The parser of a rule, given the parser for factors one level further in. -/
def FactorRule.parser (inside : Option (Parser Expr)) : FactorRule → Parser Expr
  | primary => Parser.primary
  | grouping => Parser.grouping inside
  | negation => Parser.negation inside

/-- The parser of a rule, given the parser for factors, and the one for statements one level further
in. -/
def StatementRule.parser (factor : Parser Expr) (inside : Option (Parser Stmt)) :
    StatementRule → Parser Stmt
  | declaration => Parser.declaration factor
  | assignment => Parser.assignmentStatement factor
  | conditional => Parser.conditional factor inside
  | switch => Parser.switch inside
  | whileLoop => Parser.whileLoop factor inside
  | forLoop => Parser.forLoop factor inside
  | leave => Parser.leave

/-- A **grammar**: the rules for the kinds of tokens that may start a factor or a statement. -/
structure Grammar where
  /-- The rule for factors that start with a token of a kind. -/
  factorRule? : Kind → Option FactorRule
  /-- The rule for statements that start with a token of a kind. -/
  statementRule? : Kind → Option StatementRule

namespace Grammar

/-- The grammar without rules. -/
def empty : Grammar := ⟨fun _ => none, fun _ => none⟩

/-- The grammar of a dialect. -/
def ofDialect (dialect : Dialect) : Grammar where
  factorRule?
    | .identifier | .number | .char | .string => some .primary
    | .openParen => some .grouping
    | .dash => if dialect.unaryMinus then some .negation else none
    | _ => none
  statementRule?
    | .type => some .declaration
    | .identifier => some .assignment
    | .ifWord => some .conditional
    | .switchWord => some .switch
    | .whileWord => some .whileLoop
    | .forWord => some .forLoop
    | .breakWord => some .leave
    | _ => none

/-- The rules of a grammar, and those of another one for the kinds it has no rule for. -/
def orElse (g other : Grammar) : Grammar where
  factorRule? k := (g.factorRule? k).or (other.factorRule? k)
  statementRule? k := (g.statementRule? k).or (other.statementRule? k)

/-- A grammar with one rule for factors set. -/
def setFactorRule (g : Grammar) (k : Kind) (rule : FactorRule) : Grammar :=
  { g with factorRule? := fun k' => if k' = k then some rule else g.factorRule? k' }

/-- A grammar with one rule for statements set. -/
def setStatementRule (g : Grammar) (k : Kind) (rule : StatementRule) : Grammar :=
  { g with statementRule? := fun k' => if k' = k then some rule else g.statementRule? k' }

/-! ### Factors -/

/-- A factor, given the parser for factors one level further in. -/
def factorOver (g : Grammar) (inside : Option (Parser Expr)) : Parser Expr := do
  match g.factorRule? (← Parser.kind) with
  | some rule => rule.parser inside
  | none => Parser.fail Cursor.unexpected

/-- A factor, with room for the given number of levels. -/
def factorAt (g : Grammar) : (room : Nat) → Parser Expr
  | 0 => g.factorOver none
  | room + 1 => g.factorOver (some (factorAt g room))

theorem factorAt_eq (g : Grammar) (room : Nat) :
    g.factorAt room = g.factorOver (Parser.below g.factorAt room) := by
  cases room <;> rfl

/-! ### Statements -/

/-- A statement, given the parser for factors, and the one for statements one level further in. -/
def statementOver (g : Grammar) (factor : Parser Expr) (inside : Option (Parser Stmt)) :
    Parser Stmt := do
  match g.statementRule? (← Parser.kind) with
  | some rule => rule.parser factor inside
  | none => Parser.fail Cursor.unexpected

/-- A statement, with room for the given number of levels. -/
def statementAt (g : Grammar) : (room : Nat) → Parser Stmt
  | 0 => g.statementOver (g.factorAt 0) none
  | room + 1 => g.statementOver (g.factorAt (room + 1)) (some (statementAt g room))

theorem statementAt_eq (g : Grammar) (room : Nat) :
    g.statementAt room
      = g.statementOver (g.factorAt room) (Parser.below g.statementAt room) := by
  cases room <;> rfl

/-! ### Parsers at a cursor

Each of these has the room that the cursor leaves. -/

/-- A factor. -/
def factor (g : Grammar) : Parser Expr := Parser.withRoom g.factorAt

/-- A term. -/
def term (g : Grammar) : Parser Expr := Parser.withRoom fun room => Parser.term (g.factorAt room)

/-- An expression. -/
def expression (g : Grammar) : Parser Expr :=
  Parser.withRoom fun room => Parser.expression (g.factorAt room)

/-- A condition. -/
def condition (g : Grammar) : Parser Condition :=
  Parser.withRoom fun room => Parser.condition (g.factorAt room)

/-- An assignment without a semicolon. -/
def assignment (g : Grammar) : Parser Assignment :=
  Parser.withRoom fun room => Parser.assignment (g.factorAt room)

/-- A block. -/
def block (g : Grammar) : Parser Block :=
  Parser.withRoom fun room => Parser.block (Parser.below g.statementAt room)

/-- A statement. -/
def statement (g : Grammar) : Parser Stmt := Parser.withRoom g.statementAt

/-- A factor by a given rule. -/
def factorBy (g : Grammar) (rule : FactorRule) : Parser Expr :=
  Parser.withRoom fun room => rule.parser (Parser.below g.factorAt room)

/-- A statement by a given rule. -/
def statementBy (g : Grammar) (rule : StatementRule) : Parser Stmt :=
  Parser.withRoom fun room => rule.parser (g.factorAt room) (Parser.below g.statementAt room)

/-! ### Programs -/

/-- Statements until the tokens run out. -/
def statements (g : Grammar) : Parser (List Stmt) :=
  Parser.manyWhile Cursor.hasTokens (g.statementAt maxNesting)

end Grammar

/-- Reads the tokens of a unit as a program. -/
def parse (dialect : Dialect) (unit : Option String) (tokens : List Token) :
    Except Diagnostic Program :=
  match (Grammar.ofDialect dialect).statements (Cursor.ofTokens unit tokens) with
  | .ok statements _ => .ok ⟨statements⟩
  | .error diagnostic _ => .error diagnostic

end MiniC
