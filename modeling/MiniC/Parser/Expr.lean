import MiniC.Parser.Basic
import MiniC.Syntax.Basic

/-!
# Reading expressions

```text
expression := term (('+' | '-') term)*
term       := factor (('*' | '/') factor)*
condition  := expression comparison expression
```

These parsers take the parser for factors as an argument. A chain of operators of one level groups
to the left. A factor is read by one of three rules: a token by itself, an expression in
parentheses, or a minus and another factor. The last two open a level.
-/

namespace MiniC

/-- The expression that a token stands for by itself. -/
def Token.expr? (t : Token) : Option Expr :=
  match t.kind, t.literal with
  | .identifier, _ => some (.identifier t.value)
  | .number, some (.int value) => some (.number (.int value))
  | .number, some (.float value) => some (.number (.float value))
  | .char, some (.char value) => some (.char value)
  | .string, some (.str value) => some (.string value)
  | _, _ => none

namespace Parser

/-! ### Chains of operators -/

/-- Goes on with a chain whose first operands have been read as `left`, for at most `bound` more
operators. -/
def chainFrom (op? : Kind → Option BinaryOp) (operand : Parser Expr) :
    (bound : Nat) → (left : Expr) → Parser Expr
  | 0, left => pure left
  | bound + 1, left => do
    match op? (← kind) with
    | none => pure left
    | some op =>
      let _ ← advance
      let right ← operand
      chainFrom op? operand bound (.binary op left right)

/-- Operands between operators of one level. There are never more operators than tokens, so the
bound is never met. -/
def chain (op? : Kind → Option BinaryOp) (operand : Parser Expr) : Parser Expr := do
  let left ← operand
  fun c => chainFrom op? operand c.rest.length left c

/-- A term: factors that are multiplied and divided. -/
def term (factor : Parser Expr) : Parser Expr := chain BinaryOp.multiplicative? factor

/-- An expression: terms that are added and subtracted. -/
def expression (factor : Parser Expr) : Parser Expr := chain BinaryOp.additive? (term factor)

/-- A condition. -/
def condition (factor : Parser Expr) : Parser Condition := do
  let left ← expression factor
  match RelOp.ofKind? (← kind) with
  | none => fail (Cursor.unexpectedBecause "expected relational operator")
  | some op =>
    let _ ← advance
    let right ← expression factor
    pure ⟨op, left, right⟩

/-! ### Factors -/

/-- A factor that is one token. -/
def primary : Parser Expr := do
  let t ← advance
  match t.expr? with
  | some e => pure e
  | none => throw ⟨.unexpectedToken t.value, t.position⟩

/-- A factor in parentheses. -/
def grouping (inside : Option (Parser Expr)) : Parser Expr :=
  deeper inside fun factor => do
    let _ ← advance
    let e ← expression factor
    let _ ← expect .closeParen
    pure e

/-- A factor after a minus. -/
def negation (inside : Option (Parser Expr)) : Parser Expr :=
  deeper inside fun factor => do
    let _ ← advance
    let operand ← factor
    pure (.negate operand)

end Parser

end MiniC
