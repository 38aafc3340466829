import MiniC.Parser.Expr

/-!
# Reading statements

```text
declaration := type declarator (',' declarator)* ';'
declarator  := identifier ('=' expression)?
assignment  := identifier operator expression
block       := '{' statement* '}'
if          := 'if' '(' condition ')' block ('else' block)?
switch      := 'switch' '(' identifier ')' '{' group* ('default' ':' block)? '}'
group       := ('case' label ':')+ block
while       := 'while' '(' condition ')' block
for         := 'for' '(' assignment ';' condition ';' assignment ')' block
break       := 'break' ';'
```

These parsers take the parser for factors, and the one for the statements of a block if there is
room for a block. The first token of a statement is taken as it is: which kinds of tokens may start
a statement is not decided here. Only blocks open a level, the braces of a switch do not.
-/

namespace MiniC

/-- The case label that a token stands for. -/
def Token.caseLabel? (t : Token) : Option CaseLabel :=
  match t.kind, t.literal with
  | .identifier, _ => some (.identifier t.value)
  | .number, some (.int value) => some (.number (.int value))
  | .number, some (.float value) => some (.number (.float value))
  | .char, some (.char value) => some (.char value)
  | _, _ => none

namespace Parser

/-! ### Declarations and assignments -/

/-- A declarator. -/
def declarator (factor : Parser Expr) : Parser Declarator := do
  let name ← expectFor "expected identifier in declaration" .identifier
  let initializer ← optionalAfter .assign (expression factor)
  pure ⟨name.value, initializer⟩

/-- A declaration. -/
def declaration (factor : Parser Expr) : Parser Stmt := do
  let t ← advance
  match TypeName.ofWord? t.value with
  | none => throw ⟨.unexpectedTokenDetailed t.value "unknown type name", t.position⟩
  | some type =>
    let first ← declarator factor
    let more ← manyWhile (·.kind = .comma) do
      let _ ← advance
      declarator factor
    let _ ← expect .semicolon
    pure (.declaration type (first :: more))

/-- An assignment without a semicolon. -/
def assignment (factor : Parser Expr) : Parser Assignment := do
  let target ← expectFor "expected assignment target" .identifier
  match AssignOp.ofKind? (← kind) with
  | none => fail (Cursor.unexpectedBecause "expected assignment operator")
  | some op =>
    let _ ← advance
    let value ← expression factor
    pure ⟨target.value, op, value⟩

/-- An assignment as a statement. -/
def assignmentStatement (factor : Parser Expr) : Parser Stmt := do
  let a ← assignment factor
  let _ ← expect .semicolon
  pure (.assignment a)

/-! ### Blocks and what holds them -/

/-- A block. The level opens after its brace. -/
def block (inside : Option (Parser Stmt)) : Parser Block := do
  let _ ← expect .openCurly
  deeper inside fun statement => do
    let statements ← manyWhile (·.kind ≠ .closeCurly) statement
    let _ ← expect .closeCurly
    pure statements

/-- A condition in parentheses. -/
def header (factor : Parser Expr) : Parser Condition := do
  let _ ← expect .openParen
  let c ← condition factor
  let _ ← expect .closeParen
  pure c

/-- A block under a condition, and perhaps another one. -/
def conditional (factor : Parser Expr) (inside : Option (Parser Stmt)) : Parser Stmt := do
  let _ ← advance
  let c ← header factor
  let thenBlock ← block inside
  let elseBlock ← optionalAfter .elseWord (block inside)
  pure (.conditional c thenBlock elseBlock)

/-- A case label. -/
def caseLabel : Parser CaseLabel := fun c =>
  match c.current?.bind Token.caseLabel? with
  | some label => (advance *> pure label : Parser CaseLabel) c
  | none => .error (c.unexpectedBecause "expected case label") c

/-- A case label between its word and its colon. -/
def caseClause : Parser CaseLabel := do
  let _ ← advance
  let label ← caseLabel
  let _ ← expect .colon
  pure label

/-- A case group. -/
def caseGroup (inside : Option (Parser Stmt)) : Parser CaseGroup := do
  let labels ← manyWhile (·.kind = .caseWord) caseClause
  let body ← block inside
  pure (.mk labels body)

/-- Case groups for a variable, and perhaps a default. -/
def switch (inside : Option (Parser Stmt)) : Parser Stmt := do
  let _ ← advance
  let _ ← expect .openParen
  let discriminant ← expectFor "expected identifier to switch on" .identifier
  let _ ← expect .closeParen
  let _ ← expect .openCurly
  let cases ← manyWhile (·.kind = .caseWord) (caseGroup inside)
  let default ← optionalAfter .defaultWord do
    let _ ← expect .colon
    block inside
  let _ ← expect .closeCurly
  pure (.switch discriminant.value cases default)

/-- A loop while a condition holds. -/
def whileLoop (factor : Parser Expr) (inside : Option (Parser Stmt)) : Parser Stmt := do
  let _ ← advance
  let c ← header factor
  let body ← block inside
  pure (.whileLoop c body)

/-- A loop with assignments. -/
def forLoop (factor : Parser Expr) (inside : Option (Parser Stmt)) : Parser Stmt := do
  let _ ← advance
  let _ ← expect .openParen
  let init ← assignment factor
  let _ ← expect .semicolon
  let c ← condition factor
  let _ ← expect .semicolon
  let step ← assignment factor
  let _ ← expect .closeParen
  let body ← block inside
  pure (.forLoop init c step body)

/-- The statement that leaves a loop or a case. -/
def leave : Parser Stmt := do
  let _ ← advance
  let _ ← expect .semicolon
  pure .leave

end Parser

end MiniC
