import MiniC.Proofs.Grammar.Progress
import MiniC.Proofs.Parser.Evaluation

/-!
# Termination of grammars

The parsers of a grammar are written as **procedures** that call each other, by way of the rules of
the grammar where a factor or a statement starts, and that repeat themselves for as long as the next
token asks for it (`Procedure.code`). Nothing limits the calls but the levels that are open, and
nothing limits the loops.

All of them come to an end, whatever the rules are (`Grammar.evaluates_run`): a loop takes a token
in each turn, and a procedure comes back to itself only inside of a level. On success a token has
been taken and the levels are as before, and on failure no more levels are open than may be.
-/

namespace MiniC

open MiniC.Parser (advance kind expect expectFor fail caseLabel)

/-- The **procedures** of a grammar. -/
inductive Procedure : Type → Type where
  | factor : Procedure Expr
  | term : Procedure Expr
  | expression : Procedure Expr
  | condition : Procedure Condition
  | assignment : Procedure Assignment
  | block : Procedure Block
  | statement : Procedure Stmt
  /-- A factor by a rule. -/
  | factorBy (rule : FactorRule) : Procedure Expr
  /-- A statement by a rule. -/
  | statementBy (rule : StatementRule) : Procedure Stmt

/-- The parser of a procedure at a cursor. -/
def Grammar.run (g : Grammar) : Procedure α → Parser α
  | .factor => g.factor
  | .term => g.term
  | .expression => g.expression
  | .condition => g.condition
  | .assignment => g.assignment
  | .block => g.block
  | .statement => g.statement
  | .factorBy rule => g.factorBy rule
  | .statementBy rule => g.statementBy rule

namespace Procedure

open Code

/-! ### Code of the rules -/

/-- The code of a rule for factors. -/
def factorCode : FactorRule → Code Procedure Expr
  | .primary => Parser.primary
  | .grouping => nested do
    let _ ← advance
    let e ← call expression
    let _ ← expect .closeParen
    pure e
  | .negation => nested do
    let _ ← advance
    let operand ← call factor
    pure (.negate operand)

/-- The code for a declarator. -/
def declaratorCode : Code Procedure Declarator := do
  let name ← expectFor "expected identifier in declaration" .identifier
  let initializer ← optionalAfter .assign (call expression)
  pure ⟨name.value, initializer⟩

/-- The code for a condition in parentheses. -/
def headerCode : Code Procedure Condition := do
  let _ ← expect .openParen
  let c ← call condition
  let _ ← expect .closeParen
  pure c

/-- The code for a case label between its word and its colon. -/
def caseClauseCode : Code Procedure CaseLabel := do
  let _ ← advance
  let label ← caseLabel
  let _ ← expect .colon
  pure label

/-- The code for a case group. -/
def caseGroupCode : Code Procedure CaseGroup := do
  let labels ← many (·.kind = .caseWord) caseClauseCode
  let body ← call block
  pure (.mk labels body)

/-- The code of a rule for statements. -/
def statementCode : StatementRule → Code Procedure Stmt
  | .declaration => do
    let t ← advance
    match TypeName.ofWord? t.value with
    | none => (throw ⟨.unexpectedTokenDetailed t.value "unknown type name", t.position⟩ : Parser _)
    | some type =>
      let first ← declaratorCode
      let more ← many (·.kind = .comma) do
        let _ ← advance
        declaratorCode
      let _ ← expect .semicolon
      pure (.declaration type (first :: more))
  | .assignment => do
    let a ← call assignment
    let _ ← expect .semicolon
    pure (.assignment a)
  | .conditional => do
    let _ ← advance
    let c ← headerCode
    let thenBlock ← call block
    let elseBlock ← optionalAfter .elseWord (call block)
    pure (.conditional c thenBlock elseBlock)
  | .switch => do
    let _ ← advance
    let _ ← expect .openParen
    let discriminant ← expectFor "expected identifier to switch on" .identifier
    let _ ← expect .closeParen
    let _ ← expect .openCurly
    let cases ← many (·.kind = .caseWord) caseGroupCode
    let default ← optionalAfter .defaultWord do
      let _ ← expect .colon
      call block
    let _ ← expect .closeCurly
    pure (.switch discriminant.value cases default)
  | .whileLoop => do
    let _ ← advance
    let c ← headerCode
    let body ← call block
    pure (.whileLoop c body)
  | .forLoop => do
    let _ ← advance
    let _ ← expect .openParen
    let init ← call assignment
    let _ ← expect .semicolon
    let c ← call condition
    let _ ← expect .semicolon
    let step ← call assignment
    let _ ← expect .closeParen
    let body ← call block
    pure (.forLoop init c step body)
  | .leave => do
    let _ ← advance
    let _ ← expect .semicolon
    pure .leave

/-- The **code** of a procedure. -/
def code (g : Grammar) : Procedure α → Code Procedure α
  | factor => do
    match g.factorRule? (← kind) with
    | some rule => call (factorBy rule)
    | none => fail Cursor.unexpected
  | term => chain BinaryOp.multiplicative? (call factor)
  | expression => chain BinaryOp.additive? (call term)
  | condition => do
    let left ← call expression
    match RelOp.ofKind? (← kind) with
    | none => fail (Cursor.unexpectedBecause "expected relational operator")
    | some op =>
      let _ ← advance
      let right ← call expression
      pure ⟨op, left, right⟩
  | assignment => do
    let target ← expectFor "expected assignment target" .identifier
    match AssignOp.ofKind? (← kind) with
    | none => fail (Cursor.unexpectedBecause "expected assignment operator")
    | some op =>
      let _ ← advance
      let value ← call expression
      pure ⟨target.value, op, value⟩
  | block => do
    let _ ← expect .openCurly
    nested do
      let statements ← many (·.kind ≠ .closeCurly) (call statement)
      let _ ← expect .closeCurly
      pure statements
  | statement => do
    match g.statementRule? (← kind) with
    | some rule => call (statementBy rule)
    | none => fail Cursor.unexpected
  | factorBy rule => factorCode rule
  | statementBy rule => statementCode rule

/-! ### Code for the parsers of a grammar -/

section

variable {g : Grammar} {room : Nat}

section

variable (h : Computes (code g) room (call factor) (g.factorAt room))

include h

private theorem computes_term : Computes (code g) room (call term)
    (Parser.term (g.factorAt room)) :=
  .call (h.chain rfl (g.factorAt_advances room))

/-- The code of an expression is a chain of calls of the code of terms. -/
private theorem computes_expression :
    Computes (code g) room (call expression) (Parser.expression (g.factorAt room)) :=
  .call ((computes_term h).chain rfl (g.factorAt_advances room).term)

/-- The code fails where the parser does, before it takes an operator. -/
private theorem computes_condition :
    Computes (code g) room (call condition) (Parser.condition (g.factorAt room)) := by
  refine .call ((computes_expression h).bind fun left => Computes.kind.bind fun k => ?_)
  cases RelOp.ofKind? k with
  | none => exact .fail _
  | some op =>
    exact Computes.advance.bind fun _ => (computes_expression h).bind fun right => .pure _

private theorem computes_assignment :
    Computes (code g) room (call assignment) (Parser.assignment (g.factorAt room)) := by
  refine .call ((Computes.expectFor _ _).bind fun target => Computes.kind.bind fun k => ?_)
  cases AssignOp.ofKind? k with
  | none => exact .fail _
  | some op =>
    exact Computes.advance.bind fun _ => (computes_expression h).bind fun value => .pure _

private theorem computes_declaratorCode :
    Computes (code g) room declaratorCode (Parser.declarator (g.factorAt room)) :=
  (Computes.expectFor _ _).bind fun _ =>
    ((computes_expression h).optionalAfter _).bind fun _ => .pure _

private theorem computes_headerCode :
    Computes (code g) room headerCode (Parser.header (g.factorAt room)) :=
  (Computes.expect _).bind fun _ => (computes_condition h).bind fun _ =>
    (Computes.expect _).bind fun _ => .pure _

end

private theorem computes_caseClauseCode : Computes (code g) room caseClauseCode Parser.caseClause :=
  Computes.advance.bind fun _ => (Computes.step Parser.Advances.caseLabel.toMoves).bind fun _ =>
    (Computes.expect _).bind fun _ => .pure _

/-- A rule for factors is computed, if factors are one level further in. -/
private theorem computes_factorCode
    (h : ∀ r, room = r + 1 → Computes (code g) r (call factor) (g.factorAt r)) (rule : FactorRule) :
    Computes (code g) room (factorCode rule) (rule.parser (Parser.below g.factorAt room)) := by
  cases rule with
  | primary => exact .step Parser.Advances.primary.toMoves
  | grouping =>
    refine .nested fun r hr => Computes.advance.bind fun _ => ?_
    exact (computes_expression (h r hr)).bind fun _ => (Computes.expect _).bind fun _ => .pure _
  | negation =>
    exact .nested fun r hr => Computes.advance.bind fun _ => (h r hr).bind fun _ => .pure _

/-- Factors are computed with any room, by induction on it: inside a level there is less. -/
theorem computes_factor (g : Grammar) (room : Nat) :
    Computes (code g) room (call factor) (g.factorAt room) := by
  induction room using Nat.strongRecOn with
  | ind room ih =>
    rw [Grammar.factorAt_eq]
    refine .call (Computes.kind.bind fun k => ?_)
    cases g.factorRule? k with
    | none => exact .fail _
    | some rule => exact .call (computes_factorCode (fun r hr => ih r (by omega)) rule)

section

variable (h : ∀ r, room = r + 1 → Computes (code g) r (call statement) (g.statementAt r))

include h

/-- The code of a block calls that of statements, with one level less. -/
private theorem computes_block :
    Computes (code g) room (call block) (Parser.block (Parser.below g.statementAt room)) := by
  refine .call ((Computes.expect _).bind fun _ => .nested fun r hr => ?_)
  exact ((h r hr).many _ (g.statementAt_advances r)).bind fun _ =>
    (Computes.expect _).bind fun _ => .pure _

private theorem computes_caseGroupCode :
    Computes (code g) room caseGroupCode
      (Parser.caseGroup (Parser.below g.statementAt room)) :=
  (computes_caseClauseCode.many _ .caseClause).bind fun _ =>
    (computes_block h).bind fun _ => .pure _

/-- A rule for statements is computed, if statements are one level further in. -/
private theorem computes_statementCode (rule : StatementRule) :
    Computes (code g) room (statementCode rule)
      (rule.parser (g.factorAt room) (Parser.below g.statementAt room)) := by
  have hfactor := computes_factor g room
  have hadvances := g.factorAt_advances room
  have hblock := computes_block h
  cases rule with
  | declaration =>
    refine Computes.advance.bind fun t => ?_
    cases TypeName.ofWord? t.value with
    | none => exact .throw _
    | some type =>
      refine (computes_declaratorCode hfactor).bind fun _ => ?_
      refine (Computes.many _ (Computes.advance.bind fun _ => computes_declaratorCode hfactor)
        (Parser.Advances.advance.bind fun _ => hadvances.declarator.toMoves)).bind fun _ => ?_
      exact (Computes.expect _).bind fun _ => .pure _
  | assignment =>
    exact (computes_assignment hfactor).bind fun _ => (Computes.expect _).bind fun _ => .pure _
  | conditional =>
    refine Computes.advance.bind fun _ => (computes_headerCode hfactor).bind fun _ => ?_
    exact hblock.bind fun _ => (hblock.optionalAfter _).bind fun _ => .pure _
  | switch =>
    refine Computes.advance.bind fun _ => (Computes.expect _).bind fun _ => ?_
    refine (Computes.expectFor _ _).bind fun _ => (Computes.expect _).bind fun _ => ?_
    refine (Computes.expect _).bind fun _ => ?_
    refine ((computes_caseGroupCode h).many _ (.caseGroup fun r _ =>
      g.statementAt_advances r)).bind fun _ => ?_
    refine (((Computes.expect _).bind fun _ => hblock).optionalAfter _).bind fun _ => ?_
    exact (Computes.expect _).bind fun _ => .pure _
  | whileLoop =>
    refine Computes.advance.bind fun _ => (computes_headerCode hfactor).bind fun _ => ?_
    exact hblock.bind fun _ => .pure _
  | forLoop =>
    refine Computes.advance.bind fun _ => (Computes.expect _).bind fun _ => ?_
    refine (computes_assignment hfactor).bind fun _ => (Computes.expect _).bind fun _ => ?_
    refine (computes_condition hfactor).bind fun _ => (Computes.expect _).bind fun _ => ?_
    refine (computes_assignment hfactor).bind fun _ => (Computes.expect _).bind fun _ => ?_
    exact hblock.bind fun _ => .pure _
  | leave => exact Computes.advance.bind fun _ => (Computes.expect _).bind fun _ => .pure _

end

/-- Statements are computed with any room, by induction on it. -/
theorem computes_statement (g : Grammar) (room : Nat) :
    Computes (code g) room (call statement) (g.statementAt room) := by
  induction room using Nat.strongRecOn with
  | ind room ih =>
    rw [Grammar.statementAt_eq]
    refine .call (Computes.kind.bind fun k => ?_)
    cases g.statementRule? k with
    | none => exact .fail _
    | some rule => exact .call (computes_statementCode (fun r hr => ih r (by omega)) rule)

/-- Every procedure computes a parser that advances, and the parser is its own at a cursor. -/
theorem exists_computes (g : Grammar) (p : Procedure α) (room : Nat) :
    ∃ q : Parser α, Computes (code g) room (call p) q ∧ Parser.Advances room q ∧
      ∀ c : Cursor, c.room = room → g.run p c = q c := by
  have hf := computes_factor g room
  have hs := fun r (_ : room = r + 1) => computes_statement g r
  have haf := g.factorAt_advances room
  have has := fun r (_ : room = r + 1) => g.statementAt_advances r
  cases p with
  | factor => exact ⟨_, hf, haf, fun c hc => hc ▸ rfl⟩
  | term => exact ⟨_, computes_term hf, haf.term, fun c hc => hc ▸ rfl⟩
  | expression => exact ⟨_, computes_expression hf, haf.expression, fun c hc => hc ▸ rfl⟩
  | condition => exact ⟨_, computes_condition hf, haf.condition, fun c hc => hc ▸ rfl⟩
  | assignment => exact ⟨_, computes_assignment hf, haf.assignment, fun c hc => hc ▸ rfl⟩
  | block => exact ⟨_, computes_block hs, .block has, fun c hc => hc ▸ rfl⟩
  | statement =>
    exact ⟨_, computes_statement g room, g.statementAt_advances room, fun c hc => hc ▸ rfl⟩
  | factorBy rule =>
    exact ⟨_, .call (computes_factorCode (fun r _ => computes_factor g r) rule),
      .factorRule (fun r _ => g.factorAt_advances r) rule, fun c hc => hc ▸ rfl⟩
  | statementBy rule =>
    exact ⟨_, .call (computes_statementCode hs rule), haf.statementRule has rule,
      fun c hc => hc ▸ rfl⟩

end

end Procedure

namespace Grammar

/-- **Progress and balance.** Whatever the rules of a grammar are, each of its procedures comes to
an end, with what its parser answers and with nothing else. On success tokens have been taken, at
least one, and as many levels are open as before. On failure no tokens have been given back, and no
more levels are open than may be. -/
theorem evaluates_run (g : Grammar) (p : Procedure α) {c : Cursor} (h : c.depth ≤ maxNesting) :
    (∀ r, Evaluates (Procedure.code g) (.call p) c r ↔ r = g.run p c) ∧
      (∀ a c', g.run p c = .ok a c' →
        c'.rest <:+ c.rest ∧ c'.rest.length < c.rest.length ∧ c'.depth = c.depth) ∧
      ∀ d c', g.run p c = .error d c' →
        c'.rest <:+ c.rest ∧ c.depth ≤ c'.depth ∧ c'.depth ≤ maxNesting := by
  obtain ⟨q, hcomputes, hadvances, hrun⟩ := Procedure.exists_computes g p c.room
  rw [hrun c rfl]
  have hevaluates := hcomputes.evaluates rfl
  refine ⟨fun r => ⟨fun hr => hr.unique hevaluates, ?_⟩, fun a c' hok => ?_, fun d c' herror => ?_⟩
  · rintro rfl
    exact hevaluates
  · have honward := hadvances.ok hok
    exact ⟨honward.rest, hadvances.lt hok, Nat.le_antisymm honward.depth_le honward.depth_ge⟩
  · have honward := hadvances.error herror
    refine ⟨honward.rest, honward.depth_ge, ?_⟩
    have hroom : c.depth + c.room = maxNesting := Nat.add_sub_cancel' h
    exact hroom ▸ honward.depth_le

/-- A grammar with a statement that starts with a semicolon, and a minus where the tokens end. -/
def oddSample : Grammar :=
  ((ofDialect {}).setStatementRule .semicolon .leave).setFactorRule .endOfInput .negation

/-- A semicolon. -/
def sampleToken : Token := ⟨.semicolon, ";", none, .start none⟩

/-- A cursor without room. -/
def sampleCursor (tokens : List Token) : Cursor := ⟨tokens, maxNesting, .start none⟩

theorem evaluates_run_oddSample :
    (sampleCursor [sampleToken, sampleToken]).depth ≤ maxNesting ∧
      (∀ r, Evaluates (Procedure.code oddSample) (.call .statement)
        (sampleCursor [sampleToken, sampleToken]) r ↔ r = .ok .leave (sampleCursor [])) ∧
      ∀ r, Evaluates (Procedure.code oddSample) (.call .factor) (sampleCursor []) r ↔
        r = .error (sampleCursor []).tooDeep (sampleCursor []) :=
  ⟨Nat.le_refl _, (oddSample.evaluates_run .statement (Nat.le_refl _)).1,
    (oddSample.evaluates_run .factor (Nat.le_refl _)).1⟩

end Grammar

end MiniC
