import MiniC.Proofs.Parser.Progress

/-!
# Progress of grammars

Every parser of a grammar advances with the room it is given, whatever the rules of the grammar are:
on success it has taken at least one token and closed the levels it opened, and a failure leaves at
most as many levels open as there was room for (`Grammar.factorAt_advances`,
`Grammar.statementAt_advances`).
-/

namespace MiniC

namespace Parser

variable {room : Nat} {factor : Parser Expr} {level : Nat → Parser Expr}
  {statement : Nat → Parser Stmt}

/-! ### Expressions -/

theorem Advances.term (h : Advances room factor) : Advances room (term factor) := h.chain rfl

/-- An expression takes its first factor at least, and closes what its factors opened. -/
theorem Advances.expression (h : Advances room factor) : Advances room (expression factor) :=
  h.term.chain rfl

/-- A condition takes its left side before it can fail for want of an operator. -/
theorem Advances.condition (h : Advances room factor) : Advances room (condition factor) := by
  refine h.expression.bind fun left => Moves.kind.bind fun k => ?_
  split
  · exact (Advances.fail _).toMoves
  · refine Advances.advance.toMoves.bind fun _ => ?_
    exact h.expression.toMoves.bind fun _ => .pure _

/-- An identifier or a literal is one token and no level. -/
theorem Advances.primary : Advances room primary := by
  refine Advances.advance.bind fun t => ?_
  split
  · exact .pure _
  · exact .throw _

/-- A group has one level less for what is inside, and closes its own after the parenthesis. -/
theorem Advances.grouping (h : ∀ r, room = r + 1 → Advances r (level r)) :
    Advances room (grouping (below level room)) := by
  refine Advances.deeper fun r hr => Advances.advance.bind fun _ => ?_
  exact (h r hr).expression.toMoves.bind fun _ => (Advances.expect _).toMoves.bind fun _ => .pure _

/-- A minus has one level less for its operand. -/
theorem Advances.negation (h : ∀ r, room = r + 1 → Advances r (level r)) :
    Advances room (negation (below level room)) := by
  refine Advances.deeper fun r hr => Advances.advance.bind fun _ => ?_
  exact (h r hr).toMoves.bind fun _ => .pure _

/-! ### Declarations and assignments -/

theorem Advances.declarator (h : Advances room factor) : Advances room (declarator factor) :=
  (Advances.expectFor ..).bind fun _ => (h.expression.toMoves.optionalAfter _).bind fun _ => .pure _

/-- A declaration takes its type word before it can fail for want of a type. -/
theorem Advances.declaration (h : Advances room factor) : Advances room (declaration factor) := by
  refine Advances.advance.bind fun t => ?_
  split
  · exact .throw _
  · refine h.declarator.toMoves.bind fun _ => ?_
    refine (Moves.manyWhile _ (Advances.advance.toMoves.bind fun _ =>
      h.declarator.toMoves)).bind fun _ => ?_
    exact (Advances.expect _).toMoves.bind fun _ => .pure _

theorem Advances.assignment (h : Advances room factor) : Advances room (assignment factor) := by
  refine (Advances.expectFor ..).bind fun _ => Moves.kind.bind fun _ => ?_
  split
  · exact (Advances.fail _).toMoves
  · refine Advances.advance.toMoves.bind fun _ => ?_
    exact h.expression.toMoves.bind fun _ => .pure _

theorem Advances.assignmentStatement (h : Advances room factor) :
    Advances room (assignmentStatement factor) :=
  h.assignment.bind fun _ => (Advances.expect _).toMoves.bind fun _ => .pure _

/-! ### Blocks and what holds them -/

/-- A block takes its brace before it opens a level, so it has moved on even if there is no level
left. -/
theorem Advances.block (h : ∀ r, room = r + 1 → Advances r (statement r)) :
    Advances room (block (below statement room)) := by
  refine (Advances.expect _).bind fun _ => ?_
  cases room with
  | zero => exact (Advances.fail _).toMoves
  | succ r =>
    refine Moves.opened ((Moves.manyWhile _ (h r rfl).toMoves).bind fun _ => ?_)
    exact (Advances.expect _).toMoves.bind fun _ => .pure _

theorem Advances.header (h : Advances room factor) : Advances room (header factor) := by
  refine (Advances.expect _).bind fun _ => h.condition.toMoves.bind fun _ => ?_
  exact (Advances.expect _).toMoves.bind fun _ => .pure _

theorem Advances.conditional (h : Advances room factor)
    (hs : ∀ r, room = r + 1 → Advances r (statement r)) :
    Advances room (conditional factor (below statement room)) := by
  refine Advances.advance.bind fun _ => h.header.toMoves.bind fun _ => ?_
  refine (Advances.block hs).toMoves.bind fun _ => ?_
  exact ((Advances.block hs).toMoves.optionalAfter _).bind fun _ => .pure _

/-- A label is one token and no level. -/
theorem Advances.caseLabel : Advances room caseLabel where
  ok {c a c'} h := by
    rcases caseLabel_cases c with ⟨t, c₁, label, rfl, -, heq⟩ | ⟨-, heq⟩
    · cases heq.symm.trans h
      exact ⟨List.suffix_cons .., rfl, Nat.le_refl _, Nat.le_refl _⟩
    · cases heq.symm.trans h
  error {c d c'} h := by
    rcases caseLabel_cases c with ⟨t, c₁, label, -, -, heq⟩ | ⟨-, heq⟩
    · cases heq.symm.trans h
    · cases heq.symm.trans h
      exact .refl ..
  lt {c a c'} h := by
    rcases caseLabel_cases c with ⟨t, c₁, label, rfl, -, heq⟩ | ⟨-, heq⟩
    · cases heq.symm.trans h
      exact Nat.lt_succ_self _
    · cases heq.symm.trans h

theorem Advances.caseClause : Advances room caseClause :=
  Advances.advance.bind fun _ => Advances.caseLabel.toMoves.bind fun _ =>
    (Advances.expect _).toMoves.bind fun _ => .pure _

/-- The labels of a group may be missing as far as its parser goes; the block may not. -/
theorem Advances.caseGroup (hs : ∀ r, room = r + 1 → Advances r (statement r)) :
    Advances room (caseGroup (below statement room)) :=
  (Moves.manyWhile _ Advances.caseClause.toMoves).bind_advances fun _ =>
    (Advances.block hs).bind fun _ => .pure _

/-- The braces of a switch are no level: only the blocks inside are. -/
theorem Advances.switch (hs : ∀ r, room = r + 1 → Advances r (statement r)) :
    Advances room (switch (below statement room)) := by
  refine Advances.advance.bind fun _ => (Advances.expect _).toMoves.bind fun _ => ?_
  refine (Advances.expectFor ..).toMoves.bind fun _ => (Advances.expect _).toMoves.bind fun _ => ?_
  refine (Advances.expect _).toMoves.bind fun _ => ?_
  refine (Moves.manyWhile _ (Advances.caseGroup hs).toMoves).bind fun _ => ?_
  refine (Moves.optionalAfter _ ?_).bind fun _ => ?_
  · exact (Advances.expect _).toMoves.bind fun _ => (Advances.block hs).toMoves
  · exact (Advances.expect _).toMoves.bind fun _ => .pure _

theorem Advances.whileLoop (h : Advances room factor)
    (hs : ∀ r, room = r + 1 → Advances r (statement r)) :
    Advances room (whileLoop factor (below statement room)) :=
  Advances.advance.bind fun _ => h.header.toMoves.bind fun _ =>
    (Advances.block hs).toMoves.bind fun _ => .pure _

theorem Advances.forLoop (h : Advances room factor)
    (hs : ∀ r, room = r + 1 → Advances r (statement r)) :
    Advances room (forLoop factor (below statement room)) := by
  refine Advances.advance.bind fun _ => (Advances.expect _).toMoves.bind fun _ => ?_
  refine h.assignment.toMoves.bind fun _ => (Advances.expect _).toMoves.bind fun _ => ?_
  refine h.condition.toMoves.bind fun _ => (Advances.expect _).toMoves.bind fun _ => ?_
  refine h.assignment.toMoves.bind fun _ => (Advances.expect _).toMoves.bind fun _ => ?_
  exact (Advances.block hs).toMoves.bind fun _ => .pure _

theorem Advances.leave : Advances room leave :=
  Advances.advance.bind fun _ => (Advances.expect _).toMoves.bind fun _ => .pure _

/-! ### Rules -/

/-- Every rule for factors advances with the room that is left for what is inside. -/
theorem Advances.factorRule (h : ∀ r, room = r + 1 → Advances r (level r)) (rule : FactorRule) :
    Advances room (rule.parser (below level room)) := by
  cases rule with
  | primary => exact .primary
  | grouping => exact .grouping h
  | negation => exact .negation h

/-- Every rule for statements advances with the room that is left for what is inside. -/
theorem Advances.statementRule (h : Advances room factor)
    (hs : ∀ r, room = r + 1 → Advances r (statement r)) (rule : StatementRule) :
    Advances room (rule.parser factor (below statement room)) := by
  cases rule with
  | declaration => exact h.declaration
  | assignment => exact h.assignmentStatement
  | conditional => exact h.conditional hs
  | switch => exact .switch hs
  | whileLoop => exact h.whileLoop hs
  | forLoop => exact h.forLoop hs
  | leave => exact .leave

end Parser

namespace Grammar

open MiniC.Parser

/-- A factor advances, whatever the rules for factors are. -/
theorem factorAt_advances (g : Grammar) (room : Nat) : Advances room (g.factorAt room) := by
  induction room using Nat.strongRecOn with
  | ind room ih =>
    have hlevel : ∀ r, room = r + 1 → Advances r (g.factorAt r) := fun r hr => ih r (by omega)
    rw [factorAt_eq]
    refine Moves.kind.bind_advances fun k => ?_
    split
    · exact .factorRule hlevel _
    · exact .fail _

/-- A statement advances, whatever the rules are. -/
theorem statementAt_advances (g : Grammar) (room : Nat) : Advances room (g.statementAt room) := by
  induction room using Nat.strongRecOn with
  | ind room ih =>
    have hlevel : ∀ r, room = r + 1 → Advances r (g.statementAt r) := fun r hr => ih r (by omega)
    rw [statementAt_eq]
    refine Moves.kind.bind_advances fun k => ?_
    split
    · exact (g.factorAt_advances room).statementRule hlevel _
    · exact .fail _

end Grammar

end MiniC
