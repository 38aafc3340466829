import MiniC.Proofs.Parser.Reasons

/-!
# What a grammar reports

The parsers of a grammar report faults of a grammar only, by induction on the room. So a program
that is not accepted has a fault whose words are known, but for the text of a token
(`isOfGrammar_of_parse`).
-/

namespace MiniC

namespace Parser

section

variable {factor : Parser Expr} (h : Reports factor)

include h

/-! ### Expressions -/

/-- Expressions are chains of factors, so they report what factors do. -/
private theorem Reports.expression : Reports (expression factor) := (h.chain _).chain _

/-- The reason for a missing relational operator is one of the seven. -/
private theorem Reports.condition : Reports (condition factor) := by
  refine h.expression.bind fun _ => Reports.kind.bind fun _ => ?_
  split
  · exact .unexpectedBecause (by decide)
  · exact .skip_bind fun _ => h.expression.bind fun _ => .pure _

/-! ### Declarations and assignments -/

/-- The reason for a missing name is one of the seven. -/
private theorem Reports.declarator : Reports (declarator factor) :=
  (Reports.expectFor (by decide) _).bind fun _ =>
    (h.expression.optionalAfter _).bind fun _ => .pure _

/-- A type name that is none is reported with the token that has been taken. -/
private theorem Reports.declaration : Reports (declaration factor) := by
  refine .skip_bind fun t => ?_
  split
  · exact .throw (.unexpectedTokenDetailed _ (by decide))
  · refine h.declarator.bind fun _ => ?_
    refine (Reports.manyWhile _ (.skip_bind fun _ => h.declarator)).bind fun _ => ?_
    exact (Reports.expect _).bind fun _ => .pure _

/-- A missing target and a missing operator have a reason each. -/
private theorem Reports.assignment : Reports (assignment factor) := by
  refine (Reports.expectFor (by decide) _).bind fun _ => Reports.kind.bind fun _ => ?_
  split
  · exact .unexpectedBecause (by decide)
  · exact .skip_bind fun _ => h.expression.bind fun _ => .pure _

private theorem Reports.assignmentStatement : Reports (assignmentStatement factor) :=
  h.assignment.bind fun _ => (Reports.expect _).bind fun _ => .pure _

private theorem Reports.header : Reports (header factor) :=
  (Reports.expect _).bind fun _ => h.condition.bind fun _ =>
    (Reports.expect _).bind fun _ => .pure _

end

/-! ### Factors -/

/-- A token that is no factor is reported without a reason, also a literal whose value does not fit
its kind. -/
private theorem Reports.primary : Reports primary := by
  refine .skip_bind fun t => ?_
  split
  · exact .pure _
  · exact .throw (.unexpectedToken _)

/-- Every rule for factors reports what the factors inside it do, or that there is no level left. -/
private theorem Reports.factorRule {inside : Option (Parser Expr)} (h : ∀ p ∈ inside, Reports p)
    (rule : FactorRule) : Reports (rule.parser inside) := by
  cases rule with
  | primary => exact .primary
  | grouping =>
    exact .deeper fun p hp => .skip_bind fun _ => (h p hp).expression.bind fun _ =>
      (Reports.expect _).bind fun _ => .pure _
  | negation => exact .deeper fun p hp => .skip_bind fun _ => (h p hp).bind fun _ => .pure _

/-! ### Case labels -/

/-- A token that is no label is reported with its reason, before it is taken. -/
private theorem Reports.caseLabel : Reports caseLabel := by
  intro c d c' hrun
  rcases caseLabel_cases c with ⟨t, c₁, label, -, -, hok⟩ | ⟨-, herror⟩
  · cases hok.symm.trans hrun
  · cases herror.symm.trans hrun
    exact Fault.isOfGrammar_unexpectedBecause (by decide) c

private theorem Reports.caseClause : Reports caseClause :=
  .skip_bind fun _ => Reports.caseLabel.bind fun _ => (Reports.expect _).bind fun _ => .pure _

/-! ### Blocks and what holds them -/

section

variable {inside : Option (Parser Stmt)} (h : ∀ p ∈ inside, Reports p)

include h

/-- A block opens a level, so it may be the one that is too many. -/
private theorem Reports.block : Reports (block inside) :=
  (Reports.expect _).bind fun _ => .deeper fun p hp =>
    ((h p hp).manyWhile _).bind fun _ => (Reports.expect _).bind fun _ => .pure _

private theorem Reports.caseGroup : Reports (caseGroup inside) :=
  (Reports.caseClause.manyWhile _).bind fun _ => (Reports.block h).bind fun _ => .pure _

/-- The reason for a missing name to switch on is one of the seven. -/
private theorem Reports.switch : Reports (switch inside) := by
  have hdefault := (Reports.expect .colon).bind fun _ => Reports.block h
  refine .skip_bind fun _ => (Reports.expect _).bind fun _ => ?_
  refine (Reports.expectFor (by decide) _).bind fun _ => ?_
  refine (Reports.expect _).bind fun _ => (Reports.expect _).bind fun _ => ?_
  refine ((Reports.caseGroup h).manyWhile _).bind fun _ => ?_
  refine (hdefault.optionalAfter _).bind fun _ => ?_
  exact (Reports.expect _).bind fun _ => .pure _

variable {factor : Parser Expr} (hfactor : Reports factor)

include hfactor

private theorem Reports.conditional : Reports (conditional factor inside) :=
  .skip_bind fun _ => hfactor.header.bind fun _ => (Reports.block h).bind fun _ =>
    ((Reports.block h).optionalAfter _).bind fun _ => .pure _

private theorem Reports.whileLoop : Reports (whileLoop factor inside) :=
  .skip_bind fun _ => hfactor.header.bind fun _ => (Reports.block h).bind fun _ => .pure _

private theorem Reports.forLoop : Reports (forLoop factor inside) := by
  refine .skip_bind fun _ => (Reports.expect _).bind fun _ => ?_
  refine hfactor.assignment.bind fun _ => (Reports.expect _).bind fun _ => ?_
  refine hfactor.condition.bind fun _ => (Reports.expect _).bind fun _ => ?_
  refine hfactor.assignment.bind fun _ => (Reports.expect _).bind fun _ => ?_
  exact (Reports.block h).bind fun _ => .pure _

/-- Every rule for statements reports what the factors and the statements inside it do. -/
private theorem Reports.statementRule (rule : StatementRule) :
    Reports (rule.parser factor inside) := by
  cases rule with
  | declaration => exact hfactor.declaration
  | assignment => exact hfactor.assignmentStatement
  | conditional => exact .conditional h hfactor
  | switch => exact .switch h
  | whileLoop => exact .whileLoop h hfactor
  | forLoop => exact .forLoop h hfactor
  | leave => exact .skip_bind fun _ => (Reports.expect _).bind fun _ => .pure _

end

end Parser

namespace Grammar

open MiniC.Parser

/-! ### The parsers of a grammar -/

/-- A token that no rule starts with is reported without a reason. -/
private theorem factorOver_reports (g : Grammar) {inside : Option (Parser Expr)}
    (h : ∀ p ∈ inside, Reports p) : Reports (g.factorOver inside) := by
  refine Reports.kind.bind fun _ => ?_
  split
  · exact .factorRule h _
  · exact .unexpected

/-- Factors report faults of a grammar only, whatever the rules for factors are. -/
theorem factorAt_reports (g : Grammar) (room : Nat) : Reports (g.factorAt room) := by
  induction room with
  | zero => exact g.factorOver_reports nofun
  | succ room ih =>
    refine g.factorOver_reports ?_
    rintro _ ⟨⟩
    exact ih

private theorem statementOver_reports (g : Grammar) {factor : Parser Expr}
    (hfactor : Reports factor) {inside : Option (Parser Stmt)} (h : ∀ p ∈ inside, Reports p) :
    Reports (g.statementOver factor inside) := by
  refine Reports.kind.bind fun _ => ?_
  split
  · exact .statementRule h hfactor _
  · exact .unexpected

/-- Statements report faults of a grammar only, whatever the rules are. -/
theorem statementAt_reports (g : Grammar) (room : Nat) : Reports (g.statementAt room) := by
  induction room with
  | zero => exact g.statementOver_reports (g.factorAt_reports 0) nofun
  | succ room ih =>
    refine g.statementOver_reports (g.factorAt_reports (room + 1)) ?_
    rintro _ ⟨⟩
    exact ih

end Grammar

/-- **Reasons.** A program that is not accepted has a fault of a grammar: the reason, if one is
given, is one of seven. -/
theorem isOfGrammar_of_parse {dialect : Dialect} {unit : Option String} {tokens : List Token}
    {d : Diagnostic} (h : parse dialect unit tokens = .error d) : d.fault.IsOfGrammar := by
  have hreports : Parser.Reports (Grammar.ofDialect dialect).statements :=
    .manyWhile _ (Grammar.statementAt_reports _ _)
  rw [parse] at h
  split at h <;> cases h
  exact hreports _ _ _ ‹_›

end MiniC
