import MiniC.Proofs.Grammar.Progress
import MiniC.Proofs.Parser.Lookahead

/-!
# Lookahead of the parsers of a dialect

Every parser of `Grammar.ofDialect` is predictive: `Grammar.factorAt_predictive` and
`Grammar.statementAt_predictive`, by induction on the room, and `Grammar.statements_predictive` for
programs. So no parser looks further than the token after the tokens it takes, and a token that a
parser blames is the first one that the parser could not go on with.

Two tokens are blamed after they have been taken: a literal whose value does not fit its kind, and a
type name that is none.
-/

namespace MiniC

variable {dialect : Dialect} {room : Nat}

namespace Parser

variable {factor : Parser Expr} {level : Nat → Parser Expr} {statement : Nat → Parser Stmt}

section

variable (hadv : Advances room factor) (h : Predictive factor)

include hadv h

/-! ### Expressions -/

/-- The token after an operand tells whether the chain goes on. -/
private theorem Predictive.expression : Predictive (expression factor) :=
  .chain rfl hadv.term (.chain rfl hadv h)

/-- The token after the left side has to be an operator, or it is to blame. -/
private theorem Predictive.condition : Predictive (condition factor) := by
  have hexpr := Predictive.expression hadv h
  refine hexpr.bind fun left => Predictive.kind.bind fun k => ?_
  split
  · exact .unexpectedBecause _
  · exact .skip_bind fun _ => (hexpr.bind fun right => .pure _).toSettles

/-! ### Declarations and assignments -/

/-- The token after the name tells whether there is an initializer. -/
private theorem Predictive.declarator : Predictive (declarator factor) := by
  refine .expectFor_bind _ _ fun name => ?_
  exact (((Predictive.expression hadv h).optionalAfter _).bind fun _ => .pure _).toSettles

/-- A type name that is none is blamed after it has been taken. -/
private theorem Predictive.declaration : Predictive (declaration factor) := by
  have hdeclarator := Predictive.declarator hadv h
  have hmore : Predictive (Parser.manyWhile (fun c => c.kind = .comma)
      (advance >>= fun _ => Parser.declarator factor)) :=
    .manyWhile_kind (fun k => k = .comma) (Advances.advance.bind fun _ => hadv.declarator.toMoves)
      (.skip_bind fun _ => hdeclarator.toSettles)
  refine .advance_bind fun t => ?_
  split
  · exact .inr ⟨_, ⟨rfl, rfl⟩, rfl⟩
  · refine .inl (hdeclarator.bind fun first => hmore.bind fun more => ?_).toSettles
    exact .expect_bind _ fun _ => (Predictive.pure _).toSettles

/-- The token after the target has to be an operator, or it is to blame. -/
private theorem Predictive.assignment : Predictive (assignment factor) := by
  have hexpr := Predictive.expression hadv h
  refine .expectFor_bind _ _ fun target => (Predictive.kind.bind fun k => ?_).toSettles
  split
  · exact .unexpectedBecause _
  · exact .skip_bind fun _ => (hexpr.bind fun value => .pure _).toSettles

private theorem Predictive.assignmentStatement : Predictive (assignmentStatement factor) :=
  (Predictive.assignment hadv h).bind fun _ =>
    .expect_bind _ fun _ => (Predictive.pure _).toSettles

private theorem Predictive.header : Predictive (header factor) := by
  refine .expect_bind _ fun _ => ((Predictive.condition hadv h).bind fun _ => ?_).toSettles
  exact .expect_bind _ fun _ => (Predictive.pure _).toSettles

end

/-! ### Factors -/

/-- A literal whose value does not fit its kind is blamed after it has been taken. -/
private theorem Predictive.primary : Predictive primary := by
  refine .advance_bind fun t => ?_
  split
  · exact .inl (Predictive.pure _).toSettles
  · exact .inr ⟨_, ⟨rfl, rfl⟩, rfl⟩

/-- A group is entered only before its parenthesis, so it need not come to the end by itself. -/
private theorem Settles.grouping (hadv : ∀ r, Advances r (level r))
    (h : ∀ r, room = r + 1 → Predictive (level r)) : Settles (grouping (below level room)) := by
  refine .deeper fun r hr => (Predictive.skip_bind fun _ => ?_).toSettles
  refine ((Predictive.expression (hadv r) (h r hr)).bind fun _ => ?_).toSettles
  exact .expect_bind _ fun _ => (Predictive.pure _).toSettles

/-- A minus is entered only where it stands, like a group. -/
private theorem Settles.negation (h : ∀ r, room = r + 1 → Predictive (level r)) :
    Settles (negation (below level room)) :=
  .deeper fun r hr => (Predictive.skip_bind fun _ =>
    ((h r hr).bind fun _ => .pure _).toSettles).toSettles

/-! ### Blocks and what holds them -/

section

variable (hadv : ∀ r, Advances r (statement r))
  (h : ∀ r, room = r + 1 → Predictive (statement r))

include hadv h

/-- A block that is begun after its brace has been seen needs no brace to come to the end. -/
private theorem Predictive.block : Predictive (block (below statement room)) := by
  refine .expect_bind _ fun _ => .deeper fun r hr => ?_
  refine ((Predictive.manyWhile_kind (fun k => k ≠ .closeCurly) (hadv r) (h r hr)).bind
    fun _ => ?_).toSettles
  exact .expect_bind _ fun _ => (Predictive.pure _).toSettles

/-- The token after a colon tells whether another label follows. -/
private theorem Predictive.caseGroup : Predictive (caseGroup (below statement room)) := by
  have hclause : Predictive Parser.caseClause := by
    refine .skip_bind fun _ => (Predictive.caseLabel_bind fun _ => ?_).toSettles
    exact (Predictive.expect_bind _ fun _ => (Predictive.pure _).toSettles).toSettles
  have hadvClause : Advances room Parser.caseClause := .caseClause
  refine (Predictive.manyWhile_kind (fun k => k = .caseWord) hadvClause hclause).bind fun _ => ?_
  exact (Predictive.block hadv h).bind fun _ => .pure _

/-- The token after a group tells whether another one follows, or the default, or the end. -/
private theorem Predictive.switch : Predictive (switch (below statement room)) := by
  have hgroup : Advances room (Parser.caseGroup (below statement room)) :=
    .caseGroup fun r _ => hadv r
  refine .skip_bind fun _ => (Predictive.expect_bind _ fun _ => ?_).toSettles
  refine (Predictive.expectFor_bind _ _ fun _ => ?_).toSettles
  refine (Predictive.expect_bind _ fun _ => ?_).toSettles
  refine (Predictive.expect_bind _ fun _ => ?_).toSettles
  refine ((Predictive.manyWhile_kind (fun k => k = .caseWord) hgroup
    (.caseGroup hadv h)).bind fun _ => ?_).toSettles
  refine (Predictive.optionalAfter _ (.expect_bind _ fun _ => ?_)).bind fun _ => ?_
  · exact (Predictive.block hadv h).toSettles
  · exact .expect_bind _ fun _ => (Predictive.pure _).toSettles

/-- The token after the first block tells whether there is a second one. -/
private theorem Predictive.conditional (hadv' : Advances room factor)
    (hfactor : Predictive factor) : Predictive (conditional factor (below statement room)) := by
  have hblock := Predictive.block hadv h
  refine .skip_bind fun _ => ((Predictive.header hadv' hfactor).bind fun _ => ?_).toSettles
  exact hblock.bind fun _ => (hblock.optionalAfter _).bind fun _ => .pure _

private theorem Predictive.whileLoop (hadv' : Advances room factor) (hfactor : Predictive factor) :
    Predictive (whileLoop factor (below statement room)) := by
  refine .skip_bind fun _ => ((Predictive.header hadv' hfactor).bind fun _ => ?_).toSettles
  exact (Predictive.block hadv h).bind fun _ => .pure _

/-- The parts of a loop's header are told apart by what they have to end with. -/
private theorem Predictive.forLoop (hadv' : Advances room factor) (hfactor : Predictive factor) :
    Predictive (forLoop factor (below statement room)) := by
  have hassignment := Predictive.assignment hadv' hfactor
  refine .skip_bind fun _ => (Predictive.expect_bind _ fun _ => ?_).toSettles
  refine (hassignment.bind fun _ => .expect_bind _ fun _ => ?_).toSettles
  refine ((Predictive.condition hadv' hfactor).bind fun _ => .expect_bind _ fun _ => ?_).toSettles
  refine (hassignment.bind fun _ => .expect_bind _ fun _ => ?_).toSettles
  exact ((Predictive.block hadv h).bind fun _ => .pure _).toSettles

end

private theorem Predictive.leave : Predictive leave :=
  .skip_bind fun _ =>
    (Predictive.expect_bind _ fun _ => (Predictive.pure _).toSettles).toSettles

end Parser

namespace Grammar

open MiniC.Parser

/-! ### The parsers of a dialect -/

/-- The next token tells which rule for factors applies, so factors are predictive. -/
theorem factorAt_predictive (dialect : Dialect) (room : Nat) :
    Predictive ((ofDialect dialect).factorAt room) := by
  induction room using Nat.strongRecOn with
  | ind room ih =>
    have hadv := (ofDialect dialect).factorAt_advances
    have hlevel : ∀ r, room = r + 1 → Predictive ((ofDialect dialect).factorAt r) :=
      fun r hr => ih r (by omega)
    rw [factorAt_eq]
    -- At the end no rule is chosen, so no rule has to come to the end by itself.
    refine .kind_bind Predictive.unexpected.atEnd fun k => ?_
    split
    · rename_i rule _
      cases rule with
      | primary => exact Predictive.primary.toSettles
      | grouping => exact .grouping hadv hlevel
      | negation => exact .negation hlevel
    · exact Predictive.unexpected.toSettles

/-- The next token tells which rule for statements applies, so statements are predictive. -/
theorem statementAt_predictive (dialect : Dialect) (room : Nat) :
    Predictive ((ofDialect dialect).statementAt room) := by
  induction room using Nat.strongRecOn with
  | ind room ih =>
    have hadv := (ofDialect dialect).statementAt_advances
    have hadv' := (ofDialect dialect).factorAt_advances room
    have hfactor := factorAt_predictive dialect room
    have hlevel : ∀ r, room = r + 1 → Predictive ((ofDialect dialect).statementAt r) :=
      fun r hr => ih r (by omega)
    rw [statementAt_eq]
    refine .kind_bind Predictive.unexpected.atEnd fun k => ?_
    split
    · rename_i rule _
      cases rule with
      | declaration => exact (Predictive.declaration hadv' hfactor).toSettles
      | assignment => exact (Predictive.assignmentStatement hadv' hfactor).toSettles
      | conditional => exact (Predictive.conditional hadv hlevel hadv' hfactor).toSettles
      | switch => exact (Predictive.switch hadv hlevel).toSettles
      | whileLoop => exact (Predictive.whileLoop hadv hlevel hadv' hfactor).toSettles
      | forLoop => exact (Predictive.forLoop hadv hlevel hadv' hfactor).toSettles
      | leave => exact Predictive.leave.toSettles
    · exact Predictive.unexpected.toSettles

/-- Statements follow each other as long as there are tokens, so units are predictive. -/
theorem statements_predictive (dialect : Dialect) :
    Predictive (ofDialect dialect).statements :=
  .manyWhile Cursor.hasTokens_eq_of_current?
    ((ofDialect dialect).statementAt_advances maxNesting)
    (statementAt_predictive dialect maxNesting)

/-- What is made of the beginning of a unit does not depend on what comes later, or it comes to the
end of the beginning. -/
theorem statements_incremental (dialect : Dialect) :
    Incremental (ofDialect dialect).statements :=
  (statements_predictive dialect).toIncremental

end Grammar

end MiniC
