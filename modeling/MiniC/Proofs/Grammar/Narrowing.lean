import MiniC.Proofs.Grammar.Soundness
import MiniC.Proofs.Parser.Narrowing

/-!
# Dialects with and without a prefix minus

The parsers of a dialect narrow those of a dialect that has a prefix minus if the first one does:
`Grammar.factorAt_narrows` and `Grammar.statementAt_narrows`, by induction on the room, and
`Grammar.statements_narrows` for programs. They part only where a factor starts with a minus. That
is a place that no operand ends at, so the minus is the first prefix minus: every other minus that
has been taken was an operator after an operand.

A dialect narrows itself too, which says where its diagnostics are raised.
-/

namespace MiniC

/-! ### Operators between operands -/

/-- After an operator, a minus would be a prefix minus. -/
private theorem BinaryOp.endsOperand_of_additive? {k : Kind} {op : BinaryOp}
    (h : additive? k = some op) : k.endsOperand = false := by
  cases k <;> first | rfl | cases h

private theorem BinaryOp.endsOperand_of_multiplicative? {k : Kind} {op : BinaryOp}
    (h : multiplicative? k = some op) : k.endsOperand = false := by
  cases k <;> first | rfl | cases h

/-- A relational operator is no minus, and a minus after it would be a prefix minus. -/
private theorem RelOp.endsOperand_of_ofKind? {k : Kind} {op : RelOp} (h : ofKind? k = some op) :
    k ≠ .dash ∧ k.endsOperand = false := by
  cases k <;> first | exact ⟨by decide, rfl⟩ | cases h

private theorem AssignOp.endsOperand_of_ofKind? {k : Kind} {op : AssignOp}
    (h : ofKind? k = some op) : k ≠ .dash ∧ k.endsOperand = false := by
  cases k <;> first | exact ⟨by decide, rfl⟩ | cases h

namespace Parser

variable {minus after : Bool} {room : Nat} {k : Kind} {factor factor₁ : Parser Expr}
  {level level₁ : Nat → Parser Expr} {statement statement₁ : Nat → Parser Stmt}

section

variable (h : Narrows minus false AfterOperand factor factor₁)

include h

/-! ### Expressions -/

/-- The minus of a difference comes after an operand, so both parsers take it. -/
private theorem Narrows.expression :
    Narrows minus false AfterOperand (expression factor) (expression factor₁) := by
  refine .chain (fun k op => BinaryOp.endsOperand_of_additive?) ?_
  exact .chain (fun k op => BinaryOp.endsOperand_of_multiplicative?) h

/-- The parts of a condition start after no operand. -/
private theorem Narrows.condition :
    Narrows minus false AfterOperand (condition factor) (condition factor₁) := by
  refine h.expression.operand_bind fun left => .kind_bind fun k => ?_
  split
  · exact Narrows.unexpectedBecause (by decide) k
  · rename_i op hop
    obtain ⟨hk, hends⟩ := RelOp.endsOperand_of_ofKind? hop
    refine .skip_bind hk fun _ => ?_
    rw [hends]
    exact h.expression.operand_bind fun right => .pure afterOperand_true _

/-! ### Declarations and assignments -/

/-- Where a declarator ends is left open, for its value is optional. -/
private theorem Narrows.declarator :
    Narrows minus after Anywhere (declarator factor) (declarator factor₁) := by
  refine .expectFor_bind (by decide) (by decide) fun _ => ?_
  exact (Narrows.optionalAfter (by decide) h.expression).part_bind fun _ _ => .pure trivial _

/-- A declaration fails at its type word only if the token is not shaped. -/
private theorem NarrowsFor.declaration :
    NarrowsFor minus after .type Anywhere (declaration factor) (declaration factor₁) := by
  refine .advance_bind nofun fun t ht => ?_
  split
  · rename_i hnone
    -- The name of a type is unknown only if the token is not shaped.
    refine .inr ⟨fun hshape => ?_, _, rfl, rfl⟩
    have hsome := hshape.isSome_typeName ht
    rw [hnone] at hsome
    cases hsome
  · refine .inl (h.declarator.part_bind fun first _ => ?_)
    have hmore (k : Kind) (after : Bool) (hk : decide (k = .comma) = true) :
        NarrowsFor minus after k Anywhere (advance >>= fun _ => Parser.declarator factor)
          (advance >>= fun _ => Parser.declarator factor₁) := by
      rw [of_decide_eq_true hk]
      exact .skip_bind (by decide) fun _ => h.declarator
    refine (Narrows.manyWhile_kind hmore).part_bind fun more _ => ?_
    exact .expect_bind (by decide) fun _ => .pure trivial _

/-- A minus after the assignment operator is a prefix minus. -/
private theorem Narrows.assignment :
    Narrows minus after AfterOperand (assignment factor) (assignment factor₁) := by
  refine .expectFor_bind (by decide) (by decide) fun _ => .kind_bind fun k => ?_
  split
  · exact Narrows.unexpectedBecause (by decide) k
  · rename_i op hop
    obtain ⟨hk, hends⟩ := AssignOp.endsOperand_of_ofKind? hop
    refine .skip_bind hk fun _ => ?_
    rw [hends]
    exact h.expression.operand_bind fun value => .pure afterOperand_true _

private theorem Narrows.assignmentStatement :
    Narrows minus after Anywhere (assignmentStatement factor) (assignmentStatement factor₁) :=
  h.assignment.operand_bind fun _ => .expect_bind (by decide) fun _ => .pure trivial _

private theorem Narrows.header :
    Narrows minus after Anywhere (header factor) (header factor₁) :=
  .expect_bind (by decide) fun _ => h.condition.operand_bind fun _ =>
    .expect_bind (by decide) fun _ => .pure trivial _

end

/-! ### Factors -/

/-- An identifier or a literal that is shaped is always a factor. -/
private theorem NarrowsFor.primary (hk : k ∈ Kind.identifier :: Kind.literals) :
    NarrowsFor minus after k AfterOperand primary primary := by
  have hkind : k ≠ .dash ∧ k.endsOperand = true := by
    revert hk
    cases k <;> decide
  refine .advance_bind (fun hdash => absurd hdash hkind.1) fun t ht => ?_
  rw [hkind.2]
  split
  · exact .inl (.pure afterOperand_true _)
  · rename_i hnone
    refine .inr ⟨fun hshape => ?_, _, rfl, rfl⟩
    obtain ⟨e, hsome⟩ := hshape.exists_expr? (ht ▸ hk)
    rw [hnone] at hsome
    cases hsome

/-- Inside a group, a minus that comes first is a prefix minus. -/
private theorem NarrowsFor.grouping
    (h : ∀ r, room = r + 1 → Narrows minus false AfterOperand (level r) (level₁ r)) :
    NarrowsFor minus false .openParen AfterOperand (grouping (below level room))
      (grouping (below level₁ room)) :=
  .deeper fun r hr => .skip_bind (by decide) fun _ => (h r hr).expression.operand_bind fun _ =>
    .expect_bind (by decide) fun _ => .pure afterOperand_true _

/-- A minus is taken by both parsers only if the first one has a prefix minus. -/
private theorem NarrowsFor.negation (hminus : minus = true)
    (h : ∀ r, room = r + 1 → Narrows minus false AfterOperand (level r) (level₁ r)) :
    NarrowsFor minus false .dash AfterOperand (negation (below level room))
      (negation (below level₁ room)) :=
  .deeper fun r hr => .advance_bind (fun _ => .inr hminus) fun _ _ => .inl <|
    (h r hr).operand_bind fun _ => .pure afterOperand_true _

/-! ### Blocks and what holds them -/

section

variable (h : ∀ r, room = r + 1 → ∀ after,
  Narrows minus after Anywhere (statement r) (statement₁ r))

include h

/-- No statement starts with a minus, so a block starts its statements anywhere. -/
private theorem Narrows.block : Narrows minus after Anywhere (block (below statement room))
    (block (below statement₁ room)) := by
  refine .expect_bind (by decide) fun _ _ => .deeper fun r hr => ?_
  refine Narrows.part_bind (.manyWhile fun _ => (h r hr _).narrowed _) (fun _ _ => ?_) _
  exact .expect_bind (by decide) fun _ => .pure trivial _

private theorem Narrows.caseGroup :
    Narrows minus after Anywhere (caseGroup (below statement room))
      (caseGroup (below statement₁ room)) := by
  have hclause (k : Kind) (after : Bool) (hk : decide (k = .caseWord) = true) :
      NarrowsFor minus after k Anywhere caseClause caseClause := by
    rw [of_decide_eq_true hk]
    exact .skip_bind (by decide) fun _ => Narrows.caseLabel.part_bind fun _ _ =>
      .expect_bind (by decide) fun _ => .pure trivial _
  refine (Narrows.manyWhile_kind hclause).part_bind fun _ _ => ?_
  exact (Narrows.block h).part_bind fun _ _ => .pure trivial _

private theorem NarrowsFor.switch (hk : k ≠ .dash) :
    NarrowsFor minus after k Anywhere (switch (below statement room))
      (switch (below statement₁ room)) := by
  refine .skip_bind hk fun _ => .expect_bind (by decide) fun _ => ?_
  refine .expectFor_bind (by decide) (by decide) fun _ => ?_
  refine .expect_bind (by decide) fun _ => .expect_bind (by decide) fun _ => ?_
  refine Narrows.part_bind (.manyWhile fun _ => (Narrows.caseGroup h).narrowed _) fun _ _ => ?_
  refine (Narrows.optionalAfter (by decide) (.expect_bind (by decide) fun _ =>
    .block h)).part_bind fun _ _ => ?_
  exact .expect_bind (by decide) fun _ => .pure trivial _

private theorem NarrowsFor.conditional (hk : k ≠ .dash)
    (hfactor : Narrows minus false AfterOperand factor factor₁) :
    NarrowsFor minus after k Anywhere (conditional factor (below statement room))
      (conditional factor₁ (below statement₁ room)) := by
  refine .skip_bind hk fun _ => hfactor.header.part_bind fun _ _ => ?_
  refine (Narrows.block h).part_bind fun _ _ => ?_
  exact (Narrows.optionalAfter (by decide) (.block h)).part_bind fun _ _ => .pure trivial _

private theorem NarrowsFor.whileLoop (hk : k ≠ .dash)
    (hfactor : Narrows minus false AfterOperand factor factor₁) :
    NarrowsFor minus after k Anywhere (whileLoop factor (below statement room))
      (whileLoop factor₁ (below statement₁ room)) := by
  refine .skip_bind hk fun _ => hfactor.header.part_bind fun _ _ => ?_
  exact (Narrows.block h).part_bind fun _ _ => .pure trivial _

private theorem NarrowsFor.forLoop (hk : k ≠ .dash)
    (hfactor : Narrows minus false AfterOperand factor factor₁) :
    NarrowsFor minus after k Anywhere (forLoop factor (below statement room))
      (forLoop factor₁ (below statement₁ room)) := by
  refine .skip_bind hk fun _ => .expect_bind (by decide) fun _ => ?_
  refine hfactor.assignment.operand_bind fun _ => .expect_bind (by decide) fun _ => ?_
  refine hfactor.condition.operand_bind fun _ => .expect_bind (by decide) fun _ => ?_
  refine hfactor.assignment.operand_bind fun _ => .expect_bind (by decide) fun _ => ?_
  exact (Narrows.block h).part_bind fun _ _ => .pure trivial _

end

private theorem NarrowsFor.leave (hk : k ≠ .dash) : NarrowsFor minus after k Anywhere leave leave :=
  .skip_bind hk fun _ => .expect_bind (by decide) fun _ => .pure trivial _

end Parser

namespace Grammar

open MiniC.Parser

variable {dialect dialect₁ : Dialect}

/-! ### Rules of two dialects -/

/-- An identifier or a literal is chosen by the kinds of those. -/
theorem kind_of_primary {k : Kind} (h : (ofDialect dialect).factorRule? k = some .primary) :
    k ∈ Kind.identifier :: Kind.literals := by
  unfold ofDialect at h
  cases k <;> simp_all [Kind.literals]

/-- A dialect has no rule for a minus that it does not have. -/
private theorem factorRule?_dash (h : dialect.unaryMinus = false) :
    (ofDialect dialect).factorRule? .dash = none := by
  simp [ofDialect, h]

section

variable (h : dialect.unaryMinus = true → dialect₁.unaryMinus = true)

include h

/-- The rules of two dialects differ for a minus only. -/
private theorem factorRule?_eq {k : Kind} (hk : ¬(k = .dash ∧ dialect.unaryMinus = false)) :
    (ofDialect dialect₁).factorRule? k = (ofDialect dialect).factorRule? k := by
  unfold ofDialect
  cases k <;> simp_all

/-! ### The parsers of two dialects -/

/-- Factors are read the same in both dialects, or the first prefix minus is refused. -/
theorem factorAt_narrows (room : Nat) :
    Narrows dialect.unaryMinus false AfterOperand ((ofDialect dialect).factorAt room)
      ((ofDialect dialect₁).factorAt room) := by
  induction room using Nat.strongRecOn with
  | ind room ih =>
    have hlevel : ∀ r, room = r + 1 → Narrows dialect.unaryMinus false AfterOperand
        ((ofDialect dialect).factorAt r) ((ofDialect dialect₁).factorAt r) :=
      fun r hr => ih r (by omega)
    rw [factorAt_eq, factorAt_eq]
    refine .kind_bind fun k => ?_
    by_cases hk : k = .dash ∧ dialect.unaryMinus = false
    · -- No operand has ended where a factor is read, so this is a prefix minus.
      obtain ⟨rfl, hminus⟩ := hk
      rw [factorRule?_dash hminus]
      refine ⟨fun hkind => ?_⟩
      obtain ⟨t, c, rfl, ht⟩ := Cursor.exists_before hkind nofun
      exact .stopped hminus (if_pos ⟨ht, rfl⟩) rfl
    · rw [factorRule?_eq h hk]
      split
      · rename_i rule hrule
        cases rule with
        | primary => exact .primary (kind_of_primary hrule)
        | grouping =>
          rw [kind_of_grouping hrule]
          exact .grouping hlevel
        | negation =>
          obtain ⟨rfl, hminus⟩ := kind_of_negation hrule
          exact .negation hminus hlevel
      · exact Narrows.unexpected k

/-- Statements are read the same in both dialects, or the first prefix minus is refused. -/
theorem statementAt_narrows (room : Nat) (after : Bool) :
    Narrows dialect.unaryMinus after Anywhere ((ofDialect dialect).statementAt room)
      ((ofDialect dialect₁).statementAt room) := by
  induction room using Nat.strongRecOn generalizing after with
  | ind room ih =>
    have hfactor := factorAt_narrows h room
    have hlevel : ∀ r, room = r + 1 → ∀ after, Narrows dialect.unaryMinus after Anywhere
        ((ofDialect dialect).statementAt r) ((ofDialect dialect₁).statementAt r) :=
      fun r hr => ih r (by omega)
    rw [statementAt_eq, statementAt_eq]
    refine .kind_bind fun k => ?_
    have hrules : (ofDialect dialect₁).statementRule? = (ofDialect dialect).statementRule? := rfl
    rw [hrules]
    split
    · rename_i rule hrule
      -- A minus starts no statement, so the two dialects go on alike.
      have hk : k ≠ .dash := by
        rintro rfl
        cases hrule
      cases rule with
      | declaration =>
        rw [kind_of_statementRule hrule]
        exact .declaration hfactor
      | assignment => exact hfactor.assignmentStatement k
      | conditional => exact .conditional hlevel hk hfactor
      | switch => exact .switch hlevel hk
      | whileLoop => exact .whileLoop hlevel hk hfactor
      | forLoop => exact .forLoop hlevel hk hfactor
      | leave => exact .leave hk
    · exact Narrows.unexpected k

/-- The parser for units narrows that of a dialect that has the prefix minus if the first one does.
-/
theorem statements_narrows (after : Bool) :
    Narrows dialect.unaryMinus after Anywhere (ofDialect dialect).statements
      (ofDialect dialect₁).statements :=
  .manyWhile fun _ => (statementAt_narrows h maxNesting _).narrowed _

end

end Grammar

end MiniC
