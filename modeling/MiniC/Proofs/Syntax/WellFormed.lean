import MiniC.Lexer.Pattern
import MiniC.Proofs.Text.Plain
import MiniC.Syntax.Basic

/-!
# Well-formed trees

A tree is **well-formed** in a dialect if it can be written in it: its names are names of the
language, its numbers are not negative, its characters and texts are plain, its declarations and
case groups are not empty, and it has a minus only where the dialect has one.

The **nesting** of a tree is the number of levels that its text opens at once: one for each binary
operation, which is written in parentheses, two for a minus, which is written with a pair of
parentheses around it, and one for a block.
-/

namespace MiniC

/-! ### Names and numbers -/

/-- A **word** of the language. -/
def IsWord (word : String) : Prop :=
  ∃ c cs, word.toList = c :: cs ∧ Pattern.isWordStart c = true ∧
    ∀ d ∈ cs, Pattern.isWordRest d = true

/-- A **name**: a word that is not reserved. -/
def IsName (name : String) : Prop := IsWord name ∧ Kind.reserved? name = none

/-- Reserved words are words. -/
theorem isWord_of_reserved {word : String} {kind : Kind} (h : Kind.reserved? word = some kind) :
    IsWord word := by
  unfold Kind.reserved? at h
  split at h
  case h_12 => cases h
  all_goals exact ⟨_, _, rfl, rfl, List.all_eq_true.1 rfl⟩

/-- Whether a number can be written: it is finite and not negative. -/
def Number.WellFormed : Number → Prop
  | int value => 0 ≤ value.toInt
  | float value => value.isFinite = true ∧ value.isNegative = false

/-! ### Expressions -/

/-- Whether an expression can be written. -/
def Expr.WellFormed (dialect : Dialect) : Expr → Prop
  | binary _ left right => left.WellFormed dialect ∧ right.WellFormed dialect
  | negate operand => dialect.unaryMinus = true ∧ operand.WellFormed dialect
  | identifier name => IsName name
  | number value => value.WellFormed
  | char value => Text.IsPlain '\'' value
  | string value => ∀ c ∈ value.toList, Text.IsPlain '"' c

/-- The nesting of an expression. -/
def Expr.nesting : Expr → Nat
  | binary _ left right => max left.nesting right.nesting + 1
  | negate operand => operand.nesting + 2
  | identifier _ | number _ | char _ | string _ => 0

/-- Whether a condition can be written. -/
def Condition.WellFormed (dialect : Dialect) (c : Condition) : Prop :=
  c.left.WellFormed dialect ∧ c.right.WellFormed dialect

/-- The nesting of a condition. -/
def Condition.nesting (c : Condition) : Nat := max c.left.nesting c.right.nesting

/-! ### Parts of statements -/

/-- Whether an assignment can be written. -/
def Assignment.WellFormed (dialect : Dialect) (a : Assignment) : Prop :=
  IsName a.target ∧ a.value.WellFormed dialect

/-- The nesting of an assignment. -/
def Assignment.nesting (a : Assignment) : Nat := a.value.nesting

/-- Whether a declarator can be written. -/
def Declarator.WellFormed (dialect : Dialect) (d : Declarator) : Prop :=
  IsName d.name ∧ ∀ value ∈ d.initializer, value.WellFormed dialect

/-- The nesting of a declarator. -/
def Declarator.nesting (d : Declarator) : Nat :=
  match d.initializer with
  | some value => value.nesting
  | none => 0

/-- The nesting of declarators. -/
def Declarator.nestingIn : List Declarator → Nat
  | [] => 0
  | d :: rest => max d.nesting (nestingIn rest)

/-- Whether a case label can be written. -/
def CaseLabel.WellFormed : CaseLabel → Prop
  | identifier name => IsName name
  | number value => value.WellFormed
  | char value => Text.IsPlain '\'' value

/-! ### Statements -/

mutual

/-- Whether a statement can be written. -/
def Stmt.WellFormed (dialect : Dialect) : Stmt → Prop
  | .declaration _ declarators => declarators ≠ [] ∧ ∀ d ∈ declarators, d.WellFormed dialect
  | .assignment assignment => assignment.WellFormed dialect
  | .conditional condition thenBlock elseBlock =>
    condition.WellFormed dialect ∧ Stmt.AllWellFormed dialect thenBlock ∧
      Stmt.OptionWellFormed dialect elseBlock
  | .switch discriminant cases default =>
    IsName discriminant ∧ CaseGroup.AllWellFormed dialect cases ∧
      Stmt.OptionWellFormed dialect default
  | .whileLoop condition body => condition.WellFormed dialect ∧ Stmt.AllWellFormed dialect body
  | .forLoop init condition step body =>
    init.WellFormed dialect ∧ condition.WellFormed dialect ∧ step.WellFormed dialect ∧
      Stmt.AllWellFormed dialect body
  | .leave => True

/-- Whether statements can be written. -/
def Stmt.AllWellFormed (dialect : Dialect) : List Stmt → Prop
  | [] => True
  | s :: rest => s.WellFormed dialect ∧ Stmt.AllWellFormed dialect rest

/-- Whether a block that may be missing can be written. -/
def Stmt.OptionWellFormed (dialect : Dialect) : Option (List Stmt) → Prop
  | none => True
  | some block => Stmt.AllWellFormed dialect block

/-- Whether a case group can be written. -/
def CaseGroup.WellFormed (dialect : Dialect) : CaseGroup → Prop
  | .mk labels body =>
    labels ≠ [] ∧ (∀ label ∈ labels, label.WellFormed) ∧ Stmt.AllWellFormed dialect body

/-- Whether case groups can be written. -/
def CaseGroup.AllWellFormed (dialect : Dialect) : List CaseGroup → Prop
  | [] => True
  | c :: rest => c.WellFormed dialect ∧ CaseGroup.AllWellFormed dialect rest

end

mutual

/-- The nesting of a statement. -/
def Stmt.nesting : Stmt → Nat
  | .declaration _ declarators => Declarator.nestingIn declarators
  | .assignment assignment => assignment.nesting
  | .conditional condition thenBlock elseBlock =>
    max condition.nesting (max (Stmt.nestingIn thenBlock + 1) (Stmt.nestingInOption elseBlock))
  | .switch _ cases default => max (CaseGroup.nestingIn cases) (Stmt.nestingInOption default)
  | .whileLoop condition body => max condition.nesting (Stmt.nestingIn body + 1)
  | .forLoop init condition step body =>
    max init.nesting (max condition.nesting (max step.nesting (Stmt.nestingIn body + 1)))
  | .leave => 0

/-- The nesting of statements. -/
def Stmt.nestingIn : List Stmt → Nat
  | [] => 0
  | s :: rest => max s.nesting (Stmt.nestingIn rest)

/-- The nesting of a block that may be missing. -/
def Stmt.nestingInOption : Option (List Stmt) → Nat
  | none => 0
  | some block => Stmt.nestingIn block + 1

/-- The nesting of a case group. -/
def CaseGroup.nesting : CaseGroup → Nat
  | .mk _ body => Stmt.nestingIn body + 1

/-- The nesting of case groups. -/
def CaseGroup.nestingIn : List CaseGroup → Nat
  | [] => 0
  | c :: rest => max c.nesting (CaseGroup.nestingIn rest)

end

/-! ### Programs -/

/-- Whether a program can be written. -/
def Program.WellFormed (dialect : Dialect) (p : Program) : Prop :=
  Stmt.AllWellFormed dialect p.statements

/-- The nesting of a program. -/
def Program.nesting (p : Program) : Nat := Stmt.nestingIn p.statements

end MiniC
