import MiniC.Syntax.Basic

/-!
# Depth of trees

The **depth** of a tree is the weight of its heaviest path from the root down. Only minuses and
blocks weigh anything, and how much each of them does is left open (`Weights`). With weight one for
both, the depth is the largest number of minuses and blocks on a path. With weight one for minuses
and none for blocks, a tree has a depth if, and only if, it has a minus (`Program.HasMinus`).

The depth of a list is that of its deepest member, so it is bounded where all members are
(`Stmt.depthIn_le_iff`).
-/

namespace MiniC

/-- What the nodes of a tree **weigh**. -/
structure Weights where
  /-- The weight of a minus. -/
  minus : Nat
  /-- The weight of a block. -/
  block : Nat

namespace Weights

/-- Minuses and blocks count alike. -/
def levels : Weights := ⟨1, 1⟩

/-- Only minuses count. -/
def minuses : Weights := ⟨1, 0⟩

end Weights

section

variable (w : Weights)

/-! ### Expressions and parts of statements -/

/-- The depth of an expression. -/
def Expr.depth : Expr → Nat
  | binary _ left right => max left.depth right.depth
  | negate operand => operand.depth + w.minus
  | identifier _ | number _ | char _ | string _ => 0

/-- The depth of a condition. -/
def Condition.depth (c : Condition) : Nat := max (c.left.depth w) (c.right.depth w)

/-- The depth of an assignment. -/
def Assignment.depth (a : Assignment) : Nat := a.value.depth w

/-- The depth of a declarator. -/
def Declarator.depth (d : Declarator) : Nat :=
  match d.initializer with
  | some value => value.depth w
  | none => 0

/-- The depth of declarators. -/
def Declarator.depthIn : List Declarator → Nat
  | [] => 0
  | d :: rest => max (d.depth w) (depthIn rest)

/-! ### Statements -/

mutual

/-- The depth of a statement. -/
def Stmt.depth : Stmt → Nat
  | .declaration _ declarators => Declarator.depthIn w declarators
  | .assignment assignment => assignment.depth w
  | .conditional condition thenBlock elseBlock =>
    max (condition.depth w)
      (max (Stmt.depthIn thenBlock + w.block) (Stmt.depthInOption elseBlock))
  | .switch _ cases default => max (CaseGroup.depthIn cases) (Stmt.depthInOption default)
  | .whileLoop condition body => max (condition.depth w) (Stmt.depthIn body + w.block)
  | .forLoop init condition step body =>
    max (init.depth w)
      (max (condition.depth w) (max (step.depth w) (Stmt.depthIn body + w.block)))
  | .leave => 0

/-- The depth of statements. -/
def Stmt.depthIn : List Stmt → Nat
  | [] => 0
  | s :: rest => max s.depth (Stmt.depthIn rest)

/-- The depth of a block that may be missing. -/
def Stmt.depthInOption : Option (List Stmt) → Nat
  | none => 0
  | some block => Stmt.depthIn block + w.block

/-- The depth of a case group. -/
def CaseGroup.depth : CaseGroup → Nat
  | .mk _ body => Stmt.depthIn body + w.block

/-- The depth of case groups. -/
def CaseGroup.depthIn : List CaseGroup → Nat
  | [] => 0
  | c :: rest => max c.depth (CaseGroup.depthIn rest)

end

/-- The depth of a program. -/
def Program.depth (p : Program) : Nat := Stmt.depthIn w p.statements

end

/-- Whether a program **has a minus** anywhere. -/
def Program.HasMinus (p : Program) : Prop := 0 < p.depth .minuses

/-! ### Bounds for lists -/

section

variable {w : Weights} {n : Nat}

theorem Declarator.depthIn_le_iff {declarators : List Declarator} :
    depthIn w declarators ≤ n ↔ ∀ d ∈ declarators, d.depth w ≤ n := by
  induction declarators with
  | nil => simp [depthIn]
  | cons d rest ih => rw [depthIn, Nat.max_le, ih, List.forall_mem_cons]

/-- A block is as deep as its deepest statement. -/
theorem Stmt.depthIn_le_iff {block : Block} :
    depthIn w block ≤ n ↔ ∀ s ∈ block, s.depth w ≤ n := by
  induction block with
  | nil => simp [depthIn]
  | cons s rest ih => rw [depthIn, Nat.max_le, ih, List.forall_mem_cons]

/-- A block that is missing has no depth. -/
theorem Stmt.depthInOption_le_iff {option : Option Block} :
    depthInOption w option ≤ n ↔ ∀ block ∈ option, depthIn w block + w.block ≤ n := by
  cases option with
  | none => simp [depthInOption]
  | some block => simp [depthInOption]

theorem CaseGroup.depthIn_le_iff {groups : List CaseGroup} :
    depthIn w groups ≤ n ↔ ∀ group ∈ groups, group.depth w ≤ n := by
  induction groups with
  | nil => simp [depthIn]
  | cons group rest ih => rw [depthIn, Nat.max_le, ih, List.forall_mem_cons]

end

end MiniC
