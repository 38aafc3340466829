import MiniC.Syntax.Basic

/-!
# Comparing trees by value

Two trees are **alike** when they have the same shape and equal parts, and numbers are compared as
numbers: a tree that holds a NaN is not even like itself, and the two zeros are alike.
-/

namespace MiniC

/-- Whether two numbers are alike. A whole number is never like one that is not. -/
def Number.alike : Number → Number → Bool
  | int a, int b => a == b
  | float a, float b => a.eqv b
  | _, _ => false

/-- Whether two expressions are alike. -/
def Expr.alike : Expr → Expr → Bool
  | binary op left right, binary op' left' right' =>
    op == op' && left.alike left' && right.alike right'
  | negate operand, negate operand' => operand.alike operand'
  | identifier name, identifier name' => name == name'
  | number value, number value' => value.alike value'
  | char value, char value' => value == value'
  | string value, string value' => value == value'
  | _, _ => false

/-- Whether two conditions are alike. -/
def Condition.alike (c d : Condition) : Bool :=
  c.op == d.op && c.left.alike d.left && c.right.alike d.right

/-- Whether two assignments are alike. -/
def Assignment.alike (a b : Assignment) : Bool :=
  a.target == b.target && a.op == b.op && a.value.alike b.value

/-- Whether two declarators are alike. -/
def Declarator.alike (d e : Declarator) : Bool :=
  d.name == e.name &&
    match d.initializer, e.initializer with
    | none, none => true
    | some value, some value' => value.alike value'
    | _, _ => false

/-- Whether two case labels are alike. -/
def CaseLabel.alike : CaseLabel → CaseLabel → Bool
  | identifier name, identifier name' => name == name'
  | number value, number value' => value.alike value'
  | char value, char value' => value == value'
  | _, _ => false

/-- Whether two lists are equally long and alike place by place. -/
def allAlike (alike : α → α → Bool) : List α → List α → Bool
  | [], [] => true
  | a :: as, b :: bs => alike a b && allAlike alike as bs
  | _, _ => false

mutual

/-- Whether two statements are alike. -/
def Stmt.alike : Stmt → Stmt → Bool
  | .declaration type declarators, .declaration type' declarators' =>
    type == type' && allAlike Declarator.alike declarators declarators'
  | .assignment assignment, .assignment assignment' => assignment.alike assignment'
  | .conditional condition thenBlock elseBlock, .conditional condition' thenBlock' elseBlock' =>
    condition.alike condition' && Stmt.blockAlike thenBlock thenBlock'
      && Stmt.optionAlike elseBlock elseBlock'
  | .switch discriminant cases default, .switch discriminant' cases' default' =>
    discriminant == discriminant' && CaseGroup.allAlike cases cases'
      && Stmt.optionAlike default default'
  | .whileLoop condition body, .whileLoop condition' body' =>
    condition.alike condition' && Stmt.blockAlike body body'
  | .forLoop init condition step body, .forLoop init' condition' step' body' =>
    init.alike init' && condition.alike condition' && step.alike step' && Stmt.blockAlike body body'
  | .leave, .leave => true
  | _, _ => false

/-- Whether two blocks are alike. -/
def Stmt.blockAlike : List Stmt → List Stmt → Bool
  | [], [] => true
  | s :: rest, s' :: rest' => s.alike s' && Stmt.blockAlike rest rest'
  | _, _ => false

/-- Whether two blocks that may be missing are alike. -/
def Stmt.optionAlike : Option (List Stmt) → Option (List Stmt) → Bool
  | none, none => true
  | some block, some block' => Stmt.blockAlike block block'
  | _, _ => false

/-- Whether two case groups are alike. -/
def CaseGroup.alike : CaseGroup → CaseGroup → Bool
  | .mk labels body, .mk labels' body' =>
    MiniC.allAlike CaseLabel.alike labels labels' && Stmt.blockAlike body body'

/-- Whether two lists of case groups are alike. -/
def CaseGroup.allAlike : List CaseGroup → List CaseGroup → Bool
  | [], [] => true
  | c :: rest, c' :: rest' => c.alike c' && CaseGroup.allAlike rest rest'
  | _, _ => false

end

/-- Whether two programs are alike. -/
def Program.alike (p q : Program) : Bool := Stmt.blockAlike p.statements q.statements

end MiniC
