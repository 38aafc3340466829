import MiniC.Binary64.Basic
import MiniC.Syntax.Operator

/-!
# Trees

The trees that the tokens of a unit are read as. Expressions and conditions are apart: a condition
is one comparison of two expressions, and no expression holds a comparison. A block is the list of
its statements.

Some trees have no text of the language: a declaration without declarators, a case group without
labels, a name that is no identifier. They are trees all the same, and can be rendered.
-/

namespace MiniC

/-- A number in an expression or a case label. -/
inductive Number where
  | int (value : Int64)
  | float (value : Binary64)
  deriving DecidableEq, Repr

/-- An **expression**. -/
inductive Expr where
  | binary (op : BinaryOp) (left right : Expr)
  | negate (operand : Expr)
  | identifier (name : String)
  | number (value : Number)
  | char (value : Char)
  | string (value : String)
  deriving DecidableEq, Repr

/-- A **condition**: one comparison. -/
structure Condition where
  /-- The comparison. -/
  op : RelOp
  /-- What is compared. -/
  left : Expr
  /-- What it is compared with. -/
  right : Expr
  deriving DecidableEq, Repr

/-- An **assignment**, without the semicolon that ends it as a statement. -/
structure Assignment where
  /-- The variable that changes. -/
  target : String
  /-- How it changes. -/
  op : AssignOp
  /-- The expression that the change depends on. -/
  value : Expr
  deriving DecidableEq, Repr

/-- One variable of a declaration. -/
structure Declarator where
  /-- The name of the variable. -/
  name : String
  /-- The expression it starts with, if it has one. -/
  initializer : Option Expr
  deriving DecidableEq, Repr

/-- A label of a case group. -/
inductive CaseLabel where
  | identifier (name : String)
  | number (value : Number)
  | char (value : Char)
  deriving DecidableEq, Repr

mutual

/-- A **statement**. -/
inductive Stmt where
  /-- A declaration of variables of one type. -/
  | declaration (type : TypeName) (declarators : List Declarator)
  /-- An assignment. -/
  | assignment (assignment : Assignment)
  /-- A block under a condition, and perhaps one for when it fails. -/
  | conditional (condition : Condition) (thenBlock : List Stmt) (elseBlock : Option (List Stmt))
  /-- Case groups for the values of a variable, and perhaps a block for all other values. -/
  | switch (discriminant : String) (cases : List CaseGroup) (default : Option (List Stmt))
  /-- A loop while a condition holds. -/
  | whileLoop (condition : Condition) (body : List Stmt)
  /-- A loop with a first assignment, a condition, and an assignment after each turn. -/
  | forLoop (init : Assignment) (condition : Condition) (step : Assignment) (body : List Stmt)
  /-- Leaves a loop or a case. -/
  | leave

/-- A **case group** of a switch: labels that share a block. -/
inductive CaseGroup where
  | mk (labels : List CaseLabel) (body : List Stmt)

end

/-- A **block**: the statements between two braces. -/
abbrev Block := List Stmt

/-- A **program**: the statements of a unit. -/
structure Program where
  /-- The statements at the top level. -/
  statements : List Stmt

end MiniC
