import MiniC.Listing.Basic
import MiniC.Syntax.Basic
import MiniC.Token.Basic

/-!
# Listings of trees

The listing of a tree shows every node under its name, with its parts in order and under their
labels.
-/

namespace MiniC

/-- The listing of a number. -/
def Number.listing : Number → Listing
  | int value => .tuple "Int" [.int value]
  | float value => .tuple "Float" [.leaf value.listed]

/-- The listing of an expression. -/
def Expr.listing : Expr → Listing
  | binary op left right =>
    .record "Binary"
      [("op", .leaf op.name), ("left", left.listing), ("right", right.listing)]
  | negate operand => .tuple "UnaryMinus" [operand.listing]
  | identifier name => .tuple "Identifier" [.text name]
  | number value => .tuple "Number" [value.listing]
  | char value => .tuple "Char" [.leaf (Text.quotedChar value)]
  | string value => .tuple "String" [.text value]

/-- The listing of a condition. -/
def Condition.listing (c : Condition) : Listing :=
  .record "Condition"
    [("op", .leaf c.op.name), ("left", c.left.listing), ("right", c.right.listing)]

/-- The listing of an assignment. -/
def Assignment.listing (a : Assignment) : Listing :=
  .record "Assignment"
    [("target", .text a.target), ("op", .leaf a.op.name), ("value", a.value.listing)]

/-- The listing of a declarator. -/
def Declarator.listing (d : Declarator) : Listing :=
  .record "Declarator"
    [("name", .text d.name), ("initializer", .optional (d.initializer.map Expr.listing))]

/-- The listing of a case label. -/
def CaseLabel.listing : CaseLabel → Listing
  | identifier name => .tuple "Identifier" [.text name]
  | number value => .tuple "Number" [value.listing]
  | char value => .tuple "Char" [.leaf (Text.quotedChar value)]

/-- The listing of a block whose statements have the given listings. -/
def Listing.block (statements : List Listing) : Listing :=
  .record "Block" [("statements", .sequence statements)]

mutual

/-- The listing of a statement. -/
def Stmt.listing : Stmt → Listing
  | .declaration type declarators =>
    .tuple "Declaration" [.record "VarDeclStmt"
      [("ty", .leaf type.name), ("declarators", .sequence (declarators.map Declarator.listing))]]
  | .assignment assignment => .tuple "Assignment" [assignment.listing]
  | .conditional condition thenBlock elseBlock =>
    .tuple "If" [.record "IfStmt"
      [("condition", condition.listing), ("then_block", .block (Stmt.listEach thenBlock)),
        ("else_block", Stmt.listOptional elseBlock)]]
  | .switch discriminant cases default =>
    .tuple "Switch" [.record "SwitchStmt"
      [("discriminant", .text discriminant), ("cases", .sequence (CaseGroup.listEach cases)),
        ("default", Stmt.listOptional default)]]
  | .whileLoop condition body =>
    .tuple "While" [.record "WhileStmt"
      [("condition", condition.listing), ("body", .block (Stmt.listEach body))]]
  | .forLoop init condition step body =>
    .tuple "For" [.record "ForStmt"
      [("init", init.listing), ("condition", condition.listing), ("step", step.listing),
        ("body", .block (Stmt.listEach body))]]
  | .leave => .leaf "Break"

/-- The listings of statements. -/
def Stmt.listEach : List Stmt → List Listing
  | [] => []
  | s :: rest => s.listing :: Stmt.listEach rest

/-- The listing of a block that may be missing. -/
def Stmt.listOptional : Option (List Stmt) → Listing
  | none => .optional none
  | some block => .optional (some (.block (Stmt.listEach block)))

/-- The listing of a case group. -/
def CaseGroup.listing : CaseGroup → Listing
  | .mk labels body =>
    .record "CaseBlock"
      [("labels", .sequence (labels.map CaseLabel.listing)), ("body", .block (Stmt.listEach body))]

/-- The listings of case groups. -/
def CaseGroup.listEach : List CaseGroup → List Listing
  | [] => []
  | c :: rest => c.listing :: CaseGroup.listEach rest

end

/-- The listing of a block. -/
def Stmt.listBlock (block : Block) : Listing := .block (Stmt.listEach block)

/-- The listing of a program. -/
def Program.listing (p : Program) : Listing :=
  .record "Program" [("statements", .sequence (Stmt.listEach p.statements))]

end MiniC
