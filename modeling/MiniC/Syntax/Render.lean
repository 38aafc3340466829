import MiniC.Binary64.Layout
import MiniC.Syntax.Basic
import MiniC.Text.Quoted

/-!
# Rendered trees

Every tree has a compact text. Each operator of an expression stands in parentheses with its
operands, so the text shows the tree without any rule of precedence. A block separates its
statements by spaces, and a program by line ends.

A number that is not whole always has a point: one without a fraction is written with `.0`, so that
it is not read as a whole number.
-/

namespace MiniC

/-! ### Expressions -/

/-- A number as text. -/
def Number.render : Number → String
  | int value => toString value.toInt
  | float value => if value.plain.toList.contains '.' then value.plain else value.plain ++ ".0"

/-- An expression as text. -/
def Expr.render : Expr → String
  | binary op left right => "(" ++ left.render ++ op.symbol ++ right.render ++ ")"
  | negate operand => "(-" ++ operand.render ++ ")"
  | identifier name => name
  | number value => value.render
  | char value => Text.quotedChar value
  | string value => Text.quoted value

/-- A condition as text. -/
def Condition.render (c : Condition) : String := c.left.render ++ c.op.symbol ++ c.right.render

/-- An assignment as text, without a semicolon. -/
def Assignment.render (a : Assignment) : String := a.target ++ a.op.symbol ++ a.value.render

/-- A declarator as text. -/
def Declarator.render (d : Declarator) : String :=
  match d.initializer with
  | some value => d.name ++ "=" ++ value.render
  | none => d.name

/-- A case label as text. -/
def CaseLabel.render : CaseLabel → String
  | identifier name => name
  | number value => value.render
  | char value => Text.quotedChar value

/-! ### Statements -/

/-- Statements in braces. -/
def inBraces (statements : List String) : String :=
  "\x7b" ++ String.intercalate " " statements ++ "\x7d"

/-- The labels of a case group as text. -/
def CaseLabel.renderAll (labels : List CaseLabel) : String :=
  String.join (labels.map fun label => "case " ++ label.render ++ ":")

mutual

/-- A statement as text. -/
def Stmt.render : Stmt → String
  | .declaration type declarators =>
    type.word ++ " " ++ String.intercalate "," (declarators.map Declarator.render) ++ ";"
  | .assignment assignment => assignment.render ++ ";"
  | .conditional condition thenBlock elseBlock =>
    "if(" ++ condition.render ++ ")" ++ inBraces (Stmt.renderEach thenBlock)
      ++ Stmt.renderAfter "else" elseBlock
  | .switch discriminant cases default =>
    "switch(" ++ discriminant ++ ")\x7b" ++ CaseGroup.renderAll cases
      ++ Stmt.renderAfter "default:" default ++ "\x7d"
  | .whileLoop condition body =>
    "while(" ++ condition.render ++ ")" ++ inBraces (Stmt.renderEach body)
  | .forLoop init condition step body =>
    "for(" ++ init.render ++ ";" ++ condition.render ++ ";" ++ step.render ++ ")"
      ++ inBraces (Stmt.renderEach body)
  | .leave => "break;"

/-- The texts of statements. -/
def Stmt.renderEach : List Stmt → List String
  | [] => []
  | s :: rest => s.render :: Stmt.renderEach rest

/-- A block that may be missing, after the word that introduces it. -/
def Stmt.renderAfter (word : String) : Option (List Stmt) → String
  | none => ""
  | some block => word ++ inBraces (Stmt.renderEach block)

/-- A case group as text. -/
def CaseGroup.render : CaseGroup → String
  | .mk labels body => CaseLabel.renderAll labels ++ inBraces (Stmt.renderEach body)

/-- Case groups as text. -/
def CaseGroup.renderAll : List CaseGroup → String
  | [] => ""
  | c :: rest => c.render ++ CaseGroup.renderAll rest

end

/-- A block as text. -/
def Stmt.renderBlock (block : Block) : String := inBraces (Stmt.renderEach block)

theorem Stmt.renderEach_eq_map (block : Block) : Stmt.renderEach block = block.map Stmt.render := by
  induction block with
  | nil => simp [Stmt.renderEach]
  | cons s rest ih => simp [Stmt.renderEach, ih]

/-- A program as text. -/
def Program.render (p : Program) : String := String.intercalate "\n" (Stmt.renderEach p.statements)

end MiniC
