import MiniC.Token.Kind

/-!
# Operators and type names

The closed word lists of the language's trees. Each operator has one symbol, and the kind of token
that is written by that symbol gives the operator back.
-/

namespace MiniC

/-- A type of variables. -/
inductive TypeName where
  | int
  | float
  | char
  deriving DecidableEq, Repr

namespace TypeName

/-- The type that a word names. -/
def ofWord? (word : String) : Option TypeName :=
  match word with
  | "int" => some int
  | "float" => some float
  | "char" => some char
  | _ => none

/-- The word that names a type. -/
def word : TypeName → String
  | int => "int"
  | float => "float"
  | char => "char"

/-- The name of a type in listings. -/
def name : TypeName → String
  | int => "Int"
  | float => "Float"
  | char => "Char"

theorem ofWord?_word (t : TypeName) : ofWord? t.word = some t := by cases t <;> rfl

end TypeName

/-- An operator between two expressions. -/
inductive BinaryOp where
  | add
  | sub
  | mul
  | div
  deriving DecidableEq, Repr

namespace BinaryOp

/-- The operator that a kind of token stands for. -/
def ofKind? : Kind → Option BinaryOp
  | .plus => some add
  | .dash => some sub
  | .star => some mul
  | .slash => some div
  | _ => none

/-- The operator, if it adds or subtracts, that a kind of token stands for. -/
def additive? : Kind → Option BinaryOp
  | .plus => some add
  | .dash => some sub
  | _ => none

/-- The operator, if it multiplies or divides, that a kind of token stands for. -/
def multiplicative? : Kind → Option BinaryOp
  | .star => some mul
  | .slash => some div
  | _ => none

/-- How an operator is written. -/
def symbol : BinaryOp → String
  | add => "+"
  | sub => "-"
  | mul => "*"
  | div => "/"

/-- The name of an operator in listings. -/
def name : BinaryOp → String
  | add => "Add"
  | sub => "Sub"
  | mul => "Mul"
  | div => "Div"

/-- The two levels of precedence share out the operators. -/
theorem ofKind?_eq_orElse (k : Kind) : ofKind? k = (additive? k).or (multiplicative? k) := by
  cases k <;> rfl

end BinaryOp

/-- A comparison of two expressions. -/
inductive RelOp where
  | equal
  | notEqual
  | less
  | lessEqual
  | greater
  | greaterEqual
  deriving DecidableEq, Repr

namespace RelOp

/-- The comparison that a kind of token stands for. -/
def ofKind? : Kind → Option RelOp
  | .equals => some equal
  | .notEquals => some notEqual
  | .less => some less
  | .lessEquals => some lessEqual
  | .greater => some greater
  | .greaterEquals => some greaterEqual
  | _ => none

/-- How a comparison is written. -/
def symbol : RelOp → String
  | equal => "=="
  | notEqual => "!="
  | less => "<"
  | lessEqual => "<="
  | greater => ">"
  | greaterEqual => ">="

/-- The name of a comparison in listings. -/
def name : RelOp → String
  | equal => "Equal"
  | notEqual => "NotEqual"
  | less => "Less"
  | lessEqual => "LessEqual"
  | greater => "Greater"
  | greaterEqual => "GreaterEqual"

end RelOp

/-- How an assignment changes its target. -/
inductive AssignOp where
  | assign
  | add
  | sub
  | mul
  | div
  deriving DecidableEq, Repr

namespace AssignOp

/-- The assignment operator that a kind of token stands for. -/
def ofKind? : Kind → Option AssignOp
  | .assign => some assign
  | .plusAssign => some add
  | .minusAssign => some sub
  | .starAssign => some mul
  | .slashAssign => some div
  | _ => none

/-- How an assignment operator is written. -/
def symbol : AssignOp → String
  | assign => "="
  | add => "+="
  | sub => "-="
  | mul => "*="
  | div => "/="

/-- The name of an assignment operator in listings. -/
def name : AssignOp → String
  | assign => "Assign"
  | add => "AddAssign"
  | sub => "SubAssign"
  | mul => "MulAssign"
  | div => "DivAssign"

end AssignOp

end MiniC
