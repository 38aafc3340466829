import MiniC.Dialect
import MiniC.Parser.Stmt

/-!
# Derivations

What the texts of the language are, and which trees they stand for, without a word about how they
are read. A `Phrase` relates tokens, a tree, and a number: the largest number of levels (blocks,
parentheses and prefix minuses) that are open at once anywhere between the tokens. `IsFactor`,
`IsStatement` and the phrases between them have one rule for each alternative of the grammar:

```text
program     := statement*
declaration := type declarator (',' declarator)* ';'
declarator  := identifier ('=' expression)?
assignment  := identifier operator expression
block       := '{' statement* '}'
if          := 'if' '(' condition ')' block ('else' block)?
switch      := 'switch' '(' identifier ')' '{' group* ('default' ':' block)? '}'
group       := ('case' label ':')+ block
while       := 'while' '(' condition ')' block
for         := 'for' '(' assignment ';' condition ';' assignment ')' block
break       := 'break' ';'
condition   := expression comparison expression
expression  := term (('+' | '-') term)*
term        := factor (('*' | '/') factor)*
factor      := identifier | number | char | string | '(' expression ')' | '-' factor
```

The minus of a factor belongs to some dialects only. A block, a pair of parentheses and a prefix
minus add a level, the braces of a switch do not.
-/

namespace MiniC

/-- A sort of **phrases**: which tokens read as which tree, with how many levels open at once. -/
abbrev Phrase (α : Type) := List Token → α → Nat → Prop

namespace Phrase

/-- Any number of phrases, one after the other. -/
inductive Many (P : Phrase α) : Phrase (List α)
  | nil : Many P [] [] 0
  | cons {ts ts' : List Token} {a : α} {as : List α} {n m : Nat} :
      P ts a n → Many P ts' as m → Many P (ts ++ ts') (a :: as) (max n m)

/-- A phrase that may be missing. -/
inductive Optional (P : Phrase α) : Phrase (Option α)
  | none : Optional P [] none 0
  | some {ts : List Token} {a : α} {n : Nat} : P ts a n → Optional P ts (some a) n

/-- A phrase after a token of the given kind. -/
inductive After (k : Kind) (P : Phrase α) : Phrase α
  | mk {t : Token} {ts : List Token} {a : α} {n : Nat} :
      t.kind = k → P ts a n → After k P (t :: ts) a n

/-- A phrase between two tokens of the given kinds. -/
inductive Between (k k' : Kind) (P : Phrase α) : Phrase α
  | mk {t t' : Token} {ts : List Token} {a : α} {n : Nat} :
      t.kind = k → P ts a n → t'.kind = k' → Between k k' P (t :: (ts ++ [t'])) a n

/-- Operands between operators of one level of precedence, which group to the left. -/
inductive Chain (op? : Kind → Option BinaryOp) (P : Phrase Expr) : Phrase Expr
  | operand {ts : List Token} {e : Expr} {n : Nat} : P ts e n → Chain op? P ts e n
  | binary {ts ts' : List Token} {t : Token} {op : BinaryOp} {left right : Expr} {n m : Nat} :
      Chain op? P ts left n → op? t.kind = some op → P ts' right m →
        Chain op? P (ts ++ t :: ts') (.binary op left right) (max n m)

end Phrase

open Phrase

variable (dialect : Dialect)

/-! ### Expressions -/

/-- A **factor**. -/
inductive IsFactor : Phrase Expr
  | identifier {t : Token} : t.kind = .identifier → IsFactor [t] (.identifier t.value) 0
  | int {t : Token} {value : Int64} :
      t.kind = .number → t.literal = some (.int value) → IsFactor [t] (.number (.int value)) 0
  | float {t : Token} {value : Binary64} :
      t.kind = .number → t.literal = some (.float value) → IsFactor [t] (.number (.float value)) 0
  | char {t : Token} {value : Char} :
      t.kind = .char → t.literal = some (.char value) → IsFactor [t] (.char value) 0
  | string {t : Token} {value : String} :
      t.kind = .string → t.literal = some (.str value) → IsFactor [t] (.string value) 0
  | grouping {ts : List Token} {e : Expr} {n : Nat} :
      Between .openParen .closeParen
        (Chain BinaryOp.additive? (Chain BinaryOp.multiplicative? IsFactor)) ts e n →
        IsFactor ts e (n + 1)
  | negation {ts : List Token} {e : Expr} {n : Nat} :
      dialect.unaryMinus = true → After .dash IsFactor ts e n → IsFactor ts (.negate e) (n + 1)

/-- A **term**: factors that are multiplied and divided. -/
abbrev IsTerm : Phrase Expr := Chain BinaryOp.multiplicative? (IsFactor dialect)

/-- An **expression**: terms that are added and subtracted. -/
abbrev IsExpression : Phrase Expr := Chain BinaryOp.additive? (IsTerm dialect)

/-- A **condition**: one comparison. -/
inductive IsCondition : Phrase Condition
  | mk {ts ts' : List Token} {t : Token} {op : RelOp} {left right : Expr} {n m : Nat} :
      IsExpression dialect ts left n → RelOp.ofKind? t.kind = some op →
        IsExpression dialect ts' right m → IsCondition (ts ++ t :: ts') ⟨op, left, right⟩ (max n m)

/-! ### Parts of statements -/

/-- One variable of a declaration. -/
inductive IsDeclarator : Phrase Declarator
  | mk {name : Token} {ts : List Token} {initializer : Option Expr} {n : Nat} :
      name.kind = .identifier → Optional (After .assign (IsExpression dialect)) ts initializer n →
        IsDeclarator (name :: ts) ⟨name.value, initializer⟩ n

/-- An assignment, without a semicolon. -/
inductive IsAssignment : Phrase Assignment
  | mk {target t : Token} {ts : List Token} {op : AssignOp} {value : Expr} {n : Nat} :
      target.kind = .identifier → AssignOp.ofKind? t.kind = some op →
        IsExpression dialect ts value n →
        IsAssignment (target :: t :: ts) ⟨target.value, op, value⟩ n

/-- A case label. -/
inductive IsCaseLabel : Phrase CaseLabel
  | identifier {t : Token} : t.kind = .identifier → IsCaseLabel [t] (.identifier t.value) 0
  | int {t : Token} {value : Int64} :
      t.kind = .number → t.literal = some (.int value) → IsCaseLabel [t] (.number (.int value)) 0
  | float {t : Token} {value : Binary64} :
      t.kind = .number → t.literal = some (.float value) →
        IsCaseLabel [t] (.number (.float value)) 0
  | char {t : Token} {value : Char} :
      t.kind = .char → t.literal = some (.char value) → IsCaseLabel [t] (.char value) 0

/-- A block of the given statements. It is a level. -/
inductive IsBlock (S : Phrase Stmt) : Phrase Block
  | mk {ts : List Token} {block : Block} {n : Nat} :
      Between .openCurly .closeCurly (Many S) ts block n → IsBlock S ts block (n + 1)

/-- A case group: at least one label, and a block. -/
inductive IsCaseGroup (S : Phrase Stmt) : Phrase CaseGroup
  | mk {ts ts' : List Token} {labels : List CaseLabel} {body : Block} {n m : Nat} :
      Many (Between .caseWord .colon IsCaseLabel) ts labels n → labels ≠ [] →
        IsBlock S ts' body m → IsCaseGroup S (ts ++ ts') (.mk labels body) (max n m)

/-! ### Statements and programs -/

/-- A **statement**. -/
inductive IsStatement : Phrase Stmt
  | declaration {t semi : Token} {ts ts' : List Token} {type : TypeName} {first : Declarator}
      {more : List Declarator} {n m : Nat} :
      t.kind = .type → TypeName.ofWord? t.value = some type → IsDeclarator dialect ts first n →
        Many (After .comma (IsDeclarator dialect)) ts' more m → semi.kind = .semicolon →
        IsStatement (t :: (ts ++ (ts' ++ [semi]))) (.declaration type (first :: more)) (max n m)
  | assignment {semi : Token} {ts : List Token} {a : Assignment} {n : Nat} :
      IsAssignment dialect ts a n → semi.kind = .semicolon →
        IsStatement (ts ++ [semi]) (.assignment a) n
  | conditional {t : Token} {ts ts' ts'' : List Token} {c : Condition} {thenBlock : Block}
      {elseBlock : Option Block} {n m k : Nat} :
      t.kind = .ifWord → Between .openParen .closeParen (IsCondition dialect) ts c n →
        IsBlock IsStatement ts' thenBlock m →
        Optional (After .elseWord (IsBlock IsStatement)) ts'' elseBlock k →
        IsStatement (t :: (ts ++ (ts' ++ ts''))) (.conditional c thenBlock elseBlock)
          (max n (max m k))
  | switch {t l name r lb rb : Token} {ts ts' : List Token} {cases : List CaseGroup}
      {default : Option Block} {n m : Nat} :
      t.kind = .switchWord → l.kind = .openParen → name.kind = .identifier →
        r.kind = .closeParen → lb.kind = .openCurly → Many (IsCaseGroup IsStatement) ts cases n →
        Optional (After .defaultWord (After .colon (IsBlock IsStatement))) ts' default m →
        rb.kind = .closeCurly →
        IsStatement (t :: l :: name :: r :: lb :: (ts ++ (ts' ++ [rb])))
          (.switch name.value cases default) (max n m)
  | whileLoop {t : Token} {ts ts' : List Token} {c : Condition} {body : Block} {n m : Nat} :
      t.kind = .whileWord → Between .openParen .closeParen (IsCondition dialect) ts c n →
        IsBlock IsStatement ts' body m →
        IsStatement (t :: (ts ++ ts')) (.whileLoop c body) (max n m)
  | forLoop {t l s s' r : Token} {ts₁ ts₂ ts₃ ts₄ : List Token} {init step : Assignment}
      {c : Condition} {body : Block} {n₁ n₂ n₃ n₄ : Nat} :
      t.kind = .forWord → l.kind = .openParen → IsAssignment dialect ts₁ init n₁ →
        s.kind = .semicolon → IsCondition dialect ts₂ c n₂ → s'.kind = .semicolon →
        IsAssignment dialect ts₃ step n₃ → r.kind = .closeParen → IsBlock IsStatement ts₄ body n₄ →
        IsStatement (t :: l :: (ts₁ ++ s :: (ts₂ ++ s' :: (ts₃ ++ r :: ts₄))))
          (.forLoop init c step body) (max n₁ (max n₂ (max n₃ n₄)))
  | leave {t semi : Token} :
      t.kind = .breakWord → semi.kind = .semicolon → IsStatement [t, semi] .leave 0

/-- A **program**: any number of statements. -/
def IsProgram : Phrase Program := fun ts p n => Many (IsStatement dialect) ts p.statements n

end MiniC
