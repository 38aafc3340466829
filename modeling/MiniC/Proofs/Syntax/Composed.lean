import MiniC.Proofs.Token.Numeral

/-!
# Trees over literals

A tree is **composed** over a class of literals in a dialect if its literals are in the class, its
names are names of the language, its declarations and case groups are not empty, and it has a minus
only where the dialect has one. What is read from tokens is composed over the literals of the
tokens, whichever class they are in (`Token.IsOver`), so the class is left open. Over the literals
that can be written, a composed tree is well-formed (`Program.Composed.wellFormed`).

What a token may have as a value is narrower than its type: the language has no sign in a literal,
and no numeral for infinity (`Literal.InRange`).
-/

namespace MiniC

/-! ### Literals -/

/-- Whether a value is in the range of the literals: whole numbers are not negative, and other
numbers are finite and not negative. -/
def Literal.InRange : Literal → Prop
  | int value => 0 ≤ value.toInt
  | float value => value.isFinite = true ∧ value.isNegative = false
  | char _ | str _ => True

/-- Whether all characters of a value are plain between the quotes of its kind. -/
def Literal.IsPlain : Literal → Prop
  | int _ | float _ => True
  | char value => Text.IsPlain '\'' value
  | str value => ∀ c ∈ value.toList, Text.IsPlain '"' c

instance : DecidablePred Literal.IsPlain
  | .int _ | .float _ => .isTrue trivial
  | .char value => inferInstanceAs (Decidable (Text.IsPlain '\'' value))
  | .str value => inferInstanceAs (Decidable (∀ c ∈ value.toList, Text.IsPlain '"' c))

/-- A number can be written if its value is in range. -/
theorem Number.wellFormed_iff (number : Number) : number.WellFormed ↔ number.literal.InRange := by
  cases number <;> exact Iff.rfl

/-- Whether a value can be written. -/
def Literal.IsWritable (literal : Literal) : Prop := literal.InRange ∧ literal.IsPlain

/-- A token **over** a class of literals: its value is in the class, if it has one, and an
identifier is a name. -/
structure Token.IsOver (L : Literal → Prop) (t : Token) : Prop where
  isName : t.kind = .identifier → IsName t.value
  literal : ∀ literal ∈ t.literal, L literal

/-! ### Expressions and parts of statements -/

section

variable (dialect : Dialect) (L : Literal → Prop)

/-- Whether an expression is composed over a class of literals. -/
def Expr.Composed : Expr → Prop
  | binary _ left right => left.Composed ∧ right.Composed
  | negate operand => dialect.unaryMinus = true ∧ operand.Composed
  | identifier name => IsName name
  | number value => L value.literal
  | char value => L (.char value)
  | string value => L (.str value)

/-- Whether a condition is composed over a class of literals. -/
def Condition.Composed (c : Condition) : Prop :=
  c.left.Composed dialect L ∧ c.right.Composed dialect L

/-- Whether an assignment is composed over a class of literals. -/
def Assignment.Composed (a : Assignment) : Prop := IsName a.target ∧ a.value.Composed dialect L

/-- Whether a declarator is composed over a class of literals. -/
def Declarator.Composed (d : Declarator) : Prop :=
  IsName d.name ∧ ∀ value ∈ d.initializer, value.Composed dialect L

/-- Whether a case label is composed over a class of literals. -/
def CaseLabel.Composed : CaseLabel → Prop
  | identifier name => IsName name
  | number value => L value.literal
  | char value => L (.char value)

/-! ### Statements -/

/-- Whether a statement is composed over a class of literals. -/
inductive Stmt.Composed : Stmt → Prop
  | declaration {type : TypeName} {declarators : List Declarator} :
      declarators ≠ [] → (∀ d ∈ declarators, d.Composed dialect L) →
        Composed (.declaration type declarators)
  | assignment {a : Assignment} : a.Composed dialect L → Composed (.assignment a)
  | conditional {c : Condition} {thenBlock : Block} {elseBlock : Option Block} :
      c.Composed dialect L → (∀ s ∈ thenBlock, Composed s) →
        (∀ block ∈ elseBlock, ∀ s ∈ block, Composed s) →
        Composed (.conditional c thenBlock elseBlock)
  | switch {discriminant : String} {cases : List CaseGroup} {default : Option Block} :
      IsName discriminant →
        (∀ labels body, .mk labels body ∈ cases → labels ≠ []) →
        (∀ labels body, .mk labels body ∈ cases → ∀ label ∈ labels, label.Composed L) →
        (∀ labels body, .mk labels body ∈ cases → ∀ s ∈ body, Composed s) →
        (∀ block ∈ default, ∀ s ∈ block, Composed s) →
        Composed (.switch discriminant cases default)
  | whileLoop {c : Condition} {body : Block} :
      c.Composed dialect L → (∀ s ∈ body, Composed s) → Composed (.whileLoop c body)
  | forLoop {init step : Assignment} {c : Condition} {body : Block} :
      init.Composed dialect L → c.Composed dialect L → step.Composed dialect L →
        (∀ s ∈ body, Composed s) → Composed (.forLoop init c step body)
  | leave : Composed .leave

/-- Whether a program is composed over a class of literals. -/
def Program.Composed (p : Program) : Prop := ∀ s ∈ p.statements, s.Composed dialect L

end

/-! ### Over the literals that can be written -/

section

variable {dialect : Dialect}

/-- An expression is well formed if its literals can be written. -/
theorem Expr.Composed.wellFormed {e : Expr} (h : e.Composed dialect Literal.IsWritable) :
    e.WellFormed dialect := by
  induction e with
  | binary op left right ihLeft ihRight => exact ⟨ihLeft h.1, ihRight h.2⟩
  | negate operand ih => exact ⟨h.1, ih h.2⟩
  | identifier name => exact h
  | number value => exact value.wellFormed_iff.2 h.1
  | char value => exact h.2
  | string value => exact h.2

/-- The operator of a condition can always be written. -/
theorem Condition.Composed.wellFormed {c : Condition}
    (h : c.Composed dialect Literal.IsWritable) : c.WellFormed dialect :=
  ⟨h.1.wellFormed, h.2.wellFormed⟩

theorem Assignment.Composed.wellFormed {a : Assignment}
    (h : a.Composed dialect Literal.IsWritable) : a.WellFormed dialect :=
  ⟨h.1, h.2.wellFormed⟩

/-- A declarator is well formed if the literals of its value can be written. -/
theorem Declarator.Composed.wellFormed {d : Declarator}
    (h : d.Composed dialect Literal.IsWritable) : d.WellFormed dialect :=
  ⟨h.1, fun value hvalue => (h.2 value hvalue).wellFormed⟩

/-- A label is well formed if it can be written. -/
theorem CaseLabel.Composed.wellFormed {label : CaseLabel}
    (h : label.Composed Literal.IsWritable) : label.WellFormed := by
  cases label with
  | identifier name => exact h
  | number value => exact value.wellFormed_iff.2 h.1
  | char value => exact h.2

/-- A block is well formed if each of its statements is. -/
private theorem Stmt.allWellFormed_of_forall {block : Block}
    (h : ∀ s ∈ block, s.WellFormed dialect) : AllWellFormed dialect block := by
  induction block with
  | nil => trivial
  | cons s rest ih =>
    exact ⟨h s List.mem_cons_self, ih fun s' hs' => h s' (List.mem_cons_of_mem s hs')⟩

private theorem Stmt.optionWellFormed_of_forall {option : Option Block}
    (h : ∀ block ∈ option, ∀ s ∈ block, s.WellFormed dialect) :
    OptionWellFormed dialect option := by
  cases option with
  | none => trivial
  | some block => exact Stmt.allWellFormed_of_forall (h block rfl)

private theorem CaseGroup.allWellFormed_of_forall {groups : List CaseGroup}
    (h : ∀ group ∈ groups, group.WellFormed dialect) : AllWellFormed dialect groups := by
  induction groups with
  | nil => trivial
  | cons group groups ih =>
    exact ⟨h group List.mem_cons_self, ih fun g hg => h g (List.mem_cons_of_mem group hg)⟩

/-- A statement is well formed if its literals can be written. -/
theorem Stmt.Composed.wellFormed {s : Stmt} (h : s.Composed dialect Literal.IsWritable) :
    s.WellFormed dialect := by
  induction h with
  | declaration hne hdeclarators => exact ⟨hne, fun d hd => (hdeclarators d hd).wellFormed⟩
  | assignment ha => exact ha.wellFormed
  | conditional hc _ _ ihThen ihElse =>
    exact ⟨hc.wellFormed, allWellFormed_of_forall ihThen, optionWellFormed_of_forall ihElse⟩
  | switch hname hne hlabels _ _ ihBody ihDefault =>
    refine ⟨hname, CaseGroup.allWellFormed_of_forall fun group hgroup => ?_,
      optionWellFormed_of_forall ihDefault⟩
    obtain ⟨labels, body⟩ := group
    exact ⟨hne labels body hgroup, fun label hl => (hlabels labels body hgroup label hl).wellFormed,
      allWellFormed_of_forall (ihBody labels body hgroup)⟩
  | whileLoop hc _ ih => exact ⟨hc.wellFormed, allWellFormed_of_forall ih⟩
  | forLoop hinit hc hstep _ ih =>
    exact ⟨hinit.wellFormed, hc.wellFormed, hstep.wellFormed, allWellFormed_of_forall ih⟩
  | leave => trivial

/-- A program over literals that can be written can be written. -/
theorem Program.Composed.wellFormed {p : Program} (h : p.Composed dialect Literal.IsWritable) :
    p.WellFormed dialect :=
  Stmt.allWellFormed_of_forall fun s hs => (h s hs).wellFormed

end

end MiniC
