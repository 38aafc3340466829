import MiniC.Proofs.Grammar.Derivation
import MiniC.Proofs.Lexer.Yields
import MiniC.Proofs.Syntax.WellFormed
import MiniC.Syntax.Render

/-!
# Rendered expressions

A text **reads back** as a tree (`ReadsBack`) if it yields tokens that derive the tree. The text of
a well-formed expression does (`Expr.readsBack`). Every operation stands in parentheses, so its text
is always a factor, whatever it is a part of. The text of an expression may be followed by anything
that does not go on with its last word or numeral, and it may follow an operator or a blank, because
it starts with a character that neither goes on with (`Detached`).
-/

namespace MiniC

open Pattern

/-- A text on a line **reads back** as a tree before what passes a test: it yields the tokens of a
phrase for the tree. -/
inductive ReadsBack (dialect : Dialect) (unit : String) (line : LineNumber) (P : Phrase α)
    (follow : List Char → Prop) (text : String) (a : α) (n : Nat) : Prop
  | mk {ts : List Token} :
      Yields dialect unit line text.toList ts follow → P ts a n →
        ReadsBack dialect unit line P follow text a n

/-! ### Detached texts -/

/-- A text is **detached** if its first character goes on neither with a blank nor with a
punctuator. -/
def Detached (text : List Char) : Prop :=
  ∃ c cs, text = c :: cs ∧ Text.isSpacing c = false ∧ isPunctuatorRest c = false

namespace Detached

variable {text : List Char}

theorem stops_isSpacing (h : Detached text) (rest : List Char) :
    Stops Text.isSpacing (text ++ rest) := by
  obtain ⟨c, cs, rfl, hspacing, -⟩ := h
  rwa [List.cons_append, stops_cons]

theorem stops_isPunctuatorRest (h : Detached text) (rest : List Char) :
    Stops isPunctuatorRest (text ++ rest) := by
  obtain ⟨c, cs, rfl, -, hpunctuator⟩ := h
  rwa [List.cons_append, stops_cons]

theorem append (h : Detached text) (text' : List Char) : Detached (text ++ text') := by
  obtain ⟨c, cs, rfl, hc⟩ := h
  exact ⟨c, cs ++ text', rfl, hc⟩

end Detached

/-- A character of a word goes on with no blank and no punctuator. -/
private theorem not_isSpacing_of_isWordRest {c : Char} (h : isWordRest c = true) :
    Text.isSpacing c = false ∧ isPunctuatorRest c = false := by
  have hc : c ∉ [' ', '\t', '\r', '\n', '=', '/', '*'] := not_mem_of_all (by decide) h
  simp only [List.mem_cons, List.not_mem_nil, not_or] at hc
  simp [Text.isSpacing, isPunctuatorRest, hc]

theorem IsName.detached {name : String} (h : IsName name) : Detached name.toList := by
  obtain ⟨⟨c, cs, hname, hc, -⟩, -⟩ := h
  exact ⟨c, cs, hname, not_isSpacing_of_isWordRest (isWordRest_of_isWordStart hc)⟩

theorem Number.detached {number : Number} (h : number.WellFormed) :
    Detached number.render.toList := by
  obtain ⟨hplain, -⟩ := Number.value?_render h
  obtain ⟨c, cs, htext, hc⟩ := hplain.exists_cons
  have hrest : isWordRest c = true := by simp [isWordRest, Char.isAlphanum, hc]
  exact ⟨c, cs, htext, not_isSpacing_of_isWordRest hrest⟩

theorem detached_quotedChar (c : Char) : Detached (Text.quotedChar c).toList := by
  rw [Text.quotedChar, String.toList_ofList]
  exact ⟨_, _, rfl, rfl, rfl⟩

private theorem detached_quoted (s : String) : Detached (Text.quoted s).toList := by
  rw [Text.quoted, String.toList_ofList]
  exact ⟨_, _, rfl, rfl, rfl⟩

/-- Well-formed expressions are detached. -/
theorem Expr.detached {dialect : Dialect} {e : Expr} (h : e.WellFormed dialect) :
    Detached e.render.toList := by
  have hparen : Detached "(".toList := ⟨'(', [], rfl, rfl, rfl⟩
  cases e with
  | binary op left right =>
    rw [render]
    simp only [String.toList_append, List.append_assoc]
    exact hparen.append _
  | negate operand =>
    have hopen : "(-".toList = "(".toList ++ "-".toList := rfl
    rw [render, String.toList_append, String.toList_append, hopen, List.append_assoc,
      List.append_assoc]
    exact hparen.append _
  | identifier name => exact IsName.detached h
  | number value => exact Number.detached h
  | char value => exact detached_quotedChar value
  | string value => exact detached_quoted value

/-! ### Operators -/

/-- The symbol of an operator is the spelling of a kind that stands for it. -/
theorem BinaryOp.exists_kind (op : BinaryOp) :
    ∃ k : Kind, k.spelling? = some op.symbol ∧
      (additive? k = some op ∨ multiplicative? k = some op) := by
  cases op with
  | add => exact ⟨.plus, rfl, .inl rfl⟩
  | sub => exact ⟨.dash, rfl, .inl rfl⟩
  | mul => exact ⟨.star, rfl, .inr rfl⟩
  | div => exact ⟨.slash, rfl, .inr rfl⟩

theorem RelOp.exists_kind (op : RelOp) :
    ∃ k : Kind, k.spelling? = some op.symbol ∧ ofKind? k = some op := by
  cases op with
  | equal => exact ⟨.equals, rfl, rfl⟩
  | notEqual => exact ⟨.notEquals, rfl, rfl⟩
  | less => exact ⟨.less, rfl, rfl⟩
  | lessEqual => exact ⟨.lessEquals, rfl, rfl⟩
  | greater => exact ⟨.greater, rfl, rfl⟩
  | greaterEqual => exact ⟨.greaterEquals, rfl, rfl⟩

theorem AssignOp.exists_kind (op : AssignOp) :
    ∃ k : Kind, k.spelling? = some op.symbol ∧ ofKind? k = some op := by
  cases op with
  | assign => exact ⟨.assign, rfl, rfl⟩
  | add => exact ⟨.plusAssign, rfl, rfl⟩
  | sub => exact ⟨.minusAssign, rfl, rfl⟩
  | mul => exact ⟨.starAssign, rfl, rfl⟩
  | div => exact ⟨.slashAssign, rfl, rfl⟩

/-- A punctuator goes on with neither a word nor a numeral. -/
theorem stops_of_spelling (kind : Kind) {spelling : String} (h : kind.spelling? = some spelling)
    (rest : List Char) : Stops isNumeralRest (spelling.toList ++ rest) := by
  cases kind <;> cases h <;> exact stops_cons.2 (by decide)

theorem stops_isWordRest {cs : List Char} (h : Stops isNumeralRest cs) : Stops isWordRest cs := by
  intro c hc
  have hrest := h c hc
  rw [isNumeralRest, Bool.or_eq_false_iff] at hrest
  exact hrest.1

/-! ### Expressions -/

section

variable {dialect : Dialect}

open Phrase

/-- Two factors with an operator between them make an expression. -/
theorem IsFactor.binary {ts ts' : List Token} {t : Token} {op : BinaryOp} {left right : Expr}
    {n m : Nat} (hleft : IsFactor dialect ts left n) (hright : IsFactor dialect ts' right m)
    (hop : BinaryOp.additive? t.kind = some op ∨ BinaryOp.multiplicative? t.kind = some op) :
    IsExpression dialect (ts ++ t :: ts') (.binary op left right) (max n m) := by
  rcases hop with hadd | hmul
  · exact .binary (.operand (.operand hleft)) hadd (.operand hright)
  · exact .operand (.binary (.operand hleft) hmul hright)

theorem IsFactor.number {t : Token} {value : Number} (hkind : t.kind = .number)
    (hliteral : t.literal = some value.literal) :
    IsFactor dialect [t] (.number value) 0 := by
  cases value with
  | int value => exact .int hkind hliteral
  | float value => exact .float hkind hliteral

/-- **Expressions are read back.** -/
theorem Expr.readsBack (unit : String) (line : LineNumber) {e : Expr} (h : e.WellFormed dialect) :
    ReadsBack dialect unit line (IsFactor dialect) (Stops isNumeralRest) e.render e e.nesting := by
  have hopen : Yields dialect unit line "(".toList _ _ := .mark .openParen rfl rfl
  have hclose : Yields dialect unit line ")".toList _ _ := .mark .closeParen rfl rfl
  induction e with
  | binary op left right ihLeft ihRight =>
    obtain ⟨hleft, hfactor⟩ := ihLeft h.1
    obtain ⟨hright, hfactor'⟩ := ihRight h.2
    obtain ⟨k, hspelling, hop⟩ := op.exists_kind
    have htext := hopen.append hleft fun _ => trivial
    have htext := htext.append (.operator k hspelling) (stops_of_spelling k hspelling)
    have htext := htext.append hright (detached h.2).stops_isPunctuatorRest
    have htext := htext.append hclose (stops_of_spelling .closeParen rfl)
    refine ⟨htext.mono fun _ _ => trivial, ?_⟩
    -- Whichever of the two layers the operator is from, the parentheses make a factor of it.
    have hbody := hfactor.binary (t := ⟨k, op.symbol, none, ⟨line, unit⟩⟩) hfactor' hop
    rw [nesting]
    simpa using IsFactor.grouping (.mk rfl hbody rfl)
  | negate operand ih =>
    obtain ⟨hoperand, hfactor⟩ := ih h.2
    have htext : Yields dialect unit line "(-".toList _ _ :=
      hopen.append (.operator .dash rfl) fun _ => trivial
    have htext := htext.append hoperand (detached h.2).stops_isPunctuatorRest
    have htext := htext.append hclose (stops_of_spelling .closeParen rfl)
    refine ⟨htext.mono fun _ _ => trivial, ?_⟩
    -- The minus takes a level, and the parentheses around it take the other one.
    have hminus := After.mk (t := ⟨.dash, "-", none, ⟨line, unit⟩⟩) rfl hfactor
    exact .grouping (.mk rfl (.operand (.operand (.negation h.1 hminus))) rfl)
  | identifier name => exact ⟨(Yields.name h).mono fun _ => stops_isWordRest, .identifier rfl⟩
  | number value => exact ⟨.number h, .number rfl rfl⟩
  | char value => exact ⟨(Yields.charLiteral h).mono fun _ _ => trivial, .char rfl rfl⟩
  | string value => exact ⟨(Yields.stringLiteral h).mono fun _ _ => trivial, .string rfl rfl⟩

/-- An expression where any may stand. -/
theorem Expr.readsBack_isExpression (unit : String) (line : LineNumber) {e : Expr}
    (h : e.WellFormed dialect) :
    ReadsBack dialect unit line (IsExpression dialect) (Stops isNumeralRest) e.render e
      e.nesting := by
  obtain ⟨htext, hfactor⟩ := readsBack unit line h
  exact ⟨htext, .operand (.operand hfactor)⟩

/-- **Conditions are read back.** -/
theorem Condition.readsBack (unit : String) (line : LineNumber) {c : Condition}
    (h : c.WellFormed dialect) :
    ReadsBack dialect unit line (IsCondition dialect) (Stops isNumeralRest) c.render c
      c.nesting := by
  obtain ⟨op, left, right⟩ := c
  obtain ⟨hleft, hexpression⟩ := Expr.readsBack_isExpression unit line h.1
  obtain ⟨hright, hexpression'⟩ := Expr.readsBack_isExpression unit line h.2
  obtain ⟨k, hspelling, hop⟩ := op.exists_kind
  have htext := hleft.append (.operator k hspelling) (stops_of_spelling k hspelling)
  have htext := htext.append hright (Expr.detached h.2).stops_isPunctuatorRest
  refine ⟨htext, ?_⟩
  have hcondition := IsCondition.mk (t := ⟨k, op.symbol, none, ⟨line, unit⟩⟩) hexpression hop
    hexpression'
  rw [nesting]
  simpa using hcondition

end

end MiniC
