import MiniC.Parser.Grammar

/-!
# Runs of parsers

How a parser that is put together from others runs, stated once for each way of putting parsers
together, so that no later proof opens the monad. A sequence succeeds when both of its parts do
(`Parser.bind_ok_iff`), and fails where one of them fails (`Parser.bind_error_iff`). The parsers for
one token are described by what they do to the tokens that are left.

A chain of operators is a loop over pairs of an operator and an operand (`Parser.chain_eq`), so
whatever is proved of `manyWhile` holds of chains too.
-/

namespace MiniC

namespace Cursor

/-- The cursor that stands the given tokens earlier. -/
def before (ts : List Token) (c : Cursor) : Cursor := { c with rest := ts ++ c.rest }

@[simp] theorem before_nil (c : Cursor) : c.before [] = c := rfl

@[simp] theorem before_rest (ts : List Token) (c : Cursor) :
    (c.before ts).rest = ts ++ c.rest := rfl

theorem before_cons (t : Token) (ts : List Token) (c : Cursor) :
    c.before (t :: ts) = (c.before ts).before [t] := rfl

/-- Tokens that are put back are read again in their order. -/
theorem before_append (ts ts' : List Token) (c : Cursor) :
    c.before (ts ++ ts') = (c.before ts').before ts := by
  rw [before, List.append_assoc]
  rfl

theorem kind_before (t : Token) (c : Cursor) : (c.before [t]).kind = t.kind := rfl

theorem kind_of_end {c : Cursor} (h : c.rest = []) : c.kind = .endOfInput := by
  rw [kind, h]

theorem position_of_end {c : Cursor} (h : c.rest = []) : c.position = c.endPosition := by
  rw [position, h]

/-- A cursor that looks at a kind of token is before a token of that kind. -/
theorem exists_before {c : Cursor} {k : Kind} (h : c.kind = k) (hk : k ≠ .endOfInput) :
    ∃ t c₁, c = before [t] c₁ ∧ t.kind = k := by
  obtain ⟨rest, depth, e⟩ := c
  cases rest with
  | nil => exact absurd h.symm hk
  | cons t rest => exact ⟨t, ⟨rest, depth, e⟩, rfl, h⟩

/-- A cursor is at the end, or before a token. -/
theorem end_or_before (c : Cursor) : c.rest = [] ∨ ∃ t c₁, c = before [t] c₁ := by
  obtain ⟨rest, depth, e⟩ := c
  cases rest with
  | nil => exact .inl rfl
  | cons t rest => exact .inr ⟨t, ⟨rest, depth, e⟩, rfl⟩

end Cursor

namespace Parser

variable {α β : Type} {c c' : Cursor} {p : Parser α} {f : α → Parser β}

/-! ### Sequences -/

/-- After a success, a sequence goes on with what it gave. -/
theorem bind_of_ok {a : α} {c₁ : Cursor} (h : p c = .ok a c₁) : (p >>= f) c = f a c₁ := by
  change EStateM.bind p f c = _
  rw [EStateM.bind, h]

theorem bind_of_error {d : Diagnostic} {c₁ : Cursor} (h : p c = .error d c₁) :
    (p >>= f) c = .error d c₁ := by
  change EStateM.bind p f c = _
  rw [EStateM.bind, h]

/-- A sequence succeeds when its first part does and what follows does too. -/
theorem bind_ok_iff {b : β} :
    (p >>= f) c = .ok b c' ↔ ∃ a c₁, p c = .ok a c₁ ∧ f a c₁ = .ok b c' := by
  rcases h : p c with ⟨a, c₁⟩ | ⟨d, c₁⟩
  · rw [bind_of_ok h]
    constructor
    · intro hf
      exact ⟨a, c₁, rfl, hf⟩
    · rintro ⟨a', c₁', heq, hf⟩
      cases heq
      exact hf
  · rw [bind_of_error h]
    constructor
    · nofun
    · rintro ⟨a', c₁', heq, -⟩
      cases heq

/-- A sequence fails when its first part fails, or when that succeeds and what follows fails. -/
theorem bind_error_iff {d : Diagnostic} :
    (p >>= f) c = .error d c' ↔
      p c = .error d c' ∨ ∃ a c₁, p c = .ok a c₁ ∧ f a c₁ = .error d c' := by
  rcases h : p c with ⟨a, c₁⟩ | ⟨d₁, c₁⟩
  · rw [bind_of_ok h]
    constructor
    · intro hf
      exact .inr ⟨a, c₁, rfl, hf⟩
    · rintro (heq | ⟨a', c₁', heq, hf⟩) <;> cases heq
      exact hf
  · rw [bind_of_error h]
    constructor
    · rintro ⟨⟩
      exact .inl rfl
    · rintro (heq | ⟨a', c₁', heq, -⟩) <;> cases heq
      rfl

/-- A sequence depends on its first part only through what that part answers. -/
theorem bind_congr_at {q : Parser α} (h : p c = q c') : (p >>= f) c = (q >>= f) c' := by
  rcases hq : q c' with ⟨a, c₁⟩ | ⟨d, c₁⟩
  · rw [bind_of_ok hq, bind_of_ok (h.trans hq)]
  · rw [bind_of_error hq, bind_of_error (h.trans hq)]

/-! ### One token -/

theorem kind_apply (c : Cursor) : kind c = .ok c.kind c := rfl

theorem advance_before (t : Token) (c : Cursor) : advance (c.before [t]) = .ok t c := rfl

theorem advance_of_end (h : c.rest = []) : advance c = .error c.endOfInput c := by
  rw [advance, h]

theorem unexpected_of_end (h : c.rest = []) : c.unexpected = c.endOfInput := by
  rw [Cursor.unexpected, h]

theorem unexpectedBecause_of_end (message : String) (h : c.rest = []) :
    c.unexpectedBecause message = c.endOfInput := by
  rw [Cursor.unexpectedBecause, h]

/-- A token that is asked for and is there is taken. -/
theorem expect_of_eq {t : Token} {k : Kind} (h : t.kind = k) (c : Cursor) :
    expect k (c.before [t]) = .ok t c := by
  rw [expect, bind_of_ok (kind_apply _), Cursor.kind_before, if_pos h, advance_before]

theorem expect_of_ne {k : Kind} (h : c.kind ≠ k) : expect k c = .error c.unexpected c := by
  rw [expect, bind_of_ok (kind_apply _), if_neg h]
  rfl

theorem expect_of_end (k : Kind) (h : c.rest = []) : expect k c = .error c.endOfInput c := by
  rw [expect, bind_of_ok (kind_apply _)]
  split
  · exact advance_of_end h
  · rw [fail, unexpected_of_end h]

theorem expectFor_of_eq (message : String) {t : Token} {k : Kind} (h : t.kind = k) (c : Cursor) :
    expectFor message k (c.before [t]) = .ok t c := by
  rw [expectFor, bind_of_ok (kind_apply _), Cursor.kind_before, if_pos h, advance_before]

/-- Where the token is not there, the reason is given and nothing is taken. -/
theorem expectFor_of_ne (message : String) {k : Kind} (h : c.kind ≠ k) :
    expectFor message k c = .error (c.unexpectedBecause message) c := by
  rw [expectFor, bind_of_ok (kind_apply _), if_neg h]
  rfl

/-- Where the tokens run out, no reason is given. -/
theorem expectFor_of_end (message : String) (k : Kind) (h : c.rest = []) :
    expectFor message k c = .error c.endOfInput c := by
  rw [expectFor, bind_of_ok (kind_apply _)]
  split
  · exact advance_of_end h
  · rw [fail, unexpectedBecause_of_end message h]

/-- An optional part is read where its first token is next, -/
theorem optionalAfter_of_eq {t : Token} {k : Kind} (h : t.kind = k) (c : Cursor) :
    optionalAfter k p (c.before [t]) = (p >>= fun a => pure (some a)) c := by
  rw [optionalAfter, bind_of_ok (kind_apply _), Cursor.kind_before, if_pos h,
    bind_of_ok (advance_before ..), map_eq_pure_bind]

/-- and is not there otherwise. -/
theorem optionalAfter_of_ne {k : Kind} (h : c.kind ≠ k) : optionalAfter k p c = .ok none c := by
  rw [optionalAfter, bind_of_ok (kind_apply _), if_neg h]
  rfl

theorem caseLabel_of_some {t : Token} {label : CaseLabel} (h : t.caseLabel? = some label)
    (c : Cursor) : caseLabel (c.before [t]) = .ok label c := by
  have hcurrent : (c.before [t]).current?.bind Token.caseLabel? = some label := h
  rw [caseLabel, hcurrent]
  rfl

/-- Without a label nothing is taken. -/
theorem caseLabel_of_none (h : c.current?.bind Token.caseLabel? = none) :
    caseLabel c = .error (c.unexpectedBecause "expected case label") c := by
  rw [caseLabel, h]

/-- A case label is read off the next token, or nothing is taken. -/
theorem caseLabel_cases (c : Cursor) :
    (∃ t c₁ label, c = Cursor.before [t] c₁ ∧ t.caseLabel? = some label ∧
      caseLabel c = .ok label c₁) ∨
    (c.current?.bind Token.caseLabel? = none ∧
      caseLabel c = .error (c.unexpectedBecause "expected case label") c) := by
  rcases h : c.current?.bind Token.caseLabel? with - | label
  · exact .inr ⟨rfl, caseLabel_of_none h⟩
  · obtain ⟨t, ht, hlabel⟩ := Option.bind_eq_some_iff.1 h
    rcases c.end_or_before with hend | ⟨t', c, rfl⟩
    · rw [Cursor.current?, hend] at ht
      cases ht
    · cases ht
      exact .inl ⟨_, c, label, rfl, hlabel, caseLabel_of_some hlabel c⟩

/-! ### Repetition and levels -/

theorem manyAtMost_succ (test : Cursor → Bool) (p : Parser α) (bound : Nat) (c : Cursor) :
    manyAtMost test p (bound + 1) c =
      if test c then
        (p >>= fun a => manyAtMost test p bound >>= fun rest => pure (a :: rest)) c
      else .ok [] c := rfl

/-- To open a level is to read its inside one level deeper, and then to leave the level. -/
theorem opened_apply (p : Parser α) (c : Cursor) :
    opened p c = (p >>= fun a => exit >>= fun _ => pure a) { c with depth := c.depth + 1 } := rfl

/-- A level that is opened is closed by a success. -/
theorem opened_ok_iff {a : α} :
    opened p c = .ok a c' ↔
      ∃ c₁, p { c with depth := c.depth + 1 } = .ok a c₁ ∧
        c' = { c₁ with depth := c₁.depth - 1 } := by
  rw [opened_apply, bind_ok_iff]
  constructor
  · rintro ⟨a', c₁, h, heq⟩
    cases heq
    exact ⟨c₁, h, rfl⟩
  · rintro ⟨c₁, h, rfl⟩
    exact ⟨a, c₁, h, rfl⟩

/-- A failure inside of a level leaves the level open. -/
theorem opened_error_iff {d : Diagnostic} :
    opened p c = .error d c' ↔ p { c with depth := c.depth + 1 } = .error d c' := by
  rw [opened_apply, bind_error_iff]
  constructor
  · rintro (h | ⟨a, c₁, -, heq⟩)
    · exact h
    · cases heq
  · exact .inl

/-- A token that is taken inside of a level may as well be taken before it. -/
theorem opened_advance (f : Token → Parser α) (t : Token) (c : Cursor) :
    opened (advance >>= f) (c.before [t]) = opened (f t) c := rfl

/-! ### Chains -/

section

variable {op? : Kind → Option BinaryOp} {operand : Parser Expr} {bound : Nat} {left : Expr}

theorem chainFrom_of_none (h : op? c.kind = none) :
    chainFrom op? operand (bound + 1) left c = .ok left c := by
  rw [chainFrom, bind_of_ok (kind_apply c), h]
  rfl

/-- A chain goes on with an operator and an operand; what has been read becomes the left side. -/
theorem chainFrom_of_some {op : BinaryOp} (h : op? c.kind = some op) :
    chainFrom op? operand (bound + 1) left c =
      (advance >>= fun _ => operand >>= fun right =>
        chainFrom op? operand bound (.binary op left right)) c := by
  rw [chainFrom, bind_of_ok (kind_apply c), h]

end

end Parser

namespace Grammar

variable {g : Grammar} {c : Cursor} {factor : Parser Expr} {inside : Option (Parser Expr)}
  {inside' : Option (Parser Stmt)}

/-! ### Rules -/

theorem factorOver_of_some {rule : FactorRule} (h : g.factorRule? c.kind = some rule) :
    g.factorOver inside c = rule.parser inside c := by
  rw [factorOver, Parser.bind_of_ok (Parser.kind_apply c), h]

/-- A factor that no rule starts is unexpected, and not taken. -/
theorem factorOver_of_none (h : g.factorRule? c.kind = none) :
    g.factorOver inside c = .error c.unexpected c := by
  rw [factorOver, Parser.bind_of_ok (Parser.kind_apply c), h]
  rfl

theorem statementOver_of_some {rule : StatementRule} (h : g.statementRule? c.kind = some rule) :
    g.statementOver factor inside' c = rule.parser factor inside' c := by
  rw [statementOver, Parser.bind_of_ok (Parser.kind_apply c), h]

/-- A statement that no rule starts is unexpected, and not taken. -/
theorem statementOver_of_none (h : g.statementRule? c.kind = none) :
    g.statementOver factor inside' c = .error c.unexpected c := by
  rw [statementOver, Parser.bind_of_ok (Parser.kind_apply c), h]
  rfl

end Grammar

end MiniC
