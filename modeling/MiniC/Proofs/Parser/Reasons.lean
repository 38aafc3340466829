import MiniC.Proofs.Parser.Run

/-!
# What parsers report

A parser **reports** faults of four sorts only (`Parser.Reports`): a token that cannot come next,
perhaps with one of the reasons in `Fault.reasons`; tokens that run out; and a level too many. So
whatever words a diagnostic of a grammar has that are not the text of a token are known in advance.

This is shown part by part: it holds of a parser if it holds of the parsers that it is put together
from.
-/

namespace MiniC

namespace Fault

/-- The **reasons** that are given for a token that cannot come next. -/
def reasons : List String :=
  ["expected identifier in declaration", "unknown type name", "expected assignment target",
    "expected assignment operator", "expected relational operator", "expected case label",
    "expected identifier to switch on"]

/-- A fault that a grammar may find. -/
inductive IsOfGrammar : Fault → Prop
  | unexpectedToken (token : String) : IsOfGrammar (.unexpectedToken token)
  | unexpectedTokenDetailed (token : String) {message : String} : message ∈ reasons →
      IsOfGrammar (.unexpectedTokenDetailed token message)
  | unexpectedEndOfInput : IsOfGrammar .unexpectedEndOfInput
  | nestingTooDeep : IsOfGrammar (.nestingTooDeep maxNesting)

/-- An unexpected token is reported as such, and where there is none, that the tokens run out. -/
private theorem isOfGrammar_unexpected (c : Cursor) : c.unexpected.fault.IsOfGrammar := by
  rw [Cursor.unexpected]
  split
  · exact .unexpectedEndOfInput
  · exact .unexpectedToken _

/-- A reason goes with a token, so it is not given where the tokens run out. -/
theorem isOfGrammar_unexpectedBecause {message : String} (h : message ∈ reasons) (c : Cursor) :
    (c.unexpectedBecause message).fault.IsOfGrammar := by
  rw [Cursor.unexpectedBecause]
  split
  · exact .unexpectedEndOfInput
  · exact .unexpectedTokenDetailed _ h

end Fault

namespace Parser

/-- A parser that **reports** faults of a grammar only. -/
def Reports (p : Parser α) : Prop :=
  ∀ c d c', p c = .error d c' → d.fault.IsOfGrammar

section

variable {α β : Type} {p : Parser α} {f : α → Parser β}

/-! ### One token -/

theorem Reports.pure (a : α) : Reports (pure a : Parser α) := nofun

theorem Reports.throw {d : Diagnostic} (hd : d.fault.IsOfGrammar) :
    Reports (throw d : Parser α) := by
  intro c d' c' h
  cases h
  exact hd

/-- A failure is of a grammar if what it says is, wherever it is raised. -/
theorem Reports.fail {diagnostic : Cursor → Diagnostic}
    (h : ∀ c, (diagnostic c).fault.IsOfGrammar) : Reports (fail diagnostic : Parser α) := by
  intro c d c' hrun
  cases hrun
  exact h c

theorem Reports.unexpected : Reports (Parser.fail Cursor.unexpected : Parser α) :=
  .fail Fault.isOfGrammar_unexpected

theorem Reports.unexpectedBecause {message : String} (h : message ∈ Fault.reasons) :
    Reports (Parser.fail (Cursor.unexpectedBecause message) : Parser α) :=
  .fail (Fault.isOfGrammar_unexpectedBecause h)

/-- To look at the next token reports nothing. -/
theorem Reports.kind : Reports kind := nofun

/-- Only that there is no token left keeps a parser from taking the next one. -/
theorem Reports.advance : Reports advance := by
  intro c d c' h
  rw [Parser.advance] at h
  split at h <;> cases h
  exact .unexpectedEndOfInput

/-! ### Sequences -/

/-- A sequence reports what its first part does, and what the rest does with what that gave. -/
theorem Reports.bind (hp : Reports p) (hf : ∀ a, Reports (f a)) : Reports (p >>= f) := by
  intro c d c' h
  rcases bind_error_iff.1 h with h | ⟨a, c₁, -, h⟩
  · exact hp c d c' h
  · exact hf a c₁ d c' h

/-- The next token is taken, and something follows. -/
theorem Reports.skip_bind {f : Token → Parser β} (hf : ∀ t, Reports (f t)) :
    Reports (Parser.advance >>= f) := Reports.advance.bind hf

theorem Reports.expect (k : Kind) : Reports (expect k) := by
  refine Reports.kind.bind fun k' => ?_
  split
  · exact .advance
  · exact .unexpected

/-- A token that is asked for with a reason is reported with that reason. -/
theorem Reports.expectFor {message : String} (h : message ∈ Fault.reasons) (k : Kind) :
    Reports (expectFor message k) := by
  refine Reports.kind.bind fun k' => ?_
  split
  · exact .advance
  · exact .unexpectedBecause h

/-- An optional part that is not there is not reported. -/
theorem Reports.optionalAfter (k : Kind) (hp : Reports p) : Reports (optionalAfter k p) := by
  refine Reports.kind.bind fun k' => ?_
  split
  · refine .skip_bind fun _ => ?_
    rw [map_eq_pure_bind]
    exact hp.bind fun a => .pure (some a)
  · exact .pure none

/-! ### Repetition and levels -/

/-- A loop reports what one round of it does. -/
theorem Reports.manyAtMost (test : Cursor → Bool) (hp : Reports p) (bound : Nat) :
    Reports (manyAtMost test p bound) := by
  induction bound with
  | zero => exact .pure []
  | succ bound ih =>
    intro c d c' h
    rw [manyAtMost_succ] at h
    split at h
    · exact (hp.bind fun a => ih.bind fun rest => .pure (a :: rest)) c d c' h
    · cases h

theorem Reports.manyWhile (test : Cursor → Bool) (hp : Reports p) :
    Reports (manyWhile test p) :=
  fun c => hp.manyAtMost test (c.rest.length + 1) c

/-- Where no level is left, that is what is reported. -/
theorem Reports.deeper {inside : Option (Parser α)} {body : Parser α → Parser β}
    (h : ∀ p ∈ inside, Reports (body p)) : Reports (deeper inside body) := by
  cases inside with
  | none => exact .fail fun _ => .nestingTooDeep
  | some p =>
    intro c d c' hrun
    exact h p rfl _ d c' (opened_error_iff.1 hrun)

/-! ### Chains -/

/-- A chain reports what its operands do: where there is no operator, it just ends. -/
theorem Reports.chainFrom (op? : Kind → Option BinaryOp) {operand : Parser Expr}
    (h : Reports operand) (bound : Nat) (left : Expr) :
    Reports (chainFrom op? operand bound left) := by
  induction bound generalizing left with
  | zero => exact .pure left
  | succ bound ih =>
    refine Reports.kind.bind fun k => ?_
    split
    · exact .pure left
    · exact .skip_bind fun _ => h.bind fun right => ih _

theorem Reports.chain (op? : Kind → Option BinaryOp) {operand : Parser Expr}
    (h : Reports operand) : Reports (chain op? operand) :=
  h.bind fun left c => h.chainFrom op? c.rest.length left c

end

end Parser

end MiniC
