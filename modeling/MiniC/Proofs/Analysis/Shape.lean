import MiniC.Proofs.Analysis.Outcome
import MiniC.Proofs.Grammar.Narrowing
import MiniC.Proofs.Rendering.Nesting

/-!
# What the scanner and the grammar say of tokens

The scanner and the grammar each have a table of what a token may be. The scanner knows which kinds
have a value and which words are types, and the grammar which values make an expression or a case
label, and which words name a type. The tables agree (`analyze_isShaped`): the tokens of a unit are
shaped, as can be seen from the lexemes, and the grammar never fails on a shaped token for anything
but its kind.

A parser only moves onward (`Parser.Moves`), so it never comes to a place that is not between two
tokens of the unit. What is said of a factor or a case label is said of all those places.
-/

namespace MiniC

/-! ### Tokens of the scanner -/

private theorem Numeral.kind_of_value? {text : List Char} {literal : Literal}
    (h : value? text = some literal) : literal.kind = .number := by
  simp only [value?] at h
  split at h <;> split at h <;> cases h <;> rfl

private theorem Numeral.kind_substitute (text : List Char) : (substitute text).kind = .number := by
  rw [substitute]
  split <;> rfl

/-- A word that is read as a type names one. -/
private theorem TypeName.isSome_ofWord?_of_ofWord {word : String} (h : Kind.ofWord word = .type) :
    (ofWord? word).isSome = true := by
  rw [Kind.ofWord] at h
  unfold Kind.reserved? at h
  split at h <;> first | rfl | cases h

/-- A lexeme yields shaped tokens. -/
theorem Lexeme.isShaped {position : Position} {text : List Char} {items : List Item}
    (h : Lexeme position text items) {t : Token} (ht : .ok t ∈ items) : t.IsShaped := by
  cases h with
  | skipped | misfit | doubleQuote | singleQuote | unrecognised => simp at ht
  | word =>
    cases List.mem_singleton.1 ht
    have hwords : ∀ k ∈ Kind.words, k ∉ Kind.literals := by decide
    exact .of_none (hwords _ (Kind.ofWord_mem_words _)) TypeName.isSome_ofWord?_of_ofWord
  | numeral _ hvalue =>
    cases List.mem_singleton.1 ht
    exact .of_literal (Numeral.kind_of_value? hvalue).symm
  | valueless =>
    rcases List.mem_cons.1 ht with ht | ht
    · cases ht
    · cases List.mem_singleton.1 ht
      exact .of_literal (Numeral.kind_substitute text).symm
  | charLiteral | stringLiteral =>
    cases List.mem_singleton.1 ht
    exact .of_literal rfl
  | @punctuator kind spelling hspelling =>
    cases List.mem_singleton.1 ht
    have hpunctuators : ∀ k ∈ Kind.punctuators, k ∉ Kind.literals ∧ k ≠ .type := by decide
    have hsome : kind.spelling?.isSome = true := by
      rw [hspelling]
      rfl
    obtain ⟨hliterals, htype⟩ := hpunctuators kind ((Kind.mem_punctuators_iff kind).2 hsome)
    exact .of_none hliterals fun heq => absurd heq htype

variable {dialect : Dialect} {unit : Option String} {source : String}

private theorem isShaped_of_mem_tokenize {t : Token} (ht : t ∈ (tokenize dialect unit source).1) :
    t.IsShaped := by
  obtain ⟨position, text, items, hlexeme, hitem⟩ :=
    exists_lexeme_of_mem_scan (Item.mem_tokens_iff.1 ht)
  exact hlexeme.isShaped hitem

/-! ### Parsers on shaped tokens -/

namespace Parser

/-- A factor that starts like one token is that token. -/
private theorem exists_primary_eq {c : Cursor} (hshape : ∀ t ∈ c.rest, t.IsShaped)
    (h : (Grammar.ofDialect dialect).factorRule? c.kind = some .primary) :
    ∃ e c', primary c = .ok e c' := by
  have hkind := Grammar.kind_of_primary h
  rcases c.end_or_before with hc | ⟨t, c, rfl⟩
  · rw [Cursor.kind_of_end hc] at hkind
    exact absurd hkind (by decide)
  · obtain ⟨e, he⟩ := (hshape t List.mem_cons_self).exists_expr? hkind
    refine ⟨e, c, ?_⟩
    rw [primary, bind_of_ok (advance_before t c), he]
    rfl

/-- A case label is refused for the kind of its token, or at the end. -/
private theorem kind_notMem_of_caseLabel {c c' : Cursor} {d : Diagnostic}
    (hshape : ∀ t ∈ c.rest, t.IsShaped) (h : caseLabel c = .error d c') :
    c.kind ∉ [Kind.identifier, Kind.number, Kind.char] := by
  intro hkind
  rcases c.end_or_before with hc | ⟨t, c, rfl⟩
  · rw [Cursor.kind_of_end hc] at hkind
    exact absurd hkind (by decide)
  · obtain ⟨label, hlabel⟩ := (hshape t List.mem_cons_self).exists_caseLabel? hkind
    cases h.symm.trans (caseLabel_of_some hlabel c)

end Parser

private theorem Grammar.statements_moves (g : Grammar) : Parser.Moves maxNesting g.statements :=
  .manyWhile _ (g.statementAt_advances maxNesting).toMoves

/-- On shaped tokens the grammar fails at the token that it objects to. -/
private theorem Grammar.raises_of_statements {c c' : Cursor} {d : Diagnostic}
    (hshape : ∀ t ∈ c.rest, t.IsShaped)
    (h : (ofDialect dialect).statements c = .error d c') : c'.Raises d := by
  have hnarrows : Parser.Narrows _ false Parser.Anywhere (ofDialect dialect).statements
      (ofDialect dialect).statements := statements_narrows id false
  have hrun := hnarrows.narrowed c
  rw [h] at hrun
  cases hrun with
  | error hraises => exact hraises hshape
  | stopped => exact .unexpected

/-- **Tokens have the shape that the grammar relies on.** A token has the value that its kind asks
for, and a type names one. So no diagnostic calls the name of a type unknown, and the grammar fails
only at a token that it does not take; wherever it comes to, a token that starts a factor by itself
is one, and a case label is refused for its kind. -/
theorem analyze_isShaped (dialect : Dialect) (unit : Option String) (source : String) :
    (∀ t ∈ (analyze dialect unit source).tokens, t.IsShaped) ∧
    (∀ d ∈ (analyze dialect unit source).diagnostics, ∀ text,
      d.fault ≠ .unexpectedTokenDetailed text "unknown type name") ∧
    (∀ d c, (Grammar.ofDialect dialect).statements
      (.ofTokens unit (analyze dialect unit source).tokens) = .error d c →
        c.rest <:+ (analyze dialect unit source).tokens ∧ c.Raises d) ∧
    ∀ c : Cursor, c.rest <:+ (analyze dialect unit source).tokens →
      ((Grammar.ofDialect dialect).factorRule? c.kind = some .primary →
        ∃ e c', Parser.primary c = .ok e c') ∧
      (∀ d c', Parser.caseLabel c = .error d c' →
        c.kind ∉ [Kind.identifier, Kind.number, Kind.char]) := by
  rw [tokens_analyze]
  have hshape : ∀ t ∈ (tokenize dialect unit source).1, t.IsShaped :=
    fun t ht => isShaped_of_mem_tokenize ht
  refine ⟨hshape, fun d hd text => ?_, fun d c h => ?_, fun c hc => ?_⟩
  · rcases mem_diagnostics_analyze.1 hd with hd | hd
    · intro hfault
      have hphase := phase_of_mem_tokenize hd
      rw [hfault] at hphase
      cases hphase
    · obtain ⟨c, hrun⟩ := parse_eq_error_iff.1 hd
      exact (Grammar.raises_of_statements hshape hrun).fault_ne text
  · exact ⟨((Grammar.statements_moves _).error h).rest, Grammar.raises_of_statements hshape h⟩
  · have hrest : ∀ t ∈ c.rest, t.IsShaped := fun t ht => hshape t (hc.subset ht)
    exact ⟨Parser.exists_primary_eq hrest, fun d c' => Parser.kind_notMem_of_caseLabel hrest⟩

end MiniC
