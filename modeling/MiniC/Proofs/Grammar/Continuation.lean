import MiniC.Proofs.Grammar.Lookahead
import MiniC.Proofs.Grammar.Recognition

/-!
# Continuations of a unit

What may come after the first tokens of a unit, and what it changes.

Running out of tokens means that a unit is not finished, and nothing else (`parse_incomplete`). If a
unit can be read, then each of its beginnings can be read or runs out of tokens at its last token:
the parsers of a dialect are incremental (`Grammar.statements_incremental`). Conversely, a unit
that runs out of tokens with a level to spare can be continued to one that is read, since what has
been read begins a program (`Parser.ReadsAt.viable`).

A token that is blamed is the first one that cannot come where it does, and what comes after it does
not matter (`parse_blames`): the parsers are predictive (`Grammar.statements_predictive`). After a
unit that is read, another one is read as it would be by itself (`parse_append`), since a statement
ends where its last token does. Only a conditional looks at the token after it, for its `else`.
-/

namespace MiniC

variable {dialect : Dialect} {unit : Option String} {tokens : List Token}

/-! ### Running out of tokens -/

/-- The number of levels that are open where the reading of a unit ends. -/
def openLevels (dialect : Dialect) (unit : Option String) (tokens : List Token) : Nat :=
  match (Grammar.ofDialect dialect).statements (.ofTokens unit tokens) with
  | .ok _ c => c.depth
  | .error _ c => c.depth

/-- What runs out of tokens at the end of a unit reports the last token. -/
theorem parse_of_spent
    (h : Parser.Spent ((Grammar.ofDialect dialect).statements (.ofTokens unit tokens))) :
    (∃ program, parse dialect unit tokens = .ok program) ∨
    ∃ last, tokens.getLast? = some last ∧
      parse dialect unit tokens = .error ⟨.unexpectedEndOfInput, last.position⟩ := by
  have hmoves : Parser.Moves maxNesting (Grammar.ofDialect dialect).statements :=
    .manyWhile _ (Grammar.statementAt_advances _ _).toMoves
  rcases hrun : (Grammar.ofDialect dialect).statements (.ofTokens unit tokens)
    with ⟨statements, c⟩ | ⟨d, c⟩
  · exact .inl ⟨⟨statements⟩, parse_eq_ok_iff.2 ⟨c, hrun⟩⟩
  · rw [hrun] at h
    obtain _ | ⟨hc⟩ := h
    have hposition : c.position = (Cursor.ofTokens unit tokens).endPosition := by
      rw [Cursor.position, hc]
      exact (hmoves.error hrun).endPosition
    have herror := parse_eq_error_iff.2 ⟨c, hrun⟩
    rw [Cursor.endOfInput, hposition] at herror
    refine .inr ?_
    rcases hlast : tokens.getLast? with - | last
    · -- A unit without tokens is read.
      rw [List.getLast?_eq_none_iff] at hlast
      rw [hlast] at hrun
      cases hrun
    · rw [Cursor.ofTokens, hlast] at herror
      exact ⟨last, rfl, herror⟩

/-- **Running out of tokens means that more are needed.** A unit that has a continuation which is
read is read itself, or runs out of tokens at its last token. A unit that runs out of tokens while a
level can still be opened has a continuation that is read. -/
theorem parse_incomplete (dialect : Dialect) (unit : Option String) (tokens : List Token) :
    (∀ more program, parse dialect unit (tokens ++ more) = .ok program →
      (∃ program', parse dialect unit tokens = .ok program') ∨
      ∃ last, tokens.getLast? = some last ∧
        parse dialect unit tokens = .error ⟨.unexpectedEndOfInput, last.position⟩) ∧
    (∀ position, parse dialect unit tokens = .error ⟨.unexpectedEndOfInput, position⟩ →
      openLevels dialect unit tokens < maxNesting →
      ∃ more program, parse dialect unit (tokens ++ more) = .ok program) := by
  constructor
  · intro more program h
    obtain ⟨c, hrun⟩ := parse_eq_ok_iff.1 h
    -- The two cursors differ in the position of the end too, as that is the last token's.
    have hextend : Cursor.ofTokens unit (tokens ++ more) = (Cursor.ofTokens unit tokens).extend more
        (Cursor.ofTokens unit (tokens ++ more)).endPosition := rfl
    rw [hextend] at hrun
    rcases (Grammar.statements_incremental dialect).onPrefix _ _ _ _ _ hrun
      with ⟨c₁, hrun₁, -⟩ | hspent
    · exact .inl ⟨program, parse_eq_ok_iff.2 ⟨c₁, hrun₁⟩⟩
    · exact parse_of_spent hspent
  · intro position h hopen
    obtain ⟨c, hrun⟩ := parse_eq_error_iff.1 h
    rw [openLevels, hrun] at hopen
    obtain ⟨-, more, statements, n, hstatements, hn⟩ :=
      (Grammar.statements_reads dialect _).viable hrun rfl (Nat.zero_add _) hopen
    have hprogram : IsProgram dialect (tokens ++ more) ⟨statements⟩ n := hstatements
    exact ⟨more, ⟨statements⟩, hprogram.parse_eq_ok hn unit⟩

/-! ### Tokens that cannot come next -/

/-- **The first token to blame is blamed.** If a token of a unit is blamed, the tokens before it are
read or run out, and every unit that begins with the same tokens, up to the one that is blamed, has
the same diagnostic. -/
theorem parse_blames {d : Diagnostic} (h : parse dialect unit tokens = .error d)
    (hd : d.fault.token?.isSome = true) :
    ∃ k t, tokens[k]? = some t ∧ d.Blames t ∧
      ((∃ program, parse dialect unit (tokens.take k) = .ok program) ∨
        ∃ position, parse dialect unit (tokens.take k) = .error ⟨.unexpectedEndOfInput, position⟩) ∧
      ∀ tokens', tokens'.take (k + 1) = tokens.take (k + 1) →
        parse dialect unit tokens' = .error d := by
  obtain ⟨c, hrun⟩ := parse_eq_error_iff.1 h
  obtain ⟨ts, t, c₁, hbefore, hblames, hsettled, hspent⟩ :=
    ((Grammar.statements_predictive dialect).settlesAt _).error hrun hd
  have htokens : tokens = ts ++ [t] ++ c₁.rest := congrArg Cursor.rest hbefore
  have hlength : (ts ++ [t]).length = ts.length + 1 := List.length_append
  have htake : tokens.take (ts.length + 1) = ts ++ [t] := by
    rw [htokens, ← hlength, List.take_left]
  refine ⟨ts.length, t, ?_, hblames, ?_, fun tokens' htokens' => ?_⟩
  · rw [htokens, List.append_assoc, List.getElem?_append_right (Nat.le_refl _), Nat.sub_self]
    rfl
  · have htake : tokens.take ts.length = ts := by
      rw [htokens, List.append_assoc, List.take_left]
    rw [htake]
    have hend := hspent (.endOf unit ts) rfl rfl
    rw [Cursor.before_endOf] at hend
    rcases parse_of_spent hend with hok | ⟨last, -, herror⟩
    · exact .inl hok
    · exact .inr ⟨last.position, herror⟩
  · -- The other unit has the tokens up to the one that is blamed, and then others.
    obtain ⟨c', hrun'⟩ := hsettled
      { Cursor.ofTokens unit tokens' with rest := tokens'.drop (ts.length + 1) } rfl
    refine parse_eq_error_iff.2 ⟨c', ?_⟩
    rw [Cursor.before, ← htake, ← htokens', List.take_append_drop] at hrun'
    exact hrun'

/-- A token of the first line that has no value. -/
def Token.bare (kind : Kind) (text : String) : Token := ⟨kind, text, none, .start none⟩

/-- The statement `break;`. -/
def Token.leave : List Token := [.bare .breakWord "break", .bare .semicolon ";"]

/-- A conditional that lacks the start of its condition. -/
def Token.headless : List Token :=
  [.bare .ifWord "if", .bare .closeParen ")", .bare .openCurly "\x7b"]

/-- What is blamed is the parenthesis. -/
theorem parse_blames_headless :
    parse {} none (Token.leave ++ Token.headless)
        = .error ⟨.unexpectedToken ")", .start none⟩ ∧
      ∃ k t, (Token.leave ++ Token.headless)[k]? = some t ∧
        Diagnostic.Blames ⟨.unexpectedToken ")", .start none⟩ t ∧
        ((∃ program, parse {} none ((Token.leave ++ Token.headless).take k) = .ok program) ∨
          ∃ position, parse {} none ((Token.leave ++ Token.headless).take k)
            = .error ⟨.unexpectedEndOfInput, position⟩) ∧
        ∀ tokens', tokens'.take (k + 1) = (Token.leave ++ Token.headless).take (k + 1) →
          parse {} none tokens' = .error ⟨.unexpectedToken ")", .start none⟩ :=
  ⟨rfl, parse_blames rfl rfl⟩

/-! ### Units after each other -/

/-- **Concatenation.** After a unit that is read, another unit is read as it would be by itself, or
fails as it would by itself, unless it starts with the word that goes on with a conditional. -/
theorem parse_append {program : Program} {tokens' : List Token}
    (h : parse dialect unit tokens = .ok program)
    (helse : ∀ t ∈ tokens'.head?, t.kind ≠ .elseWord) :
    parse dialect unit (tokens ++ tokens')
      = (parse dialect unit tokens').map fun more =>
          ⟨program.statements ++ more.statements⟩ := by
  obtain ⟨n, hn, hprogram⟩ := isProgram_of_parse h
  cases tokens' with
  | nil =>
    rw [List.append_nil, h]
    change _ = Except.ok (Program.mk (program.statements ++ []))
    rw [List.append_nil]
  | cons t ts =>
    -- Both units end at the same token, so their cursors differ in what is left only.
    have hbefore : Cursor.ofTokens unit (tokens ++ t :: ts)
        = (Cursor.ofTokens unit (t :: ts)).before tokens := by
      simp only [Cursor.ofTokens, List.getLast?_append, List.getLast?_cons, Option.some_or]
      rfl
    have hrun := Parser.Accepts.manyWhile_before
      ((Grammar.ofDialect dialect).statementAt_advances maxNesting)
      (Grammar.statementAt_accepts dialect maxNesting) IsStatement.hasTokens_and_kind_ne hprogram hn
      (c := .ofTokens unit (t :: ts)) (helse t rfl)
    rw [← hbefore] at hrun
    rcases hmore : (Grammar.ofDialect dialect).statements (.ofTokens unit (t :: ts))
      with ⟨statements, c⟩ | ⟨d, c⟩
    · have hparse : parse dialect unit (t :: ts) = .ok ⟨statements⟩ :=
        parse_eq_ok_iff.2 ⟨c, hmore⟩
      rw [hparse]
      exact parse_eq_ok_iff.2 ⟨c, hrun.trans (Parser.bind_of_ok hmore)⟩
    · rw [parse_eq_error_iff.2 ⟨c, hmore⟩]
      exact parse_eq_error_iff.2 ⟨c, hrun.trans (Parser.bind_of_error hmore)⟩

/-- The conditional fails after a statement as it does by itself, and a second statement is read. -/
theorem parse_append_headless :
    parse {} none Token.leave = .ok ⟨[.leave]⟩ ∧
      (∀ t ∈ Token.headless.head?, t.kind ≠ .elseWord) ∧
      parse {} none (Token.leave ++ Token.headless)
        = .error ⟨.unexpectedToken ")", .start none⟩ ∧
      parse {} none (Token.leave ++ Token.leave) = .ok ⟨[.leave, .leave]⟩ := by
  have helse : ∀ t ∈ Token.headless.head?, t.kind ≠ .elseWord := by
    rintro _ ⟨⟩
    decide
  have hleave : ∀ t ∈ Token.leave.head?, t.kind ≠ .elseWord := by
    rintro _ ⟨⟩
    decide
  exact ⟨rfl, helse, (parse_append rfl helse).trans rfl, (parse_append rfl hleave).trans rfl⟩

end MiniC
