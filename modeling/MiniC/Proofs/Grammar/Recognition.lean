import MiniC.Proofs.Grammar.Completeness

/-!
# Recognition

`parse` recognizes the programs of a dialect (`parse_recognizes`): it answers a program exactly when
the tokens derive it with no more than `maxNesting` levels open at once, tokens derive one program
at most, and tokens that derive a program with more levels only are refused for the levels.

That a derivation is unique follows from the parsers, which are functions: with as much room as two
derivations of the same tokens need, there is one outcome for both (`IsProgram.unique`).
-/

namespace MiniC

open Phrase

variable {dialect : Dialect} {unit : Option String} {tokens : List Token} {program : Program}

/-! ### Runs of a unit -/

/-- Programs are parsed by the parser for units, with the tokens in front and no level open. -/
theorem parse_eq_ok_iff :
    parse dialect unit tokens = .ok program ↔
      ∃ c, (Grammar.ofDialect dialect).statements (.ofTokens unit tokens)
        = .ok program.statements c := by
  unfold parse
  rcases (Grammar.ofDialect dialect).statements (.ofTokens unit tokens) with ⟨ss, c⟩ | ⟨d, c⟩
  · constructor
    · rintro ⟨⟩
      exact ⟨c, rfl⟩
    · rintro ⟨c', heq⟩
      cases heq
      rfl
  · constructor
    · nofun
    · rintro ⟨c', heq⟩
      cases heq

/-- What is said of a unit is what its parser says. -/
theorem parse_eq_error_iff {d : Diagnostic} :
    parse dialect unit tokens = .error d ↔
      ∃ c, (Grammar.ofDialect dialect).statements (.ofTokens unit tokens) = .error d c := by
  unfold parse
  rcases (Grammar.ofDialect dialect).statements (.ofTokens unit tokens) with ⟨ss, c⟩ | ⟨d', c⟩
  · constructor
    · nofun
    · rintro ⟨c', heq⟩
      cases heq
  · constructor
    · rintro ⟨⟩
      exact ⟨c, rfl⟩
    · rintro ⟨c', heq⟩
      cases heq
      rfl

namespace Grammar

open MiniC.Parser

/-- A unit is read to its end. -/
theorem rest_of_statements {g : Grammar} {c c' : Cursor} {ss : List Stmt}
    (h : g.statements c = .ok ss c') : c'.rest = [] := by
  have htest := test_eq_false_of_manyWhile Cursor.hasTokens (g.statementAt_advances _) h
  rcases c'.end_or_before with hend | ⟨t, c', rfl⟩
  · exact hend
  · cases htest

/-- The parser for units, with any room, accepts any number of statements up to the end. -/
theorem statements_accepts (dialect : Dialect) (room : Nat) :
    Accepts room (manyWhile Cursor.hasTokens ((ofDialect dialect).statementAt room))
      (Many (IsStatement dialect)) fun c => c.rest = [] := by
  have hloop := Accepts.manyWhile ((ofDialect dialect).statementAt_advances room)
    (statementAt_accepts dialect room) IsStatement.hasTokens_and_kind_ne
  refine hloop.weaken fun c hc => ⟨?_, ?_⟩
  · rw [Cursor.kind_of_end hc]
    nofun
  · rw [Cursor.hasTokens, hc]
    rfl

end Grammar

/-- The end of a unit. -/
def Cursor.endOf (unit : Option String) (tokens : List Token) : Cursor :=
  { Cursor.ofTokens unit tokens with rest := [] }

theorem Cursor.before_endOf (unit : Option String) (tokens : List Token) :
    (endOf unit tokens).before tokens = ofTokens unit tokens := by
  rw [before, endOf, ofTokens, List.append_nil]

/-! ### Derivations of a unit -/

/-- What becomes of a unit that derives a program, in a given room. -/
theorem IsProgram.delivers {n : Nat} (h : IsProgram dialect tokens program n) (room : Nat)
    (unit : Option String) :
    Parser.Delivers room n program.statements (.endOf unit tokens)
      (Parser.manyWhile Cursor.hasTokens ((Grammar.ofDialect dialect).statementAt room)
        (.ofTokens unit tokens)) := by
  have hdelivers := Grammar.statements_accepts dialect room h (c := .endOf unit tokens) rfl
  rwa [Cursor.before_endOf] at hdelivers

/-- With just enough room for one derivation there is enough for any other of the same tokens, and
both have one tree. -/
theorem IsProgram.eq_and_le {program' : Program} {n n' : Nat}
    (h : IsProgram dialect tokens program n) (h' : IsProgram dialect tokens program' n') :
    program = program' ∧ n' ≤ n := by
  -- One run, in the room that the first derivation needs, has the outcomes of both.
  have hrun := h.delivers n none
  have hrun' := h'.delivers n none
  generalize Parser.manyWhile Cursor.hasTokens _ _ = outcome at hrun hrun'
  cases hrun with
  | ok _ =>
    obtain ⟨statements⟩ := program
    obtain ⟨statements'⟩ := program'
    cases hrun' with
    | ok hle => exact ⟨rfl, hle⟩
  | tooDeep hlt => exact absurd hlt (Nat.lt_irrefl n)

/-- **Unambiguity.** Tokens derive one program at most, with one number of levels. -/
theorem IsProgram.unique {program' : Program} {n n' : Nat}
    (h : IsProgram dialect tokens program n) (h' : IsProgram dialect tokens program' n') :
    program = program' ∧ n = n' := by
  obtain ⟨heq, hle⟩ := h.eq_and_le h'
  exact ⟨heq, Nat.le_antisymm (h'.eq_and_le h).2 hle⟩

/-- **Soundness.** A unit that is read derives the program it is read as. -/
theorem isProgram_of_parse (h : parse dialect unit tokens = .ok program) :
    ∃ n, n ≤ maxNesting ∧ IsProgram dialect tokens program n := by
  obtain ⟨c, hrun⟩ := parse_eq_ok_iff.1 h
  obtain ⟨ts, n, hts, hn, heq⟩ := (Grammar.statements_reads dialect _).ok hrun
  have hrest := congrArg Cursor.rest heq
  rw [Cursor.before_rest, Grammar.rest_of_statements hrun, List.append_nil] at hrest
  cases hrest
  exact ⟨n, hn, hts⟩

/-- **Completeness.** A unit that derives a program with few enough levels is read as it. -/
theorem IsProgram.parse_eq_ok {n : Nat} (h : IsProgram dialect tokens program n)
    (hn : n ≤ maxNesting) (unit : Option String) : parse dialect unit tokens = .ok program :=
  parse_eq_ok_iff.2 ⟨_, (h.delivers maxNesting unit).eq_ok hn⟩

/-- A unit that derives a program with too many levels is refused for the levels. -/
theorem IsProgram.parse_eq_error {n : Nat} (h : IsProgram dialect tokens program n)
    (hn : maxNesting < n) (unit : Option String) :
    ∃ position, parse dialect unit tokens = .error ⟨.nestingTooDeep maxNesting, position⟩ := by
  obtain ⟨c, hrun⟩ := (h.delivers maxNesting unit).eq_error hn
  exact ⟨c.position, parse_eq_error_iff.2 ⟨c, hrun⟩⟩

/-- **Recognition.** The units that are read are those that derive a program with no more than
`maxNesting` levels, and they are read as that program. No unit derives two programs, and a unit
that derives a program only with more levels is refused for its levels. -/
theorem parse_recognizes (dialect : Dialect) (unit : Option String) (tokens : List Token) :
    (∀ program, parse dialect unit tokens = .ok program ↔
      ∃ n, n ≤ maxNesting ∧ IsProgram dialect tokens program n) ∧
    (∀ program program' n n', IsProgram dialect tokens program n →
      IsProgram dialect tokens program' n' → program = program' ∧ n = n') ∧
    ((∃ program n, IsProgram dialect tokens program n) →
      (∀ program n, IsProgram dialect tokens program n → maxNesting < n) →
      ∃ position, parse dialect unit tokens = .error ⟨.nestingTooDeep maxNesting, position⟩) := by
  refine ⟨fun program => ⟨isProgram_of_parse, ?_⟩, ?_, ?_⟩
  · rintro ⟨n, hn, h⟩
    exact h.parse_eq_ok hn unit
  · intro program program' n n' h h'
    exact h.unique h'
  · rintro ⟨program, n, h⟩ hdeep
    exact h.parse_eq_error (hdeep program n h) unit

end MiniC
