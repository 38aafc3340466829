import MiniC.Proofs.Grammar.Nesting

/-!
# The token that opens a level too many

A unit is refused for its levels because of one token: the first one with which more levels are open
than may be (`OpensTooMany`). A parenthesis or a minus of this sort is where the unit is reported to
be at fault, but a brace is not: the report is made at the token after it
(`parse_tooDeep_position`). The two are on different lines if a line ends between them, as in
`tooManyLoops`.
-/

namespace MiniC

/-- That a token after others **opens a level too many**: it is the first one with which more levels
are open than may be. -/
structure OpensTooMany (before : List Token) (t : Token) : Prop where
  within : ∀ ts, ts <+: before → levelsAfter ts ≤ maxNesting
  full : levelsAfter before = maxNesting
  exceeds : levelsAfter (before ++ [t]) = maxNesting + 1

/-- The first token with a level too many comes when as many are open as may be. -/
private theorem OpensTooMany.of_within {before : List Token} {t : Token}
    (hwithin : Nesting.start.Within before) (hfull : levelsAfter before = maxNesting)
    (hover : levelsAfter (before ++ [t]) = maxNesting + 1) : OpensTooMany before t :=
  ⟨fun _ hts => hwithin.levels_le (Nat.zero_le _) hts, hfull, hover⟩

/-! ### A block too many -/

/-- The start of a loop, up to the brace of its block, on the first line. -/
def loopStart : List Token :=
  [⟨.whileWord, "while", none, ⟨1, "shell"⟩⟩, ⟨.openParen, "(", none, ⟨1, "shell"⟩⟩,
    ⟨.identifier, "x", none, ⟨1, "shell"⟩⟩, ⟨.less, "<", none, ⟨1, "shell"⟩⟩,
    ⟨.identifier, "y", none, ⟨1, "shell"⟩⟩, ⟨.closeParen, ")", none, ⟨1, "shell"⟩⟩,
    ⟨.openCurly, "\x7b", none, ⟨1, "shell"⟩⟩]

/-- The starts of loops, each inside of the one before. -/
def loopStarts : Nat → List Token
  | 0 => []
  | n + 1 => loopStart ++ loopStarts n

/-- Loops up to a block too many, and a token on the second line. -/
def tooManyLoops : List Token :=
  loopStarts (maxNesting + 1) ++ [⟨.breakWord, "break", none, ⟨2, "shell"⟩⟩]

namespace Parser

/-- What fails first inside of a block fails the block. -/
private theorem block_of_error {inside : Parser Stmt} {t : Token} {c c' : Cursor} {d : Diagnostic}
    (ht : t.kind = .openCurly) (hk : c.kind ≠ .closeCurly)
    (h : inside { c with depth := c.depth + 1 } = .error d c') :
    block (some inside) (c.before [t]) = .error d c' := by
  have htest : decide ({ c with depth := c.depth + 1 }.kind ≠ .closeCurly) = true :=
    decide_eq_true hk
  rw [block, bind_of_ok (expect_of_eq ht c)]
  refine opened_error_iff.2 (bind_of_error ?_)
  rw [manyWhile, manyAtMost_succ, if_pos htest, bind_of_error h]

end Parser

/-- A loop is its header and its block. -/
private theorem statementAt_loopStart (room : Nat) (c : Cursor) :
    (Grammar.ofDialect {}).statementAt room (c.before loopStart)
      = (Parser.block (Parser.below (Grammar.ofDialect {}).statementAt room) >>= fun body =>
          pure (.whileLoop ⟨.less, .identifier "x", .identifier "y"⟩ body))
        (c.before (loopStart.drop 6)) := by
  have hrule : (Grammar.ofDialect {}).statementRule? (c.before loopStart).kind
      = some .whileLoop := rfl
  have hheader : Parser.header ((Grammar.ofDialect {}).factorAt room) (c.before loopStart.tail)
      = .ok ⟨.less, .identifier "x", .identifier "y"⟩ (c.before (loopStart.drop 6)) := by
    cases room <;> rfl
  have hadvance : Parser.advance (c.before loopStart)
      = .ok ⟨.whileWord, "while", none, ⟨1, "shell"⟩⟩ (c.before loopStart.tail) := rfl
  rw [Grammar.statementAt_eq, Grammar.statementOver_of_some hrule, StatementRule.parser,
    Parser.whileLoop, Parser.bind_of_ok hadvance, Parser.bind_of_ok hheader]

/-- With no room for a last loop, the token after its brace is blamed. -/
private theorem statementAt_loopStarts (room : Nat) (c : Cursor) :
    ∃ c', (Grammar.ofDialect {}).statementAt room (c.before (loopStarts (room + 1)))
      = .error ⟨.nestingTooDeep maxNesting, c.position⟩ c' := by
  induction room generalizing c with
  | zero =>
    refine ⟨c, ?_⟩
    rw [loopStarts, loopStarts, List.append_nil, statementAt_loopStart]
    rfl
  | succ room ih =>
    obtain ⟨c', h⟩ := ih { c with depth := c.depth + 1 }
    refine ⟨c', ?_⟩
    rw [loopStarts, Cursor.before_append, statementAt_loopStart]
    exact Parser.bind_of_error (Parser.block_of_error rfl (by nofun) h)

/-- The loops are refused at the token on the second line. -/
theorem parse_tooManyLoops :
    parse {} none tooManyLoops = .error ⟨.nestingTooDeep maxNesting, ⟨2, "shell"⟩⟩ := by
  have hcursor (n : Nat) (t : Token) : Cursor.ofTokens none (loopStarts n ++ [t])
      = Cursor.before (loopStarts n) ⟨[t], 0, t.position⟩ := by
    rw [Cursor.ofTokens, List.getLast?_concat]
    rfl
  have htest (n : Nat) (c : Cursor) : (c.before (loopStarts (n + 1))).hasTokens = true := rfl
  obtain ⟨c, h⟩ := statementAt_loopStarts maxNesting
    ⟨[⟨.breakWord, "break", none, ⟨2, "shell"⟩⟩], 0, ⟨2, "shell"⟩⟩
  refine parse_eq_error_iff.2 ⟨c, ?_⟩
  rw [tooManyLoops, hcursor, Grammar.statements, Parser.manyWhile, Parser.manyAtMost_succ,
    if_pos (htest maxNesting _)]
  exact Parser.bind_of_error h

private theorem position_of_mem_loopStarts {n : Nat} {t : Token} (h : t ∈ loopStarts n) :
    t.position = ⟨1, "shell"⟩ := by
  have hstart : ∀ t ∈ loopStart, t.position = ⟨1, "shell"⟩ := by decide
  induction n with
  | zero => cases h
  | succ n ih => exact (List.mem_append.1 h).elim (hstart t) ih

/-! ### Blame -/

/-- **Blame.** A unit that is refused for a level too many has a token that opens it. The unit is
reported at this token if it is a parenthesis or a minus. If it is a brace, the unit is reported at
the token after the brace, unless there is none. -/
theorem parse_tooDeep_position {dialect : Dialect} {unit : Option String} {tokens : List Token}
    {limit : Nat} {position : Position}
    (h : parse dialect unit tokens = .error ⟨.nestingTooDeep limit, position⟩) :
    ∃ before t after, tokens = before ++ t :: after ∧ OpensTooMany before t ∧
      (t.kind = .openCurly ∧ position = (after.head?.getD t).position ∨
        (t.kind = .openParen ∨ t.kind = .dash) ∧ position = t.position) := by
  obtain ⟨before, t, after, rfl, hwithin, hfull, hover, hposition⟩ := blames_of_parse h
  refine ⟨before, t, after, rfl, .of_within hwithin hfull hover, ?_⟩
  -- The end of a unit is reported at its last token, which is this one if no token comes after it.
  have hend : (after.head?.map Token.position).getD
      (Cursor.ofTokens unit (before ++ t :: after)).endPosition
        = (after.head?.getD t).position := by
    cases after with
    | nil => simp [Cursor.ofTokens]
    | cons t' after => rfl
  rwa [hend] at hposition

/-- The loops have a token that opens a level too many. -/
theorem parse_tooDeep_position_tooManyLoops :
    parse {} none tooManyLoops = .error ⟨.nestingTooDeep maxNesting, ⟨2, "shell"⟩⟩ ∧
      ∃ before t after, tooManyLoops = before ++ t :: after ∧ OpensTooMany before t ∧
        (t.kind = .openCurly ∧ ⟨2, "shell"⟩ = (after.head?.getD t).position ∨
          (t.kind = .openParen ∨ t.kind = .dash) ∧ ⟨2, "shell"⟩ = t.position) :=
  ⟨parse_tooManyLoops, parse_tooDeep_position parse_tooManyLoops⟩

/-- **The brace is not blamed.** The loops are refused at the second line, but the brace that opens
a level too many is on the first line. -/
theorem not_blamed_tooManyLoops :
    parse {} none tooManyLoops = .error ⟨.nestingTooDeep maxNesting, ⟨2, "shell"⟩⟩ ∧
      (∃ before t after, tooManyLoops = before ++ t :: after ∧ OpensTooMany before t) ∧
      ∀ before t after, tooManyLoops = before ++ t :: after → OpensTooMany before t →
        t.position = ⟨1, "shell"⟩ := by
  refine ⟨parse_tooManyLoops, ?_, fun before t after htokens h => ?_⟩
  · obtain ⟨before, t, after, htokens, hwithin, hfull, hover, -⟩ :=
      blames_of_parse parse_tooManyLoops
    exact ⟨before, t, after, htokens, .of_within hwithin hfull hover⟩
  · have hmem : t ∈ tooManyLoops := htokens ▸ List.mem_append_right before List.mem_cons_self
    rcases List.mem_append.1 hmem with hstart | hlast
    · exact position_of_mem_loopStarts hstart
    · -- The last token opens nothing.
      have hover := h.exceeds
      rw [List.mem_singleton.1 hlast, levelsAfter, Nesting.readAll_append] at hover
      have hsame : levelsAfter before = maxNesting + 1 := hover
      have hfull := h.full
      omega

end MiniC
