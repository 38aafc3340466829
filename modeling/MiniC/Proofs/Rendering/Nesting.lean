import MiniC.Proofs.Grammar.Composition
import MiniC.Proofs.Lexer.Values
import MiniC.Proofs.Rendering.RoundTrip

/-!
# The nesting of rendered programs

A program that was read need not be read again from its own text, since the text has more levels:
every operation stands in parentheses there, and a minus takes two levels where it took one. If the
literals of a unit are plain, then the text of its program is refused for its levels if, and only
if, the nesting of the program exceeds the limit (`isTooDeep_analyze_render_iff`).

Nesting is not bounded for programs that are read: a sum opens no level, however many terms it has,
and its text opens one for each operator (`analyze_sum`).
-/

namespace MiniC

variable {dialect : Dialect} {unit : Option String} {source : String} {program : Program}

/-- Whether an analysis reports more levels than the limit allows. -/
def Analysis.IsTooDeep (a : Analysis) : Prop :=
  ∃ d ∈ a.diagnostics, ∃ limit, d.fault = .nestingTooDeep limit

/-! ### Programs that are read -/

theorem tokens_analyze (dialect : Dialect) (unit : Option String) (source : String) :
    (analyze dialect unit source).tokens = (tokenize dialect unit source).1 := by
  simp only [analyze]
  split <;> rfl

theorem parse_of_analyze (h : (analyze dialect unit source).program = some program) :
    parse dialect unit (tokenize dialect unit source).1 = .ok program := by
  simp only [analyze] at h
  split at h <;> cases h
  assumption

/-- A program that is read from plain literals is well-formed. -/
theorem wellFormed_of_analyze (h : (analyze dialect unit source).program = some program)
    (hplain : ∀ t ∈ (analyze dialect unit source).tokens, ∀ literal ∈ t.literal, literal.IsPlain) :
    program.WellFormed dialect := by
  obtain ⟨n, -, hprogram⟩ := isProgram_of_parse (parse_of_analyze h)
  rw [tokens_analyze] at hplain
  refine (hprogram.composed fun t ht => ?_).wellFormed
  have hover := isOver_of_mem_tokenize ht
  exact ⟨hover.isName, fun literal hl => ⟨hover.literal literal hl, hplain t ht literal hl⟩⟩

/-- The text of a well-formed program is refused for its levels where it has too many. -/
theorem Program.WellFormed.isTooDeep_iff (h : program.WellFormed dialect) (unit : Option String) :
    (analyze dialect unit program.render).IsTooDeep ↔ maxNesting < program.nesting := by
  constructor
  · rintro ⟨d, hd, -⟩
    refine Nat.lt_of_not_le fun hle => ?_
    obtain ⟨ts, heq⟩ := h.analyze_eq hle unit
    rw [heq] at hd
    cases hd
  · intro hlt
    obtain ⟨ts, htokens, hprogram⟩ := h.tokenize_render unit
    obtain ⟨position, hparse⟩ := hprogram.parse_eq_error hlt unit
    rw [analyze, htokens]
    simp [hparse, Analysis.IsTooDeep]

/-! ### Sums -/

open Pattern Phrase

/-- The sum of `n + 1` ones. -/
def Expr.sum : Nat → Expr
  | 0 => .number (.int 1)
  | n + 1 => .binary .add (sum n) (.number (.int 1))

/-- The sum of `n + 1` ones without parentheses. -/
def Expr.sumText : Nat → String
  | 0 => "1"
  | n + 1 => sumText n ++ "+" ++ "1"

/-- A program that assigns a sum. -/
def Program.sum (n : Nat) : Program := ⟨[.assignment ⟨"x", .assign, .sum n⟩]⟩

/-- A unit that assigns a sum. -/
def Program.sumText (n : Nat) : String := "x" ++ "=" ++ Expr.sumText n ++ ";"

private theorem Number.wellFormed_one : (int 1).WellFormed := by
  change 0 ≤ (1 : Int64).toInt
  decide

namespace Expr

private theorem nesting_sum (n : Nat) : (sum n).nesting = n := by
  induction n with
  | zero => rfl
  | succ n ih => rw [sum, nesting, ih, nesting, Nat.max_zero]

private theorem wellFormed_sum (dialect : Dialect) (n : Nat) : (sum n).WellFormed dialect := by
  induction n with
  | zero => exact Number.wellFormed_one
  | succ n ih => exact ⟨ih, Number.wellFormed_one⟩

private theorem detached_sumText (n : Nat) : Detached (sumText n).toList := by
  induction n with
  | zero => exact ⟨'1', [], rfl, rfl, rfl⟩
  | succ n ih =>
    rw [sumText, String.toList_append, String.toList_append, List.append_assoc]
    exact ih.append _

/-- A sum without parentheses reads back, and opens no level. -/
private theorem readsBack_sumText (unit : String) (line : LineNumber) (n : Nat) :
    ReadsBack dialect unit line (IsExpression dialect) (Stops isNumeralRest) (sumText n) (sum n)
      0 := by
  have hone : Yields dialect unit line "1".toList
      [⟨.number, "1", some (.int 1), ⟨line, unit⟩⟩] (Stops isNumeralRest) :=
    .number Number.wellFormed_one
  have hfactor : IsFactor dialect [⟨.number, "1", some (.int 1), ⟨line, unit⟩⟩]
      (.number (.int 1)) 0 := .int rfl rfl
  induction n with
  | zero => exact ⟨hone, .operand (.operand hfactor)⟩
  | succ n ih =>
    obtain ⟨hsum, hexpression⟩ := ih
    have htext := hsum.append (.operator .plus rfl) (stops_of_spelling .plus rfl)
    have htext := htext.append hone fun _ => stops_cons.2 rfl
    refine ⟨htext, ?_⟩
    have hbinary := Chain.binary (t := ⟨.plus, "+", none, ⟨line, unit⟩⟩) hexpression rfl
      (.operand hfactor)
    simpa [sum] using hbinary

end Expr

private theorem isName_x : IsName "x" := ⟨⟨'x', [], rfl, rfl, nofun⟩, rfl⟩

namespace Program

private theorem nesting_sum (n : Nat) : (sum n).nesting = n := by
  have hnesting := Expr.nesting_sum n
  simp [sum, nesting, Stmt.nestingIn, Stmt.nesting, Assignment.nesting, hnesting]

private theorem wellFormed_sum (dialect : Dialect) (n : Nat) : (sum n).WellFormed dialect :=
  ⟨⟨isName_x, Expr.wellFormed_sum dialect n⟩, trivial⟩

/-- A sum without parentheses has tokens that derive it without any level. -/
private theorem tokenize_sumText (dialect : Dialect) (unit : Option String) (n : Nat) :
    ∃ ts, tokenize dialect unit (sumText n) = (ts, []) ∧ IsProgram dialect ts (sum n) 0 := by
  let name := unit.getD Position.anonymousUnit
  have hsum : ReadsBack dialect name 1 _ _ (Expr.sumText n) _ _ := Expr.readsBack_sumText name 1 n
  obtain @⟨ts, htext, hexpression⟩ := hsum
  have hname : Yields dialect name 1 "x".toList _ _ := .name isName_x
  have hunit := hname.append (.operator .assign rfl) fun rest =>
    stops_isWordRest (stops_of_spelling .assign rfl rest)
  have hunit := hunit.append htext (Expr.detached_sumText n).stops_isPunctuatorRest
  have hunit := hunit.append (.mark .semicolon rfl rfl) (stops_of_spelling .semicolon rfl)
  refine ⟨_, tokenize_of_scan (hunit.itemsFrom_cut trivial), ?_⟩
  have hassignment : IsAssignment dialect
      (⟨.identifier, "x", none, ⟨1, name⟩⟩ :: ⟨.assign, "=", none, ⟨1, name⟩⟩ :: ts)
      ⟨"x", .assign, .sum n⟩ 0 := .mk rfl rfl hexpression
  have hstatement : IsStatement dialect (_ ++ [⟨.semicolon, ";", none, ⟨1, name⟩⟩])
      (.assignment ⟨"x", .assign, .sum n⟩) 0 := .assignment hassignment rfl
  simpa [IsProgram, sum] using Many.cons hstatement .nil

end Program

/-- **Sums.** Every sum is read without a diagnostic, and its text is refused for its levels if it
has more operators than the limit. -/
theorem analyze_sum (dialect : Dialect) (unit unit' : Option String) (n : Nat) :
    (analyze dialect unit (Program.sumText n)).diagnostics = [] ∧
      (analyze dialect unit (Program.sumText n)).program = some (.sum n) ∧
      ((analyze dialect unit' (Program.sum n).render).IsTooDeep ↔ maxNesting < n) := by
  obtain ⟨ts, htokens, hprogram⟩ := Program.tokenize_sumText dialect unit n
  have hparse := hprogram.parse_eq_ok (Nat.zero_le _) unit
  have hdeep := (Program.wellFormed_sum dialect n).isTooDeep_iff unit'
  rw [Program.nesting_sum] at hdeep
  rw [analyze, htokens]
  simp [hparse, hdeep]

/-! ### Programs and their texts -/

/-- **Levels of a text.** If a unit with plain literals is read, the text of its program is refused
for its levels if, and only if, the nesting of the program exceeds the limit. -/
theorem isTooDeep_analyze_render_iff (h : (analyze dialect unit source).program = some program)
    (hplain : ∀ t ∈ (analyze dialect unit source).tokens, ∀ literal ∈ t.literal, literal.IsPlain)
    (unit' : Option String) :
    (analyze dialect unit' program.render).IsTooDeep ↔ maxNesting < program.nesting :=
  (wellFormed_of_analyze h hplain).isTooDeep_iff unit'

theorem isTooDeep_analyze_render_iff_sum :
    (analyze {} none (Program.sumText 1)).program = some (.sum 1) ∧
      (∀ t ∈ (analyze {} none (Program.sumText 1)).tokens, ∀ literal ∈ t.literal,
        literal.IsPlain) ∧
      ((analyze {} none (Program.sum 1).render).IsTooDeep ↔
        maxNesting < (Program.sum 1).nesting) := by
  have hprogram := (analyze_sum {} none none 1).2.1
  have hplain : ∀ t ∈ (analyze {} none (Program.sumText 1)).tokens, ∀ literal ∈ t.literal,
      literal.IsPlain := by decide +kernel
  exact ⟨hprogram, hplain, isTooDeep_analyze_render_iff hprogram hplain none⟩

/-- A unit of 257 operators is read, and the text of its program is refused. -/
theorem isTooDeep_render_sum :
    (analyze {} none (Program.sumText 257)).program = some (.sum 257) ∧
      (analyze {} none (Program.sum 257).render).IsTooDeep := by
  obtain ⟨-, hprogram, hdeep⟩ := analyze_sum {} none none 257
  exact ⟨hprogram, hdeep.2 (by decide)⟩

end MiniC
