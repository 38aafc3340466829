import MiniC.Analysis
import MiniC.Proofs.Grammar.Recognition
import MiniC.Proofs.Lexer.LineBreak
import MiniC.Proofs.Rendering.Statements

/-!
# Rendered programs

The analysis of the text of a well-formed program finds the program again, without any diagnostic
(`analyze_render`), as long as the program does not open more levels than the grammar allows.

A program has a line for each of its statements. So its statements are read back on different lines,
and the line ends between them are what counts the lines.
-/

namespace MiniC

open Pattern Phrase

variable {dialect : Dialect}

/-- Statements on lines of their own are read back. -/
theorem Stmt.itemsFrom_lines (unit : String) (line : LineNumber) {statements : List Stmt}
    (h : AllWellFormed dialect statements) :
    ∃ ts : List Token, Segment.itemsFrom unit line
        (Segment.cut dialect (String.intercalate "\n" (renderEach statements)).toList)
          = ts.map .ok ∧
      Many (IsStatement dialect) ts statements (nestingIn statements) := by
  induction statements generalizing line with
  | nil => exact ⟨[], rfl, .nil⟩
  | cons s rest ih =>
    obtain @⟨ts, htext, hs⟩ := Stmt.readsBack unit line s h.1
    cases rest with
    | nil =>
      rw [renderEach, renderEach, String.intercalate_singleton, nestingIn]
      refine ⟨ts, htext.itemsFrom_cut trivial, ?_⟩
      simpa [nestingIn] using Many.cons hs .nil
    | cons s' rest =>
      obtain ⟨ts', hitems, hrest⟩ := ih (line.after 1) h.2
      -- The line end before the next statement counts one line.
      have hbreak : ∀ c ∈ "\n".toList, Text.isSpacing c = true :=
        List.forall_mem_singleton.2 rfl
      have hline : Text.lineFeeds "\n".toList = 1 := rfl
      rw [renderEach, renderEach, String.intercalate_cons_cons, String.toList_append,
        String.toList_append, List.append_assoc, htext _ trivial,
        Segment.itemsFrom_cut_blanks hbreak, hline]
      refine ⟨ts ++ ts', ?_, .cons hs hrest⟩
      rw [renderEach] at hitems
      rw [hitems, List.map_append]

/-- The items of a unit that yields tokens only. -/
theorem tokenize_of_scan {unit : Option String} {source : String} {ts : List Token}
    (h : scan dialect unit source = ts.map .ok) : tokenize dialect unit source = (ts, []) := by
  have htokens : Item.tokens (ts.map .ok) = ts := by
    rw [Item.tokens, List.filterMap_map]
    exact List.filterMap_some
  have hdiagnostics : Item.diagnostics (ts.map .ok) = [] := by
    rw [Item.diagnostics, List.filterMap_map]
    exact List.filterMap_eq_nil_iff.2 fun _ _ => rfl
  rw [tokenize, h, htokens, hdiagnostics]

/-- The text of a well-formed program has tokens that derive the program, and nothing is
reported. -/
theorem Program.WellFormed.tokenize_render {program : Program} (h : program.WellFormed dialect)
    (unit : Option String) :
    ∃ ts, tokenize dialect unit program.render = (ts, []) ∧
      IsProgram dialect ts program program.nesting := by
  obtain ⟨ts, hitems, hstatements⟩ :=
    Stmt.itemsFrom_lines (unit.getD Position.anonymousUnit) 1 h
  exact ⟨ts, tokenize_of_scan hitems, hstatements⟩

/-- A well-formed program that opens no more levels than the grammar allows is found again. -/
theorem Program.WellFormed.analyze_eq {program : Program} (h : program.WellFormed dialect)
    (hnesting : program.nesting ≤ maxNesting) (unit : Option String) :
    ∃ ts, analyze dialect unit program.render = ⟨ts, [], some program⟩ := by
  obtain ⟨ts, htokens, hprogram⟩ := h.tokenize_render unit
  have hparse := hprogram.parse_eq_ok hnesting unit
  refine ⟨ts, ?_⟩
  rw [analyze, htokens]
  simp [hparse]

/-- **The round trip.** A well-formed program that opens no more levels than the grammar allows is
found again in its text, and there is nothing to report. -/
theorem analyze_render (dialect : Dialect) (unit : Option String) (program : Program)
    (h : program.WellFormed dialect) (hnesting : program.nesting ≤ maxNesting) :
    (analyze dialect unit program.render).diagnostics = [] ∧
      (analyze dialect unit program.render).program = some program := by
  obtain ⟨ts, heq⟩ := h.analyze_eq hnesting unit
  rw [heq]
  exact ⟨rfl, rfl⟩

/-- A program with a level of each sort: an operation, a minus and a block. -/
def Program.sample : Program :=
  ⟨[.declaration .float
      [⟨"x", some (.binary .div (.number (.float ⟨0x3FF8000000000000⟩))
        (.negate (.identifier "y")))⟩],
    .whileLoop ⟨.lessEqual, .char '\'', .string "a\n\"b"⟩ [.leave]]⟩

theorem Program.wellFormed_sample : Program.sample.WellFormed {} := by
  have hx : IsName "x" := ⟨⟨'x', [], rfl, rfl, nofun⟩, rfl⟩
  have hy : IsName "y" := ⟨⟨'y', [], rfl, rfl, nofun⟩, rfl⟩
  have hnumber : Number.WellFormed (.float ⟨0x3FF8000000000000⟩) := ⟨by decide, by decide⟩
  have hdeclarator : Declarator.WellFormed {}
      ⟨"x", some (.binary .div (.number (.float ⟨0x3FF8000000000000⟩))
        (.negate (.identifier "y")))⟩ := by
    refine ⟨hx, ?_⟩
    rintro _ ⟨⟩
    exact ⟨hnumber, rfl, hy⟩
  have hchar : Text.IsPlain '\'' '\'' := by decide
  have hall : ("a\n\"b".toList.all fun c => decide (Text.IsPlain '"' c)) = true := by
    decide +kernel
  have hstring : ∀ c ∈ "a\n\"b".toList, Text.IsPlain '"' c := fun c hc =>
    of_decide_eq_true (List.all_eq_true.1 hall c hc)
  refine ⟨⟨by simp, ?_⟩, ⟨⟨hchar, hstring⟩, trivial, trivial⟩, trivial⟩
  simpa using hdeclarator

theorem analyze_render_sample :
    Program.sample.nesting ≤ maxNesting ∧
      (analyze {} none Program.sample.render).diagnostics = [] ∧
      (analyze {} none Program.sample.render).program = some Program.sample := by
  have hnesting : Program.sample.nesting ≤ maxNesting := by decide
  exact ⟨hnesting, analyze_render {} none _ Program.wellFormed_sample hnesting⟩

end MiniC
