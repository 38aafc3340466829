import MiniC.Proofs.Analysis.Location

/-!
# Outcomes of an analysis

The diagnostics of a unit are those of the scanner, in order, and after them the one of the grammar
if there is no program (`analyze_diagnostics`). The fault of a diagnostic tells which of the two it
comes from: a lexeme shows lexical faults only, and the grammar objects to a token or to the end.

So what keeps a program from being found is the grammar alone, and a unit in which the scanner
alone has something to report is read.
-/

namespace MiniC

variable {dialect : Dialect} {unit : Option String} {source : String}

/-! ### Phases -/

/-- A fault that a lexeme shows is lexical. -/
private theorem Fault.phase_of_shownBy {fault : Fault} {lexeme : List Char}
    (h : fault.ShownBy lexeme) : fault.phase = .lexical := by
  cases fault <;> first | rfl | exact h.elim

/-- The scanner reports lexical faults. -/
theorem phase_of_mem_tokenize {d : Diagnostic} (hd : d ∈ (tokenize dialect unit source).2) :
    d.fault.phase = .lexical := by
  obtain ⟨position, text, items, hlexeme, hitem⟩ :=
    exists_lexeme_of_mem_scan (Item.mem_diagnostics_iff.1 hd)
  exact Fault.phase_of_shownBy (hlexeme.shownBy hitem)

/-- The grammar reports faults of the grammar, whatever the tokens. -/
theorem phase_of_parse {tokens : List Token} {d : Diagnostic}
    (h : parse dialect unit tokens = .error d) : d.fault.phase = .grammatical := by
  obtain ⟨-, -, -, -, hphase, -⟩ := exists_token_of_parse h
  exact hphase

/-! ### The two outcomes -/

theorem analyze_of_ok {program : Program}
    (h : parse dialect unit (tokenize dialect unit source).1 = .ok program) :
    analyze dialect unit source
      = ⟨(tokenize dialect unit source).1, (tokenize dialect unit source).2, some program⟩ := by
  simp only [analyze, h]

theorem analyze_of_error {d : Diagnostic}
    (h : parse dialect unit (tokenize dialect unit source).1 = .error d) :
    analyze dialect unit source
      = ⟨(tokenize dialect unit source).1, (tokenize dialect unit source).2 ++ [d], none⟩ := by
  simp only [analyze, h]

/-- **Diagnostics of an analysis.** They are the lexical ones of the scanner, and after them one of
the grammar at most, which is what reading the tokens comes to. There is one of the grammar if, and
only if, there is no program, so lexical ones alone leave a program. -/
theorem analyze_diagnostics (dialect : Dialect) (unit : Option String) (source : String) :
    (∃ found : Option Diagnostic,
      (analyze dialect unit source).diagnostics
        = (tokenize dialect unit source).2 ++ found.toList ∧
      (∀ d ∈ (tokenize dialect unit source).2, d.fault.phase = .lexical) ∧
      ∀ d ∈ found, d.fault.phase = .grammatical ∧
        parse dialect unit (analyze dialect unit source).tokens = .error d) ∧
    ((∃ d ∈ (analyze dialect unit source).diagnostics, d.fault.phase = .grammatical) ↔
      (analyze dialect unit source).program = none) ∧
    ((∀ d ∈ (analyze dialect unit source).diagnostics, d.fault.phase = .lexical) →
      (analyze dialect unit source).program.isSome = true) := by
  have hlexical : ∀ d ∈ (tokenize dialect unit source).2, d.fault.phase = .lexical :=
    fun d hd => phase_of_mem_tokenize hd
  rcases hparse : parse dialect unit (tokenize dialect unit source).1 with d | program
  · have hphase := phase_of_parse hparse
    rw [analyze_of_error hparse]
    refine ⟨⟨some d, rfl, hlexical, ?_⟩, iff_of_true ⟨d, ?_, hphase⟩ rfl, fun hall => ?_⟩
    · rintro _ ⟨⟩
      exact ⟨hphase, hparse⟩
    · exact List.mem_concat_self
    · have hd := hall d List.mem_concat_self
      rw [hphase] at hd
      cases hd
  · rw [analyze_of_ok hparse]
    refine ⟨⟨none, (List.append_nil _).symm, hlexical, fun d hd => ?_⟩, iff_of_false ?_ ?_,
      fun _ => rfl⟩
    · exact absurd hd (Option.not_mem_none d)
    · rintro ⟨d, hd, hphase⟩
      rw [hlexical d hd] at hphase
      cases hphase
    · exact Option.some_ne_none program

/-- A character that is skipped in the middle of an assignment. -/
theorem analyze_diagnostics_skipped :
    (analyze {} none "x = 1 # + 2;").diagnostics = [⟨.unrecognisedCharacter '#', ⟨1, "shell"⟩⟩] ∧
      (analyze {} none "x = 1 # + 2;").program.isSome = true := by
  have hdiagnostics : (analyze {} none "x = 1 # + 2;").diagnostics
      = [⟨.unrecognisedCharacter '#', ⟨1, "shell"⟩⟩] := by decide +kernel
  refine ⟨hdiagnostics, (analyze_diagnostics {} none "x = 1 # + 2;").2.2 ?_⟩
  rw [hdiagnostics]
  decide

end MiniC
