import MiniC.Analysis
import MiniC.Diagnostic.Snippet
import MiniC.Proofs.Lexer.LineEnds

/-!
# Units with line ends of both styles

It makes no difference to an analysis whether lines end in a line feed or in a carriage return and a
line feed. Nor does it to a snippet, which shows a line without the blanks around it
(`analyze_withLineFeeds`).
-/

namespace MiniC

/-- Of a source, a snippet shows one line, without the blanks around it. -/
private theorem Diagnostic.snippet_congr {d : Diagnostic} {source source' : String}
    (h : (Text.line? source d.position.line).map Text.trim
      = (Text.line? source' d.position.line).map Text.trim) :
    d.snippet source = d.snippet source' := by
  rw [snippet, snippet, snippetLines, snippetLines]
  cases hline : Text.line? source d.position.line with
  | none =>
    rw [hline, Option.map_none, eq_comm, Option.map_eq_none_iff] at h
    rw [h]
  | some line =>
    rw [hline, Option.map_some, eq_comm, Option.map_eq_some_iff] at h
    obtain ⟨line', hline', htrim⟩ := h
    rw [hline']
    dsimp only
    rw [htrim]

/-- **Line ends of both styles.** The analysis of a unit, and the snippets of its diagnostics, are
the same with a line feed for each carriage return and line feed. -/
theorem analyze_withLineFeeds (dialect : Dialect) (unit : Option String) (source : String) :
    analyze dialect unit (Text.withLineFeeds source) = analyze dialect unit source ∧
      ∀ d : Diagnostic, d.snippet (Text.withLineFeeds source) = d.snippet source := by
  refine ⟨?_, fun d => ?_⟩
  · rw [analyze, analyze, tokenize_withLineFeeds]
  · exact Diagnostic.snippet_congr (Text.map_trim_line?_withLineFeeds source d.position.line)

end MiniC
