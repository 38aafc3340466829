import MiniC.Proofs.Analysis.Location
import MiniC.Proofs.Diagnostic.Frame
import MiniC.Proofs.Grammar.Reasons
import MiniC.Proofs.Text.Plain

/-!
# Which diagnostics are framed

A diagnostic of an analysis is shown in a frame, unless the source has no line with its number or
its heading goes over more than one line. There is such a line unless the line numbers overflow.
What the scanner reports is a character or a numeral, and what the grammar reports is the text of a
token, perhaps with one of a few reasons. Only the text of a token may hold a line feed, as that of
a literal does if a line feed is escaped in the literal: the heading shows it as it is.

So a snippet of a line is framed if, and only if, the text of the token that it shows holds no line
feed (`isFramed_iff_of_mem_diagnostics`).
-/

namespace MiniC

namespace Fault

/-! ### Words -/

/-- The scanner shows characters and numerals, and no line feeds. -/
private theorem lineFeed_mem_words_iff_of_shownBy {f : Fault} {lexeme : List Char}
    (h : f.ShownBy lexeme) : '\n' ∈ f.words.toList ↔ ∃ text ∈ f.token?, '\n' ∈ text.toList := by
  cases f with
  | unrecognisedCharacter c =>
    have hwords : (unrecognisedCharacter c).words
        = "unrecognised character: " ++ Text.quotedChar c := rfl
    refine iff_of_false (fun hmem => ?_) nofun
    rw [hwords, String.toList_append, List.mem_append] at hmem
    exact hmem.elim (by decide) (Text.lineFeed_not_mem_quotedChar c)
  | unterminatedString | malformedChar => simp [words, tip?, token?]
  | numberParse numeral =>
    obtain ⟨rfl, -, hnumeral⟩ := h
    have hfeed : '\n' ∉ numeral.toList := fun hmem => absurd (hnumeral _ hmem) (by decide)
    simp [words, tip?, token?, hfeed]
  | unexpectedToken | unexpectedTokenDetailed | unexpectedEndOfInput | nestingTooDeep => cases h

/-- The grammar shows the text of a token, and words that hold no line feeds. -/
private theorem lineFeed_mem_words_iff_of_isOfGrammar {f : Fault} (h : f.IsOfGrammar) :
    '\n' ∈ f.words.toList ↔ ∃ text ∈ f.token?, '\n' ∈ text.toList := by
  cases h with
  | unexpectedToken token => simp [words, tip?, token?]
  | unexpectedTokenDetailed token hmessage =>
    have hreasons : ∀ message ∈ reasons, '\n' ∉ message.toList := by decide
    simp [words, tip?, token?, hreasons _ hmessage]
  | unexpectedEndOfInput => simp [words, tip?, token?]
  | nestingTooDeep => exact iff_of_false (by decide) (by rintro ⟨text, ⟨⟩, -⟩)

end Fault

variable {dialect : Dialect} {unit : Option String} {source : String} {d : Diagnostic}

private theorem lineFeed_mem_words_iff_of_mem_diagnostics
    (h : d ∈ (analyze dialect unit source).diagnostics) :
    '\n' ∈ d.fault.words.toList ↔ ∃ text ∈ d.fault.token?, '\n' ∈ text.toList := by
  rcases mem_diagnostics_analyze.1 h with h | h
  · obtain ⟨position, text, items, hlexeme, hitem⟩ :=
      exists_lexeme_of_mem_scan (Item.mem_diagnostics_iff.1 h)
    exact Fault.lineFeed_mem_words_iff_of_shownBy (hlexeme.shownBy hitem)
  · exact Fault.lineFeed_mem_words_iff_of_isOfGrammar (isOfGrammar_of_parse h)

/-! ### Positions -/

/-- A diagnostic carries the name of the unit, and the number of one of its lines if there are
numbers enough for them. -/
theorem position_of_mem_diagnostics (h : d ∈ (analyze dialect unit source).diagnostics) :
    d.position.unit = unit.getD Position.anonymousUnit ∧
      (Text.lineFeeds source.toList < UInt32.size - 1 →
        ∃ line, Text.line? source d.position.line = some line) := by
  obtain ⟨item, hitem, hposition⟩ :
      ∃ item ∈ scan dialect unit source, d.position = Item.position item := by
    rcases mem_diagnostics_analyze.1 h with h | h
    · exact ⟨_, Item.mem_diagnostics_iff.1 h, rfl⟩
    · obtain ⟨k, t, ht, hposition, -⟩ := exists_token_of_parse h
      exact ⟨_, Item.mem_tokens_iff.1 (List.mem_of_getElem? ht), hposition⟩
  obtain ⟨hunit, p, hp⟩ := Item.position_of_mem_scan hitem
  rw [hposition]
  refine ⟨hunit, fun hfew => ?_⟩
  obtain ⟨line, hline, -⟩ := hp.exists_line? hfew
  exact ⟨line, hline⟩

/-! ### Frames -/

/-- A literal with an escaped line feed, where a statement should start: the line feed is in the
heading of the snippet, which has six lines. -/
theorem not_isFramed_escapedLineFeed :
    ¬∀ d ∈ (analyze {} none "\"\\n\"").diagnostics, d.IsFramed "\"\\n\"" := by
  have hmem : ⟨.unexpectedToken "\n", ⟨1, Position.anonymousUnit⟩⟩
      ∈ (analyze {} none "\"\\n\"").diagnostics := by
    decide +kernel
  intro hall
  obtain ⟨words, line, -, hframed⟩ := hall _ hmem
  have hlength : _ = 5 := congrArg List.length hframed
  exact absurd hlength (by decide +kernel)

/-- **Frames.** The snippet of a diagnostic of a unit is framed if, and only if, the source has a
line with the number of the diagnostic, and no token is shown whose text holds a line feed. If the
source has fewer than `2 ^ 32 - 1` line feeds then it has such a line. The name of the unit must be
on one line. -/
theorem isFramed_iff_of_mem_diagnostics
    (hunit : '\n' ∉ (unit.getD Position.anonymousUnit).toList)
    (h : d ∈ (analyze dialect unit source).diagnostics) :
    d.position.unit = unit.getD Position.anonymousUnit ∧
      (d.IsFramed source ↔ (∃ line, Text.line? source d.position.line = some line) ∧
        ∀ text ∈ d.fault.token?, '\n' ∉ text.toList) ∧
      (Text.lineFeeds source.toList < UInt32.size - 1 →
        ∃ line, Text.line? source d.position.line = some line) := by
  obtain ⟨hposition, hline⟩ := position_of_mem_diagnostics h
  refine ⟨hposition, ?_, hline⟩
  have hwords : '\n' ∉ d.heading.toList ↔ ∀ text ∈ d.fault.token?, '\n' ∉ text.toList := by
    rw [Diagnostic.lineFeed_mem_heading_iff, lineFeed_mem_words_iff_of_mem_diagnostics h]
    simp only [not_exists, not_and]
  rw [← hwords]
  constructor
  · intro hframed
    obtain ⟨-, line, hline, -⟩ := id hframed
    exact ⟨⟨line, hline⟩, (Diagnostic.isFramed_iff hline (hposition ▸ hunit)).1 hframed⟩
  · rintro ⟨⟨line, hline⟩, hheading⟩
    exact (Diagnostic.isFramed_iff hline (hposition ▸ hunit)).2 hheading

/-- A declaration without a name: the token that is shown is an equals sign. -/
theorem isFramed_iff_of_mem_diagnostics_declaration :
    '\n' ∉ ((some "demo.c").getD Position.anonymousUnit).toList ∧
      ⟨.unexpectedTokenDetailed "=" "expected identifier in declaration", ⟨1, "demo.c"⟩⟩
        ∈ (analyze {} (some "demo.c") "int = 5;").diagnostics ∧
      Diagnostic.IsFramed
        ⟨.unexpectedTokenDetailed "=" "expected identifier in declaration", ⟨1, "demo.c"⟩⟩
        "int = 5;" := by
  have hunit : '\n' ∉ ((some "demo.c").getD Position.anonymousUnit).toList := by decide
  have hmem : ⟨.unexpectedTokenDetailed "=" "expected identifier in declaration", ⟨1, "demo.c"⟩⟩
      ∈ (analyze {} (some "demo.c") "int = 5;").diagnostics := by
    decide +kernel
  obtain ⟨-, hframed, hline⟩ := isFramed_iff_of_mem_diagnostics hunit hmem
  refine ⟨hunit, hmem, hframed.2 ⟨hline (by decide +kernel), ?_⟩⟩
  rintro _ ⟨⟩
  decide

end MiniC
