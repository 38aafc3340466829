import MiniC.Analysis
import MiniC.Proofs.Grammar.Respelling
import MiniC.Proofs.Lexer.Place

/-!
# Locating diagnostics

A diagnostic of an analysis is about a piece of the source (`Diagnostic.IsAbout`). One of the
scanner is about the character, quote, literal or numeral that it reports, and one of the grammar
about the lexeme of a token, which is the last one if the tokens have run out.

The source has a line with the number that the diagnostic carries, and the piece is a part of that
line (`exists_line_of_mem_diagnostics`). For the lexeme is on the line that follows the line feeds
before it (`Item.ComesFrom`), and whatever yields something lies within its line
(`Lexeme.withinLine`). That is so if there are numbers enough for the lines of the source.
-/

namespace MiniC

/-! ### What a diagnostic is about -/

/-- A lexeme that **shows** a fault of the scanner: the character, the quote, the character literal
or the numeral that is reported. -/
def Fault.ShownBy : Fault → List Char → Prop
  | .unrecognisedCharacter c, lexeme => lexeme = [c]
  | .unterminatedString, lexeme => lexeme = ['"']
  | .malformedChar, lexeme => lexeme = ['\''] ∨ ∃ inside, lexeme = '\'' :: (inside ++ ['\''])
  | .numberParse numeral, lexeme => lexeme = numeral.toList ∧ IsNumeral lexeme
  | _, _ => False

/-- What lexeme of a unit a diagnostic **is about**. -/
inductive Diagnostic.IsAbout (dialect : Dialect) (unit : Option String) (source : String)
    (d : Diagnostic) : List Char → Prop
  /-- The scanner reports the lexeme where it is. -/
  | lexical {p : Place} : Item.ComesFrom dialect source.toList (.error d) p →
      d.fault.ShownBy p.segment.text → d.IsAbout dialect unit source p.segment.text
  /-- The lexeme is that of the token at which the grammar fails. -/
  | grammatical {places : List Place} {k : Nat} {t : Token} {p : Place} :
      StandInOrder dialect source.toList places
        ((tokenize dialect unit source).1.map Except.ok) →
      (tokenize dialect unit source).1[k]? = some t → places[k]? = some p →
      d.fault.phase = .grammatical → d.position = t.position →
      (∀ text ∈ d.fault.token?, text = t.value) →
      (d.fault = .unexpectedEndOfInput → k + 1 = (tokenize dialect unit source).1.length) →
      d.IsAbout dialect unit source p.segment.text

/-- A lexeme that is reported shows the fault. -/
theorem Lexeme.shownBy {position : Position} {text : List Char} {items : List Item}
    (h : Lexeme position text items) {d : Diagnostic} (hd : .error d ∈ items) :
    d.fault.ShownBy text := by
  cases h with
  | skipped | word | numeral | charLiteral | stringLiteral | punctuator => simp at hd
  | valueless hnumeral =>
    rcases List.mem_cons.1 hd with hd | hd
    · cases hd
      exact ⟨String.toList_ofList.symm, hnumeral⟩
    · simp at hd
  | misfit =>
    cases List.mem_singleton.1 hd
    exact .inr ⟨_, rfl⟩
  | singleQuote =>
    cases List.mem_singleton.1 hd
    exact .inl rfl
  | doubleQuote | unrecognised =>
    cases List.mem_singleton.1 hd
    rfl

/-! ### The line of an item -/

/-- The line with the number that an item carries holds the lexeme that yields the item. -/
theorem Item.ComesFrom.exists_line? {dialect : Dialect} {source : String} {item : Item} {p : Place}
    (h : Item.ComesFrom dialect source.toList item p)
    (hfew : Text.lineFeeds source.toList < UInt32.size - 1) :
    ∃ line, Text.line? source (Item.position item).line = some line ∧
      p.segment.text <:+: line.toList := by
  obtain ⟨after, hsource⟩ := h.isIn.exists_append
  have hwithin := (h.isIn.lexeme (Item.position item)).withinLine (List.ne_nil_of_mem h.mem_items)
  rw [h.line_eq hfew]
  exact hwithin.exists_line? hsource

/-! ### Diagnostics of an analysis -/

/-- An analysis has the diagnostics of the scanner, and that of the grammar if there is one. -/
theorem mem_diagnostics_analyze {dialect : Dialect} {unit : Option String} {source : String}
    {d : Diagnostic} :
    d ∈ (analyze dialect unit source).diagnostics ↔
      d ∈ (tokenize dialect unit source).2 ∨
        parse dialect unit (tokenize dialect unit source).1 = .error d := by
  rw [analyze]
  dsimp only
  split
  · rename_i program hparse
    simp [hparse]
  · rename_i diagnostic hparse
    rw [hparse, List.mem_append, List.mem_singleton, Except.error.injEq, eq_comm (a := d)]

/-- **Locating diagnostics.** Each diagnostic of an analysis is about a lexeme of the source, and
the line with the number that the diagnostic carries holds that lexeme. The source must have fewer
than `2 ^ 32 - 1` line feeds. -/
theorem exists_line_of_mem_diagnostics {dialect : Dialect} {unit : Option String} {source : String}
    (hfew : Text.lineFeeds source.toList < UInt32.size - 1) {d : Diagnostic}
    (h : d ∈ (analyze dialect unit source).diagnostics) :
    ∃ line lexeme, Text.line? source d.position.line = some line ∧ lexeme <:+: line.toList ∧
      d.IsAbout dialect unit source lexeme := by
  rcases mem_diagnostics_analyze.1 h with h | h
  · obtain ⟨places, hplaces⟩ := exists_standInOrder_diagnostics dialect unit source
    obtain ⟨k, hk⟩ := List.mem_iff_getElem?.1 (List.mem_map_of_mem (f := Except.error) h)
    obtain ⟨p, -, hp⟩ := hplaces.exists_place hk
    obtain ⟨line, hline, hinfix⟩ := hp.exists_line? hfew
    have hlexeme := hp.isIn.lexeme d.position
    exact ⟨line, p.segment.text, hline, hinfix, .lexical hp (hlexeme.shownBy hp.mem_items)⟩
  · obtain ⟨k, t, ht, hposition, hphase, htext, hend⟩ := exists_token_of_parse h
    obtain ⟨places, hplaces⟩ := exists_standInOrder_tokens dialect unit source
    obtain ⟨p, hpk, hp⟩ := hplaces.exists_place (List.getElem?_map.trans (congrArg _ ht))
    obtain ⟨line, hline, hinfix⟩ := hp.exists_line? hfew
    rw [hposition]
    exact ⟨line, p.segment.text, hline, hinfix,
      .grammatical hplaces ht hpk hphase hposition htext hend⟩

/-- A character that is skipped, and a declaration without a name on the next line. -/
theorem exists_line_of_mem_diagnostics_declaration :
    Text.lineFeeds "int x = 1 $;\nint = 2;".toList < UInt32.size - 1 ∧
      ⟨.unexpectedTokenDetailed "=" "expected identifier in declaration", ⟨2, "shell"⟩⟩
        ∈ (analyze {} none "int x = 1 $;\nint = 2;").diagnostics ∧
      ∃ line lexeme, Text.line? "int x = 1 $;\nint = 2;" 2 = some line ∧ lexeme <:+: line.toList ∧
        Diagnostic.IsAbout {} none "int x = 1 $;\nint = 2;"
          ⟨.unexpectedTokenDetailed "=" "expected identifier in declaration", ⟨2, "shell"⟩⟩
          lexeme := by
  have hmem : ⟨.unexpectedTokenDetailed "=" "expected identifier in declaration", ⟨2, "shell"⟩⟩
      ∈ (analyze {} none "int x = 1 $;\nint = 2;").diagnostics := by
    decide +kernel
  have hfew : Text.lineFeeds "int x = 1 $;\nint = 2;".toList < UInt32.size - 1 := by
    decide +kernel
  exact ⟨hfew, hmem, exists_line_of_mem_diagnostics hfew hmem⟩

end MiniC
