import MiniC.Diagnostic.Snippet
import MiniC.Proofs.Text.Lines

/-!
# Frames

A snippet is **framed** (`Diagnostic.IsFramed`) if it has five lines: the heading, the name of the
unit, and the line of the source between two gutters, all three with their bars in one column.

The lines of a snippet are those of its heading and four others (`Diagnostic.splitOn_snippet`), if
the source has the line and the name of the unit is on one line. So a snippet is framed if its
heading is on one line (`Diagnostic.isFramed_iff`).
-/

namespace MiniC

namespace Text

/-- What is left of a text without blanks at its ends was there before. -/
private theorem mem_of_mem_trimChars {cs : List Char} {c : Char} (h : c ∈ trimChars cs) :
    c ∈ cs := by
  rw [trimChars, List.mem_reverse] at h
  have hmem := (List.dropWhile_sublist isBlank).subset h
  exact (List.dropWhile_sublist isBlank).subset (List.mem_reverse.1 hmem)

private theorem lineFeed_not_mem_trim {s : String} (h : '\n' ∉ s.toList) :
    '\n' ∉ (trim s).toList := by
  rw [trim, String.toList_ofList]
  exact mt mem_of_mem_trimChars h

/-- A number is written without line feeds. -/
private theorem lineFeed_not_mem_toString (n : Nat) : '\n' ∉ (toString n).toList := by
  intro hmem
  rw [Nat.toString_eq_repr, Nat.toList_repr] at hmem
  exact absurd (Nat.isDigit_of_mem_toDigits (by decide) (by decide) hmem) (by decide)

end Text

/-- The words of a heading: the tip, or the message where there is no tip. -/
def Fault.words (f : Fault) : String := f.tip?.getD f.message

namespace Diagnostic

variable {d : Diagnostic} {source : String}

/-- What stands before the bar on the line of the source: its number, between blanks. -/
def margin (d : Diagnostic) : List Char := (" " ++ toString d.position.line ++ " ").toList

/-- A **framed** snippet: a heading, the name of the unit, and the line of the source between two
gutters. The three bars are in one column. -/
def IsFramed (d : Diagnostic) (source : String) : Prop :=
  ∃ words line, Text.line? source d.position.line = some line ∧
    (d.snippet source).toList.splitOn '\n' =
      [("Error: " ++ d.fault.name ++ " (" ++ words ++ ")").toList,
        ("-> " ++ d.position.unit).toList,
        List.replicate d.margin.length ' ' ++ ['|'],
        d.margin ++ '|' :: ' ' :: (Text.trim line).toList,
        List.replicate d.margin.length ' ' ++ ['|']]

/-- The bar of the gutter is in the column of the bar after the margin. -/
private theorem toList_gutter (d : Diagnostic) :
    d.gutter.toList = List.replicate d.margin.length ' ' ++ ['|'] := by
  have hbar : "|".toList = ['|'] := rfl
  have hwidth : (toString d.position.line).length + 3 - "|".length = d.margin.length := by
    have hlength : "|".length = 1 := rfl
    have hblank : " ".length = 1 := rfl
    rw [margin, String.length_toList, String.length_append, String.length_append, hlength, hblank]
    omega
  rw [gutter, Text.alignRight, String.toList_append, Text.spaces, String.toList_ofList, hwidth,
    hbar]

private theorem lineFeed_not_mem_margin (d : Diagnostic) : '\n' ∉ d.margin := by
  have hblank : " ".toList = [' '] := rfl
  have hnumber := Text.lineFeed_not_mem_toString d.position.line
  rw [margin, String.toList_append, String.toList_append, hblank, List.mem_append, List.mem_append]
  rintro ((hmem | hmem) | hmem)
  · exact absurd hmem (by decide)
  · exact hnumber hmem
  · exact absurd hmem (by decide)

/-- The lines of a snippet are those of its heading and four others. -/
private theorem splitOn_snippet {line : String}
    (hline : Text.line? source d.position.line = some line)
    (hunit : '\n' ∉ d.position.unit.toList) :
    (d.snippet source).toList.splitOn '\n' = d.heading.toList.splitOn '\n' ++
      [("-> " ++ d.position.unit).toList,
        List.replicate d.margin.length ' ' ++ ['|'],
        d.margin ++ '|' :: ' ' :: (Text.trim line).toList,
        List.replicate d.margin.length ' ' ++ ['|']] := by
  have hgutter : '\n' ∉ d.gutter.toList := by
    rw [toList_gutter]
    simp
  have hshown : (" " ++ toString d.position.line ++ " | " ++ Text.trim line).toList
      = d.margin ++ '|' :: ' ' :: (Text.trim line).toList := by
    have hbar : " | ".toList = " ".toList ++ ['|', ' '] := rfl
    simp only [margin, String.toList_append, hbar, List.append_assoc]
    rfl
  have hframe : ∀ s ∈ ["-> " ++ d.position.unit, d.gutter,
      " " ++ toString d.position.line ++ " | " ++ Text.trim line, d.gutter],
      '\n' ∉ s.toList := by
    have harrow : '\n' ∉ "-> ".toList := by decide
    have htrim := Text.lineFeed_not_mem_trim (Text.lineFeed_not_mem_of_line? hline)
    simp only [List.forall_mem_cons, hshown, String.toList_append]
    simp [hgutter, hunit, htrim, lineFeed_not_mem_margin]
  have hfeed : "\n".toList = ['\n'] := rfl
  -- The heading may hold line feeds, so it is kept apart from the lines after it.
  have htext : (d.snippet source).toList = d.heading.toList ++ '\n' ::
      (String.intercalate "\n" ["-> " ++ d.position.unit, d.gutter,
        " " ++ toString d.position.line ++ " | " ++ Text.trim line, d.gutter]).toList := by
    rw [snippet, snippetLines, hline]
    dsimp only [List.cons_append, List.nil_append]
    rw [String.intercalate_cons_cons, String.toList_append, String.toList_append, hfeed,
      List.append_assoc]
    rfl
  rw [htext, List.splitOn_append_cons_self,
    Text.splitOn_toList_intercalate (List.cons_ne_nil _ _) hframe]
  simp only [List.map_cons, List.map_nil, toList_gutter, hshown]

/-- A snippet is framed if, and only if, its heading is on one line. -/
theorem isFramed_iff {line : String} (hline : Text.line? source d.position.line = some line)
    (hunit : '\n' ∉ d.position.unit.toList) :
    d.IsFramed source ↔ '\n' ∉ d.heading.toList := by
  constructor
  · rintro ⟨words, line', hline', hframed⟩
    cases hline.symm.trans hline'
    rw [splitOn_snippet hline hunit] at hframed
    have hheading := List.append_cancel_right (show _ = [_] ++ _ from hframed)
    exact Text.lineFeed_not_mem_of_splitOn hheading
  · intro hheading
    refine ⟨d.fault.words, line, hline, ?_⟩
    rw [splitOn_snippet hline hunit, List.splitOn_eq_singleton hheading]
    rfl

/-! ### Headings -/

/-- Only the words of a heading may go over its line. -/
theorem lineFeed_mem_heading_iff : '\n' ∈ d.heading.toList ↔ '\n' ∈ d.fault.words.toList := by
  have hname : '\n' ∉ d.fault.name.toList := by
    cases d.fault <;> rw [Fault.name] <;> decide
  have herror : '\n' ∉ "Error: ".toList := by decide
  have hopen : '\n' ∉ " (".toList := by decide
  have hclose : '\n' ∉ ")".toList := by decide
  rw [heading, ← Fault.words]
  simp only [String.toList_append, List.mem_append, herror, hname, hopen, hclose, false_or,
    or_false]

end Diagnostic

end MiniC
