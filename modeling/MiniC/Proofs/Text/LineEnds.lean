import MiniC.Text.Blank
import MiniC.Text.Lines

/-!
# Line ends

A line ends in a line feed, or in a carriage return and a line feed. `Text.unifyLineEnds` leaves out
that carriage return. It goes over a text once, so of two carriage returns before a line feed one
stays.

The lines of a text leave it out as well, but then one that stays is at the end of its line. So the
lines are the same up to the blanks at their ends (`Text.map_trimChars_lines_unifyLineEnds`).
-/

namespace MiniC.Text

/-- The text with a line feed for each carriage return and line feed. -/
def unifyLineEnds : List Char → List Char
  | '\r' :: '\n' :: cs => '\n' :: unifyLineEnds cs
  | c :: cs => c :: unifyLineEnds cs
  | [] => []

example : unifyLineEnds "a\r\r\n\rb".toList = "a\r\n\rb".toList := rfl

/-- The text of a unit with unified line ends. -/
def withLineFeeds (source : String) : String := String.ofList (unifyLineEnds source.toList)

/-- What holds for a text holds with unified line ends, if it may be unified step by step. -/
theorem unifyLineEnds_induction {motive : List Char → List Char → Prop}
    (refl : ∀ cs, motive cs cs)
    (step : ∀ a b cs, motive (a ++ '\n' :: b) cs → motive (a ++ '\r' :: '\n' :: b) cs)
    (cs : List Char) : motive cs (unifyLineEnds cs) := by
  -- The text before what is unified is unified already.
  suffices h : ∀ a, motive (a ++ cs) (a ++ unifyLineEnds cs) from h []
  fun_induction unifyLineEnds cs with
  | case1 cs ih =>
    intro a
    have hrest := ih (a ++ ['\n'])
    rw [List.append_assoc, List.append_assoc] at hrest
    exact step a cs _ hrest
  | case2 c cs _ ih =>
    intro a
    have hrest := ih (a ++ [c])
    rwa [List.append_assoc, List.append_assoc] at hrest
  | case3 =>
    intro a
    exact refl _

/-! ### Lines -/

/-- A blank at the end of a text is left out with the others. -/
theorem trimChars_concat {c : Char} (hc : isBlank c = true) (cs : List Char) :
    trimChars (cs ++ [c]) = trimChars cs := by
  rw [trimChars, trimChars, List.dropWhile_append]
  split
  · rename_i hnil
    rw [List.isEmpty_iff.1 hnil, List.dropWhile_cons_of_pos hc]
    rfl
  · rw [List.reverse_concat, List.dropWhile_cons_of_pos hc]

private theorem trimChars_dropReturn (cs : List Char) :
    trimChars (dropReturn '\r' cs) = trimChars cs := by
  rw [dropReturn]
  split
  · rename_i hlast
    obtain ⟨cs, rfl⟩ := List.getLast?_eq_some_iff.1 hlast
    rw [List.dropLast_concat, trimChars_concat rfl]
  · rfl

private theorem map_trimChars_splitLinesAfter_return (seen a b : List Char) :
    (splitLinesAfter '\n' '\r' seen (a ++ '\r' :: '\n' :: b)).map trimChars
      = (splitLinesAfter '\n' '\r' seen (a ++ '\n' :: b)).map trimChars := by
  induction a generalizing seen with
  | nil =>
    have hreturn : trimChars ('\r' :: seen).reverse = trimChars seen.reverse := by
      rw [List.reverse_cons, trimChars_concat rfl]
    have hne : '\r' ≠ '\n' := by decide
    rw [List.nil_append, List.nil_append, splitLinesAfter, if_neg hne, splitLinesAfter, if_pos rfl,
      splitLinesAfter, if_pos rfl, List.map_cons, List.map_cons, trimChars_dropReturn,
      trimChars_dropReturn, hreturn]
  | cons c a ih =>
    rw [List.cons_append, List.cons_append, splitLinesAfter, splitLinesAfter]
    split
    · rw [List.map_cons, List.map_cons, ih]
    · exact ih _

/-- **Lines and line ends.** The lines of a text with unified line ends are those of the text, up to
the blanks at the ends of lines. -/
theorem map_trimChars_lines_unifyLineEnds (cs : List Char) :
    (lines (unifyLineEnds cs)).map trimChars = (lines cs).map trimChars := by
  induction cs using unifyLineEnds_induction with
  | refl cs => rfl
  | step a b cs ih => exact ih.trans (map_trimChars_splitLinesAfter_return [] a b).symm

/-- So a line with its blanks left out is the same, whatever its number. -/
theorem map_trim_line?_withLineFeeds (source : String) (number : Nat) :
    (line? (withLineFeeds source) number).map trim = (line? source number).map trim := by
  have htrim (lines : List (List Char)) (k : Nat) :
      (lines[k]?.map String.ofList).map trim = (lines.map trimChars)[k]?.map String.ofList := by
    rw [List.getElem?_map, Option.map_map, Option.map_map]
    congr 1
    funext line
    rw [Function.comp_apply, Function.comp_apply, trim, String.toList_ofList]
  rw [line?, line?]
  split
  · rfl
  · rw [htrim, htrim, withLineFeeds, String.toList_ofList, map_trimChars_lines_unifyLineEnds]

end MiniC.Text
