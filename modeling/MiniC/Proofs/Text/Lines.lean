import MiniC.Text.Lines

/-!
# Finding a line again

A text **lies within its line** if it holds no line feed and does not end in a carriage return. A
carriage return that stands right before a line feed belongs to the end of the line, and is left out
of it. So wherever such a text stands in another one, it is a part of the line that has as many line
feeds before the text as there are lines before (`Text.WithinLine.exists_line?`).

A line holds no line feed itself. So lines that are put together can be told apart again
(`Text.splitOn_toList_intercalate`).
-/

namespace MiniC.Text

/-- A text that **lies within its line**, wherever it stands. -/
structure WithinLine (cs : List Char) : Prop where
  ne_nil : cs ≠ []
  lineFeed_not_mem : '\n' ∉ cs
  getLast?_ne : cs.getLast? ≠ some '\r'

theorem WithinLine.of_forall {p : Char → Bool} {cs : List Char} (hne : cs ≠ [])
    (h : ∀ c ∈ cs, p c = true) (hfeed : p '\n' = false) (hreturn : p '\r' = false) :
    WithinLine cs where
  ne_nil := hne
  lineFeed_not_mem hmem := by
    rw [h _ hmem] at hfeed
    cases hfeed
  getLast?_ne hlast := by
    rw [h _ (List.mem_of_getLast? hlast)] at hreturn
    cases hreturn

theorem WithinLine.quoted {quote : Char} {inside : List Char} (hinside : '\n' ∉ inside)
    (hfeed : quote ≠ '\n') (hreturn : quote ≠ '\r') :
    WithinLine (quote :: (inside ++ [quote])) where
  ne_nil := List.cons_ne_nil _ _
  lineFeed_not_mem := by simp [hinside, Ne.symm hfeed]
  getLast?_ne := by
    rw [← List.cons_append, List.getLast?_concat]
    simpa using hreturn

variable {cs : List Char}

/-- A text within its line is a part of the line, whether that ends in a carriage return or not. -/
private theorem WithinLine.infix_dropReturn (h : WithinLine cs) (before after : List Char) :
    cs <:+: dropReturn '\r' (before ++ cs ++ after) := by
  rw [dropReturn]
  split
  · rename_i hlast
    rcases List.eq_nil_or_concat after with rfl | ⟨after, c, rfl⟩
    · -- The carriage return would be the last character of the text itself.
      obtain ⟨c, hc⟩ := Option.ne_none_iff_exists'.1 (mt List.getLast?_eq_none_iff.1 h.ne_nil)
      rw [List.append_nil, List.getLast?_append, hc, Option.some_or, ← hc] at hlast
      exact absurd hlast h.getLast?_ne
    · rw [List.concat_eq_append, ← List.append_assoc, List.dropLast_concat]
      exact List.infix_append ..
  · exact List.infix_append ..

/-- The line that a text within its line is on, where that line has been read through the text. -/
private theorem WithinLine.exists_head? (h : WithinLine cs) {seen before after : List Char}
    (hseen : seen.reverse = before ++ cs ++ after) (rest : List Char) :
    ∃ line, (splitLinesAfter '\n' '\r' seen rest).head? = some line ∧ cs <:+: line := by
  induction rest generalizing seen after with
  | nil =>
    have hne : seen ≠ [] := by
      rintro rfl
      rw [List.reverse_nil, eq_comm, List.append_eq_nil_iff, List.append_eq_nil_iff] at hseen
      exact h.ne_nil hseen.1.2
    rw [splitLinesAfter, if_neg (by simpa using hne)]
    exact ⟨seen.reverse, rfl, hseen ▸ List.infix_append ..⟩
  | cons c rest ih =>
    rw [splitLinesAfter]
    split
    · exact ⟨_, rfl, hseen ▸ h.infix_dropReturn before after⟩
    · have hseen' : (c :: seen).reverse = before ++ cs ++ (after ++ [c]) := by
        rw [List.reverse_cons, hseen, List.append_assoc _ after]
      exact ih hseen'

/-- What holds no line feed is added to the current line. -/
theorem splitLinesAfter_append [DecidableEq α] {feed ret : α} {as : List α} (hfeed : feed ∉ as)
    (seen rest : List α) :
    splitLinesAfter feed ret seen (as ++ rest)
      = splitLinesAfter feed ret (as.reverse ++ seen) rest := by
  induction as generalizing seen with
  | nil => rfl
  | cons a as ih =>
    obtain ⟨ha, has⟩ := List.ne_and_not_mem_of_not_mem_cons hfeed
    rw [List.cons_append, splitLinesAfter, if_neg (Ne.symm ha), ih has, List.reverse_cons,
      List.append_assoc, List.singleton_append]

/-- A text within its line is on the line that follows the line feeds before it. -/
private theorem WithinLine.exists_getElem? (h : WithinLine cs) (before after seen : List Char) :
    ∃ line,
      (splitLinesAfter '\n' '\r' seen (before ++ cs ++ after))[lineFeeds before]? = some line ∧
        cs <:+: line := by
  induction before generalizing seen with
  | nil =>
    rw [List.nil_append, splitLinesAfter_append h.lineFeed_not_mem, lineFeeds, List.count_nil,
      ← List.head?_eq_getElem?]
    have hseen : (cs.reverse ++ seen).reverse = seen.reverse ++ cs ++ [] := by
      rw [List.reverse_append, List.reverse_reverse, List.append_nil]
    exact h.exists_head? hseen after
  | cons c before ih =>
    rw [List.cons_append, List.cons_append, splitLinesAfter, lineFeeds]
    split
    · rename_i hc
      rw [hc, List.count_cons_self, List.getElem?_cons_succ]
      exact ih []
    · rename_i hc
      rw [List.count_cons_of_ne hc]
      exact ih (c :: seen)

/-- **Finding a line.** A text within its line is a part of the line whose number is one more than
that of the line feeds before the text. -/
theorem WithinLine.exists_line? (h : WithinLine cs) {source : String} {before after : List Char}
    (hsource : source.toList = before ++ cs ++ after) :
    ∃ line, line? source (1 + lineFeeds before) = some line ∧ cs <:+: line.toList := by
  obtain ⟨line, hline, hinfix⟩ := h.exists_getElem? before after []
  refine ⟨String.ofList line, ?_, by rwa [String.toList_ofList]⟩
  rw [line?, if_neg (by omega), Nat.add_sub_cancel_left, hsource, lines, splitLines, hline,
    Option.map_some]

/-! ### Lines without line feeds -/

private theorem lineFeed_not_mem_dropReturn (h : '\n' ∉ cs) : '\n' ∉ dropReturn '\r' cs := by
  rw [dropReturn]
  split
  · exact fun hmem => h (List.dropLast_subset cs hmem)
  · exact h

/-- No line holds a line feed, if the part of the current line that has been read holds none. -/
private theorem lineFeed_not_mem_of_mem_splitLinesAfter {seen line : List Char}
    (hseen : '\n' ∉ seen) (h : line ∈ splitLinesAfter '\n' '\r' seen cs) : '\n' ∉ line := by
  induction cs generalizing seen with
  | nil =>
    rw [splitLinesAfter] at h
    split at h
    · cases h
    · rw [List.mem_singleton.1 h, List.mem_reverse]
      exact hseen
  | cons c cs ih =>
    rw [splitLinesAfter] at h
    split at h
    · rcases List.mem_cons.1 h with rfl | h
      · exact lineFeed_not_mem_dropReturn (mt List.mem_reverse.1 hseen)
      · exact ih List.not_mem_nil h
    · rename_i hc
      exact ih (List.not_mem_cons_of_ne_of_not_mem (Ne.symm hc) hseen) h

theorem lineFeed_not_mem_of_line? {source line : String} {number : Nat}
    (h : line? source number = some line) : '\n' ∉ line.toList := by
  rw [line?] at h
  split at h
  · cases h
  · obtain ⟨cs, hcs, rfl⟩ := Option.map_eq_some_iff.1 h
    rw [String.toList_ofList]
    exact lineFeed_not_mem_of_mem_splitLinesAfter List.not_mem_nil (List.mem_of_getElem? hcs)

/-! ### Lines put together -/

/-- Lines that are put together can be told apart again. -/
theorem splitOn_toList_intercalate {lines : List String} (hne : lines ≠ [])
    (h : ∀ line ∈ lines, '\n' ∉ line.toList) :
    (String.intercalate "\n" lines).toList.splitOn '\n' = lines.map String.toList := by
  have hfeed : "\n".toList = ['\n'] := rfl
  rw [String.toList_intercalate, hfeed]
  refine List.splitOn_intercalate '\n' ?_ (by simpa using hne)
  intro line hline
  obtain ⟨s, hs, rfl⟩ := List.mem_map.1 hline
  exact h s hs

/-- A text with a line feed has more than one line. -/
theorem lineFeed_not_mem_of_splitOn {line : List Char} (h : cs.splitOn '\n' = [line]) :
    '\n' ∉ cs := by
  intro hmem
  obtain ⟨before, after, rfl⟩ := List.append_of_mem hmem
  rw [List.splitOn_append_cons_self] at h
  have hbefore := List.length_pos_iff.2 (List.splitOn_ne_nil '\n' before)
  have hafter := List.length_pos_iff.2 (List.splitOn_ne_nil '\n' after)
  have hlength := congrArg List.length h
  rw [List.length_append, List.length_singleton] at hlength
  omega

end MiniC.Text
