import MiniC.Lexer.Pattern

/-!
# What patterns take

What each pattern takes is said once, by what the text starts with, so that no later proof goes
through the cases of a match again (`Pattern.length?_word_eq_some_iff` and its like).

Two facts about match lengths hold for every pattern. A pattern takes at least one character and no
more than there are (`Pattern.length?_bounds`), so a scanner that follows the table always moves on.
And no pattern but the blanks and the comments takes a line feed
(`Pattern.lineFeed_not_mem_take`), so lines need to be counted in those alone.
-/

namespace MiniC.Pattern

/-! ### What each pattern takes -/

section

variable {dialect : Dialect} {cs : List Char} {n : Nat}

/-- A line comment goes on as long as there is no line feed. -/
theorem length?_lineComment_eq_some_iff :
    lineComment.length? dialect cs = some n ↔
      ∃ rest, cs = ['/', '/'] ++ rest ∧ n = 2 + runLength (· ≠ '\n') rest := by
  constructor
  · intro h
    simp only [length?] at h
    split at h <;> cases h
    exact ⟨_, rfl, rfl⟩
  · rintro ⟨rest, rfl, rfl⟩
    rfl

/-- A block comment needs its end. -/
theorem length?_blockComment_eq_some_iff :
    blockComment.length? dialect cs = some n ↔
      ∃ rest m, cs = ['/', '*'] ++ rest ∧ throughCommentEnd? rest = some m ∧ n = 2 + m := by
  constructor
  · intro h
    simp only [length?] at h
    split at h
    · obtain ⟨m, hm, rfl⟩ := Option.map_eq_some_iff.1 h
      exact ⟨_, m, rfl, hm, rfl⟩
    · cases h
  · rintro ⟨rest, m, rfl, hm, rfl⟩
    exact Option.map_eq_some_iff.2 ⟨m, hm, rfl⟩

/-- A word goes on as long as it can. -/
theorem length?_word_eq_some_iff :
    word.length? dialect cs = some n ↔
      ∃ c rest, cs = [c] ++ rest ∧ isWordStart c = true ∧ n = 1 + runLength isWordRest rest := by
  constructor
  · intro h
    simp only [length?] at h
    split at h
    · split at h <;> cases h
      exact ⟨_, _, rfl, ‹_›, rfl⟩
    · cases h
  · rintro ⟨c, rest, rfl, hc, rfl⟩
    exact if_pos hc

/-- A character literal holds one character, or a backslash and one character. -/
theorem charLiteral?_eq_some_iff :
    charLiteral? cs = some n ↔
      (∃ c, c ≠ '\n' ∧ ['\'', '\\', c, '\''] <+: cs ∧ n = 4) ∨
        ∃ c, c ∉ ['\\', '\'', '\n'] ∧ ['\'', c, '\''] <+: cs ∧ n = 3 := by
  constructor
  · intro h
    unfold charLiteral? at h
    split at h
    · rename_i c tail
      split at h <;> cases h
      exact .inl ⟨c, ‹_›, ⟨tail, rfl⟩, rfl⟩
    · rename_i c tail _
      split at h <;> cases h
      rename_i hc
      refine .inr ⟨c, ?_, ⟨tail, rfl⟩, rfl⟩
      simpa [or_assoc] using hc
    · cases h
  · rintro (⟨c, hc, ⟨tail, rfl⟩, rfl⟩ | ⟨c, hc, ⟨tail, rfl⟩, rfl⟩)
    · simp [charLiteral?, hc]
    · simp only [List.mem_cons, List.not_mem_nil, or_false, not_or] at hc
      simp [charLiteral?.eq_2, hc]

/-- A string literal needs its end. -/
theorem length?_stringLiteral_eq_some_iff :
    stringLiteral.length? dialect cs = some n ↔
      ∃ rest m, cs = ['"'] ++ rest ∧ throughStringEnd? rest = some m ∧ n = 1 + m := by
  constructor
  · intro h
    simp only [length?] at h
    split at h
    · obtain ⟨m, hm, rfl⟩ := Option.map_eq_some_iff.1 h
      exact ⟨_, m, rfl, hm, rfl⟩
    · cases h
  · rintro ⟨rest, m, rfl, hm, rfl⟩
    exact Option.map_eq_some_iff.2 ⟨m, hm, rfl⟩

/-- A quote by itself is one character, whatever comes after it. -/
theorem length?_doubleQuote_eq_some_iff :
    doubleQuote.length? dialect cs = some n ↔ (∃ rest, cs = ['"'] ++ rest) ∧ n = 1 := by
  rw [length?, Option.ite_none_right_eq_some, List.head?_eq_some_iff, Option.some_inj,
    eq_comm (a := 1)]
  rfl

theorem length?_singleQuote_eq_some_iff :
    singleQuote.length? dialect cs = some n ↔ (∃ rest, cs = ['\''] ++ rest) ∧ n = 1 := by
  rw [length?, Option.ite_none_right_eq_some, List.head?_eq_some_iff, Option.some_inj,
    eq_comm (a := 1)]
  rfl

/-- A punctuator is its spelling, whatever comes after it. -/
theorem length?_punctuator_eq_some_iff {kind : Kind} :
    (punctuator kind).length? dialect cs = some n ↔
      ∃ spelling, kind.spelling? = some spelling ∧ spelling.toList <+: cs ∧
        n = spelling.toList.length := by
  rw [length?, Option.bind_eq_some_iff]
  refine exists_congr fun spelling => and_congr_right fun _ => ?_
  rw [Option.ite_none_right_eq_some, List.isPrefixOf_iff_prefix, Option.some_inj,
    String.length_toList, eq_comm (b := n)]

end

/-! ### Bounds -/

theorem runLength_le (p : Char → Bool) (cs : List Char) : runLength p cs ≤ cs.length :=
  (List.takeWhile_sublist p).length_le

theorem run?_bounds {p : Char → Bool} {cs : List Char} {n : Nat} (h : run? p cs = some n) :
    0 < n ∧ n ≤ cs.length := by
  have hle := runLength_le p cs
  simp only [run?] at h
  split at h <;> simp only [Option.some.injEq, reduceCtorEq] at h
  omega

theorem throughCommentEnd?_bounds {cs : List Char} {n : Nat}
    (h : throughCommentEnd? cs = some n) : 0 < n ∧ n ≤ cs.length := by
  induction cs using throughCommentEnd?.induct generalizing n with
  | case1 => simp [throughCommentEnd?] at h
  | case2 rest => simp [throughCommentEnd?] at h; simp; omega
  | case3 c cs hc ih =>
    rw [throughCommentEnd?.eq_3 _ _ hc, Option.map_eq_some_iff] at h
    obtain ⟨m, hm, rfl⟩ := h
    have := ih hm
    simp only [List.length_cons]
    omega

theorem throughStringEnd?_bounds {cs : List Char} {n : Nat}
    (h : throughStringEnd? cs = some n) : 0 < n ∧ n ≤ cs.length := by
  fun_induction throughStringEnd? cs generalizing n with
  | case1 => simp at h
  | case2 => simp at h; simp; omega
  | case3 => simp at h
  | case4 c cs hc ih =>
    obtain ⟨m, hm, rfl⟩ := Option.map_eq_some_iff.1 h
    have := ih hm
    simp only [List.length_cons]
    omega
  | case5 => simp at h
  | case6 c cs _ _ hc ih =>
    obtain ⟨m, hm, rfl⟩ := Option.map_eq_some_iff.1 h
    have := ih hm
    simp only [List.length_cons]
    omega

theorem fractionLength_le (cs : List Char) : fractionLength cs ≤ cs.length := by
  fun_cases fractionLength cs with
  | case1 => simp
  | case2 cs _ =>
    have := runLength_le Char.isDigit cs
    simp only [List.length_cons]
    omega
  | case3 => simp

theorem signLength_le (cs : List Char) : signLength cs ≤ cs.length := by
  fun_cases signLength cs <;> simp

theorem exponentLength_le (cs : List Char) : exponentLength cs ≤ cs.length := by
  fun_cases exponentLength cs with
  | case1 c cs digits _ =>
    have hrun : digits ≤ (cs.drop (signLength cs)).length := runLength_le ..
    have hsign := signLength_le cs
    simp only [List.length_drop] at hrun
    simp only [List.length_cons]
    omega
  | case2 => simp
  | case3 => simp

theorem numeral?_bounds {dialect : Dialect} {cs : List Char} {n : Nat}
    (h : numeral? dialect cs = some n) : 0 < n ∧ n ≤ cs.length := by
  obtain ⟨whole, hwhole, rfl⟩ := Option.map_eq_some_iff.1 h
  have hrun := run?_bounds hwhole
  have hfraction := fractionLength_le (cs.drop whole)
  have hexponent := exponentLength_le (cs.drop (whole + fractionLength (cs.drop whole)))
  simp only [List.length_drop] at hfraction hexponent
  dsimp only
  split <;> omega

theorem charLiteral?_bounds {cs : List Char} {n : Nat} (h : charLiteral? cs = some n) :
    0 < n ∧ n ≤ cs.length := by
  rcases charLiteral?_eq_some_iff.1 h with ⟨c, -, hstart, rfl⟩ | ⟨c, -, hstart, rfl⟩
  · exact ⟨by decide, hstart.length_le⟩
  · exact ⟨by decide, hstart.length_le⟩

theorem spelling_ne_nil {kind : Kind} {spelling : String} (h : kind.spelling? = some spelling) :
    spelling.toList ≠ [] := by
  revert h
  cases kind <;> simp only [Kind.spelling?, reduceCtorEq, Option.some.injEq, false_implies] <;>
    rintro rfl <;> decide

/-- A pattern takes at least one character, and no more than there are. -/
theorem length?_bounds {dialect : Dialect} {p : Pattern} {cs : List Char} {n : Nat}
    (h : p.length? dialect cs = some n) : 0 < n ∧ n ≤ cs.length := by
  cases p with
  | blank => exact run?_bounds h
  | lineComment =>
    obtain ⟨rest, rfl, rfl⟩ := length?_lineComment_eq_some_iff.1 h
    have := runLength_le (· ≠ '\n') rest
    simp only [List.length_append, List.length_cons, List.length_nil]
    omega
  | blockComment =>
    obtain ⟨rest, m, rfl, hm, rfl⟩ := length?_blockComment_eq_some_iff.1 h
    have := throughCommentEnd?_bounds hm
    simp only [List.length_append, List.length_cons, List.length_nil]
    omega
  | word =>
    obtain ⟨c, rest, rfl, -, rfl⟩ := length?_word_eq_some_iff.1 h
    have := runLength_le isWordRest rest
    simp only [List.length_append, List.length_cons, List.length_nil]
    omega
  | numeral => exact numeral?_bounds h
  | charLiteral => exact charLiteral?_bounds h
  | stringLiteral =>
    obtain ⟨rest, m, rfl, hm, rfl⟩ := length?_stringLiteral_eq_some_iff.1 h
    have := throughStringEnd?_bounds hm
    simp only [List.length_append, List.length_cons, List.length_nil]
    omega
  | doubleQuote =>
    obtain ⟨⟨rest, rfl⟩, rfl⟩ := length?_doubleQuote_eq_some_iff.1 h
    exact ⟨Nat.one_pos, Nat.le_add_left ..⟩
  | singleQuote =>
    obtain ⟨⟨rest, rfl⟩, rfl⟩ := length?_singleQuote_eq_some_iff.1 h
    exact ⟨Nat.one_pos, Nat.le_add_left ..⟩
  | punctuator kind =>
    obtain ⟨spelling, hspelling, hstart, rfl⟩ := length?_punctuator_eq_some_iff.1 h
    exact ⟨List.length_pos_iff.2 (spelling_ne_nil hspelling), hstart.length_le⟩

/-! ### Open comments -/

/-- A block comment ends if there is any `*/` after its start. -/
theorem throughCommentEnd?_eq_none_iff (cs : List Char) :
    throughCommentEnd? cs = none ↔ ¬['*', '/'] <:+: cs := by
  fun_induction throughCommentEnd? cs with
  | case1 => simp
  | case2 rest => simp [List.infix_cons_iff]
  | case3 c cs hc ih =>
    have hstart : ¬['*', '/'] <+: c :: cs := by
      rintro ⟨rest, heq⟩
      cases heq
      exact hc rest rfl rfl
    rw [Option.map_eq_none_iff, ih, List.infix_cons_iff, not_or]
    exact ⟨fun h => ⟨hstart, h⟩, And.right⟩

/-! ### Characters -/

/-- A character of a class is not among characters outside it. -/
theorem not_mem_of_all {p : Char → Bool} {cs : List Char} {c : Char}
    (h : cs.all (fun d => !p d) = true) (hc : p c = true) : c ∉ cs := by
  intro hmem
  have hnot := List.all_eq_true.1 h c hmem
  rw [hc] at hnot
  cases hnot

theorem isWordRest_of_isWordStart {c : Char} (h : isWordStart c = true) : isWordRest c = true := by
  simp only [isWordStart, isWordRest, Char.isAlphanum, Bool.or_eq_true] at h ⊢
  exact h.imp_left .inl

theorem take_runLength (p : Char → Bool) (cs : List Char) :
    cs.take (runLength p cs) = cs.takeWhile p := by
  induction cs with
  | nil => rfl
  | cons c cs ih =>
    by_cases h : p c <;> simp_all [runLength]

theorem drop_runLength (p : Char → Bool) (cs : List Char) :
    cs.drop (runLength p cs) = cs.dropWhile p := by
  have hsplit : cs.takeWhile p ++ cs.dropWhile p = cs := List.takeWhile_append_dropWhile
  rw [← List.append_cancel_left_eq (cs.takeWhile p), hsplit, ← take_runLength,
    List.take_append_drop]

theorem of_mem_take_runLength {p : Char → Bool} {c : Char} {cs : List Char}
    (h : c ∈ cs.take (runLength p cs)) : p c = true := by
  rw [take_runLength] at h
  exact List.all_eq_true.1 List.all_takeWhile c h

theorem of_mem_take_run? {p : Char → Bool} {c : Char} {cs : List Char} {n : Nat}
    (h : run? p cs = some n) (hc : c ∈ cs.take n) : p c = true := by
  simp only [run?] at h
  split at h <;> simp only [Option.some.injEq, reduceCtorEq] at h
  subst h
  exact of_mem_take_runLength hc

/-- All of a word goes on with it. -/
theorem isWordRest_of_mem_take {dialect : Dialect} {c : Char} {cs : List Char} {n : Nat}
    (h : word.length? dialect cs = some n) (hc : c ∈ cs.take n) : isWordRest c = true := by
  obtain ⟨d, rest, rfl, hd, rfl⟩ := length?_word_eq_some_iff.1 h
  rw [List.singleton_append, Nat.add_comm, List.take_succ_cons, List.mem_cons] at hc
  rcases hc with rfl | hc
  · exact isWordRest_of_isWordStart hd
  · exact of_mem_take_runLength hc

/-- The characters that a numeral may hold. -/
def isInNumeral (c : Char) : Bool :=
  c.isDigit || c = '.' || Numeral.isExponentMark c || c = '+' || c = '-'

theorem isInNumeral_of_isDigit {c : Char} (h : c.isDigit = true) : isInNumeral c = true := by
  simp [isInNumeral, h]

/-- A fraction is a point and digits. -/
theorem of_mem_take_fractionLength {c : Char} {cs : List Char}
    (h : c ∈ cs.take (fractionLength cs)) : c = '.' ∨ c.isDigit = true := by
  revert h
  fun_cases fractionLength cs with
  | case1 => simp
  | case2 cs _ =>
    rw [Nat.add_comm, List.take_succ_cons, List.mem_cons]
    exact Or.imp_right of_mem_take_runLength
  | case3 => simp

theorem isInNumeral_of_mem_take_fractionLength {c : Char} {cs : List Char}
    (h : c ∈ cs.take (fractionLength cs)) : isInNumeral c = true := by
  rcases of_mem_take_fractionLength h with rfl | hdigit
  · rfl
  · exact isInNumeral_of_isDigit hdigit

theorem isInNumeral_of_mem_take_signLength {c : Char} {cs : List Char}
    (h : c ∈ cs.take (signLength cs)) : isInNumeral c = true := by
  revert h
  fun_cases signLength cs with
  | case1 d cs hd =>
    simp only [Bool.or_eq_true, decide_eq_true_eq] at hd
    rcases hd with rfl | rfl <;> simp +contextual [isInNumeral]
  | case2 => simp
  | case3 => simp

theorem isInNumeral_of_mem_take_exponentLength {c : Char} {cs : List Char}
    (h : c ∈ cs.take (exponentLength cs)) : isInNumeral c = true := by
  revert h
  fun_cases exponentLength cs with
  | case1 d cs digits hd =>
    simp only [Bool.and_eq_true] at hd
    rw [Nat.add_assoc, Nat.add_comm, List.take_succ_cons, List.take_add, List.mem_cons,
      List.mem_append]
    rintro (rfl | h | h)
    · simp [isInNumeral, hd.1]
    · exact isInNumeral_of_mem_take_signLength h
    · exact isInNumeral_of_isDigit (of_mem_take_runLength h)
  | case2 => simp
  | case3 => simp

theorem isInNumeral_of_mem_take {dialect : Dialect} {c : Char} {cs : List Char} {n : Nat}
    (h : numeral? dialect cs = some n) (hc : c ∈ cs.take n) : isInNumeral c = true := by
  obtain ⟨whole, hwhole, rfl⟩ := Option.map_eq_some_iff.1 h
  dsimp only at hc
  rw [List.take_add, List.take_add, List.mem_append, List.mem_append] at hc
  rcases hc with (hc | hc) | hc
  · exact isInNumeral_of_isDigit (of_mem_take_run? hwhole hc)
  · exact isInNumeral_of_mem_take_fractionLength hc
  · split at hc
    · exact isInNumeral_of_mem_take_exponentLength hc
    · simp at hc

/-! ### The ends of literals and comments -/

theorem exists_take_of_throughCommentEnd? {cs : List Char} {n : Nat}
    (h : throughCommentEnd? cs = some n) :
    ∃ body, cs.take n = body ++ ['*', '/'] ∧ ¬['*', '/'] <:+: body ++ ['*'] := by
  induction cs using throughCommentEnd?.induct generalizing n with
  | case1 => cases h
  | case2 rest =>
    cases h
    exact ⟨[], rfl, by decide⟩
  | case3 c cs hc ih =>
    rw [throughCommentEnd?.eq_3 _ _ hc, Option.map_eq_some_iff] at h
    obtain ⟨m, hm, rfl⟩ := h
    obtain ⟨body, htake, hbody⟩ := ih hm
    refine ⟨c :: body, ?_, ?_⟩
    · rw [List.take_succ_cons, htake, List.cons_append]
    · rw [List.cons_append, List.infix_cons_iff, not_or]
      refine ⟨?_, hbody⟩
      -- What follows the character is what is left of the text, and an end is not there.
      have hcs : cs = body ++ ['*', '/'] ++ cs.drop m := by rw [← htake, List.take_append_drop]
      rw [List.cons_prefix_cons]
      rintro ⟨rfl, hslash⟩
      cases body with
      | nil => exact absurd hslash (by decide)
      | cons d body =>
        rw [List.cons_append, List.cons_prefix_cons] at hslash
        rw [← hslash.1, List.cons_append, List.cons_append] at hcs
        exact hc _ rfl hcs

/-- A string literal goes on to a double quote, and stays on its line. -/
theorem exists_take_of_throughStringEnd? {cs : List Char} {n : Nat}
    (h : throughStringEnd? cs = some n) :
    ∃ inside, cs.take n = inside ++ ['"'] ∧ '\n' ∉ inside := by
  fun_induction throughStringEnd? cs generalizing n with
  | case1 => cases h
  | case2 =>
    cases h
    exact ⟨[], rfl, List.not_mem_nil⟩
  | case3 => cases h
  | case4 c cs hc ih =>
    obtain ⟨m, hm, rfl⟩ := Option.map_eq_some_iff.1 h
    obtain ⟨inside, htake, hinside⟩ := ih hm
    refine ⟨'\\' :: c :: inside, ?_, ?_⟩
    · rw [List.take_succ_cons, List.take_succ_cons, htake]
      rfl
    · simp [hinside, Ne.symm hc]
  | case5 => cases h
  | case6 c cs _ _ hc ih =>
    obtain ⟨m, hm, rfl⟩ := Option.map_eq_some_iff.1 h
    obtain ⟨inside, htake, hinside⟩ := ih hm
    simp only [Bool.or_eq_true, decide_eq_true_eq, not_or] at hc
    refine ⟨c :: inside, ?_, ?_⟩
    · rw [List.take_succ_cons, htake, List.cons_append]
    · simp [hinside, Ne.symm hc.2]

/-- A character literal goes on to a single quote, and stays on its line. -/
theorem exists_take_of_charLiteral? {cs : List Char} {n : Nat} (h : charLiteral? cs = some n) :
    ∃ inside, cs.take n = '\'' :: (inside ++ ['\'']) ∧ '\n' ∉ inside := by
  rcases charLiteral?_eq_some_iff.1 h with ⟨c, hc, ⟨rest, rfl⟩, rfl⟩ | ⟨c, hc, ⟨rest, rfl⟩, rfl⟩
  · exact ⟨['\\', c], rfl, by simp [Ne.symm hc]⟩
  · simp only [List.mem_cons, List.not_mem_nil, or_false, not_or] at hc
    exact ⟨[c], rfl, by simp [Ne.symm hc.2.2]⟩

/-! ### Line feeds -/

/-- No punctuator is written with blanks. -/
theorem isSpacing_of_mem_spelling {kind : Kind} {spelling : String}
    (h : kind.spelling? = some spelling) {c : Char} (hc : c ∈ spelling.toList) :
    Text.isSpacing c = false := by
  have hall : spelling.toList.all (fun d => !Text.isSpacing d) = true := by
    revert h
    cases kind <;> simp only [Kind.spelling?, reduceCtorEq, Option.some.injEq, false_implies] <;>
      rintro rfl <;> rfl
  exact Bool.eq_false_iff.2 fun hspacing => not_mem_of_all hall hspacing hc

theorem lineFeed_not_mem_spelling {kind : Kind} {spelling : String}
    (h : kind.spelling? = some spelling) : '\n' ∉ spelling.toList :=
  fun hmem => absurd (isSpacing_of_mem_spelling h hmem) (by decide)

/-- Only blanks and comments take a line feed. -/
theorem lineFeed_not_mem_take {dialect : Dialect} {p : Pattern} {cs : List Char} {n : Nat}
    (hp : p.isSkipped = false) (h : p.length? dialect cs = some n) : '\n' ∉ cs.take n := by
  cases p with
  | blank | lineComment | blockComment => simp [isSkipped] at hp
  | word => exact fun hc => absurd (isWordRest_of_mem_take h hc) (by decide)
  | numeral => exact fun hc => absurd (isInNumeral_of_mem_take h hc) (by decide)
  | charLiteral =>
    obtain ⟨inside, htake, hinside⟩ := exists_take_of_charLiteral? h
    rw [htake]
    simpa using hinside
  | stringLiteral =>
    obtain ⟨rest, m, rfl, hm, rfl⟩ := length?_stringLiteral_eq_some_iff.1 h
    obtain ⟨inside, htake, hinside⟩ := exists_take_of_throughStringEnd? hm
    rw [List.singleton_append, Nat.add_comm, List.take_succ_cons, htake]
    simpa using hinside
  | doubleQuote =>
    obtain ⟨⟨rest, rfl⟩, rfl⟩ := length?_doubleQuote_eq_some_iff.1 h
    simp
  | singleQuote =>
    obtain ⟨⟨rest, rfl⟩, rfl⟩ := length?_singleQuote_eq_some_iff.1 h
    simp
  | punctuator kind =>
    obtain ⟨spelling, hspelling, ⟨rest, rfl⟩, rfl⟩ := length?_punctuator_eq_some_iff.1 h
    rw [List.take_left]
    exact lineFeed_not_mem_spelling hspelling

end MiniC.Pattern
