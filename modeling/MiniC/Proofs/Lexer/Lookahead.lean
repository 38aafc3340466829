import MiniC.Lexer.Segment.Lemmas
import MiniC.Proofs.Lexer.FirstMatch

/-!
# Looking ahead

What a pattern takes of a text is decided by what it takes, and by little more. If the text is cut
off behind that, or anywhere further on, the pattern takes the same (`Pattern.length?_of_append`).
If something comes after the text, a word or a numeral may go on in it, but not if that starts with
a blank; literals, block comments and punctuators have their ends in themselves. So whatever a
pattern takes it takes before every text that **echoes** what came next, unless it is a run that
goes over spaces (`Pattern.length?_of_echoes`).
-/

namespace MiniC

namespace Pattern

variable {dialect : Dialect} {a b : List Char}

/-! ### Runs -/

/-- A run does not go on over a character that fails its test. -/
theorem runLength_append_cons {p : Char → Bool} {d : Char} (hd : p d = false) (a b : List Char) :
    runLength p (a ++ d :: b) = runLength p a := by
  induction a with
  | nil => exact runLength_cons_of_neg hd
  | cons c a ih =>
    rw [List.cons_append]
    cases hc : p c with
    | true => rw [runLength_cons_of_pos hc, runLength_cons_of_pos hc, ih]
    | false => rw [runLength_cons_of_neg hc, runLength_cons_of_neg hc]

/-- A run that ends within a text does not see past the text. -/
theorem runLength_append_of_exists {p : Char → Bool} (h : ∃ c ∈ a, p c = false) (b : List Char) :
    runLength p (a ++ b) = runLength p a := by
  induction a with
  | nil =>
    obtain ⟨c, hc, -⟩ := h
    cases hc
  | cons c a ih =>
    rw [List.cons_append]
    cases hc : p c with
    | true =>
      have ha : ∃ d ∈ a, p d = false := by simpa [hc] using h
      rw [runLength_cons_of_pos hc, runLength_cons_of_pos hc, ih ha]
    | false => rw [runLength_cons_of_neg hc, runLength_cons_of_neg hc]

/-- A run that is no longer than a text is the run of the text. -/
theorem runLength_of_append {p : Char → Bool} (h : runLength p (a ++ b) ≤ a.length) :
    runLength p (a ++ b) = runLength p a := by
  induction a with
  | nil => exact Nat.le_zero.1 h
  | cons c a ih =>
    rw [List.cons_append] at h ⊢
    cases hc : p c with
    | true =>
      rw [runLength_cons_of_pos hc, List.length_cons, Nat.add_comm, Nat.add_le_add_iff_right] at h
      rw [runLength_cons_of_pos hc, runLength_cons_of_pos hc, ih h]
    | false => rw [runLength_cons_of_neg hc, runLength_cons_of_neg hc]

/-- A run takes the first part of a text as a whole if all of it goes on with the run, and nothing
after it does. -/
theorem runLength_append_eq_iff {p : Char → Bool} :
    runLength p (a ++ b) = a.length ↔ (∀ c ∈ a, p c = true) ∧ Stops p b := by
  refine ⟨fun h => ?_, fun h => runLength_append h.1 h.2⟩
  induction a with
  | nil =>
    refine ⟨nofun, fun c hc => Bool.eq_false_iff.2 fun hpos => ?_⟩
    obtain ⟨rest, rfl⟩ := List.head?_eq_some_iff.1 hc
    rw [List.nil_append, runLength_cons_of_pos hpos, List.length_nil] at h
    omega
  | cons c a ih =>
    rw [List.cons_append, List.length_cons] at h
    cases hc : p c with
    | true =>
      rw [runLength_cons_of_pos hc, Nat.add_comm, Nat.add_right_cancel_iff] at h
      exact ⟨List.forall_mem_cons.2 ⟨hc, (ih h).1⟩, (ih h).2⟩
    | false =>
      rw [runLength_cons_of_neg hc] at h
      cases h

private theorem run?_of_append {p : Char → Bool} {n : Nat} (h : run? p (a ++ b) = some n)
    (hn : n ≤ a.length) : run? p a = some n := by
  rw [run?] at h ⊢
  split at h <;> cases h
  rename_i hzero
  rw [runLength_of_append hn] at hzero ⊢
  rw [if_neg hzero]

/-! ### Numerals -/

section

variable {d : Char}

/-- A character that no numeral holds is no digit, no point, no mark and no sign. -/
theorem not_isInNumeral_iff :
    isInNumeral d = false ↔ d.isDigit = false ∧ d ≠ '.' ∧ Numeral.isExponentMark d = false ∧
      d ≠ '+' ∧ d ≠ '-' := by
  simp [isInNumeral, and_assoc]

private theorem fractionLength_append_cons (hd : isInNumeral d = false) (a b : List Char) :
    fractionLength (a ++ d :: b) = fractionLength a := by
  obtain ⟨hdigit, hpoint, -⟩ := not_isInNumeral_iff.1 hd
  rcases a with - | ⟨c, a⟩
  · exact fractionLength.eq_2 _ fun _ h => hpoint (List.cons.inj h).1
  · rw [List.cons_append]
    by_cases hc : c = '.'
    · rw [hc, fractionLength, fractionLength, runLength_append_cons hdigit]
    · rw [fractionLength.eq_2 _ fun _ h => hc (List.cons.inj h).1,
        fractionLength.eq_2 _ fun _ h => hc (List.cons.inj h).1]

private theorem signLength_append_cons (hd : isInNumeral d = false) (a b : List Char) :
    signLength (a ++ d :: b) = signLength a := by
  obtain ⟨-, -, -, hplus, hminus⟩ := not_isInNumeral_iff.1 hd
  cases a with
  | nil => simp [signLength, hplus, hminus]
  | cons c a => rfl

private theorem exponentLength_append_cons (hd : isInNumeral d = false) (a b : List Char) :
    exponentLength (a ++ d :: b) = exponentLength a := by
  obtain ⟨hdigit, -, hmark, -⟩ := not_isInNumeral_iff.1 hd
  cases a with
  | nil => simp [exponentLength, hmark]
  | cons c a =>
    rw [List.cons_append, exponentLength, exponentLength, signLength_append_cons hd,
      List.drop_append_of_le_length (signLength_le a), runLength_append_cons hdigit]

/-- A numeral does not go on over a character that no numeral holds. -/
theorem numeral?_append_cons (hd : isInNumeral d = false) (a b : List Char) :
    numeral? dialect (a ++ d :: b) = numeral? dialect a := by
  obtain ⟨hdigit, -⟩ := not_isInNumeral_iff.1 hd
  rw [numeral?, numeral?, run?, run?, runLength_append_cons hdigit]
  have hwhole := runLength_le Char.isDigit a
  generalize runLength Char.isDigit a = whole at hwhole
  have hfraction := fractionLength_le (a.drop whole)
  rw [List.length_drop] at hfraction
  by_cases hzero : whole = 0
  · rw [if_pos hzero]
    rfl
  · rw [if_neg hzero, Option.map_some, Option.map_some]
    dsimp only
    rw [List.drop_append_of_le_length hwhole, fractionLength_append_cons hd,
      List.drop_append_of_le_length (by omega), exponentLength_append_cons hd]

end

private theorem fractionLength_of_append (h : fractionLength (a ++ b) ≤ a.length) :
    fractionLength (a ++ b) = fractionLength a := by
  cases a with
  | nil => exact Nat.le_zero.1 h
  | cons c a =>
    rw [List.cons_append] at h ⊢
    by_cases hc : c = '.'
    · subst hc
      rw [fractionLength, List.length_cons] at h
      have hrun : runLength Char.isDigit (a ++ b) = runLength Char.isDigit a := by
        refine runLength_of_append ?_
        split at h <;> omega
      rw [fractionLength, fractionLength, hrun]
    · rw [fractionLength.eq_2 _ fun _ h => hc (List.cons.inj h).1,
        fractionLength.eq_2 _ fun _ h => hc (List.cons.inj h).1]

theorem exponentLength_cons (c : Char) (cs : List Char) :
    exponentLength (c :: cs)
      = if Numeral.isExponentMark c = true ∧
            runLength Char.isDigit (cs.drop (signLength cs)) ≠ 0 then
          1 + signLength cs + runLength Char.isDigit (cs.drop (signLength cs))
        else 0 := by
  simp only [exponentLength, Bool.and_eq_true, decide_eq_true_eq]

private theorem exponentLength_of_append (h : exponentLength (a ++ b) ≤ a.length) :
    exponentLength (a ++ b) = exponentLength a := by
  rcases a with - | ⟨c, - | ⟨d, a⟩⟩
  · exact Nat.le_zero.1 h
  · -- One character is no exponent, and an exponent that it starts is longer.
    rw [List.singleton_append, exponentLength_cons] at h ⊢
    split at h
    · rw [List.length_singleton] at h
      omega
    · rename_i hdigits
      rw [if_neg hdigits]
      simp [exponentLength_cons, runLength]
  · have hsign : signLength (d :: a ++ b) = signLength (d :: a) := rfl
    have hle := signLength_le (d :: a)
    have hdrop : (d :: a ++ b).drop (signLength (d :: a))
        = (d :: a).drop (signLength (d :: a)) ++ b := List.drop_append_of_le_length hle
    rw [List.cons_append, exponentLength_cons, hsign, hdrop] at h ⊢
    rw [exponentLength_cons]
    cases hmark : Numeral.isExponentMark c with
    | false => rw [if_neg (by simp), if_neg (by simp)]
    | true =>
      have hrun : runLength Char.isDigit ((d :: a).drop (signLength (d :: a)) ++ b)
          = runLength Char.isDigit ((d :: a).drop (signLength (d :: a))) := by
        refine runLength_of_append ?_
        rw [List.length_drop]
        rw [List.length_cons] at h
        simp only [hmark, true_and] at h
        split at h <;> omega
      rw [hrun]

/-- A numeral that a text holds to its end is that of the text. -/
private theorem numeral?_of_append {n : Nat} (h : numeral? dialect (a ++ b) = some n)
    (hn : n ≤ a.length) : numeral? dialect a = some n := by
  obtain ⟨whole, hwhole, hlength⟩ := Option.map_eq_some_iff.1 h
  dsimp only at hlength
  have hwhole' := run?_of_append hwhole (by omega)
  have hdrop : (a ++ b).drop whole = a.drop whole ++ b :=
    List.drop_append_of_le_length (by omega)
  rw [hdrop] at hlength
  have hfraction : fractionLength (a.drop whole ++ b) = fractionLength (a.drop whole) := by
    refine fractionLength_of_append ?_
    rw [List.length_drop]
    omega
  rw [hfraction] at hlength
  rw [numeral?, hwhole', Option.map_some]
  dsimp only
  rw [← hlength]
  congr 2
  refine ite_congr rfl (fun hexponents => ?_) fun _ => rfl
  rw [if_pos hexponents] at hlength
  rw [List.drop_append_of_le_length (by omega)] at hlength ⊢
  rw [exponentLength_of_append]
  rw [List.length_drop]
  omega

/-! ### Literals -/

private theorem charLiteral?_append {n : Nat} (h : charLiteral? a = some n) (b : List Char) :
    charLiteral? (a ++ b) = some n := by
  have hprefix := List.prefix_append a b
  rw [charLiteral?_eq_some_iff] at h ⊢
  exact h.imp (fun ⟨c, hc, hstart, hn⟩ => ⟨c, hc, hstart.trans hprefix, hn⟩)
    fun ⟨c, hc, hstart, hn⟩ => ⟨c, hc, hstart.trans hprefix, hn⟩

private theorem charLiteral?_of_append {n : Nat} (h : charLiteral? (a ++ b) = some n)
    (hn : n ≤ a.length) : charLiteral? a = some n := by
  have hprefix := List.prefix_append a b
  rw [charLiteral?_eq_some_iff] at h ⊢
  rcases h with ⟨c, hc, hstart, rfl⟩ | ⟨c, hc, hstart, rfl⟩
  · exact .inl ⟨c, hc, List.prefix_of_prefix_length_le hstart hprefix hn, rfl⟩
  · exact .inr ⟨c, hc, List.prefix_of_prefix_length_le hstart hprefix hn, rfl⟩

theorem throughStringEnd?_escape (c : Char) (cs : List Char) :
    throughStringEnd? ('\\' :: c :: cs)
      = if c = '\n' then none else (throughStringEnd? cs).map (· + 2) := by
  rw [throughStringEnd?]

/-- Most characters are passed over. -/
theorem throughStringEnd?_cons {c : Char} (hc : c ∉ ['"', '\\', '\n']) (cs : List Char) :
    throughStringEnd? (c :: cs) = (throughStringEnd? cs).map (· + 1) := by
  simp only [List.mem_cons, List.not_mem_nil, or_false, not_or] at hc
  rw [throughStringEnd?.eq_4 c cs hc.1 fun _ _ h => absurd h hc.2.1, if_neg (by simp [hc.2])]

/-- A string literal that ends does not see past its end. -/
theorem throughStringEnd?_append {n : Nat} (h : throughStringEnd? a = some n) (b : List Char) :
    throughStringEnd? (a ++ b) = some n := by
  fun_induction throughStringEnd? a generalizing n with
  | case1 => cases h
  | case2 => exact h
  | case3 => cases h
  | case4 c cs hc ih =>
    obtain ⟨m, hm, rfl⟩ := Option.map_eq_some_iff.1 h
    rw [List.cons_append, List.cons_append, throughStringEnd?_escape, if_neg hc, ih hm]
    rfl
  | case5 => cases h
  | case6 c cs hquote _ hc ih =>
    obtain ⟨m, hm, rfl⟩ := Option.map_eq_some_iff.1 h
    have hplain : c ∉ ['"', '\\', '\n'] := by simpa using And.intro hquote hc
    rw [List.cons_append, throughStringEnd?_cons hplain, ih hm]
    rfl

private theorem throughStringEnd?_of_append {n : Nat} (h : throughStringEnd? (a ++ b) = some n)
    (hn : n ≤ a.length) : throughStringEnd? a = some n := by
  have hpos := (throughStringEnd?_bounds h).1
  fun_induction throughStringEnd? a generalizing n with
  | case1 => exact absurd hn (Nat.not_le_of_lt hpos)
  | case2 => exact h
  | case3 =>
    rw [List.cons_append, List.cons_append, throughStringEnd?_escape, if_pos rfl] at h
    cases h
  | case4 c cs hc ih =>
    rw [List.cons_append, List.cons_append, throughStringEnd?_escape, if_neg hc] at h
    obtain ⟨m, hm, rfl⟩ := Option.map_eq_some_iff.1 h
    have hle : m ≤ cs.length := by simpa using hn
    rw [ih hm hle (throughStringEnd?_bounds hm).1]
    rfl
  | case5 c cs hquote hescape hc =>
    simp only [Bool.or_eq_true, decide_eq_true_eq] at hc
    rcases hc with rfl | rfl
    · -- A backslash at the end escapes what comes after it, and the literal goes on.
      rcases cs with - | ⟨d, cs⟩
      · rcases b with - | ⟨d, b⟩
        · cases h
        · rw [List.singleton_append, throughStringEnd?_escape] at h
          split at h
          · cases h
          · obtain ⟨m, -, rfl⟩ := Option.map_eq_some_iff.1 h
            simp at hn
      · exact absurd rfl (hescape d cs rfl)
    · cases h
  | case6 c cs hquote _ hc ih =>
    have hplain : c ∉ ['"', '\\', '\n'] := by simpa using And.intro hquote hc
    rw [List.cons_append, throughStringEnd?_cons hplain] at h
    obtain ⟨m, hm, rfl⟩ := Option.map_eq_some_iff.1 h
    have hle : m ≤ cs.length := by simpa using hn
    rw [ih hm hle (throughStringEnd?_bounds hm).1]
    rfl

/-! ### Comments -/

/-- A comment that ends does not see past its end. -/
theorem throughCommentEnd?_append {n : Nat} (h : throughCommentEnd? a = some n) (b : List Char) :
    throughCommentEnd? (a ++ b) = some n := by
  fun_induction throughCommentEnd? a generalizing n with
  | case1 => cases h
  | case2 rest => exact h
  | case3 c cs hc ih =>
    obtain ⟨m, hm, rfl⟩ := Option.map_eq_some_iff.1 h
    rw [List.cons_append, throughCommentEnd?.eq_3, ih hm]
    · rfl
    · intro tail hstar hslash
      cases cs with
      | nil => cases hm
      | cons d cs =>
        cases hslash
        exact hc cs hstar rfl

private theorem throughCommentEnd?_of_append {n : Nat} (h : throughCommentEnd? (a ++ b) = some n)
    (hn : n ≤ a.length) : throughCommentEnd? a = some n := by
  have hpos := (throughCommentEnd?_bounds h).1
  fun_induction throughCommentEnd? a generalizing n with
  | case1 => exact absurd hn (Nat.not_le_of_lt hpos)
  | case2 rest => exact h
  | case3 c cs hc ih =>
    rw [List.cons_append, throughCommentEnd?.eq_3] at h
    · obtain ⟨m, hm, rfl⟩ := Option.map_eq_some_iff.1 h
      have hle : m ≤ cs.length := by simpa using hn
      rw [ih hm hle (throughCommentEnd?_bounds hm).1]
      rfl
    · -- An end that starts here is two characters long.
      rintro tail rfl hslash
      rcases cs with - | ⟨d, cs⟩
      · rw [List.nil_append] at hslash
        rw [hslash] at h
        cases h
        simp at hn
      · cases hslash
        exact hc cs rfl rfl

/-- An open comment goes over any character that is no part of an end, and may end after it. -/
theorem throughCommentEnd?_append_cons (h : throughCommentEnd? a = none) {d : Char}
    (hd : d ∉ ['*', '/']) (b : List Char) :
    throughCommentEnd? (a ++ d :: b) = (throughCommentEnd? b).map (· + (a.length + 1)) := by
  simp only [List.mem_cons, List.not_mem_nil, or_false, not_or] at hd
  fun_induction throughCommentEnd? a with
  | case1 => exact throughCommentEnd?.eq_3 _ _ fun _ hstar => absurd hstar hd.1
  | case2 => cases h
  | case3 c cs hc ih =>
    rw [List.cons_append, throughCommentEnd?.eq_3, ih (Option.map_eq_none_iff.1 h), Option.map_map]
    · congr 1
    · rintro tail rfl hslash
      rcases cs with - | ⟨e, cs⟩
      · exact hd.2 (List.cons.inj hslash).1
      · cases hslash
        exact hc cs rfl rfl

/-! ### All patterns -/

/-- What no blank satisfies. -/
private theorem not_of_isSpacing {p : Char → Bool}
    (h : [' ', '\t', '\r', '\n'].all (fun c => !p c) = true)
    {d : Char} (hd : Text.isSpacing d = true) : p d = false := by
  refine Bool.eq_false_iff.2 fun hp => not_mem_of_all h hp ?_
  simpa [Text.isSpacing, or_assoc] using hd

/-- A start of two texts that is no longer than the first of them is a start of that. -/
private theorem exists_append_of_append_eq {s rest : List Char} (h : a ++ b = s ++ rest)
    (hle : s.length ≤ a.length) : ∃ a', a = s ++ a' ∧ rest = a' ++ b := by
  have hstart : s <+: a :=
    List.prefix_of_prefix_length_le ⟨rest, h.symm⟩ (List.prefix_append a b) hle
  obtain ⟨a', rfl⟩ := hstart
  rw [List.append_assoc] at h
  exact ⟨a', rfl, (List.append_cancel_left h).symm⟩

/-- A line comment goes on to the end of its line. -/
theorem length?_lineComment_eq_length_iff {text rest : List Char} :
    lineComment.length? dialect (text ++ rest) = some text.length ↔
      ∃ body, text = ['/', '/'] ++ body ∧ '\n' ∉ body ∧ Stops (· ≠ '\n') rest := by
  have hrun {body : List Char} : runLength (· ≠ '\n') (body ++ rest) = body.length ↔
      '\n' ∉ body ∧ Stops (· ≠ '\n') rest := by
    rw [runLength_append_eq_iff, ← List.forall_mem_ne']
    simp
  rw [length?_lineComment_eq_some_iff]
  constructor
  · rintro ⟨rest', htext, hlength⟩
    obtain ⟨body, rfl, rfl⟩ := exists_append_of_append_eq htext (hlength ▸ Nat.le_add_right ..)
    rw [List.length_append] at hlength
    exact ⟨body, rfl, hrun.1 (Nat.add_left_cancel hlength).symm⟩
  · rintro ⟨body, rfl, hbody⟩
    exact ⟨body ++ rest, List.append_assoc .., by rw [hrun.2 hbody, List.length_append]; rfl⟩

/-- **Cutting off.** A pattern takes no less of a text that is cut off behind what it takes. -/
theorem length?_of_append {p : Pattern} {n : Nat} (h : p.length? dialect (a ++ b) = some n)
    (hn : n ≤ a.length) : p.length? dialect a = some n := by
  have hpos := (length?_bounds h).1
  cases p with
  | blank => exact run?_of_append h hn
  | lineComment =>
    obtain ⟨rest, hcs, rfl⟩ := length?_lineComment_eq_some_iff.1 h
    obtain ⟨a, rfl, rfl⟩ := exists_append_of_append_eq hcs (Nat.le_trans (Nat.le_add_right ..) hn)
    have hrun : runLength (· ≠ '\n') (a ++ b) = runLength (· ≠ '\n') a :=
      runLength_of_append (Nat.le_of_add_le_add_left (List.length_append ▸ hn))
    exact length?_lineComment_eq_some_iff.2 ⟨a, rfl, by rw [hrun]⟩
  | blockComment =>
    obtain ⟨rest, m, hcs, hm, rfl⟩ := length?_blockComment_eq_some_iff.1 h
    obtain ⟨a, rfl, rfl⟩ := exists_append_of_append_eq hcs (Nat.le_trans (Nat.le_add_right ..) hn)
    have hend :=
      throughCommentEnd?_of_append hm (Nat.le_of_add_le_add_left (List.length_append ▸ hn))
    exact length?_blockComment_eq_some_iff.2 ⟨a, m, rfl, hend, rfl⟩
  | word =>
    obtain ⟨c, rest, hcs, hc, rfl⟩ := length?_word_eq_some_iff.1 h
    obtain ⟨a, rfl, rfl⟩ := exists_append_of_append_eq hcs (Nat.le_trans (Nat.le_add_right ..) hn)
    have hrun : runLength isWordRest (a ++ b) = runLength isWordRest a :=
      runLength_of_append (Nat.le_of_add_le_add_left (List.length_append ▸ hn))
    exact length?_word_eq_some_iff.2 ⟨c, a, rfl, hc, by rw [hrun]⟩
  | numeral => exact numeral?_of_append h hn
  | charLiteral => exact charLiteral?_of_append h hn
  | stringLiteral =>
    obtain ⟨rest, m, hcs, hm, rfl⟩ := length?_stringLiteral_eq_some_iff.1 h
    obtain ⟨a, rfl, rfl⟩ := exists_append_of_append_eq hcs (Nat.le_trans (Nat.le_add_right ..) hn)
    have hend :=
      throughStringEnd?_of_append hm (Nat.le_of_add_le_add_left (List.length_append ▸ hn))
    exact length?_stringLiteral_eq_some_iff.2 ⟨a, m, rfl, hend, rfl⟩
  | doubleQuote | singleQuote =>
    cases a with
    | nil => exact absurd hn (Nat.not_le_of_lt hpos)
    | cons c a => exact h
  | punctuator kind =>
    obtain ⟨spelling, hspelling, hstart, rfl⟩ := length?_punctuator_eq_some_iff.1 h
    have hstart' := List.prefix_of_prefix_length_le hstart (List.prefix_append a b) hn
    exact length?_punctuator_eq_some_iff.2 ⟨spelling, hspelling, hstart', rfl⟩

/-- **Going on.** A pattern takes no more of a text that goes on with a blank. Only runs that go
over blanks do. -/
theorem length?_append_isSpacing {p : Pattern} (hblank : p ≠ blank) (hline : p ≠ lineComment)
    {d : Char} (hd : Text.isSpacing d = true) {n : Nat} (h : p.length? dialect a = some n)
    (b : List Char) : p.length? dialect (a ++ d :: b) = some n := by
  cases p with
  | blank => exact absurd rfl hblank
  | lineComment => exact absurd rfl hline
  | blockComment =>
    obtain ⟨a, m, rfl, hm, rfl⟩ := length?_blockComment_eq_some_iff.1 h
    exact length?_blockComment_eq_some_iff.2
      ⟨a ++ d :: b, m, List.append_assoc .., throughCommentEnd?_append hm _, rfl⟩
  | word =>
    obtain ⟨c, a, rfl, hc, rfl⟩ := length?_word_eq_some_iff.1 h
    have hrun := runLength_append_cons (not_of_isSpacing (p := isWordRest) (by decide) hd) a b
    exact length?_word_eq_some_iff.2 ⟨c, a ++ d :: b, List.append_assoc .., hc, by rw [hrun]⟩
  | numeral => exact (numeral?_append_cons (not_of_isSpacing (by decide) hd) a b).trans h
  | charLiteral => exact charLiteral?_append h _
  | stringLiteral =>
    obtain ⟨a, m, rfl, hm, rfl⟩ := length?_stringLiteral_eq_some_iff.1 h
    exact length?_stringLiteral_eq_some_iff.2
      ⟨a ++ d :: b, m, List.append_assoc .., throughStringEnd?_append hm _, rfl⟩
  | doubleQuote | singleQuote =>
    cases a with
    | nil => cases h
    | cons c a => exact h
  | punctuator kind =>
    obtain ⟨spelling, hspelling, hstart, rfl⟩ := length?_punctuator_eq_some_iff.1 h
    exact length?_punctuator_eq_some_iff.2
      ⟨spelling, hspelling, hstart.trans (List.prefix_append ..), rfl⟩

/-- A pattern that is the first one to fit is so in another text where it fits too, if no pattern
fits there that did not fit before. -/
theorem first?_congr {cs cs' : List Char} {p : Pattern} {n n' : Nat}
    (h : first? dialect cs = some (p, n))
    (hnone : ∀ q : Pattern, q.length? dialect cs = none → q.length? dialect cs' = none)
    (hlength : p.length? dialect cs' = some n') : first? dialect cs' = some (p, n') := by
  obtain ⟨earlier, q, later, htable, hq, hearlier⟩ := List.findSome?_eq_some_iff.1 h
  obtain ⟨m, -, hqm⟩ := Option.map_eq_some_iff.1 hq
  cases hqm
  refine List.findSome?_eq_some_iff.2 ⟨earlier, p, later, htable, ?_, fun q hq => ?_⟩
  · rw [hlength, Option.map_some]
  · rw [hnone q (Option.map_eq_none_iff.1 (hearlier q hq)), Option.map_none]

/-! ### Echoes -/

/-- A text that **echoes** another one: a start of it, and perhaps a space and whatever comes after
that. -/
def Echoes (cs' cs : List Char) : Prop :=
  ∃ common, common <+: cs ∧ (cs' = common ∨ ∃ more, cs' = common ++ ' ' :: more)

/-- **Looking ahead.** A pattern that takes a text as a whole does so before whatever echoes what
came next. -/
theorem length?_of_echoes {p : Pattern} (hblank : p ≠ blank) (hline : p ≠ lineComment)
    {text rest rest' : List Char} (h : p.length? dialect (text ++ rest) = some text.length)
    (hrest : Echoes rest' rest) : p.length? dialect (text ++ rest') = some text.length := by
  obtain ⟨common, ⟨tail, rfl⟩, hrest'⟩ := hrest
  have hle : text.length ≤ (text ++ common).length := by
    rw [List.length_append]
    exact Nat.le_add_right ..
  rw [← List.append_assoc] at h
  have hcut := length?_of_append h hle
  rcases hrest' with rfl | ⟨more, rfl⟩
  · exact hcut
  · rw [← List.append_assoc]
    exact length?_append_isSpacing hblank hline rfl hcut more

end Pattern

namespace Segment

variable {dialect : Dialect} {cs text : List Char}

/-- The first segment is what the first fitting pattern takes. -/
theorem first_eq_some_iff {p : Pattern} :
    first dialect cs = ⟨some p, text⟩ ↔
      Pattern.first? dialect cs = some (p, text.length) ∧ text <+: cs := by
  rw [first]
  rcases hfirst : Pattern.first? dialect cs with - | ⟨q, n⟩
  · simp
  · have hle := (Pattern.length?_bounds (Pattern.exists_of_first? hfirst).2).2
    constructor
    · rintro ⟨⟩
      rw [List.length_take_of_le hle]
      exact ⟨rfl, List.take_prefix ..⟩
    · rintro ⟨hpattern, htext⟩
      cases hpattern
      exact congrArg (Segment.mk (some p)) (List.prefix_iff_eq_take.1 htext).symm

/-- If no pattern fits, the first segment is a single character. -/
theorem first_eq_none_iff {c : Char} {tail rest : List Char} :
    first dialect (c :: tail ++ rest) = ⟨none, c :: tail⟩ ↔
      Pattern.first? dialect (c :: tail ++ rest) = none ∧ tail = [] := by
  rw [first]
  rcases Pattern.first? dialect (c :: tail ++ rest) with - | ⟨q, n⟩
  · simp [eq_comm]
  · simp

end Segment

end MiniC
