import MiniC.Proofs.Lexer.Reach
import MiniC.Proofs.Prompt.TextScan

/-!
# The prompt and the scanner agree

The prompt tells comments, literals and braces apart line by line, with a small scanner of its own.
It agrees with the tokens of the whole text. Segment by segment both are at the same place
(`scansOver_first`): the scan of the prompt takes what the segment takes, and counts the braces that
the segment yields. So at the end of a text in which every quote is part of a literal, a comment is
open for the prompt exactly if the scanner reaches one without an end, and if none is, then the
prompt has counted the braces of the tokens (`scanFrom_scanCode`).

For the buffer of the prompt this says when the last line of a unit completes it
(`LineBuffer.push_agrees`).
-/

namespace MiniC

-- Sums start from the zero of the core library, whatever else is in scope.
attribute [local instance (high)] Zero.ofOfNat0

open Pattern

variable {dialect : Dialect} {cs : List Char} {n : Nat}

/-! ### One segment -/

/-- The characters of blanks, words and numerals are idle. -/
private theorem isIdle_of_class {p : Char → Bool}
    (hp : ['/', '"', '\'', '\x7b', '\x7d'].all (fun d => !p d) = true) {c : Char}
    (hc : p c = true) : isIdle c = true := by
  have hmem := not_mem_of_all hp hc
  simp only [List.mem_cons, List.not_mem_nil, or_false, not_or] at hmem
  simp [isIdle, hmem]

/-- A punctuator that is neither a brace nor starts with a slash is idle. -/
private theorem isIdle_of_mem_spelling {kind : Kind} {spelling : String}
    (h : kind.spelling? = some spelling) (hopen : kind ≠ .openCurly) (hclose : kind ≠ .closeCurly)
    (hslash : spelling.toList.head? ≠ some '/') : ∀ c ∈ spelling.toList, isIdle c = true := by
  revert h hslash
  cases kind <;> rintro ⟨⟩ hslash
  case slashAssign | slash => exact absurd rfl hslash
  case openCurly => exact absurd rfl hopen
  case closeCurly => exact absurd rfl hclose
  all_goals exact List.all_eq_true.1 rfl

/-- That the scan of code takes `n` characters of a text, and counts `weight` braces in them. -/
def ScansOver (cs : List Char) (n : Nat) (weight : Int) : Prop :=
  ∀ depth, scanFrom (scanCode depth) cs = scanFrom (scanCode (depth + weight)) (cs.drop n)

/-- Where no braces are counted. -/
theorem ScansOver.of_eq
    (h : ∀ depth, scanFrom (scanCode depth) cs = scanFrom (scanCode depth) (cs.drop n)) :
    ScansOver cs n 0 := by
  intro depth
  rw [Int.add_zero]
  exact h depth

theorem ScansOver.of_idle (h : ∀ c ∈ cs.take n, isIdle c = true) : ScansOver cs n 0 := by
  refine .of_eq fun depth => ?_
  have hscan : scanFrom (scanCode depth) (cs.take n ++ cs.drop n) = _ :=
    scanFrom_scanCode_append h
  rwa [List.take_append_drop] at hscan

/-- A brace counts. -/
private theorem scansOver_curly {kind : Kind} {spelling : String}
    (h : kind.spelling? = some spelling)
    (hkind : kind = .openCurly ∨ kind = .closeCurly) (rest : List Char) :
    ScansOver (spelling.toList ++ rest) spelling.toList.length
      (Pattern.punctuator kind).braceWeight := by
  intro depth
  rw [List.drop_left]
  rcases hkind with rfl | rfl <;> cases h
  · exact scanFrom_scanCode_cons (by decide) (by decide) (by decide)
  · exact scanFrom_scanCode_cons (by decide) (by decide) (by decide)

/-- What a pattern takes that starts with no slash and is no lone quote. -/
private theorem scansOver_of_length? {p : Pattern} (h : p.length? dialect cs = some n)
    (hslash : cs.head? ≠ some '/') (hdouble : p ≠ .doubleQuote) (hsingle : p ≠ .singleQuote) :
    ScansOver cs n p.braceWeight := by
  cases p with
  | blank => exact .of_idle fun c hc => isIdle_of_class (by decide) (of_mem_take_run? h hc)
  | word => exact .of_idle fun c hc => isIdle_of_class (by decide) (isWordRest_of_mem_take h hc)
  | numeral => exact .of_idle fun c hc => isIdle_of_class (by decide) (isInNumeral_of_mem_take h hc)
  | lineComment =>
    obtain ⟨rest, rfl, -⟩ := length?_lineComment_eq_some_iff.1 h
    exact absurd rfl hslash
  | blockComment =>
    obtain ⟨rest, m, rfl, -⟩ := length?_blockComment_eq_some_iff.1 h
    exact absurd rfl hslash
  | charLiteral => exact .of_eq fun depth => scanFrom_scanCode_charLiteral h
  | stringLiteral =>
    obtain ⟨rest, m, rfl, hm, rfl⟩ := length?_stringLiteral_eq_some_iff.1 h
    refine .of_eq fun depth => ?_
    rw [List.singleton_append, scanFrom_scanCode_quote (.inl rfl), scanFrom_scanLiteral_string hm,
      Nat.add_comm, List.drop_succ_cons]
  | doubleQuote => exact absurd rfl hdouble
  | singleQuote => exact absurd rfl hsingle
  | punctuator kind =>
    obtain ⟨spelling, hspelling, ⟨rest, rfl⟩, rfl⟩ := length?_punctuator_eq_some_iff.1 h
    -- Braces are the only punctuators that the prompt counts.
    by_cases hcurly : kind = .openCurly ∨ kind = .closeCurly
    · exact scansOver_curly hspelling hcurly rest
    · obtain ⟨hopen, hclose⟩ := not_or.1 hcurly
      have hweight : (Pattern.punctuator kind).braceWeight = 0 := by
        cases kind <;> first | rfl | exact absurd rfl hopen | exact absurd rfl hclose
      rw [hweight]
      refine .of_idle ?_
      rw [List.take_left]
      refine isIdle_of_mem_spelling hspelling hopen hclose fun hhead => hslash ?_
      rw [List.head?_append, hhead, Option.some_or]

/-- What the first fitting pattern takes of a text that starts with a slash, but with no open
comment. -/
private theorem scansOver_slash (hopen : ¬OpensComment ('/' :: cs)) :
    ∃ p n, first? dialect ('/' :: cs) = some (p, n) ∧ ScansOver ('/' :: cs) n p.braceWeight := by
  -- Only the character after the slash tells the four patterns apart that start with one.
  by_cases hline : cs.head? = some '/'
  · obtain ⟨rest, rfl⟩ := List.head?_eq_some_iff.1 hline
    refine ⟨_, _, first?_lineComment, .of_eq fun depth => ?_⟩
    rw [scanFrom_scanCode_lineComment, ← drop_runLength, Nat.add_comm]
    rfl
  · by_cases hblock : cs.head? = some '*'
    · obtain ⟨rest, rfl⟩ := List.head?_eq_some_iff.1 hblock
      cases hend : throughCommentEnd? rest with
      | none => exact absurd ⟨rest, rfl, (throughCommentEnd?_eq_none_iff rest).1 hend⟩ hopen
      | some m =>
        refine ⟨_, _, first?_blockComment hend, .of_eq fun depth => ?_⟩
        rw [scanFrom_scanCode_blockComment, scanFrom_scanComment hend, Nat.add_comm]
        rfl
    · have hhead : ∀ d ∈ cs.head?, d ≠ '/' ∧ d ≠ '*' := by
        rintro d hd
        constructor
        · rintro rfl
          exact hline hd
        · rintro rfl
          exact hblock hd
      by_cases hequals : cs.head? = some '='
      · obtain ⟨rest, rfl⟩ := List.head?_eq_some_iff.1 hequals
        refine ⟨_, _, first?_slashAssign, .of_eq fun depth => ?_⟩
        have hidle : ∀ c ∈ ['='], isIdle c = true := List.all_eq_true.1 rfl
        rw [scanFrom_scanCode_slash hhead]
        exact scanFrom_scanCode_append hidle
      · have hstops : Stops isPunctuatorRest cs := by
          intro d hd
          have hne : d ≠ '=' := by
            rintro rfl
            exact hequals hd
          simp [isPunctuatorRest, hne, hhead d hd]
        exact ⟨_, _, first?_slash hstops, .of_eq fun depth => scanFrom_scanCode_slash hhead⟩

/-- A character that no pattern takes is idle. -/
private theorem isIdle_of_first?_eq_none {c : Char} (h : first? dialect (c :: cs) = none) :
    isIdle c = true := by
  have hnone {p : Pattern} (hp : p ∈ table) : p.length? dialect (c :: cs) ≠ some 1 := by
    rw [length?_eq_none_of_first? h hp]
    nofun
  simp only [isIdle, Bool.and_eq_true, decide_eq_true_eq]
  refine ⟨⟨⟨⟨?_, ?_⟩, ?_⟩, ?_⟩, ?_⟩
  · rintro rfl
    exact hnone (p := .punctuator .slash) (by decide) rfl
  · rintro rfl
    exact hnone (p := .doubleQuote) (by decide) rfl
  · rintro rfl
    exact hnone (p := .singleQuote) (by decide) rfl
  · rintro rfl
    exact hnone (p := .punctuator .openCurly) (by decide) rfl
  · rintro rfl
    exact hnone (p := .punctuator .closeCurly) (by decide) rfl

/-- **One segment.** In code the prompt takes what the first segment takes, and counts its braces,
unless the segment is a lone quote or is the slash of an open comment. -/
theorem scansOver_first (hne : cs ≠ []) (hopen : ¬OpensComment cs)
    (hclosed : (Segment.first dialect cs).IsClosed) :
    ScansOver cs (Segment.first dialect cs).text.length
      (Segment.first dialect cs).braceWeight := by
  have hfound {p : Pattern} {n : Nat} (h : first? dialect cs = some (p, n))
      (hscans : ScansOver cs n p.braceWeight) :
      ScansOver cs (Segment.first dialect cs).text.length
        (Segment.first dialect cs).braceWeight := by
    have hle : n ≤ cs.length := (length?_bounds (exists_of_first? h).2).2
    rw [Segment.first, h]
    dsimp only
    rwa [List.length_take_of_le hle]
  obtain ⟨c, cs, rfl⟩ := List.exists_cons_of_ne_nil hne
  by_cases hc : c = '/'
  · subst hc
    obtain ⟨p, n, h, hscans⟩ := scansOver_slash hopen
    exact hfound h hscans
  · cases hfirst : first? dialect (c :: cs) with
    | none =>
      rw [Segment.first, hfirst]
      refine .of_idle ?_
      simpa using isIdle_of_first?_eq_none hfirst
    | some found =>
      obtain ⟨p, n⟩ := found
      have hpattern : (Segment.first dialect (c :: cs)).pattern = some p := by
        rw [Segment.first, hfirst]
      rw [Segment.IsClosed, hpattern] at hclosed
      refine hfound hfirst (scansOver_of_length? (exists_of_first? hfirst).2 ?_ ?_ ?_)
      · simpa using hc
      · rintro rfl
        exact hclosed.1 rfl
      · rintro rfl
        exact hclosed.2 rfl

/-! ### All segments -/

/-- **The prompt and the scanner agree.** If no quote of a text stands by itself, then the prompt is
left in a comment if the scanner reaches an open one, and otherwise it has counted the braces of
the segments. -/
theorem scanFrom_scanCode (hclosed : ∀ s ∈ Segment.cut dialect cs, s.IsClosed) (depth : Int) :
    (HasOpenComment dialect cs → (scanFrom (scanCode depth) cs).1 = .blockComment) ∧
      (¬HasOpenComment dialect cs → scanFrom (scanCode depth) cs
        = (.code, depth + ((Segment.cut dialect cs).map Segment.braceWeight).sum)) := by
  -- Segment by segment: the depth is generalized, since each segment adds its braces to it.
  induction cs using Segment.cut_induction dialect generalizing depth with
  | nil =>
    refine ⟨fun h => absurd h not_hasOpenComment_nil, fun _ => ?_⟩
    simp [scanCode]
  | step cs hne ih =>
    rw [Segment.cut_of_ne_nil dialect hne] at hclosed ⊢
    by_cases hopen : OpensComment cs
    · have hreached : HasOpenComment dialect cs := ⟨cs, .refl cs, hopen⟩
      refine ⟨fun _ => ?_, fun h => absurd hreached h⟩
      obtain ⟨rest, rfl, hend⟩ := hopen
      rw [scanFrom_scanCode_blockComment,
        scanFrom_scanComment_of_open ((throughCommentEnd?_eq_none_iff rest).2 hend)]
    · obtain ⟨hcomment, hcode⟩ := ih (fun s hs => hclosed s (List.mem_cons_of_mem _ hs))
        (depth + (Segment.first dialect cs).braceWeight)
      rw [scansOver_first hne hopen (hclosed _ List.mem_cons_self), hasOpenComment_iff hne,
        or_iff_right hopen, List.map_cons, List.sum_cons, ← Int.add_assoc]
      exact ⟨hcomment, hcode⟩

end MiniC
