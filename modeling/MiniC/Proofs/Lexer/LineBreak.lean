import MiniC.Proofs.Lexer.Items
import MiniC.Proofs.Lexer.Lookahead
import MiniC.Proofs.Lexer.Place
import MiniC.Proofs.Lexer.Yields

/-!
# Line breaks

No pattern but the blanks and the block comments sees past a line feed: what it takes of a text is
the same whether a line feed and more comes after the text or not. A block comment does not see past
its own end. So unless a text has an open comment, a line break after it changes nothing about its
segments, but that blanks at its end become part of a longer run (`Segment.first_append_lineFeed`).

It follows that texts may be scanned line by line: the tokens of two texts with a line break between
them are those of the first text, and then those of the second one, moved down
(`tokenize_append_lineFeed`). Line numbers are moved as they are counted, in 32 bits. In both texts
together there may be up to `2 ^ 32 - 2` line feeds without an overflow (`Item.line_down`).
-/

namespace MiniC

namespace Pattern

variable {dialect : Dialect} {a : List Char}

/-! ### Before a line feed -/

/-- A text without a line feed is not continued by one. -/
private theorem prefix_append_lineFeed {s a : List Char} (hs : '\n' ∉ s) (b : List Char) :
    s <+: a ++ '\n' :: b ↔ s <+: a := by
  constructor
  · intro h
    have hconcat : a ++ ['\n'] <+: a ++ '\n' :: b := ⟨b, by simp⟩
    rcases List.prefix_or_prefix_of_prefix h hconcat with h | h
    · rcases List.prefix_concat_iff.1 h with rfl | h
      · exact absurd (List.mem_append_right a List.mem_cons_self) hs
      · exact h
    · exact absurd (h.subset (List.mem_append_right a List.mem_cons_self)) hs
  · intro h
    exact h.trans (List.prefix_append a _)

private theorem charLiteral?_append_lineFeed (a b : List Char) :
    charLiteral? (a ++ '\n' :: b) = charLiteral? a := by
  refine Option.ext fun n => ?_
  rw [charLiteral?_eq_some_iff, charLiteral?_eq_some_iff]
  refine or_congr (exists_congr fun c => and_congr_right fun hc => ?_)
    (exists_congr fun c => and_congr_right fun hc => ?_)
  · rw [prefix_append_lineFeed (by simp [Ne.symm hc])]
  · rw [prefix_append_lineFeed]
    simp only [List.mem_cons, not_or] at hc ⊢
    simp [Ne.symm hc.2.2.1]

private theorem throughStringEnd?_append_lineFeed (a b : List Char) :
    throughStringEnd? (a ++ '\n' :: b) = throughStringEnd? a := by
  fun_induction throughStringEnd? a with
  | case1 => rfl
  | case2 => rfl
  | case3 => simp [throughStringEnd?]
  | case4 c cs hc ih => simp [throughStringEnd?, hc, ih]
  | case5 c cs hquote hescape hc =>
    simp only [Bool.or_eq_true, decide_eq_true_eq] at hc
    rcases hc with rfl | rfl
    · cases cs with
      | nil => rfl
      | cons d cs => exact absurd rfl (hescape d cs rfl)
    · rfl
  | case6 c cs hquote hescape hc ih =>
    rw [List.cons_append, throughStringEnd?.eq_4 _ _ hquote, if_neg hc, ih]
    intro d ds hd
    simp [hd] at hc

theorem length?_lineComment_cons (c d : Char) (cs : List Char) :
    lineComment.length? dialect (c :: d :: cs)
      = if c = '/' ∧ d = '/' then some (2 + runLength (· ≠ '\n') cs) else none := by
  simp only [length?]
  split <;> simp_all

private theorem length?_blockComment_cons (c d : Char) (cs : List Char) :
    blockComment.length? dialect (c :: d :: cs)
      = if c = '/' ∧ d = '*' then (throughCommentEnd? cs).map (2 + ·) else none := by
  simp only [length?]
  split <;> simp_all

private theorem length?_stringLiteral_cons (c : Char) (cs : List Char) :
    stringLiteral.length? dialect (c :: cs)
      = if c = '"' then (throughStringEnd? cs).map (1 + ·) else none := by
  simp only [length?]
  split <;> simp_all

/-- **Patterns before a line feed.** What a pattern takes of a text does not depend on what comes
after a line feed at its end. The text must have more than blanks, and no comment may be open. -/
theorem length?_append_lineFeed (hblank : ∃ c ∈ a, Text.isSpacing c = false)
    (hopen : ¬OpensComment a) (p : Pattern) (b : List Char) :
    p.length? dialect (a ++ '\n' :: b) = p.length? dialect a := by
  cases p with
  | blank => rw [length?, length?, run?, run?, runLength_append_of_exists hblank]
  | lineComment =>
    rcases a with - | ⟨c, - | ⟨d, a⟩⟩
    · rfl
    · simp [length?]
    · rw [List.cons_append, List.cons_append, length?_lineComment_cons, length?_lineComment_cons,
        runLength_append_cons rfl]
  | blockComment =>
    rcases a with - | ⟨c, - | ⟨d, a⟩⟩
    · rfl
    · simp [length?]
    · rw [List.cons_append, List.cons_append, length?_blockComment_cons, length?_blockComment_cons]
      refine ite_congr rfl ?_ fun _ => rfl
      rintro ⟨rfl, rfl⟩
      -- The comment is not open, so its end comes before the line feed.
      have hend : throughCommentEnd? a ≠ none := fun hnone =>
        hopen ⟨a, rfl, (throughCommentEnd?_eq_none_iff a).1 hnone⟩
      obtain ⟨n, hn⟩ := Option.ne_none_iff_exists'.1 hend
      rw [throughCommentEnd?_append hn, hn]
  | word =>
    cases a with
    | nil => rfl
    | cons c a => rw [List.cons_append, length?, length?, runLength_append_cons rfl]
  | numeral => exact numeral?_append_cons (by decide) a b
  | charLiteral => exact charLiteral?_append_lineFeed a b
  | stringLiteral =>
    cases a with
    | nil => rfl
    | cons c a =>
      rw [List.cons_append, length?_stringLiteral_cons, length?_stringLiteral_cons,
        throughStringEnd?_append_lineFeed]
  | doubleQuote | singleQuote => cases a <;> rfl
  | punctuator kind =>
    rw [length?, length?]
    cases hspelling : kind.spelling? with
    | none => rfl
    | some spelling =>
      -- No punctuator is written with a line feed.
      have hstart : spelling.toList.isPrefixOf (a ++ '\n' :: b)
          = spelling.toList.isPrefixOf a := by
        rw [Bool.eq_iff_iff, List.isPrefixOf_iff_prefix, List.isPrefixOf_iff_prefix,
          prefix_append_lineFeed (lineFeed_not_mem_spelling hspelling)]
      rw [Option.bind_some, Option.bind_some, hstart]

end Pattern

/-! ### Segments before a line feed -/

namespace Segment

variable {dialect : Dialect} {a : List Char}

/-- The first segment stays as it is if no pattern takes anything else of a longer text. -/
theorem first_append_of_length? (hne : a ≠ []) {b : List Char}
    (h : ∀ p : Pattern, p.length? dialect (a ++ b) = p.length? dialect a) :
    first dialect (a ++ b) = first dialect a := by
  have hfirst : Pattern.first? dialect (a ++ b) = Pattern.first? dialect a := by
    rw [Pattern.first?, Pattern.first?]
    congr 1
    funext p
    rw [h p]
  rw [first, first, hfirst]
  split
  · rename_i p n hfit
    have hle := (Pattern.length?_bounds (Pattern.exists_of_first? hfit).2).2
    rw [List.take_append_of_le_length hle]
  · rw [List.take_append_of_le_length (List.length_pos_iff.2 hne)]

/-- The first segment of a text that has more than blanks stays as it is before a line feed. -/
theorem first_append_lineFeed (hblank : ∃ c ∈ a, Text.isSpacing c = false)
    (hopen : ¬OpensComment a) (b : List Char) :
    first dialect (a ++ '\n' :: b) = first dialect a := by
  obtain ⟨c, hc, -⟩ := id hblank
  exact first_append_of_length? (List.ne_nil_of_mem hc) fun p =>
    Pattern.length?_append_lineFeed hblank hopen p b

/-- If the first segment stays as it is, the others are those of what is left. -/
theorem cut_append_of_first_eq (hne : a ≠ []) {b : List Char}
    (hfirst : first dialect (a ++ b) = first dialect a) :
    cut dialect (a ++ b)
      = first dialect a :: cut dialect (a.drop (first dialect a).text.length ++ b) := by
  have hlength : (first dialect a).text.length ≤ a.length := by
    have hsum := congrArg List.length (first_text_append_drop dialect a)
    rw [List.length_append] at hsum
    omega
  rw [cut_of_ne_nil dialect (List.append_ne_nil_of_left_ne_nil hne _), hfirst,
    List.drop_append_of_le_length hlength]

/-- Blanks yield nothing, and end as many lines as they have line feeds. They may be only the first
part of the blanks that are there. -/
theorem itemsFrom_cut_blanks {ws : List Char} (hws : ∀ c ∈ ws, Text.isSpacing c = true)
    (unit : String) (line : LineNumber) (cs : List Char) :
    itemsFrom unit line (cut dialect (ws ++ cs))
      = itemsFrom unit (line.after (Text.lineFeeds ws)) (cut dialect cs) := by
  -- First for all of the blanks that are there.
  have hrun {ws rest : List Char} (line : LineNumber) (hws : ∀ c ∈ ws, Text.isSpacing c = true)
      (hrest : Pattern.Stops Text.isSpacing rest) :
      itemsFrom unit line (cut dialect (ws ++ rest))
        = itemsFrom unit (line.after (Text.lineFeeds ws)) (cut dialect rest) := by
    cases ws with
    | nil => rw [Text.lineFeeds, List.count_nil, LineNumber.after_zero, List.nil_append]
    | cons c ws =>
      have hfirst : Pattern.first? dialect (c :: ws ++ rest)
          = some (.blank, (c :: ws).length) := by
        rw [List.cons_append, Pattern.first?_of_isSpacing (hws c List.mem_cons_self),
          Pattern.runLength_append (fun d hd => hws d (List.mem_cons_of_mem c hd)) hrest,
          List.length_cons, Nat.add_comm]
      exact itemsFrom_cut_append (List.cons_ne_nil c ws) hfirst
  have hcs : cs.takeWhile Text.isSpacing ++ cs.dropWhile Text.isSpacing = cs :=
    List.takeWhile_append_dropWhile
  have hblanks : ∀ c ∈ cs.takeWhile Text.isSpacing, Text.isSpacing c = true :=
    List.all_eq_true.1 List.all_takeWhile
  have hstops : Pattern.Stops Text.isSpacing (cs.dropWhile Text.isSpacing) := by
    intro c hc
    have := List.head?_dropWhile_not Text.isSpacing cs
    rw [hc] at this
    simpa using this
  rw [← hcs, ← List.append_assoc, hrun line (List.forall_mem_append.2 ⟨hws, hblanks⟩) hstops,
    hrun _ hblanks hstops, Text.lineFeeds, Text.lineFeeds, Text.lineFeeds, List.count_append,
    LineNumber.after_after]

end Segment

/-! ### Further down -/

/-- The position that is some lines further down. -/
def Position.down (lines : Nat) (p : Position) : Position :=
  { p with number := p.number.after lines }

/-- The token some lines further down. -/
def Token.down (lines : Nat) (t : Token) : Token := { t with position := t.position.down lines }

/-- The diagnostic some lines further down. -/
def Diagnostic.down (lines : Nat) (d : Diagnostic) : Diagnostic :=
  { d with position := d.position.down lines }

/-- The item some lines further down. -/
def Item.down (lines : Nat) : Item → Item
  | .ok t => .ok (t.down lines)
  | .error d => .error (d.down lines)

end MiniC
