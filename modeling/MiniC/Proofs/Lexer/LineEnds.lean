import MiniC.Proofs.Lexer.LineBreak
import MiniC.Proofs.Text.LineEnds

/-!
# Line ends of both styles

A carriage return before a line feed makes no difference to the scanner
(`Segment.itemsFrom_cut_return`). What a pattern takes does not end in a carriage return, unless it
is a run of blanks or a line comment. So the carriage return is a blank or a part of a comment, even
after a literal that is cut off by the end of its line, and the items are the same without it.

A text may be unified step by step, so tokens and diagnostics do not depend on the style of its line
ends (`tokenize_withLineFeeds`).
-/

namespace MiniC

/-- Only what is skipped yields nothing. -/
theorem Segment.items_ne_nil {p : Pattern} (hp : p.isSkipped = false) (text : List Char)
    (position : Position) : (Segment.mk (some p) text).items position ≠ [] := by
  cases p with
  | blank | lineComment | blockComment => cases hp
  | numeral | charLiteral =>
    rw [items]
    dsimp only
    split <;> exact List.cons_ne_nil _ _
  | _ => exact List.cons_ne_nil _ _

namespace Pattern

variable {dialect : Dialect} {a : List Char}

/-- Only blanks and line comments end in a carriage return. -/
private theorem getLast?_take_ne_return {p : Pattern} (hblank : p ≠ blank) (hline : p ≠ lineComment)
    {cs : List Char} {n : Nat} (h : p.length? dialect cs = some n) :
    (cs.take n).getLast? ≠ some '\r' := by
  cases p with
  | blank => exact absurd rfl hblank
  | lineComment => exact absurd rfl hline
  | blockComment =>
    obtain ⟨rest, m, rfl, hm, rfl⟩ := length?_blockComment_eq_some_iff.1 h
    obtain ⟨body, htake, -⟩ := exists_take_of_throughCommentEnd? hm
    have htext : (['/', '*'] ++ rest).take (2 + m) = '/' :: '*' :: (body ++ ['*']) ++ ['/'] := by
      rw [Nat.add_comm, List.cons_append, List.cons_append, List.take_succ_cons,
        List.take_succ_cons, List.nil_append, htake]
      simp
    rw [htext, List.getLast?_concat]
    decide
  | _ =>
    -- What yields something lies within its line.
    have hlexeme := Segment.lexeme_of_length? h default
    exact (hlexeme.withinLine (Segment.items_ne_nil rfl _ _)).getLast?_ne

/-- **Carriage returns.** At the end of a text, a carriage return is seen by runs of blanks and by
line comments only. -/
theorem length?_concat_return {p : Pattern} (hblank : p ≠ blank) (hline : p ≠ lineComment) :
    p.length? dialect (a ++ ['\r']) = p.length? dialect a := by
  refine Option.ext fun n => ⟨fun h => ?_, fun h => length?_append_isSpacing hblank hline rfl h []⟩
  refine length?_of_append h (Nat.le_of_not_lt fun hlt => ?_)
  have hlast := getLast?_take_ne_return hblank hline h
  rw [List.take_of_length_le (by rw [List.length_append]; exact hlt)] at hlast
  exact hlast List.getLast?_concat

private theorem first?_lineComment_append {body rest : List Char} (hbody : '\n' ∉ body)
    (hrest : Stops (· ≠ '\n') rest) :
    first? dialect ('/' :: '/' :: body ++ rest)
      = some (lineComment, ('/' :: '/' :: body).length) := by
  have hrun : runLength (· ≠ '\n') (body ++ rest) = body.length := by
    refine runLength_append (fun c hc => decide_eq_true ?_) hrest
    rintro rfl
    exact hbody hc
  rw [List.cons_append, List.cons_append, first?_lineComment, hrun, Nat.add_comm]
  rfl

end Pattern

namespace Segment

variable {dialect : Dialect} {a b : List Char}

/-- The first segment of a text that has more than blanks stays as it is before a carriage return,
unless that is a part of a line comment. -/
private theorem first_concat_return (hblank : ∃ c ∈ a, Text.isSpacing c = false)
    (hline : ∀ body, a = '/' :: '/' :: body → '\n' ∈ body) :
    first dialect (a ++ ['\r']) = first dialect a := by
  obtain ⟨c, hc, -⟩ := id hblank
  refine first_append_of_length? (List.ne_nil_of_mem hc) fun p => ?_
  by_cases hp : p = .blank
  · rw [hp, Pattern.length?, Pattern.length?, Pattern.run?, Pattern.run?,
      Pattern.runLength_append_of_exists hblank]
  · by_cases hp' : p = .lineComment
    · subst hp'
      rcases a with - | ⟨c, - | ⟨d, a⟩⟩
      · cases hc
      · simp [Pattern.length?]
      · rw [List.cons_append, List.cons_append, Pattern.length?_lineComment_cons,
          Pattern.length?_lineComment_cons]
        refine ite_congr rfl ?_ fun _ => rfl
        rintro ⟨rfl, rfl⟩
        rw [Pattern.runLength_append_of_exists ⟨'\n', hline a rfl, rfl⟩]
    · exact Pattern.length?_concat_return hp hp'

/-- An open comment is not ended by a carriage return. -/
private theorem opensComment_of_concat_return (h : OpensComment (a ++ ['\r'])) :
    OpensComment a := by
  obtain ⟨inside, htext, hinside⟩ := h
  rcases a with - | ⟨c, - | ⟨d, a⟩⟩
  · cases htext
  · cases htext
  · cases htext
    exact ⟨a, rfl, fun hend => hinside (hend.trans (List.prefix_append a _).isInfix)⟩

/-- So the first segment stays as it is before a line end, unless a comment goes over that. -/
private theorem first_append_return (hblank : ∃ c ∈ a, Text.isSpacing c = false)
    (hline : ∀ body, a = '/' :: '/' :: body → '\n' ∈ body) (hopen : ¬OpensComment a)
    (b : List Char) : first dialect (a ++ ['\r'] ++ '\n' :: b) = first dialect a := by
  have hblank' : ∃ c ∈ a ++ ['\r'], Text.isSpacing c = false := by
    obtain ⟨c, hc, hspacing⟩ := hblank
    exact ⟨c, List.mem_append_left _ hc, hspacing⟩
  rw [first_append_lineFeed hblank' (mt opensComment_of_concat_return hopen),
    first_concat_return hblank hline]

/-! ### What goes over the line end -/

/-- What is skipped yields nothing, and ends as many lines as it has line feeds. -/
private theorem itemsFrom_cut_of_isSkipped {text rest : List Char} {p : Pattern}
    (hp : p.isSkipped = true) (htext : text ≠ [])
    (h : Pattern.first? dialect (text ++ rest) = some (p, text.length)) (unit : String)
    (line : LineNumber) :
    itemsFrom unit line (cut dialect (text ++ rest))
      = itemsFrom unit (line.after (Text.lineFeeds text)) (cut dialect rest) := by
  have hitems : (Segment.mk (some p) text).items ⟨line, unit⟩ = [] := by
    cases p <;> first | rfl | cases hp
  have hlines : (Segment.mk (some p) text).lineEnds = Text.lineFeeds text := if_pos hp
  rw [itemsFrom_cut_append htext h, hitems, hlines, List.nil_append]

/-- A line comment goes on to the line feed. -/
private theorem itemsFrom_cut_lineComment (dialect : Dialect) {body : List Char}
    (hbody : '\n' ∉ body) (unit : String) (line : LineNumber) (b : List Char) :
    itemsFrom unit line (cut dialect ('/' :: '/' :: body ++ '\n' :: b))
      = itemsFrom unit line (cut dialect ('\n' :: b)) := by
  have hstops : Pattern.Stops (· ≠ '\n') ('\n' :: b) := Pattern.stops_cons.2 rfl
  rw [itemsFrom_cut_of_isSkipped rfl (List.cons_ne_nil _ _)
      (Pattern.first?_lineComment_append hbody hstops),
    Text.lineFeeds, List.count_eq_zero.2 (by simpa using hbody), LineNumber.after_zero]

/-- A block comment may end after the line feed. -/
private theorem itemsFrom_cut_blockComment (dialect : Dialect) {inside : List Char} {m : Nat}
    (hinside : Pattern.throughCommentEnd? inside = none)
    (hm : Pattern.throughCommentEnd? b = some m) (unit : String) (line : LineNumber) :
    itemsFrom unit line (cut dialect ('/' :: '*' :: inside ++ '\n' :: b))
      = itemsFrom unit (line.after (Text.lineFeeds inside + 1 + Text.lineFeeds (b.take m)))
          (cut dialect (b.drop m)) := by
  have htext : '/' :: '*' :: inside ++ '\n' :: b
      = '/' :: '*' :: (inside ++ '\n' :: b.take m) ++ b.drop m := by
    simp
  have hfirst : Pattern.first? dialect ('/' :: '*' :: (inside ++ '\n' :: b.take m) ++ b.drop m)
      = some (.blockComment, ('/' :: '*' :: (inside ++ '\n' :: b.take m)).length) := by
    have hend := Pattern.throughCommentEnd?_append_cons hinside (d := '\n') (by decide) b
    rw [hm, Option.map_some] at hend
    rw [← htext, List.cons_append, List.cons_append, Pattern.first?_blockComment hend]
    have hle := (Pattern.throughCommentEnd?_bounds hm).2
    simp [List.length_take_of_le hle]
    omega
  have hfeeds : Text.lineFeeds ('/' :: '*' :: (inside ++ '\n' :: b.take m))
      = Text.lineFeeds inside + 1 + Text.lineFeeds (b.take m) := by
    simp [Text.lineFeeds]
    omega
  rw [htext, itemsFrom_cut_of_isSkipped rfl (List.cons_ne_nil _ _) hfirst, hfeeds]

/-- A comment that does not end is none, and its slash is taken by itself. -/
private theorem first_openComment {inside : List Char}
    (hinside : Pattern.throughCommentEnd? inside = none) :
    first dialect ('/' :: '*' :: inside) = ⟨some (.punctuator .slash), ['/']⟩ := by
  rw [first, Pattern.first?_openComment hinside]
  rfl

/-- So it is if the comment does not end after the line feed either. -/
private theorem first_openComment_append {inside : List Char}
    (hinside : Pattern.throughCommentEnd? inside = none)
    (hb : Pattern.throughCommentEnd? b = none) :
    first dialect ('/' :: '*' :: inside ++ '\n' :: b) = first dialect ('/' :: '*' :: inside) := by
  have hopen : Pattern.throughCommentEnd? (inside ++ '\n' :: b) = none := by
    rw [Pattern.throughCommentEnd?_append_cons hinside (by decide), hb]
    rfl
  rw [List.cons_append, List.cons_append, first_openComment hopen, first_openComment hinside]

/-! ### Line ends -/

/-- **Line ends.** A carriage return before a line feed makes no difference. -/
theorem itemsFrom_cut_return (dialect : Dialect) (unit : String) (line : LineNumber)
    (a b : List Char) :
    itemsFrom unit line (cut dialect (a ++ ['\r'] ++ '\n' :: b))
      = itemsFrom unit line (cut dialect (a ++ '\n' :: b)) := by
  have hfeeds (a : List Char) : Text.lineFeeds (a ++ ['\r']) = Text.lineFeeds a := by
    rw [Text.lineFeeds, List.count_append]
    rfl
  have hblanks {a : List Char} (line : LineNumber) (ha : ∀ c ∈ a, Text.isSpacing c = true) :
      itemsFrom unit line (cut dialect (a ++ ['\r'] ++ '\n' :: b))
        = itemsFrom unit line (cut dialect (a ++ '\n' :: b)) := by
    have ha' : ∀ c ∈ a ++ ['\r'], Text.isSpacing c = true :=
      List.forall_mem_append.2 ⟨ha, List.forall_mem_singleton.2 rfl⟩
    rw [itemsFrom_cut_blanks ha', itemsFrom_cut_blanks ha, hfeeds]
  induction a using cut_induction dialect generalizing line with
  | nil => exact hblanks line (List.forall_mem_nil _)
  | step a hne ih =>
    -- Where the first segment ends before the line end, so do all that come before it.
    have hstep (hreturn : first dialect (a ++ ['\r'] ++ '\n' :: b) = first dialect a)
        (hfeed : first dialect (a ++ '\n' :: b) = first dialect a) :
        itemsFrom unit line (cut dialect (a ++ ['\r'] ++ '\n' :: b))
          = itemsFrom unit line (cut dialect (a ++ '\n' :: b)) := by
      rw [List.append_assoc] at hreturn ⊢
      rw [cut_append_of_first_eq hne hreturn, cut_append_of_first_eq hne hfeed, itemsFrom,
        itemsFrom, ← ih, List.append_assoc]
    by_cases hblank : ∃ c ∈ a, Text.isSpacing c = false
    · by_cases hline : ∃ body, a = '/' :: '/' :: body ∧ '\n' ∉ body
      · obtain ⟨body, rfl, hbody⟩ := hline
        have hbody' : '\n' ∉ body ++ ['\r'] := by simpa using hbody
        have hreturn := itemsFrom_cut_lineComment dialect hbody' unit line b
        exact hreturn.trans (itemsFrom_cut_lineComment dialect hbody unit line b).symm
      · by_cases hopen : OpensComment a
        · obtain ⟨inside, rfl, hinside⟩ := hopen
          rw [← Pattern.throughCommentEnd?_eq_none_iff] at hinside
          have hinside' : Pattern.throughCommentEnd? (inside ++ ['\r']) = none :=
            Pattern.throughCommentEnd?_append_cons hinside (by decide) []
          cases hm : Pattern.throughCommentEnd? b with
          | some m =>
            have hreturn := itemsFrom_cut_blockComment dialect hinside' hm unit line
            rw [hfeeds] at hreturn
            exact hreturn.trans (itemsFrom_cut_blockComment dialect hinside hm unit line).symm
          | none =>
            have hslash : first dialect ('/' :: '*' :: (inside ++ ['\r']))
                = first dialect ('/' :: '*' :: inside) := by
              rw [first_openComment hinside', first_openComment hinside]
            exact hstep ((first_openComment_append hinside' hm).trans hslash)
              (first_openComment_append hinside hm)
        · have hline' : ∀ body, a = '/' :: '/' :: body → '\n' ∈ body := by
            simpa using hline
          exact hstep (first_append_return hblank hline' hopen b)
            (first_append_lineFeed hblank hopen b)
    · have hall : ∀ c ∈ a, Text.isSpacing c = true := by
        simpa using hblank
      exact hblanks line hall

end Segment

/-- Items do not depend on the style of line ends. -/
theorem scan_withLineFeeds (dialect : Dialect) (unit : Option String) (source : String) :
    scan dialect unit (Text.withLineFeeds source) = scan dialect unit source := by
  rw [scan, scan, Text.withLineFeeds, String.toList_ofList]
  induction source.toList using Text.unifyLineEnds_induction with
  | refl cs => rfl
  | step a b cs ih =>
    have hreturn := Segment.itemsFrom_cut_return dialect (unit.getD Position.anonymousUnit) 1 a b
    rw [List.append_assoc] at hreturn
    exact ih.trans hreturn.symm

/-- **Tokens and line ends.** Tokens and diagnostics of the scanner do not depend on the style of
line ends. -/
theorem tokenize_withLineFeeds (dialect : Dialect) (unit : Option String) (source : String) :
    tokenize dialect unit (Text.withLineFeeds source) = tokenize dialect unit source := by
  rw [tokenize, tokenize, scan_withLineFeeds]

end MiniC
