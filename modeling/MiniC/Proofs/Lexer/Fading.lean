import Mathlib.Data.List.Forall2
import MiniC.Proofs.Lexer.Lookahead
import MiniC.Lexer.Segment.Lemmas

/-!
# Fading

A text **fades** to another one (`Pattern.FadesTo`) if some of its characters give way to spaces, so
that no line feed does, and that no literal can be closed now that could not be closed before. A
pattern that looks ahead into such a text finds nothing there that it did not find before. So a
segment before it stays what it is (`Segment.first_of_fadesTo`), unless it is a run of blanks, which
may have become longer.
-/

namespace MiniC

namespace Pattern

/-- A character that stays, or gives way to a space if it is no line feed. -/
def Fades (c c' : Char) : Prop := c' = c ∨ c' = ' ' ∧ c ≠ '\n'

/-- A text that **fades** to another one. -/
structure FadesTo (cs cs' : List Char) : Prop where
  chars : List.Forall₂ Fades cs cs'
  /-- No string literal is closed that was not closed before. -/
  string : throughStringEnd? cs = none → throughStringEnd? cs' = none
  /-- Nor is one whose last character before the text is a backslash. -/
  escape : throughStringEnd? ('\\' :: cs) = none → throughStringEnd? ('\\' :: cs') = none
  /-- No character literal is closed that was not closed before. -/
  char : charLiteral? ('\'' :: cs) = none → charLiteral? ('\'' :: cs') = none

variable {dialect : Dialect} {cs cs' : List Char}

/-! ### Characters -/

/-- A character that is no space now is the one that was there before. -/
theorem Fades.eq {c c' : Char} (h : Fades c c') (hc' : c' ≠ ' ') : c' = c :=
  h.resolve_right fun hspace => hc' hspace.1

/-- A line feed that is there now was there before, and stays. -/
theorem Fades.eq_lineFeed_iff {c c' : Char} (h : Fades c c') : c' = '\n' ↔ c = '\n' := by
  rcases h with rfl | ⟨rfl, hc⟩
  · exact Iff.rfl
  · exact iff_of_false (by decide) hc

/-- A text without spaces that the faded text starts with was there before. -/
theorem prefix_of_faded {s : List Char} (h : List.Forall₂ Fades cs cs') (hs : ' ' ∉ s)
    (hstart : s <+: cs') : s <+: cs := by
  induction h generalizing s with
  | nil => exact hstart
  | @cons c c' cs cs' hc _ ih =>
    cases s with
    | nil => exact List.nil_prefix
    | cons d s =>
      rw [List.mem_cons, not_or] at hs
      obtain ⟨hhead, htail⟩ := List.cons_prefix_cons.1 hstart
      have hd : c' = c := hc.eq (hhead ▸ Ne.symm hs.1)
      exact List.cons_prefix_cons.2 ⟨hhead.trans hd, ih hs.2 htail⟩

/-- A comment that is open stays open. -/
private theorem throughCommentEnd?_of_faded (h : List.Forall₂ Fades cs cs')
    (hnone : throughCommentEnd? cs = none) : throughCommentEnd? cs' = none := by
  rw [throughCommentEnd?_eq_none_iff] at hnone ⊢
  induction h with
  | nil => exact hnone
  | @cons c c' cs cs' hc htail ih =>
    rw [List.infix_cons_iff, not_or] at hnone ⊢
    exact ⟨fun hstart => hnone.1 (prefix_of_faded (.cons hc htail) (by decide) hstart),
      ih hnone.2⟩

namespace FadesTo

theorem nil : FadesTo [] [] := ⟨.nil, id, id, id⟩

/-- A text that starts with a character that stays. -/
theorem cons (c : Char) (h : FadesTo cs cs') : FadesTo (c :: cs) (c :: cs') where
  chars := .cons (.inl rfl) h.chars
  string hnone := by
    by_cases hquote : c = '"'
    · subst hquote
      cases hnone
    · by_cases hslash : c = '\\'
      · subst hslash
        exact h.escape hnone
      · by_cases hfeed : c = '\n'
        · subst hfeed
          rfl
        · have hplain : c ∉ ['"', '\\', '\n'] := by simp [hquote, hslash, hfeed]
          rw [throughStringEnd?_cons hplain, Option.map_eq_none_iff] at hnone ⊢
          exact h.string hnone
  escape hnone := by
    rw [throughStringEnd?_escape] at hnone ⊢
    split
    · rfl
    · rename_i hc
      rw [if_neg hc, Option.map_eq_none_iff] at hnone
      rw [h.string hnone]
      rfl
  char hnone := by
    refine Option.eq_none_iff_forall_ne_some.2 fun n hn => ?_
    rcases charLiteral?_eq_some_iff.1 hn with ⟨d, hd, hstart, rfl⟩ | ⟨d, hd, hstart, rfl⟩
    · obtain ⟨-, hstart⟩ := List.cons_prefix_cons.1 hstart
      obtain ⟨hc, tail, rfl⟩ := List.cons_prefix_cons.1 hstart
      -- The escaped character may have given way, but then it was no line feed.
      obtain ⟨e, es, he, htail, rfl⟩ := List.forall₂_cons_right_iff.1 h.chars
      obtain ⟨rest, rfl⟩ := prefix_of_faded (s := ['\'']) htail (by decide) ⟨tail, rfl⟩
      have hesc : e ≠ '\n' := fun hfeed => hd (he.eq_lineFeed_iff.2 hfeed)
      rw [← hc] at hnone
      have hsome : charLiteral? ('\'' :: '\\' :: e :: (['\''] ++ rest)) = some 4 :=
        charLiteral?_eq_some_iff.2 (.inl ⟨e, hesc, ⟨rest, rfl⟩, rfl⟩)
      rw [hsome] at hnone
      cases hnone
    · obtain ⟨-, hstart⟩ := List.cons_prefix_cons.1 hstart
      obtain ⟨rfl, hquote⟩ := List.cons_prefix_cons.1 hstart
      obtain ⟨rest, rfl⟩ := prefix_of_faded h.chars (by decide) hquote
      have hsome : charLiteral? ('\'' :: d :: (['\''] ++ rest)) = some 3 :=
        charLiteral?_eq_some_iff.2 (.inr ⟨d, hd, ⟨rest, rfl⟩, rfl⟩)
      rw [hsome] at hnone
      cases hnone

/-- A text whose start stays. -/
theorem append (text : List Char) (h : FadesTo cs cs') : FadesTo (text ++ cs) (text ++ cs') := by
  induction text with
  | nil => exact h
  | cons c text ih => exact ih.cons c

/-- The faded text echoes the text. -/
private theorem echoes (h : FadesTo cs cs') : Echoes cs' cs := by
  have hchars := h.chars
  clear h
  induction hchars with
  | nil => exact ⟨[], List.nil_prefix, .inl rfl⟩
  | @cons c c' cs cs' hc _ ih =>
    rcases hc with rfl | ⟨rfl, -⟩
    · obtain ⟨common, hcommon, hcs'⟩ := ih
      refine ⟨c' :: common, List.cons_prefix_cons.2 ⟨rfl, hcommon⟩, ?_⟩
      exact hcs'.imp (congrArg (c' :: ·)) fun ⟨more, hmore⟩ => ⟨more, congrArg (c' :: ·) hmore⟩
    · exact ⟨[], List.nil_prefix, .inr ⟨cs', rfl⟩⟩

/-- The end of a line stays where it is. -/
theorem stops (h : FadesTo cs cs') (hstops : Stops (· ≠ '\n') cs) : Stops (· ≠ '\n') cs' := by
  cases h.chars with
  | nil => exact stops_nil _
  | cons hc _ =>
    rw [stops_cons, decide_eq_false_iff_not, Classical.not_not] at hstops ⊢
    exact hc.eq_lineFeed_iff.2 hstops

/-! ### Patterns -/

/-- Where a pattern did not fit, it does not fit now. -/
private theorem length?_eq_none (h : FadesTo cs cs') {p : Pattern} {c : Char}
    (hnone : p.length? dialect (c :: cs) = none) : p.length? dialect (c :: cs') = none := by
  have hprefix {s : List Char} (hs : ' ' ∉ s) (hstart : s <+: c :: cs') : s <+: c :: cs :=
    prefix_of_faded (.cons (.inl rfl) h.chars) hs hstart
  have hrun {test : Char → Bool} (hrun : run? test (c :: cs) = none) :
      run? test (c :: cs') = none := by
    refine run?_eq_none (Bool.eq_false_iff.2 fun hc => ?_)
    rw [run?, runLength_cons_of_pos hc, if_neg (by omega)] at hrun
    cases hrun
  -- If the pattern fits now, then it has fitted: what it is about is still there.
  refine Option.eq_none_iff_forall_ne_some.2 fun n hn => ?_
  refine (?_ : ∃ m, p.length? dialect (c :: cs) = some m).elim
    (Option.eq_none_iff_forall_ne_some.1 hnone)
  cases p with
  | blank =>
    rw [length?, hrun hnone] at hn
    cases hn
  | lineComment =>
    obtain ⟨rest, hrest, -⟩ := length?_lineComment_eq_some_iff.1 hn
    obtain ⟨rest, hrest⟩ := hprefix (by decide) ⟨rest, hrest.symm⟩
    exact ⟨_, length?_lineComment_eq_some_iff.2 ⟨rest, hrest.symm, rfl⟩⟩
  | blockComment =>
    obtain ⟨rest', m, hrest', hm, -⟩ := length?_blockComment_eq_some_iff.1 hn
    cases hrest'
    obtain ⟨d, rest, hd, htail, rfl⟩ := List.forall₂_cons_right_iff.1 h.chars
    obtain rfl := hd.eq (by decide)
    obtain ⟨m', hm'⟩ := Option.ne_none_iff_exists'.1 fun hopen =>
      Option.ne_none_iff_exists'.2 ⟨m, hm⟩ (throughCommentEnd?_of_faded htail hopen)
    exact ⟨_, length?_blockComment_eq_some_iff.2 ⟨rest, m', rfl, hm', rfl⟩⟩
  | word =>
    obtain ⟨d, rest, hrest, hd, -⟩ := length?_word_eq_some_iff.1 hn
    cases hrest
    exact ⟨_, length?_word_eq_some_iff.2 ⟨c, cs, rfl, hd, rfl⟩⟩
  | numeral =>
    rw [length?, numeral?, hrun (Option.map_eq_none_iff.1 hnone)] at hn
    cases hn
  | charLiteral =>
    obtain rfl : c = '\'' := of_decide_eq_true (mayStart_of_length? hn)
    rw [length?, h.char hnone] at hn
    cases hn
  | stringLiteral =>
    obtain ⟨rest', m, hrest', hm, -⟩ := length?_stringLiteral_eq_some_iff.1 hn
    cases hrest'
    obtain ⟨m', hm'⟩ := Option.ne_none_iff_exists'.1 fun hopen =>
      Option.ne_none_iff_exists'.2 ⟨m, hm⟩ (h.string hopen)
    exact ⟨_, length?_stringLiteral_eq_some_iff.2 ⟨cs, m', rfl, hm', rfl⟩⟩
  | doubleQuote | singleQuote => exact ⟨n, hn⟩
  | punctuator kind =>
    obtain ⟨spelling, hspelling, hstart, -⟩ := length?_punctuator_eq_some_iff.1 hn
    have hspace : ' ' ∉ spelling.toList := fun hmem =>
      absurd (isSpacing_of_mem_spelling hspelling hmem) (by decide)
    exact ⟨_, length?_punctuator_eq_some_iff.2 ⟨spelling, hspelling, hprefix hspace hstart, rfl⟩⟩

/-- What a pattern took as a whole, it takes now. -/
private theorem length?_eq_some {text : List Char} (h : FadesTo cs cs') {p : Pattern}
    (hp : p ≠ blank) (hlength : p.length? dialect (text ++ cs) = some text.length) :
    p.length? dialect (text ++ cs') = some text.length := by
  by_cases hline : p = lineComment
  · subst hline
    obtain ⟨body, htext, hbody, hstops⟩ := length?_lineComment_eq_length_iff.1 hlength
    exact length?_lineComment_eq_length_iff.2 ⟨body, htext, hbody, h.stops hstops⟩
  · exact length?_of_echoes hp hline hlength h.echoes

end FadesTo

end Pattern

namespace Segment

variable {dialect : Dialect} {cs cs' text : List Char}

/-- **Fading.** A segment stays what it is if the text after it fades. Only blanks may go on. -/
theorem first_of_fadesTo {pattern : Option Pattern} (h : Pattern.FadesTo cs cs') (htext : text ≠ [])
    (hpattern : pattern ≠ some .blank) (hfirst : first dialect (text ++ cs) = ⟨pattern, text⟩) :
    first dialect (text ++ cs') = ⟨pattern, text⟩ := by
  obtain ⟨c, tail, rfl⟩ := List.exists_cons_of_ne_nil htext
  have hnone {p : Pattern} (hp : p.length? dialect (c :: tail ++ cs) = none) :
      p.length? dialect (c :: tail ++ cs') = none := (h.append tail).length?_eq_none hp
  cases pattern with
  | none =>
    obtain ⟨hfit, htail⟩ := first_eq_none_iff.1 hfirst
    have hfit' : Pattern.first? dialect (c :: tail ++ cs') = none :=
      List.findSome?_eq_none_iff.2 fun p hp =>
        Option.map_eq_none_iff.2 (hnone (Pattern.length?_eq_none_of_first? hfit hp))
    exact first_eq_none_iff.2 ⟨hfit', htail⟩
  | some p =>
    obtain ⟨hfit, -⟩ := first_eq_some_iff.1 hfirst
    have hlength := h.length?_eq_some (fun hblank => hpattern (congrArg some hblank))
      (Pattern.exists_of_first? hfit).2
    exact first_eq_some_iff.2 ⟨Pattern.first?_congr hfit (fun _ => hnone) hlength,
      List.prefix_append ..⟩

end Segment

end MiniC
