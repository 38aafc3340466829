import MiniC.Proofs.Lexer.Fading
import MiniC.Proofs.Lexer.Items
import MiniC.Proofs.Lexer.Lexeme
import MiniC.Proofs.Lexer.LineBreak

/-!
# Erasing comments and stray characters

A segment is **erased** if a space takes the place of each of its characters, but for line feeds. If
the segments of a text that are erased are comments, or characters that start nothing, then the text
that is left fades from the text that was there (`Segment.fadesTo_eraseIf`). So all other segments
are found again, and the erased ones are blanks: what is yielded is what the erased segments yield
(`Segment.itemsFrom_cut_eraseIf`). A backslash starts nothing either, but must stay: it may keep a
quote after it from closing a literal.

It follows that comments are blanks (`tokenize_eraseComments`), and that a stray character makes no
difference but that it is reported (`tokenize_eraseStrays`).
-/

namespace MiniC

/-- What is left of a character that is erased. -/
def Text.erasedChar (c : Char) : Char := if c = '\n' then '\n' else ' '

private theorem Text.isSpacing_erasedChar (c : Char) : isSpacing (erasedChar c) = true := by
  rw [erasedChar]
  split <;> rfl

private theorem Text.lineFeeds_map_erasedChar (cs : List Char) :
    lineFeeds (cs.map erasedChar) = lineFeeds cs := by
  rw [lineFeeds, lineFeeds, List.count_eq_countP, List.count_eq_countP, List.countP_map]
  congr 1
  funext c
  simp only [Function.comp_apply, erasedChar]
  split
  · rename_i hc
    rw [hc]
  · rename_i hc
    simp [hc]

namespace Pattern

/-! ### Texts that may be erased -/

/-- A text that **may be erased** before a rest: no literal that was open is closed by that. -/
structure MayErase (text rest : List Char) : Prop where
  /-- The text starts with nothing that a literal sees. -/
  head : ∃ c body, text = c :: body ∧ c ∉ ['"', '\'', '\\', '\n']
  /-- No literal goes over the text, or one that does is inside itself after it. -/
  last : '\n' ∈ text ∨ Stops (· ≠ '\n') rest ∨
    ∃ before d, text = before ++ [d] ∧ d ∉ ['"', '\\', '\n']

/-- Whatever a string literal has gone through on its line, it is in itself after most
characters. -/
private theorem throughStringEnd?_eq_none_of_append {a cs : List Char} {c : Char} (ha : '\n' ∉ a)
    (hc : c ∉ ['"', '\\', '\n']) (h : throughStringEnd? (a ++ c :: cs) = none) :
    throughStringEnd? cs = none := by
  fun_induction throughStringEnd? a with
  | case1 => exact Option.map_eq_none_iff.1 ((throughStringEnd?_cons hc cs).symm.trans h)
  | case2 => cases h
  | case3 => simp at ha
  | case4 d ds hd ih =>
    rw [List.cons_append, List.cons_append, throughStringEnd?_escape, if_neg hd,
      Option.map_eq_none_iff] at h
    simp only [List.mem_cons, not_or] at ha
    exact ih ha.2.2 h
  | case5 d ds hquote hescape hd =>
    simp only [Bool.or_eq_true, decide_eq_true_eq] at hd
    rcases hd with rfl | rfl
    · rcases ds with - | ⟨e, ds⟩
      · -- The character is escaped.
        have hfeed : c ≠ '\n' := by
          rintro rfl
          simp at hc
        rw [List.singleton_append, throughStringEnd?_escape, if_neg hfeed] at h
        exact Option.map_eq_none_iff.1 h
      · exact absurd rfl (hescape e ds rfl)
    · simp at ha
  | case6 d ds hquote _ hd ih =>
    have hplain : d ∉ ['"', '\\', '\n'] := by simpa using And.intro hquote hd
    rw [List.cons_append, throughStringEnd?_cons hplain, Option.map_eq_none_iff] at h
    exact ih (fun hmem => ha (List.mem_cons_of_mem d hmem)) h

/-- Nothing ends in an erased text. -/
private theorem throughStringEnd?_map_erasedChar {text rest : List Char}
    (h : '\n' ∈ text ∨ throughStringEnd? rest = none) :
    throughStringEnd? (text.map Text.erasedChar ++ rest) = none := by
  induction text with
  | nil => exact h.resolve_left List.not_mem_nil
  | cons c text ih =>
    rw [List.map_cons, List.cons_append, Text.erasedChar]
    split
    · rfl
    · rename_i hc
      have htext : '\n' ∈ text ∨ throughStringEnd? rest = none :=
        h.imp_left fun hmem => (List.mem_cons.1 hmem).resolve_left (Ne.symm hc)
      rw [throughStringEnd?_cons (by decide), ih htext]
      rfl

private theorem forall₂_fades_map_erasedChar (text : List Char) :
    List.Forall₂ Fades text (text.map Text.erasedChar) := by
  refine List.forall₂_map_right_iff.2 (List.forall₂_same.2 fun c _ => ?_)
  rw [Fades, Text.erasedChar]
  split
  · rename_i hc
    exact .inl hc.symm
  · rename_i hc
    exact .inr ⟨rfl, hc⟩

namespace MayErase

variable {text rest rest' : List Char}

/-- A string literal that is not closed over a text that may be erased is not closed after it, when
the rest has faded. -/
private theorem throughStringEnd?_eq_none (htext : MayErase text rest) (h : FadesTo rest rest')
    {a : List Char} (ha : '\n' ∉ a) (hnone : throughStringEnd? (a ++ (text ++ rest)) = none) :
    '\n' ∈ text ∨ throughStringEnd? rest' = none := by
  rcases htext.last with hmem | hstops | ⟨before, d, rfl, hd⟩
  · exact .inl hmem
  · refine .inr ?_
    cases hrest' : rest' with
    | nil => rfl
    | cons e rest' =>
      have he : e = '\n' := by simpa [hrest'] using h.stops hstops
      rw [he]
      rfl
  · by_cases hmem : '\n' ∈ before ++ [d]
    · exact .inl hmem
    · rw [List.mem_append, not_or] at hmem
      rw [List.append_assoc before, ← List.append_assoc] at hnone
      have hbefore : '\n' ∉ a ++ before := by simp [ha, hmem.1]
      exact .inr (h.string (throughStringEnd?_eq_none_of_append hbefore hd hnone))

/-- No character literal is closed because a text is erased. -/
private theorem charLiteral?_eq_none (htext : MayErase text rest) (h : FadesTo rest rest')
    (hnone : charLiteral? ('\'' :: (text ++ rest)) = none) :
    charLiteral? ('\'' :: (text.map Text.erasedChar ++ rest')) = none := by
  obtain ⟨c, body, rfl, hc⟩ := htext.head
  simp only [List.mem_cons, List.not_mem_nil, or_false, not_or] at hc
  have hspace : Text.erasedChar c = ' ' := if_neg hc.2.2.2
  refine Option.eq_none_iff_forall_ne_some.2 fun n hn => ?_
  rw [List.map_cons, hspace, List.cons_append] at hn
  rcases charLiteral?_eq_some_iff.1 hn with ⟨d, -, hstart, -⟩ | ⟨d, -, hstart, -⟩
  · obtain ⟨-, hstart⟩ := List.cons_prefix_cons.1 hstart
    exact absurd (List.cons_prefix_cons.1 hstart).1 (by decide)
  · obtain ⟨-, hstart⟩ := List.cons_prefix_cons.1 hstart
    obtain ⟨-, hstart⟩ := List.cons_prefix_cons.1 hstart
    cases body with
    | nil =>
      -- The quote was there before, and would have closed a literal.
      have hstart' := prefix_of_faded h.chars (by decide) hstart
      have hsome : charLiteral? ('\'' :: c :: rest) = some 3 :=
        charLiteral?_eq_some_iff.2 (.inr ⟨c, by simp [hc],
          List.cons_prefix_cons.2 ⟨rfl, List.cons_prefix_cons.2 ⟨rfl, hstart'⟩⟩, rfl⟩)
      cases hsome.symm.trans hnone
    | cons e body =>
      have he := (List.cons_prefix_cons.1 hstart).1
      have hspacing := Text.isSpacing_erasedChar e
      rw [← he] at hspacing
      cases hspacing

/-- **Erasing.** A text fades if its start is erased, where it may be, and what comes after that
fades. -/
theorem fadesTo (htext : MayErase text rest) (h : FadesTo rest rest') :
    FadesTo (text ++ rest) (text.map Text.erasedChar ++ rest') where
  chars := List.rel_append (forall₂_fades_map_erasedChar text) h.chars
  string hnone :=
    throughStringEnd?_map_erasedChar (htext.throughStringEnd?_eq_none h List.not_mem_nil hnone)
  escape hnone := by
    have hslash : '\n' ∉ ['\\'] := by decide
    have hend := htext.throughStringEnd?_eq_none h hslash hnone
    obtain ⟨c, body, rfl, hc⟩ := htext.head
    have hfeed : c ≠ '\n' := fun hfeed => hc (by simp [hfeed])
    have hspace : Text.erasedChar c = ' ' := if_neg hfeed
    have hbody : '\n' ∈ body ∨ throughStringEnd? rest' = none :=
      hend.imp_left fun hmem => (List.mem_cons.1 hmem).resolve_left (Ne.symm hfeed)
    rw [List.map_cons, hspace, List.cons_append, throughStringEnd?_escape, if_neg (by decide),
      throughStringEnd?_map_erasedChar hbody]
    rfl
  char := htext.charLiteral?_eq_none h

/-! ### What may be erased -/

variable {dialect : Dialect}

private theorem of_lineComment (h : lineComment.length? dialect (text ++ rest) = some text.length) :
    MayErase text rest := by
  obtain ⟨body, rfl, -, hstops⟩ := length?_lineComment_eq_length_iff.1 h
  exact ⟨⟨'/', '/' :: body, rfl, by decide⟩, .inr (.inl hstops)⟩

private theorem of_blockComment
    (h : blockComment.length? dialect (text ++ rest) = some text.length) : MayErase text rest := by
  have hcut := length?_of_append h (Nat.le_refl _)
  obtain ⟨inside, m, rfl, hm, hlength⟩ := length?_blockComment_eq_some_iff.1 hcut
  obtain ⟨body, htake, -⟩ := exists_take_of_throughCommentEnd? hm
  rw [List.length_append] at hlength
  rw [List.take_of_length_le (Nat.add_left_cancel hlength).le] at htake
  have hend : ['/', '*'] ++ inside = (['/', '*'] ++ body ++ ['*']) ++ ['/'] := by
    rw [htake, List.append_assoc, List.append_assoc]
    rfl
  exact ⟨⟨'/', '*' :: inside, rfl, by decide⟩, .inr (.inr ⟨_, '/', hend, by decide⟩)⟩

/-- A character that starts nothing may be erased, unless it escapes what comes after it. -/
private theorem of_first?_eq_none {c : Char} (h : first? dialect (c :: rest) = none)
    (hslash : c ≠ '\\') : MayErase [c] rest := by
  -- A pattern takes a quote or a line feed, whatever comes after it.
  have hc : c ∉ ['"', '\'', '\\', '\n'] := by
    simp only [List.mem_cons, List.not_mem_nil, or_false]
    rintro (rfl | rfl | rfl | rfl)
    · rw [first?_doubleQuote] at h
      cases h
    · rw [first?_singleQuote] at h
      cases h
    · exact hslash rfl
    · rw [first?_of_isSpacing rfl] at h
      cases h
  have hsubset : ['"', '\\', '\n'] ⊆ ['"', '\'', '\\', '\n'] := by decide
  exact ⟨⟨c, [], rfl, hc⟩, .inr (.inr ⟨[], c, rfl, fun hmem => hc (hsubset hmem)⟩)⟩

end MayErase

end Pattern

namespace Segment

variable {dialect : Dialect}

/-! ### Segments that may be erased -/

/-- A segment that **is erasable**: a comment, or a character that starts nothing, other than a
backslash. -/
def IsErasable (s : Segment) : Prop :=
  s.pattern = some .lineComment ∨ s.pattern = some .blockComment ∨
    s.pattern = none ∧ s.text ≠ ['\\']

/-- An erasable segment may be erased where it is. -/
theorem IsErasable.mayErase {s : Segment} {rest : List Char} (h : s.IsErasable) (hne : s.text ≠ [])
    (hfirst : first dialect (s.text ++ rest) = s) : Pattern.MayErase s.text rest := by
  obtain ⟨pattern, text⟩ := s
  dsimp only at hne hfirst ⊢
  rcases h with rfl | rfl | ⟨rfl, hslash⟩
  · exact .of_lineComment (Pattern.exists_of_first? (first_eq_some_iff.1 hfirst).1).2
  · exact .of_blockComment (Pattern.exists_of_first? (first_eq_some_iff.1 hfirst).1).2
  · obtain ⟨c, tail, rfl⟩ := List.exists_cons_of_ne_nil hne
    obtain ⟨hfit, rfl⟩ := first_eq_none_iff.1 hfirst
    exact .of_first?_eq_none hfit fun hc => hslash (congrArg (fun d => [d]) hc)

/-! ### Erased segments -/

/-- The segment with its text erased. -/
def erased (s : Segment) : Segment := ⟨some .blank, s.text.map Text.erasedChar⟩

/-- Segments, of which those that pass a test are erased. -/
def eraseIf (test : Segment → Bool) (segments : List Segment) : List Segment :=
  segments.map fun s => if test s then s.erased else s

/-- The text that segments make up. -/
def joined (segments : List Segment) : List Char := (segments.map text).flatten

variable {test : Segment → Bool}

theorem joined_cons (s : Segment) (segments : List Segment) :
    joined (s :: segments) = s.text ++ joined segments := rfl

private theorem eraseIf_cut {cs : List Char} (hne : cs ≠ []) :
    eraseIf test (cut dialect cs)
      = (if test (first dialect cs) then (first dialect cs).erased else first dialect cs)
        :: eraseIf test (cut dialect (cs.drop (first dialect cs).text.length)) := by
  rw [cut_of_ne_nil dialect hne]
  rfl

/-- **Erased texts.** A text fades if erasable segments are erased. -/
theorem fadesTo_eraseIf (htest : ∀ s, test s = true → s.IsErasable) (cs : List Char) :
    Pattern.FadesTo cs (joined (eraseIf test (cut dialect cs))) := by
  induction cs using cut_induction dialect with
  | nil => exact .nil
  | step cs hne ih =>
    have happend := first_text_append_drop dialect cs
    rw [eraseIf_cut hne, joined_cons]
    generalize cs.drop (first dialect cs).text.length = rest at ih happend ⊢
    split
    · rename_i hfirst
      have hmay : Pattern.MayErase (first dialect cs).text rest :=
        (htest _ hfirst).mayErase (first_text_ne_nil dialect hne) (congrArg _ happend)
      have hfades := hmay.fadesTo ih
      rwa [happend] at hfades
    · have hfades := ih.append (first dialect cs).text
      rwa [happend] at hfades

private theorem isSpacing_of_mem_text {cs : List Char}
    (h : (first dialect cs).pattern = some .blank) :
    ∀ c ∈ (first dialect cs).text, Text.isSpacing c = true := by
  intro c hc
  have hfirst : first dialect cs = ⟨some .blank, (first dialect cs).text⟩ := by rw [← h]
  obtain ⟨hfit, htext⟩ := first_eq_some_iff.1 hfirst
  rw [List.prefix_iff_eq_take.1 htext] at hc
  exact Pattern.of_mem_take_run? (Pattern.exists_of_first? hfit).2 hc

/-- A segment of blanks is one with the blanks after it. -/
private theorem itemsFrom_cut_blank {s : Segment} (hpattern : s.pattern = some .blank)
    (htext : ∀ c ∈ s.text, Text.isSpacing c = true) (unit : String) (line : LineNumber)
    (cs : List Char) :
    itemsFrom unit line (cut dialect (s.text ++ cs))
      = s.items ⟨line, unit⟩ ++ itemsFrom unit (line.after s.lineEnds) (cut dialect cs) := by
  have hitems : s.items ⟨line, unit⟩ = [] := by rw [items, hpattern]
  have hlines : s.lineEnds = Text.lineFeeds s.text := by
    rw [lineEnds, hpattern]
    rfl
  rw [itemsFrom_cut_blanks htext, hitems, hlines, List.nil_append]

/-- **Erasure.** What is yielded for a text of which erasable segments are erased is what the
segments yield of which these are erased. -/
theorem itemsFrom_cut_eraseIf (htest : ∀ s, test s = true → s.IsErasable) (unit : String)
    (line : LineNumber) (cs : List Char) :
    itemsFrom unit line (cut dialect (joined (eraseIf test (cut dialect cs))))
      = itemsFrom unit line (eraseIf test (cut dialect cs)) := by
  induction cs using cut_induction dialect generalizing line with
  | nil => rfl
  | step cs hne ih =>
    have hrest : Pattern.FadesTo (cs.drop (first dialect cs).text.length)
        (joined (eraseIf test (cut dialect (cs.drop (first dialect cs).text.length)))) :=
      fadesTo_eraseIf htest _
    rw [eraseIf_cut hne, joined_cons, itemsFrom, ← ih]
    split
    · refine itemsFrom_cut_blank rfl (fun c hc => ?_) unit line _
      obtain ⟨d, -, rfl⟩ := List.mem_map.1 hc
      exact Text.isSpacing_erasedChar d
    · by_cases hblank : (first dialect cs).pattern = some .blank
      · exact itemsFrom_cut_blank hblank (isSpacing_of_mem_text hblank) unit line _
      · have hfirst := first_of_fadesTo hrest (first_text_ne_nil dialect hne) hblank
          (by rw [first_text_append_drop])
        rw [cut_of_ne_nil dialect (by simp [first_text_ne_nil dialect hne]), hfirst, List.drop_left,
          itemsFrom]

/-- If a segment is erased where nothing of what it yields is kept, and all that the others yield is
kept, then what is kept is what is yielded. -/
theorem itemsFrom_eraseIf {keep : Item → Bool} {segments : List Segment}
    (hlines : ∀ s ∈ segments, s.lineEnds = Text.lineFeeds s.text)
    (hkeep : ∀ s ∈ segments, ∀ position,
      (s.items position).filter keep = if test s then [] else s.items position)
    (unit : String) (line : LineNumber) :
    itemsFrom unit line (eraseIf test segments) = (itemsFrom unit line segments).filter keep := by
  induction segments generalizing line with
  | nil => rfl
  | cons s segments ih =>
    obtain ⟨hline, hlines⟩ := List.forall_mem_cons.1 hlines
    obtain ⟨hitems, hkeep⟩ := List.forall_mem_cons.1 hkeep
    have hcons : eraseIf test (s :: segments)
        = (if test s then s.erased else s) :: eraseIf test segments := rfl
    have herased : s.erased.lineEnds = s.lineEnds :=
      (Text.lineFeeds_map_erasedChar s.text).trans hline.symm
    rw [hcons, itemsFrom, itemsFrom, List.filter_append, hitems, ih hlines hkeep]
    split
    · rw [herased]
      rfl
    · rfl

end Segment

/-- The text with the segments erased that pass a test. -/
def eraseSegments (test : Segment → Bool) (dialect : Dialect) (source : String) : String :=
  String.ofList (Segment.joined (Segment.eraseIf test (Segment.cut dialect source.toList)))

/-- What is yielded for a text of which some segments are erased. -/
theorem scan_eraseSegments {test : Segment → Bool} {keep : Item → Bool}
    (htest : ∀ s, test s = true → s.IsErasable) {dialect : Dialect} {source : String}
    (hkeep : ∀ s ∈ Segment.cut dialect source.toList, ∀ position,
      (s.items position).filter keep = if test s then [] else s.items position)
    (unit : Option String) :
    scan dialect unit (eraseSegments test dialect source)
      = (scan dialect unit source).filter keep := by
  rw [scan, scan, eraseSegments, String.toList_ofList, Segment.itemsFrom_cut_eraseIf htest,
    Segment.itemsFrom_eraseIf (fun _ => Segment.lineEnds_eq_of_mem_cut dialect) hkeep]

/-! ### Comments -/

/-- Whether a segment is a comment. -/
def Segment.isComment (s : Segment) : Bool :=
  s.pattern = some .lineComment || s.pattern = some .blockComment

theorem Segment.isComment_iff {s : Segment} :
    s.isComment = true ↔ s.pattern = some .lineComment ∨ s.pattern = some .blockComment := by
  rw [isComment, Bool.or_eq_true, decide_eq_true_eq, decide_eq_true_eq]

/-- The text with its comments erased. -/
def eraseComments (dialect : Dialect) (source : String) : String :=
  eraseSegments Segment.isComment dialect source

/-- **Comments are blanks.** The tokens and the diagnostics of a text are those of the text with a
space in place of each character of a comment, but for line feeds. -/
theorem tokenize_eraseComments (dialect : Dialect) (unit : Option String) (source : String) :
    tokenize dialect unit (eraseComments dialect source) = tokenize dialect unit source := by
  have herasable (s : Segment) (h : s.isComment = true) : s.IsErasable :=
    (Segment.isComment_iff.1 h).imp_right .inl
  have hitems (s : Segment) (position : Position) :
      (s.items position).filter (fun _ => true)
        = if s.isComment then [] else s.items position := by
    rw [List.filter_true]
    split
    · rename_i h
      rcases Segment.isComment_iff.1 h with h | h <;> rw [Segment.items, h]
    · rfl
  have hscan := scan_eraseSegments herasable (fun s (_ : s ∈ Segment.cut dialect source.toList) =>
    hitems s) unit
  rw [List.filter_true] at hscan
  rw [tokenize, tokenize, eraseComments, hscan]

/-- The quote is never closed, so what follows the slashes is a comment. -/
example : eraseComments {} "\"a // \\\"b" = "\"a       " := by decide

/-! ### Stray characters -/

/-- Whether the diagnostic reports a character that starts nothing, other than a backslash. -/
def Diagnostic.isStray (d : Diagnostic) : Bool :=
  match d.fault with
  | .unrecognisedCharacter c => c ≠ '\\'
  | _ => false

/-- Whether the item is such a diagnostic. -/
def Item.isStray : Item → Bool
  | .ok _ => false
  | .error d => d.isStray

/-- Whether a segment is reported as a **stray** character. It does not matter where it is. -/
def Segment.isStray (s : Segment) : Bool := (s.items default).any Item.isStray

private theorem Segment.any_isStray_items (s : Segment) (position : Position) :
    (s.items position).any Item.isStray = s.isStray :=
  any_items (fun _ item => by cases item <;> rfl) s position default

/-- A stray character is none that a pattern took. -/
private theorem Segment.isErasable_of_isStray {s : Segment} (h : s.isStray = true) :
    s.IsErasable := by
  obtain ⟨pattern, text⟩ := s
  refine .inr (.inr ?_)
  cases pattern with
  | none =>
    refine ⟨rfl, ?_⟩
    rintro rfl
    cases h
  | some p =>
    -- What a pattern takes is never reported so.
    cases p with
    | numeral =>
      rw [isStray, items] at h
      cases hvalue : Numeral.value? text <;> simp [hvalue, Item.isStray, Diagnostic.isStray] at h
    | charLiteral =>
      rw [isStray, items] at h
      dsimp only at h
      split at h <;> cases h
    | _ => cases h

/-- A lexeme that is stray yields nothing else. -/
private theorem Lexeme.filter_not_isStray {position : Position} {text : List Char}
    {items : List Item} (h : Lexeme position text items) :
    items.filter (fun item => !item.isStray) = if items.any Item.isStray then [] else items := by
  cases h with
  | @unrecognised c _ _ =>
    by_cases hc : c = '\\'
    · rw [hc]
      rfl
    · simp [Item.isStray, Diagnostic.isStray, hc]
  | _ => rfl

/-- The text with its stray characters erased. -/
def eraseStrays (dialect : Dialect) (source : String) : String :=
  eraseSegments Segment.isStray dialect source

/-- **Stray characters.** A character that starts nothing, other than a backslash, makes no
difference but that it is reported: with a space in place of each, a text has the same tokens, and
the same diagnostics but for these. -/
theorem tokenize_eraseStrays (dialect : Dialect) (unit : Option String) (source : String) :
    tokenize dialect unit (eraseStrays dialect source)
      = ((tokenize dialect unit source).1,
        (tokenize dialect unit source).2.filter fun d => !d.isStray) := by
  have hscan : scan dialect unit (eraseStrays dialect source)
      = (scan dialect unit source).filter fun item => !item.isStray := by
    refine scan_eraseSegments (fun _ => Segment.isErasable_of_isStray) ?_ unit
    intro s hs position
    obtain ⟨cs, hne, -, rfl⟩ := Segment.exists_eq_first_of_mem_cut dialect hs
    have hlexeme : Lexeme _ _ ((Segment.first dialect cs).items position) :=
      Segment.lexeme_first hne position
    rw [hlexeme.filter_not_isStray, Segment.any_isStray_items]
  rw [tokenize, hscan, Item.tokens_filter fun _ => rfl, Item.diagnostics_filter]
  rfl

/-- A backslash stays. With a space in its place, the second quote would close a literal. -/
example : eraseStrays {} "# \"\\\"" = "  \"\\\"" := by decide

end MiniC
