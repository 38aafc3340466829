import MiniC.Lexer.Tokenize
import MiniC.Proofs.Lexer.FirstMatch
import MiniC.Proofs.Token.Numeral

/-!
# What a text yields

`Yields dialect unit line text tokens follow` says that the scanner turns a text on one line into
the given tokens and nothing else, whatever comes after the text, as long as that passes `follow`.
Texts that are put together yield the tokens of their parts (`Yields.append`) if each part may be
followed by the next. A word must not be followed by a letter, a digit or an underscore, a numeral
not by a point either, and some punctuators not by `=`, `/` or `*`; nothing else depends on what
follows it.

There is one lemma for each sort of token: the text that a tree is written with yields the token
that the tree is read from.
-/

namespace MiniC

open Pattern

/-- The characters that a numeral may go on with. -/
def Pattern.isNumeralRest (c : Char) : Bool := isWordRest c || c = '.'

/-- A text that **yields** tokens on a line, before what passes a test. -/
def Yields (dialect : Dialect) (unit : String) (line : LineNumber) (text : List Char)
    (tokens : List Token) (follow : List Char → Prop) : Prop :=
  ∀ rest, follow rest →
    Segment.itemsFrom unit line (Segment.cut dialect (text ++ rest))
      = tokens.map .ok ++ Segment.itemsFrom unit line (Segment.cut dialect rest)

section

variable {dialect : Dialect} {unit : String} {line : LineNumber}

/-- A text that the first fitting pattern takes as a whole is the first segment. -/
theorem Segment.itemsFrom_cut_append {text rest : List Char} {p : Pattern} (htext : text ≠ [])
    (h : first? dialect (text ++ rest) = some (p, text.length)) :
    itemsFrom unit line (cut dialect (text ++ rest))
      = (Segment.mk (some p) text).items ⟨line, unit⟩
        ++ itemsFrom unit (line.after (Segment.mk (some p) text).lineEnds) (cut dialect rest) := by
  have hne : text ++ rest ≠ [] := by simp [htext]
  have hfirst : first dialect (text ++ rest) = ⟨some p, text⟩ := by
    rw [first, h]
    simp
  rw [cut_of_ne_nil dialect hne, hfirst, List.drop_left, itemsFrom]

namespace Yields

theorem nil (follow : List Char → Prop) : Yields dialect unit line [] [] follow := fun _ _ => rfl

theorem mono {text : List Char} {ts : List Token} {F G : List Char → Prop}
    (h : Yields dialect unit line text ts F) (hG : ∀ rest, G rest → F rest) :
    Yields dialect unit line text ts G := fun rest hrest => h rest (hG rest hrest)

/-- **Texts one after the other.** -/
theorem append {s s' : String} {ts ts' : List Token} {F G : List Char → Prop}
    (h : Yields dialect unit line s.toList ts F) (h' : Yields dialect unit line s'.toList ts' G)
    (hF : ∀ rest, F (s'.toList ++ rest)) :
    Yields dialect unit line (s ++ s').toList (ts ++ ts') G := by
  intro rest hrest
  rw [String.toList_append, List.append_assoc, h _ (hF rest), h' rest hrest, List.map_append,
    List.append_assoc]

/-- A text with nothing after it. -/
theorem itemsFrom_cut {text : List Char} {ts : List Token} {F : List Char → Prop}
    (h : Yields dialect unit line text ts F) (hF : F []) :
    Segment.itemsFrom unit line (Segment.cut dialect text) = ts.map .ok := by
  have hitems := h [] hF
  rwa [List.append_nil, Segment.cut_nil, Segment.itemsFrom, List.append_nil] at hitems

/-- A text that one pattern takes as a whole. -/
private theorem of_first {text : List Char} {ts : List Token} {F : List Char → Prop} {p : Pattern}
    (htext : text ≠ []) (hlines : (Segment.mk (some p) text).lineEnds = 0)
    (hitems : (Segment.mk (some p) text).items ⟨line, unit⟩ = ts.map .ok)
    (h : ∀ rest, F rest → first? dialect (text ++ rest) = some (p, text.length)) :
    Yields dialect unit line text ts F := by
  intro rest hrest
  rw [Segment.itemsFrom_cut_append htext (h rest hrest), hlines, hitems, LineNumber.after_zero]

/-! ### Blanks, words and punctuators -/

theorem space : Yields dialect unit line " ".toList [] (Stops Text.isSpacing) := by
  change Yields dialect unit line [' '] [] (Stops Text.isSpacing)
  refine of_first (p := .blank) (by simp) rfl rfl fun rest hrest => ?_
  rw [List.singleton_append, first?_of_isSpacing rfl, runLength_of_stops hrest]
  rfl

theorem word {word : String} (h : IsWord word) :
    Yields dialect unit line word.toList [⟨Kind.ofWord word, word, none, ⟨line, unit⟩⟩]
      (Stops isWordRest) := by
  obtain ⟨c, cs, hword, hc, hcs⟩ := h
  refine of_first (p := .word) (by simp [hword]) rfl ?_ fun rest hrest => ?_
  · simp [Segment.items, Segment.token]
  · rw [hword, List.cons_append, first?_of_isWordStart hc, runLength_append hcs hrest,
      List.length_cons, Nat.add_comm]

/-- A name is read as itself. -/
theorem name {name : String} (h : IsName name) :
    Yields dialect unit line name.toList [⟨.identifier, name, none, ⟨line, unit⟩⟩]
      (Stops isWordRest) := by
  have hkind : Kind.ofWord name = .identifier := by rw [Kind.ofWord, h.2, Option.getD_none]
  rw [← hkind]
  exact word h.1

theorem reserved {word : String} {kind : Kind} (h : Kind.reserved? word = some kind) :
    Yields dialect unit line word.toList [⟨kind, word, none, ⟨line, unit⟩⟩]
      (Stops isWordRest) := by
  have hkind : Kind.ofWord word = kind := by rw [Kind.ofWord, h, Option.getD_some]
  rw [← hkind]
  exact Yields.word (isWord_of_reserved h)

/-- A punctuator that something longer starts with must not be followed by the rest of it. -/
theorem punctuator (kind : Kind) {spelling : String} (h : kind.spelling? = some spelling) :
    Yields dialect unit line spelling.toList [⟨kind, spelling, none, ⟨line, unit⟩⟩]
      (fun rest => kind.isExtendable = true → Stops isPunctuatorRest rest) := by
  refine of_first (p := .punctuator kind) ?_ rfl ?_ fun rest hrest => ?_
  · revert h
    cases kind <;> rintro ⟨⟩ <;> decide
  · simp [Segment.items, Segment.token]
  · rw [first?_punctuator h hrest, String.length_toList]

theorem operator (kind : Kind) {spelling : String} (h : kind.spelling? = some spelling) :
    Yields dialect unit line spelling.toList [⟨kind, spelling, none, ⟨line, unit⟩⟩]
      (Stops isPunctuatorRest) :=
  (punctuator kind h).mono fun _ hrest _ => hrest

/-- A punctuator that nothing longer starts with may be followed by anything. -/
theorem mark (kind : Kind) {spelling : String} (h : kind.spelling? = some spelling)
    (hkind : kind.isExtendable = false) :
    Yields dialect unit line spelling.toList [⟨kind, spelling, none, ⟨line, unit⟩⟩]
      (fun _ => True) := by
  refine (punctuator kind h).mono fun rest _ hextendable => ?_
  rw [hkind] at hextendable
  cases hextendable

/-! ### Literals -/

theorem charLiteral {c : Char} (hc : Text.IsPlain '\'' c) :
    Yields dialect unit line (Text.quotedChar c).toList
      [⟨.char, String.ofList [c], some (.char c), ⟨line, unit⟩⟩] (fun _ => True) := by
  have hquote : ('\'' : Char) = '\'' ∨ ('\'' : Char) = '"' := .inl rfl
  have hcontent : Text.unescape (Text.escape '\'' c) = [c] := by
    have hrest := Text.unescape_escape [] hquote hc
    rwa [List.append_nil] at hrest
  rw [Text.quotedChar, String.toList_ofList]
  refine of_first (p := .charLiteral) (by simp) rfl ?_ fun rest _ => ?_
  · simp [Segment.items, Segment.content, hcontent]
  · rw [List.append_assoc, List.append_assoc, List.singleton_append, first?_singleQuote]
    rcases Text.escape_cases hc hquote with ⟨d, hd, hfeed⟩ | ⟨hescape, hslash, hne, hfeed⟩
    · simp [hd, charLiteral?, hfeed]
    · simp [hescape, charLiteral?, hslash, hne, hfeed]

/-- The quote that ends a literal is the first one that is not escaped. -/
theorem throughStringEnd?_append {cs : List Char} (h : Text.IsInside cs) (rest : List Char) :
    throughStringEnd? (cs ++ '"' :: rest) = some (cs.length + 1) := by
  induction h with
  | nil => rfl
  | plain hslash _ hfeed _ ih => simp [throughStringEnd?, hslash, hfeed, ih]
  | escaped hfeed _ ih => simp [throughStringEnd?, hfeed, ih]

/-- What is written between double quotes yields one string literal. -/
theorem quoted (s : String) :
    let value := String.ofList (Text.unescape (s.toList.flatMap (Text.escape '"')))
    Yields dialect unit line (Text.quoted s).toList
      [⟨.string, value, some (.str value), ⟨line, unit⟩⟩] (fun _ => True) := by
  rw [Text.quoted, String.toList_ofList]
  refine of_first (p := .stringLiteral) (by simp) rfl ?_ fun rest _ => ?_
  · simp [Segment.items, Segment.content]
  · rw [List.append_assoc, List.append_assoc, List.singleton_append, first?_doubleQuote,
      List.singleton_append, throughStringEnd?_append (.escapes s.toList)]
    simp
    omega

theorem stringLiteral {s : String} (hs : ∀ c ∈ s.toList, Text.IsPlain '"' c) :
    Yields dialect unit line (Text.quoted s).toList
      [⟨.string, s, some (.str s), ⟨line, unit⟩⟩] (fun _ => True) := by
  have hquoted : Yields dialect unit line _ _ _ := quoted s
  rwa [(Text.unescape_escapes_iff (.inr rfl)).2 hs, String.ofList_toList] at hquoted

/-! ### Numerals -/

private theorem stops_isDigit {cs : List Char} (h : Stops isNumeralRest cs) :
    Stops Char.isDigit cs := by
  intro c hc
  have hrest := h c hc
  simp only [isNumeralRest, isWordRest, Char.isAlphanum, Bool.or_eq_false_iff] at hrest
  exact hrest.1.1.2

private theorem fractionLength_of_stops {cs : List Char} (h : Stops isNumeralRest cs) :
    fractionLength cs = 0 := by
  unfold fractionLength
  split
  · exact absurd (stops_cons.1 h) (by decide)
  · rfl

private theorem exponentLength_of_stops {cs : List Char} (h : Stops isNumeralRest cs) :
    exponentLength cs = 0 := by
  cases cs with
  | nil => rfl
  | cons c cs =>
    have hmark : Numeral.isExponentMark c = false := by
      rw [Bool.eq_false_iff]
      intro hc
      simp only [Numeral.isExponentMark, Bool.or_eq_true, decide_eq_true_eq] at hc
      rcases hc with rfl | rfl <;> exact absurd (stops_cons.1 h) (by decide)
    simp [exponentLength, hmark]

theorem run?_append {p : Char → Bool} {ds cs : List Char} (hne : ds ≠ [])
    (hds : ∀ d ∈ ds, p d = true) (hcs : Stops p cs) : run? p (ds ++ cs) = some ds.length := by
  rw [run?, runLength_append hds hcs, if_neg (by simpa using hne)]

/-- A numeral without an exponent is taken as a whole. -/
private theorem numeral?_of_isPlain {text rest : List Char} (h : Numeral.IsPlain text)
    (hrest : Stops isNumeralRest rest) : numeral? dialect (text ++ rest) = some text.length := by
  cases h with
  | whole hne hdigits =>
    rw [numeral?, run?_append hne hdigits (stops_isDigit hrest), Option.map_some]
    simp only [List.drop_left, fractionLength_of_stops hrest, Nat.add_zero,
      exponentLength_of_stops hrest, ite_self]
  | @point ds es hne hdigits hne' hdigits' =>
    have hwhole : run? Char.isDigit (ds ++ '.' :: (es ++ rest)) = some ds.length :=
      run?_append hne hdigits (by simp [Char.isDigit])
    have hrun := runLength_append hdigits' (stops_isDigit hrest)
    have hfraction : fractionLength ('.' :: (es ++ rest)) = es.length + 1 := by
      rw [fractionLength, hrun, if_neg (by simpa using hne'), Nat.add_comm]
    -- Behind the point and its digits there is no exponent, since no letter follows.
    have hdrop : (ds ++ '.' :: (es ++ rest)).drop (ds.length + (es.length + 1)) = rest := by
      rw [← List.drop_drop, List.drop_left, List.drop_succ_cons, List.drop_left]
    rw [List.append_assoc, List.cons_append, numeral?, hwhole, Option.map_some]
    simp only [List.drop_left, hfraction, hdrop, exponentLength_of_stops hrest, ite_self,
      Nat.add_zero, List.length_append, List.length_cons]

/-- A number is read back. -/
theorem number {number : Number} (h : number.WellFormed) :
    Yields dialect unit line number.render.toList
      [⟨.number, number.render, some number.literal, ⟨line, unit⟩⟩] (Stops isNumeralRest) := by
  obtain ⟨hplain, hvalue⟩ := Number.value?_render h
  obtain ⟨c, cs, htext, hc⟩ := hplain.exists_cons
  refine of_first (p := .numeral) (by simp [htext]) rfl ?_ fun rest hrest => ?_
  · simp [Segment.items, Segment.token, hvalue]
  · have hnumeral : numeral? dialect _ = _ := numeral?_of_isPlain hplain hrest
    rw [htext, List.cons_append] at hnumeral ⊢
    rw [first?_of_isDigit hc, hnumeral]
    rfl

end Yields

end

end MiniC
