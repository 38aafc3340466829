import MiniC.Lexer.Segment.Lemmas
import MiniC.Proofs.Lexer.Items
import MiniC.Proofs.Lexer.Lookahead
import MiniC.Proofs.Lexer.Values
import MiniC.Proofs.Token.Numeral

/-!
# Exponents

A scanner that knows exponents and one that does not take the same segments of a text, up to the
first numeral with an exponent (`Segment.cut_withExponents`). A numeral that only looks as if an
exponent followed it, like that of `1e` or `1.e5`, is the same for both. Of a numeral with an
exponent the scanner that knows none takes what comes before the mark, and the mark starts a word.
That word is an identifier: the mark stands by itself or before a digit, and no reserved word does.

So a text has the same tokens and diagnostics in both dialects if none of its numbers has an
exponent, and otherwise the items before the first such number (`tokenize_withExponents`).
-/

namespace MiniC

/-- The dialect with exponents, or without. -/
def Dialect.withExponents (enabled : Bool) (dialect : Dialect) : Dialect :=
  { dialect with exponents := enabled }

/-- Whether a text is an exponent mark, or goes on with a digit after one. -/
def Numeral.startsExponent : List Char → Bool
  | c :: cs => isExponentMark c && cs.head?.all Char.isDigit
  | [] => false

variable {dialect : Dialect} {c : Char} {cs : List Char}

/-! ### Patterns -/

namespace Pattern

/-- Only numerals depend on exponents. -/
private theorem length?_withExponents {p : Pattern} (hp : p ≠ numeral) (enabled enabled' : Bool)
    (cs : List Char) :
    p.length? (dialect.withExponents enabled) cs
      = p.length? (dialect.withExponents enabled') cs := by
  cases p with
  | numeral => exact absurd rfl hp
  | _ => rfl

/-- So nothing depends on them where no digit is next. -/
private theorem first?_withExponents (hc : c.isDigit = false) (enabled enabled' : Bool) :
    first? (dialect.withExponents enabled) (c :: cs)
      = first? (dialect.withExponents enabled') (c :: cs) := by
  have hnone (enabled : Bool) :
      numeral.length? (dialect.withExponents enabled) (c :: cs) = none := by
    rw [length?, numeral?, run?_eq_none hc]
    rfl
  rw [first?, first?]
  congr 1
  funext p
  by_cases hp : p = numeral
  · rw [hp, hnone, hnone]
  · rw [length?_withExponents hp]

/-- Where a digit is next, an exponent is what may come after the numeral without it. -/
private theorem numeral?_withExponents (hc : c.isDigit = true) :
    ∃ n, numeral? (dialect.withExponents false) (c :: cs) = some n ∧
      numeral? (dialect.withExponents true) (c :: cs)
        = some (n + exponentLength ((c :: cs).drop n)) ∧
      ∀ d ∈ (c :: cs).take n, Numeral.isExponentMark d = false := by
  obtain ⟨whole, hwhole⟩ : ∃ whole, run? Char.isDigit (c :: cs) = some whole := by
    rw [run?, runLength_cons_of_pos hc, if_neg (by omega)]
    exact ⟨_, rfl⟩
  refine ⟨whole + fractionLength ((c :: cs).drop whole), ?_, ?_, ?_⟩
  · rw [numeral?, hwhole]
    rfl
  · rw [numeral?, hwhole]
    rfl
  · intro d hd
    rw [List.take_add, List.mem_append] at hd
    rcases hd with hd | hd
    · exact Numeral.isExponentMark_of_isDigit (of_mem_take_run? hwhole hd)
    · rcases of_mem_take_fractionLength hd with rfl | hd
      · rfl
      · exact Numeral.isExponentMark_of_isDigit hd

/-- An exponent starts with its mark. As a word, the mark stands by itself or before a digit. -/
theorem startsExponent_of_exponentLength (h : exponentLength cs ≠ 0) :
    ∃ mark rest, cs = mark :: rest ∧ Numeral.isExponentMark mark = true ∧
      Numeral.startsExponent (mark :: rest.takeWhile isWordRest) = true := by
  cases cs with
  | nil => exact absurd rfl h
  | cons mark rest =>
    rw [exponentLength_cons] at h
    split at h
    · rename_i hexponent
      obtain ⟨hmark, hdigits⟩ := hexponent
      refine ⟨mark, rest, rfl, hmark, ?_⟩
      rw [Numeral.startsExponent, hmark, Bool.true_and, List.head?_takeWhile]
      cases rest with
      | nil => rfl
      | cons d rest =>
        by_cases hsign : d = '+' ∨ d = '-'
        · -- A word does not go on over a sign.
          rcases hsign with rfl | rfl <;> rfl
        · have hlength : signLength (d :: rest) = 0 := by
            simpa [signLength] using hsign
          rw [hlength, List.drop_zero] at hdigits
          have hdigit : d.isDigit = true := by
            by_contra hnot
            exact hdigits (runLength_cons_of_neg (Bool.eq_false_iff.2 hnot))
          rw [List.head?_cons, Option.filter_some]
          split
          · exact hdigit
          · rfl
    · exact absurd rfl h

end Pattern

/-! ### Words after a numeral -/

/-- A word that is an exponent mark, or goes on with a digit after one, is not reserved. -/
private theorem Kind.ofWord_of_startsExponent (h : Numeral.startsExponent cs = true) :
    Kind.ofWord (String.ofList cs) = .identifier := by
  have hne (word : String) (hword : Numeral.startsExponent word.toList = false) :
      String.ofList cs ≠ word := by
    rintro rfl
    rw [String.toList_ofList, h] at hword
    cases hword
  rw [Kind.ofWord, Kind.reserved?]
  · rfl
  all_goals exact hne _ rfl

/-! ### Segments -/

namespace Segment

/-- Whether a segment is a numeral with an exponent. -/
def hasExponent (s : Segment) : Bool :=
  s.pattern = some .numeral && s.text.any Numeral.isExponentMark

/-- A numeral with an exponent that **comes apart** into what is before the mark, and a word. -/
inductive ComesApart : (s number word : Segment) → Prop
  | intro {mantissa tail word : List Char} {mark : Char} :
      (∀ c ∈ mantissa, Numeral.isExponentMark c = false) → Numeral.isExponentMark mark = true →
      Numeral.startsExponent (mark :: word) = true →
      ComesApart ⟨some .numeral, mantissa ++ mark :: tail⟩ ⟨some .numeral, mantissa⟩
        ⟨some .word, mark :: word⟩

theorem ComesApart.text_ne_nil {s number word : Segment} (h : ComesApart s number word) :
    word.text ≠ [] := by
  cases h
  exact List.cons_ne_nil _ _

/-- What starts with no digit is the same without exponents. -/
private theorem first_withExponents_of_not_isDigit (dialect : Dialect) (hc : c.isDigit = false) :
    (first (dialect.withExponents true) (c :: cs)).hasExponent = false ∧
      first (dialect.withExponents false) (c :: cs)
        = first (dialect.withExponents true) (c :: cs) := by
  have hfirst : Pattern.first? (dialect.withExponents true) (c :: cs)
      = Pattern.first? (dialect.withExponents false) (c :: cs) :=
    Pattern.first?_withExponents hc true false
  refine ⟨?_, by rw [first, first, hfirst]⟩
  rw [first]
  split
  · rename_i p n hfit
    have hp : p ≠ .numeral := by
      rintro rfl
      have hstart : c.isDigit = true :=
        Pattern.mayStart_of_length? (Pattern.exists_of_first? hfit).2
      rw [hc] at hstart
      cases hstart
    simp [hasExponent, hp]
  · rfl

/-- A numeral is the same without exponents, or it has one and comes apart. -/
private theorem first_withExponents_of_isDigit (dialect : Dialect) (hc : c.isDigit = true) :
    ((first (dialect.withExponents true) (c :: cs)).hasExponent = false ∧
        first (dialect.withExponents false) (c :: cs)
          = first (dialect.withExponents true) (c :: cs)) ∨
      ∃ number word, ComesApart (first (dialect.withExponents true) (c :: cs)) number word ∧
        first (dialect.withExponents false) (c :: cs) = number ∧
        first (dialect.withExponents false) ((c :: cs).drop number.text.length) = word := by
  obtain ⟨n, hoff, hon, hmantissa⟩ :=
    @Pattern.numeral?_withExponents dialect c cs hc
  have hle := (Pattern.numeral?_bounds hoff).2
  -- Without exponents the numeral is the mantissa; with them it may go on.
  have hfirst : first (dialect.withExponents false) (c :: cs)
      = ⟨some .numeral, (c :: cs).take n⟩ := by
    rw [first, Pattern.first?_of_isDigit hc, hoff]
    rfl
  have hfirst' : first (dialect.withExponents true) (c :: cs)
      = ⟨some .numeral, (c :: cs).take n
          ++ ((c :: cs).drop n).take (Pattern.exponentLength ((c :: cs).drop n))⟩ := by
    rw [first, Pattern.first?_of_isDigit hc, hon, ← List.take_add]
    rfl
  rw [hfirst, hfirst']
  by_cases hzero : Pattern.exponentLength ((c :: cs).drop n) = 0
  · rw [hzero, List.take_zero, List.append_nil]
    refine .inl ⟨?_, rfl⟩
    rw [hasExponent, decide_eq_true rfl, Bool.true_and, List.any_eq_false]
    intro d hd
    rw [hmantissa d hd]
    exact Bool.false_ne_true
  · obtain ⟨mark, rest, hdrop, hmark, hword⟩ := Pattern.startsExponent_of_exponentLength hzero
    have hstart : Pattern.isWordStart mark = true := by
      simp only [Numeral.isExponentMark, Bool.or_eq_true, decide_eq_true_eq] at hmark
      rcases hmark with rfl | rfl <;> decide
    obtain ⟨e, he⟩ := Nat.exists_eq_succ_of_ne_zero hzero
    -- The mark of the exponent starts a word.
    have hfirstWord : first (dialect.withExponents false) (mark :: rest)
        = ⟨some .word, mark :: rest.takeWhile Pattern.isWordRest⟩ := by
      rw [first, Pattern.first?_of_isWordStart hstart, Nat.add_comm]
      dsimp only
      rw [List.take_succ_cons, Pattern.take_runLength]
    rw [he, hdrop, List.take_succ_cons]
    refine .inr ⟨_, _, .intro hmantissa hmark hword, rfl, ?_⟩
    rw [List.length_take_of_le hle, hdrop, hfirstWord]

/-- A segment is the same without exponents, or it is a numeral with one and comes apart. -/
private theorem first_withExponents (dialect : Dialect) (hne : cs ≠ []) :
    ((first (dialect.withExponents true) cs).hasExponent = false ∧
        first (dialect.withExponents false) cs = first (dialect.withExponents true) cs) ∨
      ∃ number word, ComesApart (first (dialect.withExponents true) cs) number word ∧
        first (dialect.withExponents false) cs = number ∧
        first (dialect.withExponents false) (cs.drop number.text.length) = word := by
  obtain ⟨c, cs, rfl⟩ := List.exists_cons_of_ne_nil hne
  cases hc : c.isDigit with
  | false => exact .inl (first_withExponents_of_not_isDigit dialect hc)
  | true => exact first_withExponents_of_isDigit dialect hc

/-- **Segments without exponents.** They are the same for as long as no segment is a numeral with an
exponent, and the first one that is comes apart. -/
theorem cut_withExponents (dialect : Dialect) (cs : List Char) :
    ((∀ s ∈ cut (dialect.withExponents true) cs, s.hasExponent = false) ∧
        cut (dialect.withExponents false) cs = cut (dialect.withExponents true) cs) ∨
      ∃ before s number word after after',
        cut (dialect.withExponents true) cs = before ++ s :: after ∧
        (∀ s ∈ before, s.hasExponent = false) ∧ ComesApart s number word ∧
        cut (dialect.withExponents false) cs = before ++ number :: word :: after' := by
  induction cs using cut_induction (dialect.withExponents true) with
  | nil => exact .inl ⟨nofun, rfl⟩
  | step cs hne ih =>
    rw [cut_of_ne_nil _ hne, cut_of_ne_nil _ hne]
    rcases first_withExponents dialect hne with ⟨hs, hfirst⟩ | ⟨number, word, happart, hoff, hword⟩
    · rw [hfirst]
      rcases ih with ⟨hall, hcut⟩ | ⟨before, s, number, word, after, after', hcut, hbefore, happart,
        hoff⟩
      · exact .inl ⟨List.forall_mem_cons.2 ⟨hs, hall⟩, congrArg _ hcut⟩
      · exact .inr ⟨_ :: before, s, number, word, after, after', congrArg _ hcut,
          List.forall_mem_cons.2 ⟨hs, hbefore⟩, happart, congrArg _ hoff⟩
    · have hrest : cs.drop number.text.length ≠ [] := by
        intro hnil
        rw [hnil] at hword
        exact happart.text_ne_nil (congrArg text hword.symm)
      rw [hoff, cut_of_ne_nil _ hrest, hword]
      exact .inr ⟨[], _, number, word, _, _, rfl, nofun, happart, rfl⟩

end Segment

/-! ### Items -/

/-- What is reported of a numeral: that it has no value, if it has none. -/
def Numeral.report (numeral : List Char) (position : Position) : List Item :=
  if (value? numeral).isSome then [] else [.error ⟨.numberParse (String.ofList numeral), position⟩]

/-- The token of a numeral. Where there is no value, another one stands in for it. -/
def Numeral.token (numeral : List Char) (position : Position) : Token :=
  ⟨.number, String.ofList numeral, some ((value? numeral).getD (substitute numeral)), position⟩

theorem Segment.items_numeral (text : List Char) (position : Position) :
    items ⟨some .numeral, text⟩ position
      = Numeral.report text position ++ [.ok (Numeral.token text position)] := by
  rw [items, Numeral.report, Numeral.token]
  cases Numeral.value? text <;> rfl

private theorem Item.tokens_report (numeral : List Char) (position : Position) :
    tokens (Numeral.report numeral position) = [] := by
  rw [Numeral.report]
  split <;> rfl

/-- Whether a token is a number with an exponent. -/
def Token.hasExponent (t : Token) : Bool :=
  t.kind = .number && t.value.toList.any Numeral.isExponentMark

private theorem Token.hasExponent_of_kind_ne {t : Token} (h : t.kind ≠ .number) :
    t.hasExponent = false := by
  rw [hasExponent, decide_eq_false h, Bool.false_and]

/-- The token of a numeral has an exponent if the numeral has. -/
private theorem Token.hasExponent_numeral (numeral : List Char) (position : Position) :
    (Numeral.token numeral position).hasExponent = numeral.any Numeral.isExponentMark := by
  rw [hasExponent, Numeral.token, decide_eq_true rfl, Bool.true_and, String.toList_ofList]

/-- The tokens of other segments than numerals with an exponent have none. -/
private theorem Segment.hasExponent_of_mem_items {cs : List Char} {position : Position} {t : Token}
    (hs : (first dialect cs).hasExponent = false)
    (ht : .ok t ∈ (first dialect cs).items position) : t.hasExponent = false := by
  rw [first] at hs ht
  split at hs
  · rename_i p n hfit
    rw [hfit] at ht
    dsimp only at ht
    cases p with
    | blank | lineComment | blockComment | doubleQuote | singleQuote => simp [items] at ht
    | word =>
      cases List.mem_singleton.1 ht
      exact Token.hasExponent_of_kind_ne (Kind.ofWord_ne (by decide) _)
    | numeral =>
      rw [items_numeral, ← Item.mem_tokens_iff, Item.tokens_append, Item.tokens_report] at ht
      cases List.mem_singleton.1 ht
      rw [Token.hasExponent_numeral]
      exact hs
    | charLiteral =>
      simp only [items] at ht
      split at ht <;> cases List.mem_singleton.1 ht
      exact Token.hasExponent_of_kind_ne (show Kind.char ≠ .number by decide)
    | stringLiteral =>
      cases List.mem_singleton.1 ht
      exact Token.hasExponent_of_kind_ne (show Kind.string ≠ .number by decide)
    | punctuator kind =>
      cases List.mem_singleton.1 ht
      obtain ⟨spelling, hspelling, -⟩ :=
        Pattern.length?_punctuator_eq_some_iff.1 (Pattern.exists_of_first? hfit).2
      refine Token.hasExponent_of_kind_ne ?_
      rintro rfl
      cases hspelling
  · rename_i hfit
    rw [hfit] at ht
    obtain ⟨c, -, heq⟩ := List.mem_map.1 ht
    cases heq

namespace Segment

/-- Nor have those of many such segments. -/
private theorem hasExponent_of_mem_itemsFrom {cs : List Char} {segments : List Segment}
    {unit : String} {line : LineNumber} {t : Token} (hsub : segments ⊆ cut dialect cs)
    (hs : ∀ s ∈ segments, s.hasExponent = false)
    (ht : t ∈ Item.tokens (itemsFrom unit line segments)) : t.hasExponent = false := by
  obtain ⟨s, hmem, position, hitem⟩ := exists_of_mem_itemsFrom (Item.mem_tokens_iff.1 ht)
  have hsegment := hs s hmem
  obtain ⟨rest, -, -, rfl⟩ := exists_eq_first_of_mem_cut dialect (hsub hmem)
  exact hasExponent_of_mem_items hsegment hitem

private theorem itemsFrom_numeral (unit : String) (line : LineNumber) (text : List Char)
    (after : List Segment) :
    itemsFrom unit line (⟨some .numeral, text⟩ :: after)
      = Numeral.report text ⟨line, unit⟩
        ++ .ok (Numeral.token text ⟨line, unit⟩) :: itemsFrom unit line after := by
  rw [itemsFrom_cons_of_lineEnds rfl, items_numeral, List.append_assoc]
  rfl

/-- The word that comes off a numeral is an identifier. -/
private theorem itemsFrom_word {word : List Char} (hword : Numeral.startsExponent word = true)
    (unit : String) (line : LineNumber) (after : List Segment) :
    itemsFrom unit line (⟨some .word, word⟩ :: after)
      = .ok ⟨.identifier, String.ofList word, none, ⟨line, unit⟩⟩
        :: itemsFrom unit line after := by
  rw [itemsFrom_cons_of_lineEnds rfl, items, token, Kind.ofWord_of_startsExponent hword]
  rfl

end Segment

/-- **Exponents.** If no number of a unit has an exponent, the unit is the same without exponents.
Otherwise it is the same up to the first number that has one. Without exponents there is in its
place the number before the mark, and an identifier that starts with the mark. -/
theorem tokenize_withExponents (dialect : Dialect) (unit : Option String) (source : String) :
    ((∀ t ∈ (tokenize (dialect.withExponents true) unit source).1, t.hasExponent = false) →
        tokenize (dialect.withExponents false) unit source
          = tokenize (dialect.withExponents true) unit source) ∧
      ∀ x, (tokenize (dialect.withExponents true) unit source).1.find? Token.hasExponent = some x →
        ∃ before after after' mantissa mark tail word,
          x = Numeral.token (mantissa ++ mark :: tail) x.position ∧
          Numeral.isExponentMark mark = true ∧
          (∀ c ∈ mantissa, Numeral.isExponentMark c = false) ∧
          (∀ t ∈ Item.tokens before, t.hasExponent = false) ∧
          scan (dialect.withExponents true) unit source
            = before ++ (Numeral.report (mantissa ++ mark :: tail) x.position ++ .ok x :: after) ∧
          scan (dialect.withExponents false) unit source
            = before ++ (Numeral.report mantissa x.position
              ++ .ok (Numeral.token mantissa x.position)
              :: .ok ⟨.identifier, String.ofList (mark :: word), none, x.position⟩ :: after') := by
  rw [tokenize, tokenize, scan, scan]
  rcases Segment.cut_withExponents dialect source.toList with ⟨hall, hcut⟩ |
    ⟨before, s, number, word, after, after', hcut, hbefore, happart, hoff⟩
  · refine ⟨fun _ => by rw [hcut], fun x hx => ?_⟩
    -- No number has an exponent.
    have hnone := Segment.hasExponent_of_mem_itemsFrom (List.Subset.refl _) hall
      (List.mem_of_find?_eq_some hx)
    rw [List.find?_some hx] at hnone
    cases hnone
  · obtain @⟨mantissa, tail, word, mark, hmantissa, hmark, hword⟩ := happart
    rw [hcut, hoff, Segment.itemsFrom_append, Segment.itemsFrom_append, Segment.itemsFrom_numeral,
      Segment.itemsFrom_numeral, Segment.itemsFrom_word hword]
    have hexponent (position : Position) :
        (Numeral.token (mantissa ++ mark :: tail) position).hasExponent = true := by
      rw [Token.hasExponent_numeral, List.any_append, List.any_cons, hmark, Bool.true_or,
        Bool.or_true]
    have hbefore : ∀ t ∈ Item.tokens
        (Segment.itemsFrom (unit.getD Position.anonymousUnit) 1 before), t.hasExponent = false :=
      fun t => Segment.hasExponent_of_mem_itemsFrom (hcut ▸ List.subset_append_left _ _) hbefore
    rw [Item.tokens_append, Item.tokens_append, Item.tokens_report]
    refine ⟨fun hnone => ?_, fun x hx => ?_⟩
    · have hfalse := hnone _ (List.mem_append_right _ List.mem_cons_self)
      rw [hexponent] at hfalse
      cases hfalse
    · rw [List.find?_append, List.find?_eq_none.2 fun t ht => by simp [hbefore t ht]] at hx
      cases (List.find?_cons_of_pos (hexponent _)).symm.trans hx
      exact ⟨_, _, _, mantissa, mark, tail, word, rfl, hmark, hmantissa, hbefore, rfl, rfl⟩

/-- No exponent comes after the numerals of `1e + 2.e3`, and one after the second numeral of
`1e + 2.5e-3`. -/
theorem tokenize_withExponents_signed :
    ((∀ t ∈ (tokenize (Dialect.withExponents true {}) none "1e + 2.e3").1,
          t.hasExponent = false) ∧
        tokenize (Dialect.withExponents false {}) none "1e + 2.e3"
          = tokenize (Dialect.withExponents true {}) none "1e + 2.e3") ∧
      (tokenize (Dialect.withExponents true {}) none "1e + 2.5e-3").1.find? Token.hasExponent
        = some (Numeral.token "2.5e-3".toList ⟨1, Position.anonymousUnit⟩) ∧
      ∃ before after mantissa mark tail word,
        Numeral.token "2.5e-3".toList ⟨1, Position.anonymousUnit⟩
          = Numeral.token (mantissa ++ mark :: tail) ⟨1, Position.anonymousUnit⟩ ∧
        scan (Dialect.withExponents false {}) none "1e + 2.5e-3"
          = before ++ (Numeral.report mantissa ⟨1, Position.anonymousUnit⟩
            ++ .ok (Numeral.token mantissa ⟨1, Position.anonymousUnit⟩)
            :: .ok ⟨.identifier, String.ofList (mark :: word), none, ⟨1, Position.anonymousUnit⟩⟩
            :: after) := by
  have hnone : ∀ t ∈ (tokenize (Dialect.withExponents true {}) none "1e + 2.e3").1,
      t.hasExponent = false := by decide +kernel
  have hfind : (tokenize (Dialect.withExponents true {}) none "1e + 2.5e-3").1.find?
      Token.hasExponent = some (Numeral.token "2.5e-3".toList ⟨1, Position.anonymousUnit⟩) := by
    decide +kernel
  obtain ⟨before, after, after', mantissa, mark, tail, word, hx, -, -, -, -, hoff⟩ :=
    (tokenize_withExponents {} none _).2 _ hfind
  exact ⟨⟨hnone, (tokenize_withExponents {} none _).1 hnone⟩, hfind, before, after', mantissa, mark,
    tail, word, hx, hoff⟩

end MiniC
