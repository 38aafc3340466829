import MiniC.Proofs.Lexer.FirstMatch
import MiniC.Proofs.Lexer.Values
import MiniC.Proofs.Text.Lines

/-!
# Lexemes

A **lexeme** is a text that the scanner takes at once. `Lexeme position text items` lists the sorts
of lexemes by what is written, without the patterns, and says what each of them yields. Every
segment is one of them (`Segment.lexeme_first`), so what holds of all tokens and diagnostics is
shown by going through the list.

Only a blank or a comment yields nothing, and only a numeral without a value yields more than one
item. A lexeme that yields something lies within its line: it holds no line feed, and does not end
in a carriage return, which might belong to the end of the line.
-/

namespace MiniC

open Pattern

/-- A text that is written as a numeral. -/
def IsNumeral (text : List Char) : Prop :=
  (∃ c ∈ text.head?, c.isDigit = true) ∧ ∀ c ∈ text, isInNumeral c = true

/-- A text that is skipped: a run of blanks, or a comment. -/
inductive IsSkipped : List Char → Prop
  | blank {text : List Char} : text ≠ [] → (∀ c ∈ text, Text.isSpacing c = true) → IsSkipped text
  | lineComment {body : List Char} : '\n' ∉ body → IsSkipped ('/' :: '/' :: body)
  /-- A block comment ends at the first `*/` after its start. -/
  | blockComment {body : List Char} : ¬['*', '/'] <:+: body ++ ['*'] →
      IsSkipped ('/' :: '*' :: (body ++ ['*', '/']))

/-- The sorts of **lexemes**, and what they yield at a position. -/
inductive Lexeme (position : Position) : List Char → List Item → Prop
  | skipped {text : List Char} : IsSkipped text → Lexeme position text []
  | word {text : List Char} : IsWord (String.ofList text) →
      Lexeme position text
        [.ok ⟨Kind.ofWord (String.ofList text), String.ofList text, none, position⟩]
  | numeral {text : List Char} {value : Literal} : IsNumeral text →
      Numeral.value? text = some value →
      Lexeme position text [.ok ⟨.number, String.ofList text, some value, position⟩]
  /-- A numeral without a value is reported, and another value stands in for it. -/
  | valueless {text : List Char} : IsNumeral text → Numeral.value? text = none →
      Lexeme position text
        [.error ⟨.numberParse (String.ofList text), position⟩,
          .ok ⟨.number, String.ofList text, some (Numeral.substitute text), position⟩]
  | charLiteral {inside : List Char} {c : Char} : '\n' ∉ inside → Text.unescape inside = [c] →
      Lexeme position ('\'' :: (inside ++ ['\'']))
        [.ok ⟨.char, String.ofList [c], some (.char c), position⟩]
  /-- The inside of a character literal may stand for two characters. -/
  | misfit {inside : List Char} : '\n' ∉ inside → (Text.unescape inside).length ≠ 1 →
      Lexeme position ('\'' :: (inside ++ ['\''])) [.error ⟨.malformedChar, position⟩]
  | stringLiteral {inside : List Char} : '\n' ∉ inside →
      Lexeme position ('"' :: (inside ++ ['"']))
        [.ok ⟨.string, String.ofList (Text.unescape inside),
          some (.str (String.ofList (Text.unescape inside))), position⟩]
  | doubleQuote : Lexeme position ['"'] [.error ⟨.unterminatedString, position⟩]
  | singleQuote : Lexeme position ['\''] [.error ⟨.malformedChar, position⟩]
  | punctuator {kind : Kind} {spelling : String} : kind.spelling? = some spelling →
      Lexeme position spelling.toList [.ok ⟨kind, spelling, none, position⟩]
  /-- What starts nothing is reported by itself. It is no blank and no digit. -/
  | unrecognised {c : Char} : Text.isSpacing c = false → c.isDigit = false →
      Lexeme position [c] [.error ⟨.unrecognisedCharacter c, position⟩]

/-! ### Segments are lexemes -/

namespace Segment

variable {dialect : Dialect} {cs : List Char} {position : Position}

private theorem isNumeral_take {n : Nat} (h : Pattern.numeral.length? dialect cs = some n) :
    IsNumeral (cs.take n) := by
  refine ⟨?_, fun c hc => isInNumeral_of_mem_take h hc⟩
  obtain ⟨hpos, hle⟩ := length?_bounds h
  cases cs with
  | nil => exact absurd hle (Nat.not_le_of_lt hpos)
  | cons c cs =>
    obtain ⟨m, rfl⟩ : ∃ m, n = m + 1 := ⟨n - 1, by omega⟩
    exact ⟨c, rfl, mayStart_of_length? h⟩

/-- The content of a quoted literal is what its inside stands for. -/
private theorem content_quoted (pattern : Option Pattern) (quote : Char) (inside : List Char) :
    content ⟨pattern, quote :: (inside ++ [quote])⟩ = Text.unescape inside := by
  rw [content, List.tail_cons, List.dropLast_concat]

/-- What a pattern takes is a lexeme. -/
theorem lexeme_of_length? {p : Pattern} {n : Nat} (h : p.length? dialect cs = some n)
    (position : Position) :
    Lexeme position (cs.take n) ((Segment.mk (some p) (cs.take n)).items position) := by
  cases p with
  | blank =>
    refine .skipped (.blank ?_ fun c hc => of_mem_take_run? h hc)
    obtain ⟨hpos, hle⟩ := length?_bounds h
    rw [← List.length_pos_iff, List.length_take_of_le hle]
    exact hpos
  | lineComment =>
    obtain ⟨rest, rfl, rfl⟩ := length?_lineComment_eq_some_iff.1 h
    rw [Nat.add_comm, List.cons_append, List.singleton_append, List.take_succ_cons,
      List.take_succ_cons]
    refine .skipped (.lineComment fun hmem => ?_)
    exact absurd (of_mem_take_runLength hmem) (by decide)
  | blockComment =>
    obtain ⟨rest, m, rfl, hm, rfl⟩ := length?_blockComment_eq_some_iff.1 h
    obtain ⟨body, htake, hbody⟩ := exists_take_of_throughCommentEnd? hm
    rw [Nat.add_comm, List.cons_append, List.singleton_append, List.take_succ_cons,
      List.take_succ_cons, htake]
    exact .skipped (.blockComment hbody)
  | word => exact .word (isWord_of_length? h)
  | numeral =>
    have hnumeral := isNumeral_take h
    rw [items]
    rcases hvalue : Numeral.value? (cs.take n) with - | value
    · exact .valueless hnumeral hvalue
    · exact .numeral hnumeral hvalue
  | charLiteral =>
    obtain ⟨inside, htake, hinside⟩ := exists_take_of_charLiteral? h
    rw [htake, items]
    dsimp only
    rw [content_quoted]
    -- What is inside may be an escape that stands for two characters.
    split
    · exact .charLiteral hinside ‹_›
    · rename_i hne
      refine .misfit hinside fun hlength => ?_
      obtain ⟨c, hc⟩ := List.length_eq_one_iff.1 hlength
      exact hne c hc
  | stringLiteral =>
    obtain ⟨rest, m, rfl, hm, rfl⟩ := length?_stringLiteral_eq_some_iff.1 h
    obtain ⟨inside, htake, hinside⟩ := exists_take_of_throughStringEnd? hm
    rw [Nat.add_comm, List.singleton_append, List.take_succ_cons, htake, items]
    dsimp only
    rw [content_quoted]
    exact .stringLiteral hinside
  | doubleQuote =>
    obtain ⟨⟨rest, rfl⟩, rfl⟩ := length?_doubleQuote_eq_some_iff.1 h
    exact .doubleQuote
  | singleQuote =>
    obtain ⟨⟨rest, rfl⟩, rfl⟩ := length?_singleQuote_eq_some_iff.1 h
    exact .singleQuote
  | punctuator kind =>
    obtain ⟨spelling, hspelling, ⟨rest, rfl⟩, rfl⟩ := length?_punctuator_eq_some_iff.1 h
    have hitems : items ⟨some (.punctuator kind), spelling.toList⟩ position
        = [.ok ⟨kind, spelling, none, position⟩] := by
      simp only [items, token, String.ofList_toList]
    rw [List.take_left, hitems]
    exact .punctuator hspelling

/-- **Segments are lexemes.** What the scanner takes of a text is a lexeme, and yields what the
lexeme does. -/
theorem lexeme_first (hne : cs ≠ []) (position : Position) :
    Lexeme position (first dialect cs).text ((first dialect cs).items position) := by
  rw [first]
  rcases hfirst : first? dialect cs with - | ⟨p, n⟩
  · obtain ⟨c, cs, rfl⟩ := List.exists_cons_of_ne_nil hne
    -- A blank would have been taken as one, and a digit as a numeral.
    refine .unrecognised (Bool.eq_false_iff.2 fun hc => ?_) (Bool.eq_false_iff.2 fun hc => ?_)
    · rw [first?_of_isSpacing hc] at hfirst
      cases hfirst
    · have hnumeral := length?_eq_none_of_first? hfirst (p := .numeral) (by simp [table])
      simp [length?, numeral?, run?, runLength, hc] at hnumeral
  · exact lexeme_of_length? (exists_of_first? hfirst).2 position

end Segment

/-- What a unit yields is yielded by a lexeme. -/
theorem exists_lexeme_of_mem_scan {dialect : Dialect} {unit : Option String} {source : String}
    {item : Item} (h : item ∈ scan dialect unit source) :
    ∃ position text items, Lexeme position text items ∧ item ∈ items := by
  obtain ⟨s, hs, position, hitem⟩ := Segment.exists_of_mem_itemsFrom h
  obtain ⟨cs, hne, -, rfl⟩ := Segment.exists_eq_first_of_mem_cut dialect hs
  exact ⟨position, _, _, Segment.lexeme_first hne position, hitem⟩

/-! ### What lexemes yield -/

/-- The position of an item. -/
def Item.position : Item → Position
  | .ok token => token.position
  | .error diagnostic => diagnostic.position

namespace Lexeme

variable {position : Position} {text : List Char} {items : List Item}

/-- What a lexeme yields is where the lexeme is. -/
theorem position_eq (h : Lexeme position text items) {item : Item} (hitem : item ∈ items) :
    Item.position item = position := by
  cases h with
  | skipped => cases hitem
  | valueless =>
    simp only [List.mem_cons, List.not_mem_nil, or_false] at hitem
    rcases hitem with rfl | rfl <;> rfl
  | _ =>
    rw [List.mem_singleton.1 hitem]
    rfl

/-- A lexeme yields one token at most. -/
theorem length_filter_isOk_le (h : Lexeme position text items) :
    (items.filter Except.isOk).length ≤ 1 := by
  cases h with
  | skipped => exact Nat.zero_le 1
  | valueless => exact Nat.le_refl 1
  | _ => exact List.length_filter_le ..

/-- A lexeme yields one diagnostic at most. -/
theorem length_filter_not_isOk_le (h : Lexeme position text items) :
    (items.filter (!·.isOk)).length ≤ 1 := by
  cases h with
  | skipped => exact Nat.zero_le 1
  | valueless => exact Nat.le_refl 1
  | _ => exact List.length_filter_le ..

/-- The characters of a word go on with a word. -/
private theorem isWordRest_of_mem (h : IsWord (String.ofList text)) :
    ∀ c ∈ text, isWordRest c = true := by
  obtain ⟨c, cs, htext, hc, hcs⟩ := h
  rw [String.toList_ofList] at htext
  rw [htext]
  exact List.forall_mem_cons.2 ⟨isWordRest_of_isWordStart hc, hcs⟩

/-- **Lexemes and lines.** A lexeme that yields something lies within its line. -/
theorem withinLine (h : Lexeme position text items) (hne : items ≠ []) :
    Text.WithinLine text := by
  cases h with
  | skipped => exact absurd rfl hne
  | word hword =>
    refine .of_forall ?_ (isWordRest_of_mem hword) (by decide) (by decide)
    rintro rfl
    obtain ⟨c, cs, htext, -⟩ := hword
    cases htext
  | numeral hnumeral | valueless hnumeral =>
    obtain ⟨⟨c, hc, -⟩, hall⟩ := hnumeral
    exact .of_forall (List.ne_nil_of_mem (List.mem_of_head? hc)) hall (by decide) (by decide)
  | charLiteral hinside | misfit hinside => exact .quoted hinside (by decide) (by decide)
  | stringLiteral hinside => exact .quoted hinside (by decide) (by decide)
  | doubleQuote | singleQuote => exact ⟨by decide, by decide, by decide⟩
  | @punctuator kind spelling hspelling =>
    revert hspelling
    cases kind <;> rintro ⟨⟩ <;> exact ⟨by decide, by decide, by decide⟩
  | unrecognised hspacing hdigit =>
    refine .of_forall (p := fun c => !Text.isSpacing c) (List.cons_ne_nil _ _) ?_ rfl rfl
    intro c hc
    rw [List.mem_singleton.1 hc, hspacing]
    rfl

end Lexeme

/-! ### The account of a text -/

/-- Whether a text starts like a blank or a comment. -/
def startsSkipped : List Char → Bool
  | '/' :: c :: _ => c = '/' || c = '*'
  | c :: _ => Text.isSpacing c
  | [] => false

private theorem startsSkipped_cons_of_ne {c : Char} (hc : c ≠ '/') (cs : List Char) :
    startsSkipped (c :: cs) = Text.isSpacing c :=
  startsSkipped.eq_2 c cs fun _ _ h => absurd h hc

private theorem IsSkipped.startsSkipped {text : List Char} (h : IsSkipped text) :
    startsSkipped text = true := by
  cases h with
  | blank hne hall =>
    obtain ⟨c, cs, rfl⟩ := List.exists_cons_of_ne_nil hne
    have hc := hall c List.mem_cons_self
    have hslash : c ≠ '/' := by
      rintro rfl
      cases hc
    rw [startsSkipped_cons_of_ne hslash, hc]
  | lineComment | blockComment => rfl

namespace Lexeme

variable {position : Position} {text : List Char} {items : List Item}

end Lexeme

end MiniC
