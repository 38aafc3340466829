import Mathlib.Data.List.Forall2
import MiniC.Proofs.Lexer.Items
import MiniC.Proofs.Lexer.Lexeme
import MiniC.Proofs.Lexer.LineBreak
import MiniC.Proofs.Lexer.Lookahead

/-!
# Respacing

A token does not depend on where it was found. Its text is taken by a pattern that has to fit, and
that fits before a space, or before nothing, whatever came next before; and then no other pattern
comes first (`Segment.first_of_yieldsToken`). So the texts of all tokens of a unit, put on one line
with a space between each two, yield these tokens again, and no diagnostics but those of numerals
without a value (`tokenize_respaced`).
-/

namespace MiniC

namespace Pattern

variable {dialect : Dialect}

/-- Whether the scanner may yield a token for what a pattern takes. -/
def mayYieldToken : Pattern → Bool
  | word | numeral | charLiteral | stringLiteral | punctuator _ => true
  | blank | lineComment | blockComment | doubleQuote | singleQuote => false

/-- A pattern of tokens that fits is the first one that fits, unless a punctuator or a comment goes
on. -/
private theorem first?_of_length? {p : Pattern} {cs : List Char} {n : Nat}
    (hp : p.mayYieldToken = true)
    (h : p.length? dialect cs = some n) (hrest : Stops isPunctuatorRest (cs.drop n)) :
    first? dialect cs = some (p, n) := by
  obtain ⟨hpos, hle⟩ := length?_bounds h
  obtain ⟨c, cs, rfl⟩ := List.exists_cons_of_length_pos (Nat.lt_of_lt_of_le hpos hle)
  have hstart : p.mayStart c = true := mayStart_of_length? h
  cases p with
  | word =>
    rw [first?_cons, candidates_of_isWordStart hstart, List.findSome?_singleton, h]
    rfl
  | numeral =>
    rw [first?_cons, candidates_of_isDigit hstart, List.findSome?_singleton, h]
    rfl
  | charLiteral =>
    obtain rfl : c = '\'' := of_decide_eq_true hstart
    have hliteral : charLiteral? ('\'' :: cs) = some n := h
    rw [first?_singleQuote, hliteral]
  | stringLiteral =>
    obtain rfl : c = '"' := of_decide_eq_true hstart
    obtain ⟨rest, m, hcs, hm, rfl⟩ := length?_stringLiteral_eq_some_iff.1 h
    cases hcs
    have hend : throughStringEnd? ([].append rest) = some m := hm
    rw [first?_doubleQuote, hend]
  | punctuator kind =>
    obtain ⟨spelling, hspelling, ⟨rest, hcs⟩, rfl⟩ := length?_punctuator_eq_some_iff.1 h
    rw [← hcs] at hrest ⊢
    rw [List.drop_left] at hrest
    rw [String.length_toList, first?_punctuator hspelling fun _ => hrest]
  | blank | lineComment | blockComment | doubleQuote | singleQuote => cases hp

end Pattern

/-! ### Segments of tokens -/

namespace Segment

variable {dialect : Dialect}

/-- Whether a segment yields a token. It does not matter where it is. -/
def yieldsToken (s : Segment) : Bool := (s.items default).any Except.isOk

/-- A token is yielded for a pattern of tokens only. -/
private theorem exists_pattern_of_yieldsToken {s : Segment} (h : s.yieldsToken = true) :
    ∃ p, s.pattern = some p ∧ p.mayYieldToken = true := by
  obtain ⟨pattern, text⟩ := s
  rw [yieldsToken, items] at h
  cases pattern with
  | none =>
    simp [Except.isOk, Except.toBool] at h
  | some p =>
    refine ⟨p, rfl, ?_⟩
    cases p with
    | word | numeral | charLiteral | stringLiteral | punctuator => rfl
    | _ => cases h

/-- **Tokens stand alone.** A segment that yields a token is found again at the end of a text, and
before a space. -/
theorem first_of_yieldsToken {s : Segment} {rest rest' : List Char} (hs : s.yieldsToken = true)
    (h : first dialect (s.text ++ rest) = s) (hrest : rest' = [] ∨ ∃ more, rest' = ' ' :: more) :
    first dialect (s.text ++ rest') = s := by
  obtain ⟨p, hpattern, hp⟩ := exists_pattern_of_yieldsToken hs
  obtain ⟨pattern, text⟩ := s
  obtain rfl : pattern = some p := hpattern
  obtain ⟨hfit, -⟩ := first_eq_some_iff.1 h
  have hlength : p.length? dialect (text ++ rest') = some text.length := by
    refine Pattern.length?_of_echoes ?_ ?_ (Pattern.exists_of_first? hfit).2
      ⟨[], List.nil_prefix, hrest⟩
    · rintro rfl
      cases hp
    · rintro rfl
      cases hp
  have hstops : Pattern.Stops Pattern.isPunctuatorRest ((text ++ rest').drop text.length) := by
    rw [List.drop_left]
    rcases hrest with rfl | ⟨more, rfl⟩
    · exact Pattern.stops_nil _
    · exact Pattern.stops_cons.2 rfl
  exact first_eq_some_iff.2 ⟨Pattern.first?_of_length? hp hlength hstops, List.prefix_append ..⟩

/-- What a segment of a token yields is yielded first. -/
private theorem itemsFrom_cut_of_yieldsToken {s : Segment} {rest : List Char}
    (hs : s.yieldsToken = true)
    (h : first dialect s.text = s) (hrest : rest = [] ∨ ∃ more, rest = ' ' :: more) (unit : String)
    (line : LineNumber) :
    itemsFrom unit line (cut dialect (s.text ++ rest))
      = s.items ⟨line, unit⟩ ++ itemsFrom unit line (cut dialect rest) := by
  have hnil : first dialect (s.text ++ []) = s := by rw [List.append_nil, h]
  have hfirst : first dialect (s.text ++ rest) = s := first_of_yieldsToken hs hnil hrest
  have hne : s.text ++ rest ≠ [] := by
    intro hempty
    rw [hempty] at hfirst
    rw [← hfirst] at hs
    cases hs
  obtain ⟨p, hpattern, hp⟩ := exists_pattern_of_yieldsToken hs
  have hlines : s.lineEnds = 0 := by
    rw [lineEnds, hpattern]
    cases p <;> first | rfl | cases hp
  rw [cut_of_ne_nil dialect hne, hfirst, List.drop_left,
    itemsFrom_cons_of_lineEnds hlines]

/-- The texts of segments on one line, with a space between each two. -/
def respaced (segments : List Segment) : String :=
  " ".intercalate (segments.map fun s => String.ofList s.text)

/-- **Respaced texts.** Segments of tokens that stand alone yield the same on one line. -/
theorem itemsFrom_cut_respaced {segments : List Segment}
    (h : ∀ s ∈ segments, s.yieldsToken = true ∧ first dialect s.text = s) (unit : String)
    (line : LineNumber) :
    itemsFrom unit line (cut dialect (respaced segments).toList)
      = segments.flatMap (·.items ⟨line, unit⟩) := by
  have htext : (respaced segments).toList = [' '].intercalate (segments.map text) := by
    rw [respaced, String.toList_intercalate, List.map_map]
    congr 1
    exact List.map_congr_left fun s _ => String.toList_ofList
  rw [htext]
  clear htext
  induction segments with
  | nil => rfl
  | cons s segments ih =>
    obtain ⟨⟨hs, hfirst⟩, hsegments⟩ := List.forall_mem_cons.1 h
    rw [List.flatMap_cons, ← ih hsegments]
    cases segments with
    | nil =>
      have hitems := itemsFrom_cut_of_yieldsToken hs hfirst (.inl rfl) unit line
      rw [List.append_nil] at hitems
      rw [List.map_singleton, List.intercalate_singleton, hitems]
      rfl
    | cons t segments =>
      have hspace : ∀ c ∈ [' '], Text.isSpacing c = true := List.forall_mem_singleton.2 rfl
      have hfeeds : Text.lineFeeds [' '] = 0 := rfl
      rw [List.map_cons, List.map_cons, List.intercalate_cons_cons, List.append_assoc,
        itemsFrom_cut_of_yieldsToken hs hfirst (.inr ⟨_, List.singleton_append⟩),
        itemsFrom_cut_blanks hspace, hfeeds, LineNumber.after_zero]

end Segment

/-! ### Tokens and their diagnostics -/

/-- Whether the diagnostic is that of a numeral without a value. -/
def Diagnostic.isNumberParse (d : Diagnostic) : Bool :=
  match d.fault with
  | .numberParse _ => true
  | _ => false

/-- Whether the item is a token, or the diagnostic that comes with one. -/
def Item.isOfToken : Item → Bool
  | .ok _ => true
  | .error d => d.isNumberParse

/-- The position on the given line instead. -/
def Position.onLine (line : LineNumber) (p : Position) : Position := { p with number := line }

namespace Lexeme

variable {position : Position} {text : List Char} {items : List Item}

/-- Either all of what a lexeme yields comes with a token, or there is no token. -/
private theorem filter_isOfToken (h : Lexeme position text items) :
    items.filter Item.isOfToken = if items.any Except.isOk then items else [] := by
  cases h <;> rfl

/-- A lexeme with a token has one only. -/
private theorem exists_tokens_eq (h : Lexeme position text items)
    (hok : items.any Except.isOk = true) :
    ∃ t, Item.tokens items = [t] ∧ t.position = position := by
  cases h with
  | skipped | misfit | doubleQuote | singleQuote | unrecognised => cases hok
  | _ => exact ⟨_, rfl, rfl⟩

/-- A lexeme without a token has none. -/
theorem tokens_eq_nil (h : Lexeme position text items) (hok : items.any Except.isOk = false) :
    Item.tokens items = [] := by
  cases h with
  | skipped | misfit | doubleQuote | singleQuote | unrecognised => rfl
  | _ => cases hok

end Lexeme

namespace Segment

variable {dialect : Dialect} {unit : String}

private theorem any_isOk_items (s : Segment) (position : Position) :
    (s.items position).any Except.isOk = s.yieldsToken :=
  any_items (fun _ item => by cases item <;> rfl) s position default

/-- The segments that yield tokens yield the items of the tokens. -/
private theorem flatMap_items_filter_yieldsToken (line line₁ : LineNumber) (cs : List Char) :
    ((cut dialect cs).filter yieldsToken).flatMap (·.items ⟨line₁, unit⟩)
      = ((itemsFrom unit line (cut dialect cs)).filter Item.isOfToken).map
          (Item.move (Position.onLine line₁)) := by
  induction cs using cut_induction dialect generalizing line with
  | nil => rfl
  | step cs hne ih =>
    have hlexeme : Lexeme _ _ ((first dialect cs).items ⟨line, unit⟩) := lexeme_first hne _
    rw [cut_of_ne_nil dialect hne, itemsFrom, List.filter_append, List.map_append, ← ih,
      List.filter_cons, hlexeme.filter_isOfToken, any_isOk_items]
    split
    · rw [List.flatMap_cons, ← items_move]
      rfl
    · rfl

/-- Each segment that yields a token yields the one that has its number. -/
private theorem forall₂_tokens_itemsFrom (line : LineNumber) (cs : List Char) :
    List.Forall₂ (fun s t => Item.tokens (s.items t.position) = [t])
      ((cut dialect cs).filter yieldsToken)
      (Item.tokens (itemsFrom unit line (cut dialect cs))) := by
  induction cs using cut_induction dialect generalizing line with
  | nil => exact .nil
  | step cs hne ih =>
    have hlexeme : Lexeme _ _ ((first dialect cs).items ⟨line, unit⟩) := lexeme_first hne _
    rw [cut_of_ne_nil dialect hne, itemsFrom, Item.tokens_append]
    cases hyields : (first dialect cs).yieldsToken with
    | true =>
      obtain ⟨t, ht, hposition⟩ := hlexeme.exists_tokens_eq ((any_isOk_items ..).trans hyields)
      rw [List.filter_cons_of_pos hyields, ht]
      exact .cons (hposition ▸ ht) (ih _)
    | false =>
      rw [List.filter_cons_of_neg (by simp [hyields]),
        hlexeme.tokens_eq_nil ((any_isOk_items ..).trans hyields)]
      exact ih _

end Segment

/-- The segments of a text that yield its tokens. -/
def tokenSegments (dialect : Dialect) (source : String) : List Segment :=
  (Segment.cut dialect source.toList).filter Segment.yieldsToken

/-- **Respacing.** Put on one line, with a space between each two, the texts that a unit's tokens
were yielded for yield the same tokens, all on the first line. Nothing is reported again but
numerals without a value. -/
theorem tokenize_respaced (dialect : Dialect) (unit : Option String) (source : String) :
    List.Forall₂ (fun s t => Item.tokens (s.items t.position) = [t]) (tokenSegments dialect source)
        (tokenize dialect unit source).1 ∧
      tokenize dialect unit (Segment.respaced (tokenSegments dialect source))
        = ((tokenize dialect unit source).1.map (Token.move (Position.onLine 1)),
          ((tokenize dialect unit source).2.filter Diagnostic.isNumberParse).map
            (Diagnostic.move (Position.onLine 1))) := by
  refine ⟨Segment.forall₂_tokens_itemsFrom .., ?_⟩
  have halone : ∀ s ∈ tokenSegments dialect source,
      s.yieldsToken = true ∧ Segment.first dialect s.text = s := by
    intro s hs
    obtain ⟨hcut, hyields⟩ := List.mem_filter.1 hs
    obtain ⟨cs, -, -, rfl⟩ := Segment.exists_eq_first_of_mem_cut dialect hcut
    have hnil := Segment.first_of_yieldsToken hyields
      (by rw [Segment.first_text_append_drop]) (.inl rfl)
    exact ⟨hyields, by rwa [List.append_nil] at hnil⟩
  have hscan : scan dialect unit (Segment.respaced (tokenSegments dialect source))
      = ((scan dialect unit source).filter Item.isOfToken).map
          (Item.move (Position.onLine 1)) := by
    rw [scan, scan, Segment.itemsFrom_cut_respaced halone, tokenSegments,
      Segment.flatMap_items_filter_yieldsToken]
  rw [tokenize, hscan, Item.tokens_map_move, Item.diagnostics_map_move,
    Item.tokens_filter fun _ => rfl, Item.diagnostics_filter]
  rfl

end MiniC
