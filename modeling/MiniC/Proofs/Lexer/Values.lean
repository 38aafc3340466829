import MiniC.Lexer.Segment.Lemmas
import MiniC.Lexer.Tokenize
import MiniC.Proofs.Syntax.Composed

/-!
# Values of tokens

What the scanner yields as the text of an identifier is a name, and what it yields as a value is in
the range of the literals (`isOver_of_mem_tokenize`). A numeral has no sign, and one whose value the
type cannot hold is replaced by zero.
-/

namespace MiniC

/-! ### Numerals -/

namespace Numeral

private theorem inRange_of_value? {text : List Char} {literal : Literal}
    (h : value? text = some literal) : literal.InRange := by
  simp only [value?] at h
  split at h
  · split at h <;> cases h
    rename_i hfinite
    exact ⟨hfinite, Binary64.isNegative_ofDecimal _⟩
  · split at h <;> cases h
    rename_i hle
    have hlt : ofDigits text < 2 ^ 63 := by
      rw [maxInt] at hle
      omega
    rw [Literal.InRange, Int64.toInt_ofNat_of_lt hlt]
    exact Int.natCast_nonneg _

theorem inRange_substitute (text : List Char) : (substitute text).InRange := by
  rw [substitute]
  split
  · exact ⟨by decide, by decide⟩
  · exact Int.le_refl 0

end Numeral

/-! ### Words -/

theorem isWord_of_length? {dialect : Dialect} {cs : List Char} {n : Nat}
    (h : Pattern.word.length? dialect cs = some n) : IsWord (String.ofList (cs.take n)) := by
  obtain ⟨c, rest, rfl, hc, rfl⟩ := Pattern.length?_word_eq_some_iff.1 h
  refine ⟨c, rest.take (Pattern.runLength Pattern.isWordRest rest), ?_, hc, fun d hd =>
    Pattern.of_mem_take_runLength hd⟩
  rw [String.toList_ofList, List.singleton_append, Nat.add_comm, List.take_succ_cons]

/-- A word that is read as an identifier is not reserved. -/
private theorem Kind.reserved?_of_ofWord {word : String} (h : ofWord word = .identifier) :
    reserved? word = none := by
  rw [ofWord] at h
  unfold reserved? at h ⊢
  split at h <;> first | rfl | cases h

/-! ### Segments and units -/

theorem Item.mem_tokens_iff {items : List Item} {t : Token} :
    t ∈ Item.tokens items ↔ .ok t ∈ items := by
  rw [Item.tokens, List.mem_filterMap]
  constructor
  · rintro ⟨item | item, hitem, heq⟩ <;> cases heq
    exact hitem
  · intro ht
    exact ⟨_, ht, rfl⟩

theorem Item.mem_diagnostics_iff {items : List Item} {d : Diagnostic} :
    d ∈ Item.diagnostics items ↔ .error d ∈ items := by
  rw [Item.diagnostics, List.mem_filterMap]
  constructor
  · rintro ⟨item | item, hitem, heq⟩ <;> cases heq
    exact hitem
  · intro hd
    exact ⟨_, hd, rfl⟩

/-- What segments yield is yielded by one of them. -/
theorem Segment.exists_of_mem_itemsFrom {unit : String} {line : LineNumber}
    {segments : List Segment} {item : Item} (h : item ∈ itemsFrom unit line segments) :
    ∃ s ∈ segments, ∃ position, item ∈ s.items position := by
  induction segments generalizing line with
  | nil => cases h
  | cons s segments ih =>
    rw [itemsFrom, List.mem_append] at h
    rcases h with h | h
    · exact ⟨s, List.mem_cons_self, _, h⟩
    · obtain ⟨s', hs', hitem⟩ := ih h
      exact ⟨s', List.mem_cons_of_mem s hs', hitem⟩

/-- A token that a pattern yields is over the literals in range. -/
private theorem Segment.isOver_of_mem_items {dialect : Dialect} {cs : List Char} {p : Pattern}
    {n : Nat} {position : Position} {t : Token} (hlength : p.length? dialect cs = some n)
    (ht : .ok t ∈ (Segment.mk (some p) (cs.take n)).items position) :
    t.IsOver Literal.InRange := by
  -- A literal is no identifier, so only its value counts.
  have hliteral {kind : Kind} {text : String} {literal : Literal} (hkind : kind ≠ .identifier)
      (h : literal.InRange) :
      Token.IsOver Literal.InRange ⟨kind, text, some literal, position⟩ := by
    refine ⟨fun hidentifier => absurd hidentifier hkind, ?_⟩
    rintro _ ⟨⟩
    exact h
  cases p with
  | blank | lineComment | blockComment => cases ht
  | word =>
    cases List.mem_singleton.1 ht
    exact ⟨fun hkind => ⟨isWord_of_length? hlength, Kind.reserved?_of_ofWord hkind⟩, nofun⟩
  | numeral =>
    simp only [items] at ht
    split at ht
    · rename_i value hvalue
      cases List.mem_singleton.1 ht
      exact hliteral (by decide) (Numeral.inRange_of_value? hvalue)
    · simp only [List.mem_cons, List.not_mem_nil, or_false, reduceCtorEq, false_or] at ht
      cases ht
      exact hliteral (by decide) (Numeral.inRange_substitute _)
  | charLiteral =>
    simp only [items] at ht
    split at ht <;> cases List.mem_singleton.1 ht
    exact hliteral (by decide) trivial
  | stringLiteral =>
    cases List.mem_singleton.1 ht
    exact hliteral (by decide) trivial
  | doubleQuote | singleQuote => cases List.mem_singleton.1 ht
  | punctuator kind =>
    cases List.mem_singleton.1 ht
    obtain ⟨spelling, hspelling, -⟩ := Option.bind_eq_some_iff.1 hlength
    refine ⟨?_, nofun⟩
    rintro rfl
    cases hspelling

/-- **Tokens of a unit.** Identifiers are names, and values are in range. -/
theorem isOver_of_mem_tokenize {dialect : Dialect} {unit : Option String} {source : String}
    {t : Token} (ht : t ∈ (tokenize dialect unit source).1) : t.IsOver Literal.InRange := by
  obtain ⟨s, hs, position, hitem⟩ :=
    Segment.exists_of_mem_itemsFrom (Item.mem_tokens_iff.1 ht)
  obtain ⟨cs, -, -, rfl⟩ := Segment.exists_eq_first_of_mem_cut dialect hs
  rw [Segment.first] at hitem
  split at hitem
  · rename_i p n hfirst
    exact Segment.isOver_of_mem_items (Pattern.exists_of_first? hfirst).2 hitem
  · -- What no pattern takes yields diagnostics only.
    obtain ⟨c, -, heq⟩ := List.mem_map.1 hitem
    cases heq

end MiniC
