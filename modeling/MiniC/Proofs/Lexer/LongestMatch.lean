import MiniC.Proofs.Lexer.Lookahead

/-!
# Longest matches

The scanner tries the patterns in the order of their table and takes the first one that fits. It
never measures the others, and yet it takes the longest match (`Pattern.first_longest`): wherever
two patterns of the table fit, the earlier one takes more than the later one.

For that it is enough to know of each pattern what it starts with, and how few and how many
characters it takes. Two patterns that may start with the same character either go on differently,
so that they never fit both, or the later one never takes as much as the earlier one takes at least
(`Pattern.Outdoes`). There are few such pairs, and they are gone through one by one.
-/

namespace MiniC.Pattern

/-! ### What is known of a match beforehand -/

/-- The text that all that a pattern takes starts with. A run starts with a character of some class
instead, which `mayStart` tells. -/
def opening : Pattern → List Char
  | blank | word | numeral => []
  | lineComment => ['/', '/']
  | blockComment => ['/', '*']
  | charLiteral | singleQuote => ['\'']
  | stringLiteral | doubleQuote => ['"']
  | punctuator kind => (kind.spelling?.getD "").toList

/-- The least number of characters that a pattern takes. -/
def leastLength : Pattern → Nat
  | blank | word | numeral | doubleQuote | singleQuote => 1
  | lineComment | stringLiteral => 2
  | charLiteral => 3
  | blockComment => 4
  | punctuator kind => (kind.spelling?.getD "").length

/-- The greatest number of characters that a pattern takes, if there is one. -/
def greatestLength? : Pattern → Option Nat
  | blank | word | numeral | lineComment | blockComment | stringLiteral => none
  | doubleQuote | singleQuote => some 1
  | charLiteral => some 4
  | punctuator kind => some (kind.spelling?.getD "").length

/-- A pattern that **outdoes** another one: if both fit a text, it takes more of it. They may not
fit both, since neither opening goes on with the other one. -/
def Outdoes (p q : Pattern) : Prop :=
  ¬p.opening <+: q.opening ∧ ¬q.opening <+: p.opening ∨
    ∃ m ∈ q.greatestLength?, m < p.leastLength

instance (p q : Pattern) : Decidable (Outdoes p q) := inferInstanceAs (Decidable (_ ∨ _))

variable {dialect : Dialect} {cs : List Char} {p q : Pattern} {n m : Nat}

private theorem isPrefix_opening (h : p.length? dialect cs = some n) : p.opening <+: cs := by
  have hpos := length?_bounds h
  obtain ⟨c, cs, rfl⟩ := List.exists_cons_of_length_pos (Nat.lt_of_lt_of_le hpos.1 hpos.2)
  have hstart : p.mayStart c = true := mayStart_of_length? h
  have hsingle {d : Char} (hd : c = d) : [d] <+: c :: cs :=
    List.cons_prefix_cons.2 ⟨hd.symm, List.nil_prefix⟩
  cases p with
  | blank | word | numeral => exact List.nil_prefix
  | lineComment =>
    obtain ⟨rest, hrest, -⟩ := length?_lineComment_eq_some_iff.1 h
    exact ⟨rest, hrest.symm⟩
  | blockComment =>
    obtain ⟨rest, m, hrest, -⟩ := length?_blockComment_eq_some_iff.1 h
    exact ⟨rest, hrest.symm⟩
  | charLiteral | singleQuote => exact hsingle (of_decide_eq_true hstart)
  | stringLiteral | doubleQuote => exact hsingle (of_decide_eq_true hstart)
  | punctuator kind =>
    obtain ⟨spelling, hspelling, hprefix, -⟩ := length?_punctuator_eq_some_iff.1 h
    rwa [opening, hspelling]

private theorem leastLength_le (h : p.length? dialect cs = some n) : p.leastLength ≤ n := by
  cases p with
  | blank | word | numeral | doubleQuote | singleQuote => exact (length?_bounds h).1
  | lineComment =>
    obtain ⟨rest, -, rfl⟩ := length?_lineComment_eq_some_iff.1 h
    exact Nat.le_add_right 2 _
  | blockComment =>
    obtain ⟨rest, m, -, hm, rfl⟩ := length?_blockComment_eq_some_iff.1 h
    -- The end of the comment has two characters of its own.
    obtain ⟨body, htake, -⟩ := exists_take_of_throughCommentEnd? hm
    have hlength := congrArg List.length htake
    rw [List.length_take_of_le (throughCommentEnd?_bounds hm).2, List.length_append] at hlength
    simp only [leastLength, List.length_cons, List.length_nil] at hlength ⊢
    omega
  | charLiteral =>
    rcases charLiteral?_eq_some_iff.1 h with ⟨-, -, -, rfl⟩ | ⟨-, -, -, rfl⟩ <;> decide
  | stringLiteral =>
    obtain ⟨rest, m, -, hm, rfl⟩ := length?_stringLiteral_eq_some_iff.1 h
    have hpos := (throughStringEnd?_bounds hm).1
    simp only [leastLength]
    omega
  | punctuator kind =>
    obtain ⟨spelling, hspelling, -, rfl⟩ := length?_punctuator_eq_some_iff.1 h
    exact Nat.le_of_eq (by rw [leastLength, hspelling, Option.getD_some, String.length_toList])

private theorem le_greatestLength (h : p.length? dialect cs = some n) (hm : m ∈ p.greatestLength?) :
    n ≤ m := by
  cases p with
  | blank | word | numeral | lineComment | blockComment | stringLiteral => cases hm
  | doubleQuote =>
    cases hm
    exact Nat.le_of_eq (length?_doubleQuote_eq_some_iff.1 h).2
  | singleQuote =>
    cases hm
    exact Nat.le_of_eq (length?_singleQuote_eq_some_iff.1 h).2
  | charLiteral =>
    cases hm
    rcases charLiteral?_eq_some_iff.1 h with ⟨-, -, -, rfl⟩ | ⟨-, -, -, rfl⟩ <;> decide
  | punctuator kind =>
    cases hm
    obtain ⟨spelling, hspelling, -, rfl⟩ := length?_punctuator_eq_some_iff.1 h
    exact Nat.le_of_eq (by rw [hspelling, Option.getD_some, String.length_toList])

/-- Where both fit, a pattern takes more than one that it outdoes. -/
theorem Outdoes.lt (h : Outdoes p q) (hp : p.length? dialect cs = some n)
    (hq : q.length? dialect cs = some m) : m < n := by
  rcases h with ⟨hpq, hqp⟩ | ⟨k, hk, hlt⟩
  · rcases List.prefix_or_prefix_of_prefix (isPrefix_opening hp) (isPrefix_opening hq) with h | h
    · exact absurd h hpq
    · exact absurd h hqp
  · calc m
      _ ≤ k := le_greatestLength hq hk
      _ < p.leastLength := hlt
      _ ≤ n := leastLength_le hp

/-! ### The order of the table -/

/-- Of the patterns that may start with the same character, each one outdoes those that come after
it. -/
private theorem pairwise_outdoes_candidates (c : Char) : (candidates c).Pairwise Outdoes := by
  by_cases hword : isWordStart c = true
  · rw [candidates_of_isWordStart hword]
    exact List.pairwise_singleton Outdoes word
  by_cases hdigit : c.isDigit = true
  · rw [candidates_of_isDigit hdigit]
    exact List.pairwise_singleton Outdoes numeral
  by_cases hspecial : c ∈ specials
  · have hall : (specials.all fun c => (candidates c).Pairwise Outdoes) = true := by decide
    exact of_decide_eq_true (List.all_eq_true.1 hall c hspecial)
  · have hnone : candidates c = [] := by
      refine List.filter_eq_nil_iff.2 fun p _ hp => hspecial ?_
      refine mem_specials_of_mayStart hp ?_ ?_
      · rintro rfl
        exact hword hp
      · rintro rfl
        exact hdigit hp
    rw [hnone]
    exact List.Pairwise.nil

/-- **The table is in order.** Of two patterns that fit a text the earlier one takes more. -/
theorem pairwise_table (dialect : Dialect) (cs : List Char) :
    table.Pairwise fun p q => ∀ n m, p.length? dialect cs = some n →
      q.length? dialect cs = some m → m < n := by
  cases cs with
  | nil =>
    -- Nothing fits where nothing is left.
    refine List.pairwise_of_forall fun p q n m hp _ => ?_
    have hbounds := length?_bounds hp
    rw [List.length_nil] at hbounds
    omega
  | cons c cs =>
    have hcandidates := List.pairwise_filter.1 (pairwise_outdoes_candidates c)
    refine hcandidates.imp fun houtdoes n m hp hq => ?_
    exact (houtdoes (mayStart_of_length? hp) (mayStart_of_length? hq)).lt hp hq

/-- **Longest match.** If any pattern of the table fits a text, the first one that fits takes more
than every other one that fits, and what it takes is the first segment of the text. -/
theorem first_longest (hq : q ∈ table) (hm : q.length? dialect cs = some m) :
    ∃ earlier p later n, table = earlier ++ p :: later ∧
      (∀ q ∈ earlier, q.length? dialect cs = none) ∧ p.length? dialect cs = some n ∧
      Segment.first dialect cs = ⟨some p, cs.take n⟩ ∧
      ∀ q ∈ later, ∀ m, q.length? dialect cs = some m → m < n := by
  have hsome : first? dialect cs ≠ none := by
    intro hnone
    rw [length?_eq_none_of_first? hnone hq] at hm
    cases hm
  obtain ⟨⟨p, n⟩, hfirst⟩ := Option.ne_none_iff_exists'.1 hsome
  obtain ⟨earlier, p', later, htable, hp', hearlier⟩ := List.findSome?_eq_some_iff.1 hfirst
  obtain ⟨n', hn, heq⟩ := Option.map_eq_some_iff.1 hp'
  cases heq
  refine ⟨earlier, p, later, n, htable, ?_, hn, ?_, ?_⟩
  · intro q hq
    exact Option.map_eq_none_iff.1 (hearlier q hq)
  · rw [Segment.first, hfirst]
  · intro q hq m hm
    have hpairwise := pairwise_table dialect cs
    rw [htable] at hpairwise
    obtain ⟨-, hlater, -⟩ := List.pairwise_append.1 hpairwise
    exact (List.pairwise_cons.1 hlater).1 q hq n m hn hm

/-- The slash fits too where a comment starts, but the comment comes first. -/
theorem first_longest_comment :
    punctuator .slash ∈ table ∧ (punctuator .slash).length? {} "/*=/**/ x".toList = some 1 ∧
      ∃ earlier p later n, table = earlier ++ p :: later ∧
        (∀ q ∈ earlier, q.length? {} "/*=/**/ x".toList = none) ∧
        p.length? {} "/*=/**/ x".toList = some n ∧
        Segment.first {} "/*=/**/ x".toList = ⟨some p, "/*=/**/ x".toList.take n⟩ ∧
        ∀ q ∈ later, ∀ m, q.length? {} "/*=/**/ x".toList = some m → m < n := by
  have hmem : punctuator .slash ∈ table := by decide
  have hslash : (punctuator .slash).length? {} "/*=/**/ x".toList = some 1 := by decide
  exact ⟨hmem, hslash, first_longest hmem hslash⟩

end MiniC.Pattern
