import MiniC.Lexer.Segment.Lemmas

/-!
# The first pattern that fits

Which patterns can take something of a text is decided by its first character
(`Pattern.first?_cons`). For letters, digits and blanks there is one pattern only; a quote starts a
literal or is reported by itself; a punctuator competes with those it starts, and the slash with the
comments. So each pattern gets a lemma that says when it is the first one that fits, and what it
takes then.
-/

namespace MiniC

/-- Whether something longer starts with the spelling of a punctuator. -/
def Kind.isExtendable : Kind → Bool
  | assign | less | greater | plus | dash | star | slash => true
  | _ => false

namespace Pattern

/-- The next character fails a test, if there is a next character. -/
def Stops (p : Char → Bool) (cs : List Char) : Prop := ∀ c ∈ cs.head?, p c = false

@[simp] theorem stops_nil (p : Char → Bool) : Stops p [] := nofun

@[simp] theorem stops_cons {p : Char → Bool} {c : Char} {cs : List Char} :
    Stops p (c :: cs) ↔ p c = false := by
  simp [Stops]

/-- Whether a text that the pattern takes something of may start with the character. -/
def mayStart : Pattern → Char → Bool
  | blank, c => Text.isSpacing c
  | lineComment, c | blockComment, c => c = '/'
  | word, c => isWordStart c
  | numeral, c => c.isDigit
  | charLiteral, c | singleQuote, c => c = '\''
  | stringLiteral, c | doubleQuote, c => c = '"'
  | punctuator kind, c => kind.spelling?.any fun spelling => spelling.toList.head? = some c

/-- The patterns that may take something of a text that starts with the character. -/
def candidates (c : Char) : List Pattern := table.filter (·.mayStart c)

variable {dialect : Dialect} {c : Char} {cs : List Char}

/-- A run ends where its test fails. -/
theorem runLength_append {p : Char → Bool} {ds : List Char} (hds : ∀ d ∈ ds, p d = true)
    (hcs : Stops p cs) : runLength p (ds ++ cs) = ds.length := by
  rw [runLength, List.takeWhile_append_of_pos hds]
  cases cs with
  | nil => simp
  | cons c cs => simp [stops_cons.1 hcs]

/-- Nothing satisfies a test that the next character fails. -/
theorem runLength_of_stops {p : Char → Bool} (h : Stops p cs) : runLength p cs = 0 := by
  have hnone : ∀ d ∈ ([] : List Char), p d = true := nofun
  exact runLength_append hnone h

theorem runLength_cons_of_pos {p : Char → Bool} (h : p c = true) :
    runLength p (c :: cs) = 1 + runLength p cs := by
  rw [runLength, List.takeWhile_cons, if_pos h, List.length_cons, Nat.add_comm]
  rfl

theorem runLength_cons_of_neg {p : Char → Bool} (h : p c = false) : runLength p (c :: cs) = 0 := by
  rw [runLength, List.takeWhile_cons, if_neg (by simp [h])]
  rfl

theorem run?_eq_none {p : Char → Bool} (h : p c = false) : run? p (c :: cs) = none := by
  rw [run?, runLength_cons_of_neg h, if_pos rfl]

theorem of_run?_cons {p : Char → Bool} {n : Nat} (h : run? p (c :: cs) = some n) : p c = true := by
  cases hc : p c with
  | true => rfl
  | false =>
    rw [run?_eq_none hc] at h
    cases h

theorem mayStart_of_length? {p : Pattern} {n : Nat} (h : p.length? dialect (c :: cs) = some n) :
    p.mayStart c = true := by
  cases p with
  | blank => exact of_run?_cons h
  | lineComment =>
    obtain ⟨rest, hstart, -⟩ := length?_lineComment_eq_some_iff.1 h
    exact decide_eq_true (List.cons.inj hstart).1
  | blockComment =>
    obtain ⟨rest, m, hstart, -⟩ := length?_blockComment_eq_some_iff.1 h
    exact decide_eq_true (List.cons.inj hstart).1
  | word =>
    obtain ⟨d, rest, hstart, hd, -⟩ := length?_word_eq_some_iff.1 h
    cases hstart
    exact hd
  | numeral =>
    obtain ⟨m, hm, -⟩ := Option.map_eq_some_iff.1 h
    exact of_run?_cons hm
  | charLiteral =>
    rcases charLiteral?_eq_some_iff.1 h with ⟨d, -, hstart, -⟩ | ⟨d, -, hstart, -⟩
    · exact decide_eq_true (List.cons_prefix_cons.1 hstart).1.symm
    · exact decide_eq_true (List.cons_prefix_cons.1 hstart).1.symm
  | stringLiteral =>
    obtain ⟨rest, m, hstart, -⟩ := length?_stringLiteral_eq_some_iff.1 h
    exact decide_eq_true (List.cons.inj hstart).1
  | doubleQuote =>
    obtain ⟨⟨rest, hstart⟩, -⟩ := length?_doubleQuote_eq_some_iff.1 h
    exact decide_eq_true (List.cons.inj hstart).1
  | singleQuote =>
    obtain ⟨⟨rest, hstart⟩, -⟩ := length?_singleQuote_eq_some_iff.1 h
    exact decide_eq_true (List.cons.inj hstart).1
  | punctuator kind =>
    obtain ⟨spelling, hspelling, hstart, -⟩ := length?_punctuator_eq_some_iff.1 h
    rw [mayStart, hspelling, Option.any_some, decide_eq_true_eq]
    cases hlist : spelling.toList with
    | nil => exact absurd hlist (spelling_ne_nil hspelling)
    | cons d ds =>
      rw [hlist] at hstart
      exact congrArg some (List.cons_prefix_cons.1 hstart).1

/-- Only the candidates for the first character of a text are tried in vain or not. -/
theorem first?_cons (dialect : Dialect) (c : Char) (cs : List Char) :
    first? dialect (c :: cs)
      = (candidates c).findSome? fun p => (p.length? dialect (c :: cs)).map (p, ·) := by
  -- A pattern that is no candidate takes nothing, so it may be left out of the table.
  have hskip (ps : List Pattern) :
      ps.findSome? (fun p => (p.length? dialect (c :: cs)).map (p, ·))
        = (ps.filter (·.mayStart c)).findSome?
            fun p => (p.length? dialect (c :: cs)).map (p, ·) := by
    induction ps with
    | nil => rfl
    | cons p ps ih =>
      by_cases hp : p.mayStart c = true
      · rw [List.filter_cons, if_pos hp, List.findSome?_cons, List.findSome?_cons, ih]
      · have hnone : p.length? dialect (c :: cs) = none :=
          Option.eq_none_iff_forall_ne_some.2 fun n hn => hp (mayStart_of_length? hn)
        rw [List.filter_cons, if_neg hp, List.findSome?_cons, hnone, ← ih]
        rfl
  exact hskip table

/-! ### Classes of characters -/

/-- The characters that something other than a word or a numeral may start with. -/
def specials : List Char :=
  [' ', '\t', '\r', '\n', '\'', '"', '\x7b', '\x7d', '(', ')', '=', '!', '<', '>', '+', '-', '*',
    '/', ':', ',', ';']

theorem mem_specials_of_mayStart {p : Pattern} (h : p.mayStart c = true) (hword : p ≠ word)
    (hnumeral : p ≠ numeral) : c ∈ specials := by
  cases p with
  | blank =>
    simp only [mayStart, Text.isSpacing, Bool.or_eq_true, decide_eq_true_eq] at h
    rcases h with ((rfl | rfl) | rfl) | rfl <;> decide
  | lineComment | blockComment | charLiteral | stringLiteral | doubleQuote | singleQuote =>
    rw [of_decide_eq_true h]
    decide
  | word => exact absurd rfl hword
  | numeral => exact absurd rfl hnumeral
  | punctuator kind =>
    revert h
    cases kind <;> simp only [mayStart, Kind.spelling?, Option.any_none, Option.any_some,
      decide_eq_true_eq, Bool.false_eq_true, false_implies] <;> intro h <;> cases h <;> decide

theorem isDigit_of_isWordStart (h : isWordStart c = true) : c.isDigit = false := by
  -- The digits come before all letters and the underscore.
  have hge : 'A'.toNat ≤ c.toNat := by
    rcases Bool.or_eq_true_iff.1 h with h | h
    · rcases Bool.or_eq_true_iff.1 h with h | h
      · have hupper : 'A'.val ≤ c.val ∧ c.val ≤ 'Z'.val := of_decide_eq_true h
        exact hupper.1
      · have hlower := Bool.and_eq_true_iff.1 h
        have hle : 'a'.val ≤ c.val := of_decide_eq_true hlower.1
        exact Nat.le_trans (by decide) hle
    · rw [of_decide_eq_true h]
      decide
  rw [Bool.eq_false_iff]
  intro hd
  have hle := (Char.isDigit_iff_toNat.1 hd).2
  exact absurd (Nat.le_trans hge hle) (by decide)

/-- A letter or an underscore starts a word, and nothing else does. -/
theorem candidates_of_isWordStart (h : isWordStart c = true) : candidates c = [word] := by
  have hclass (p : Pattern) : p.mayStart c = decide (p = word) := by
    by_cases hword : p = word
    · rw [hword]
      exact h
    · rw [decide_eq_false hword, Bool.eq_false_iff]
      intro hp
      by_cases hnumeral : p = numeral
      · rw [hnumeral, mayStart, isDigit_of_isWordStart h] at hp
        cases hp
      · have hmem := mem_specials_of_mayStart hp hword hnumeral
        exact not_mem_of_all (by decide) h hmem
  rw [candidates, List.filter_congr fun p _ => hclass p]
  decide

/-- A digit starts a numeral, and nothing else. -/
theorem candidates_of_isDigit (h : c.isDigit = true) : candidates c = [numeral] := by
  have hclass (p : Pattern) : p.mayStart c = decide (p = numeral) := by
    by_cases hnumeral : p = numeral
    · rw [hnumeral]
      exact h
    · rw [decide_eq_false hnumeral, Bool.eq_false_iff]
      intro hp
      by_cases hword : p = word
      · rw [hword] at hp
        rw [isDigit_of_isWordStart hp] at h
        cases h
      · have hmem := mem_specials_of_mayStart hp hword hnumeral
        exact not_mem_of_all (by decide) h hmem
  rw [candidates, List.filter_congr fun p _ => hclass p]
  decide

private theorem candidates_of_isSpacing (h : Text.isSpacing c = true) : candidates c = [blank] := by
  simp only [Text.isSpacing, Bool.or_eq_true, decide_eq_true_eq] at h
  rcases h with ((rfl | rfl) | rfl) | rfl <;> decide

/-! ### The first pattern for each start -/

theorem first?_of_isWordStart (h : isWordStart c = true) :
    first? dialect (c :: cs) = some (word, 1 + runLength isWordRest cs) := by
  rw [first?_cons, candidates_of_isWordStart h, List.findSome?_cons, length?, if_pos h]
  rfl

theorem first?_of_isDigit (h : c.isDigit = true) :
    first? dialect (c :: cs) = (numeral? dialect (c :: cs)).map (numeral, ·) := by
  rw [first?_cons, candidates_of_isDigit h, List.findSome?_singleton]
  rfl

theorem first?_of_isSpacing (h : Text.isSpacing c = true) :
    first? dialect (c :: cs) = some (blank, 1 + runLength Text.isSpacing cs) := by
  rw [first?_cons, candidates_of_isSpacing h, List.findSome?_singleton, length?, run?,
    runLength_cons_of_pos h, if_neg (by omega)]
  rfl

/-- A single quote starts a literal or stands by itself. -/
theorem first?_singleQuote :
    first? dialect ('\'' :: cs) = some (match charLiteral? ('\'' :: cs) with
      | some n => (charLiteral, n)
      | none => (singleQuote, 1)) := by
  have hcandidates : candidates '\'' = [charLiteral, singleQuote] := by decide
  rw [first?_cons, hcandidates, List.findSome?_cons, length?]
  cases charLiteral? ('\'' :: cs) <;> rfl

/-- A double quote starts a literal or stands by itself. -/
theorem first?_doubleQuote :
    first? dialect ('"' :: cs) = some (match throughStringEnd? cs with
      | some n => (stringLiteral, 1 + n)
      | none => (doubleQuote, 1)) := by
  have hcandidates : candidates '"' = [stringLiteral, doubleQuote] := by decide
  rw [first?_cons, hcandidates, List.findSome?_cons, length?]
  cases throughStringEnd? cs <;> rfl

/-! ### Punctuators -/

/-- The characters that a longer punctuator or a comment goes on with. -/
def isPunctuatorRest (c : Char) : Bool := c = '=' || c = '/' || c = '*'

/-- A punctuator of one character is taken where the one that goes on with `=` is not. -/
private theorem first?_of_longer (longer kind : Kind) (spelling : String)
    (hcandidates : candidates c = [punctuator longer, punctuator kind])
    (hlonger : longer.spelling? = some (spelling ++ "=")) (hkind : kind.spelling? = some spelling)
    (hspelling : spelling.toList = [c]) (hcs : Stops isPunctuatorRest cs) :
    first? dialect (spelling.toList ++ cs) = some (punctuator kind, spelling.length) := by
  have hequals : "=".toList = ['='] := rfl
  -- The longer spelling stands first in the table, so it has to be refused.
  have hlonger' : (punctuator longer).length? dialect (c :: cs) = none := by
    rw [length?, hlonger, Option.bind_some, String.toList_append, hspelling, hequals]
    cases cs with
    | nil => simp
    | cons d ds =>
      have hd : d ≠ '=' := by
        rintro rfl
        exact absurd (stops_cons.1 hcs) (by decide)
      simp [hd.symm]
  have hkind' : (punctuator kind).length? dialect (c :: cs) = some 1 := by
    rw [length?, hkind, Option.bind_some, ← String.length_toList, hspelling]
    simp
  rw [← String.length_toList, hspelling, List.singleton_append, first?_cons, hcandidates,
    List.findSome?_cons, hlonger', Option.map_none, List.findSome?_singleton, hkind']
  rfl

private theorem candidates_slash :
    candidates '/' = [lineComment, blockComment, punctuator .slashAssign, punctuator .slash] := by
  decide

theorem first?_lineComment :
    first? dialect ('/' :: '/' :: cs) = some (lineComment, 2 + runLength (· ≠ '\n') cs) := by
  rw [first?_cons, candidates_slash, List.findSome?_cons, length?]
  rfl

/-- A block comment is taken where it ends. -/
theorem first?_blockComment {n : Nat} (h : throughCommentEnd? cs = some n) :
    first? dialect ('/' :: '*' :: cs) = some (blockComment, 2 + n) := by
  have hline : lineComment.length? dialect ('/' :: '*' :: cs) = none := rfl
  rw [first?_cons, candidates_slash, List.findSome?_cons, hline, Option.map_none,
    List.findSome?_cons, length?, h]
  rfl

/-- Where it does not end, the slash is taken by itself. -/
theorem first?_openComment (h : throughCommentEnd? cs = none) :
    first? dialect ('/' :: '*' :: cs) = some (punctuator .slash, 1) := by
  have hline : lineComment.length? dialect ('/' :: '*' :: cs) = none := rfl
  rw [first?_cons, candidates_slash, List.findSome?_cons, hline, Option.map_none,
    List.findSome?_cons, length?, h]
  rfl

theorem first?_slashAssign :
    first? dialect ('/' :: '=' :: cs) = some (punctuator .slashAssign, 2) := by
  rw [first?_cons, candidates_slash]
  rfl

theorem first?_slash (hcs : Stops isPunctuatorRest cs) :
    first? dialect ('/' :: cs) = some (punctuator .slash, 1) := by
  cases cs with
  | nil => rfl
  | cons d ds =>
    have hd := stops_cons.1 hcs
    simp only [isPunctuatorRest, Bool.or_eq_false_iff, decide_eq_false_iff_not] at hd
    obtain ⟨⟨hequals, hslash⟩, hstar⟩ := hd
    rw [eq_comm] at hequals
    rw [first?_cons, candidates_slash]
    simp [length?, Kind.spelling?, hequals, hslash, hstar]
    decide

/-- A punctuator is taken as a whole, unless something longer starts with it. -/
theorem first?_punctuator {kind : Kind} {spelling : String} (hkind : kind.spelling? = some spelling)
    (hcs : kind.isExtendable = true → Stops isPunctuatorRest cs) :
    first? dialect (spelling.toList ++ cs) = some (punctuator kind, spelling.length) := by
  -- Seven spellings are the start of a longer one. All others are decided by the table.
  cases kind <;> cases hkind
  case assign => exact first?_of_longer .equals .assign "=" (by decide) rfl rfl rfl (hcs rfl)
  case less => exact first?_of_longer .lessEquals .less "<" (by decide) rfl rfl rfl (hcs rfl)
  case greater =>
    exact first?_of_longer .greaterEquals .greater ">" (by decide) rfl rfl rfl (hcs rfl)
  case plus => exact first?_of_longer .plusAssign .plus "+" (by decide) rfl rfl rfl (hcs rfl)
  case dash => exact first?_of_longer .minusAssign .dash "-" (by decide) rfl rfl rfl (hcs rfl)
  case star => exact first?_of_longer .starAssign .star "*" (by decide) rfl rfl rfl (hcs rfl)
  case slash => exact first?_slash (hcs rfl)
  all_goals rfl

end Pattern

end MiniC
