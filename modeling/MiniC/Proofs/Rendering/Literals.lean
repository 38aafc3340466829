import MiniC.Proofs.Rendering.RoundTrip

/-!
# Literals that are read back

A character or a text is written between quotes as a listing shows it, which is not always how the
language writes it: the language has no escape for a code point. So a literal is read back if, and
only if, its characters are plain (`readsAs_render_iff`). The code point of a character leaves a
quote without a literal, and in a text it stands for its own spelling.

Every character and every text is the value of some literal, since a literal may hold any character
of its line as it is.
-/

namespace MiniC

variable {dialect : Dialect} {unit : Option String}

/-- A text **reads as** a literal: it is one token with that value, and nothing is reported. -/
def ReadsAs (dialect : Dialect) (unit : Option String) (source : String) (value : Literal) : Prop :=
  ∃ t, tokenize dialect unit source = ([t], []) ∧ t.literal = some value

/-- A text that yields tokens before any text is tokenized to them. -/
theorem Yields.tokenize_eq {source : String} {ts : List Token}
    (h : Yields dialect (unit.getD Position.anonymousUnit) 1 source.toList ts fun _ => True) :
    tokenize dialect unit source = (ts, []) :=
  tokenize_of_scan (h.itemsFrom_cut trivial)

/-! ### Characters -/

/-- The first quote of a code point is reported. -/
private theorem diagnostics_ne_nil_of_not_isPlain {c : Char} (h : ¬Text.IsPlain '\'' c) :
    (tokenize dialect unit (Text.quotedChar c)).2 ≠ [] := by
  have htext : (Text.quotedChar c).toList
      = ['\''] ++ (Text.escape '\'' c ++ ['\'']) := by
    rw [Text.quotedChar, String.toList_ofList, List.append_assoc]
  have hfirst : Pattern.first? dialect (['\''] ++ (Text.escape '\'' c ++ ['\'']))
      = some (.singleQuote, 1) := by
    rw [List.singleton_append, Pattern.first?_singleQuote, Text.escape_of_not_isPlain h]
    rfl
  rw [tokenize, scan, htext, Segment.itemsFrom_cut_append (List.cons_ne_nil '\'' []) hfirst]
  exact List.cons_ne_nil _ _

theorem readsAs_quotedChar_iff {c : Char} :
    ReadsAs dialect unit (Text.quotedChar c) (.char c) ↔ Text.IsPlain '\'' c := by
  constructor
  · rintro ⟨t, htokens, -⟩
    exact Decidable.byContradiction fun h =>
      diagnostics_ne_nil_of_not_isPlain h (congrArg Prod.snd htokens)
  · intro h
    exact ⟨_, (Yields.charLiteral h).tokenize_eq, rfl⟩

/-! ### Texts -/

theorem readsAs_quoted_iff {s : String} :
    ReadsAs dialect unit (Text.quoted s) (.str s) ↔ ∀ c ∈ s.toList, Text.IsPlain '"' c := by
  have htokens : tokenize dialect unit _ = _ := (Yields.quoted s).tokenize_eq
  constructor
  · rintro ⟨t, htokens', hliteral⟩
    rw [htokens, Prod.mk.injEq, List.cons.injEq] at htokens'
    rw [← htokens'.1.1, Option.some.injEq, Literal.str.injEq] at hliteral
    refine (Text.unescape_escapes_iff (.inr rfl)).1 ?_
    rw [← String.ofList_inj, hliteral, String.ofList_toList]
  · intro h
    exact ⟨_, (Yields.stringLiteral h).tokenize_eq, rfl⟩

/-- **Literals between quotes.** A character, as an expression or as a label, and a text are read
back from what they are written as if, and only if, their characters are plain. -/
theorem readsAs_render_iff (dialect : Dialect) (unit : Option String) :
    (∀ c, ReadsAs dialect unit (Expr.char c).render (.char c) ↔ Text.IsPlain '\'' c) ∧
    (∀ c, ReadsAs dialect unit (CaseLabel.char c).render (.char c) ↔ Text.IsPlain '\'' c) ∧
    (∀ s, ReadsAs dialect unit (Expr.string s).render (.str s) ↔
      ∀ c ∈ s.toList, Text.IsPlain '"' c) :=
  ⟨fun _ => readsAs_quotedChar_iff, fun _ => readsAs_quotedChar_iff, fun _ => readsAs_quoted_iff⟩

/-- A control character may stand between quotes, but is not read back from its code point. -/
theorem not_readsAs_render_control :
    ReadsAs {} none (String.ofList ['\'', '\x01', '\'']) (.char '\x01') ∧
      ¬ReadsAs {} none (Expr.char '\x01').render (.char '\x01') := by
  refine ⟨⟨_, rfl, rfl⟩, fun h => ?_⟩
  exact absurd (readsAs_quotedChar_iff.1 h) (by decide +kernel)

end MiniC
