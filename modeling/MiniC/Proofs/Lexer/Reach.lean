import MiniC.Proofs.Lexer.FirstMatch
import MiniC.Proofs.Lexer.Items

/-!
# Where the scanner gets to

The scanner **reaches** a place of a text if a segment starts there, or if the text ends there. A
text **has an open comment** if the scanner reaches a comment that does not end. Nothing is taken
as a comment then: the slash is a token, and the scanner goes on after it.

What tokens and diagnostics a text yields depends on its segments only, apart from the positions. So
the braces of the tokens are counted segment by segment (`Item.braceBalance_itemsFrom`), and lone
quotes are seen in the diagnostics (`Segment.isClosed_of_mem`).
-/

namespace MiniC

-- Sums start from the zero of the core library, whatever else is in scope.
attribute [local instance (high)] Zero.ofOfNat0

namespace Segment

/-- That the scanner gets from the start of one text to the start of another, which is a part of it
up to its end. -/
inductive Reaches (dialect : Dialect) : List Char → List Char → Prop
  | refl (cs : List Char) : Reaches dialect cs cs
  | step {cs rest : List Char} : cs ≠ [] →
      Reaches dialect (cs.drop (first dialect cs).text.length) rest → Reaches dialect cs rest

theorem Reaches.trans {dialect : Dialect} {cs middle rest : List Char}
    (h : Reaches dialect cs middle) (h' : Reaches dialect middle rest) :
    Reaches dialect cs rest := by
  induction h with
  | refl => exact h'
  | step hne _ ih => exact .step hne (ih h')

/-- The scanner reaches the places between the segments of a text, and no others. -/
theorem reaches_iff {dialect : Dialect} {cs rest : List Char} :
    Reaches dialect cs rest ↔
      ∃ taken, cut dialect cs = taken ++ cut dialect rest ∧
        cs = (taken.map text).flatten ++ rest := by
  constructor
  · intro h
    induction h with
    | refl cs => exact ⟨[], rfl, rfl⟩
    | @step cs rest hne _ ih =>
      obtain ⟨taken, hcut, htext⟩ := ih
      refine ⟨first dialect cs :: taken, ?_, ?_⟩
      · rw [cut_of_ne_nil dialect hne, hcut, List.cons_append]
      · rw [List.map_cons, List.flatten_cons, List.append_assoc, ← htext, first_text_append_drop]
  · rintro ⟨taken, hcut, htext⟩
    induction taken generalizing cs with
    | nil =>
      rw [htext]
      exact .refl rest
    | cons s taken ih =>
      by_cases hne : cs = []
      · rw [hne, cut_nil] at hcut
        cases hcut
      · rw [cut_of_ne_nil dialect hne, List.cons_append] at hcut
        obtain ⟨hs, hcut⟩ := List.cons.inj hcut
        refine .step hne (ih hcut ?_)
        rw [hs, htext, List.map_cons, List.flatten_cons, List.append_assoc, List.drop_left]

end Segment

/-- A text that starts with a block comment without an end. -/
def OpensComment (cs : List Char) : Prop :=
  ∃ rest, cs = '/' :: '*' :: rest ∧ ¬['*', '/'] <:+: rest

/-- A text in which the scanner reaches a block comment without an end. -/
def HasOpenComment (dialect : Dialect) (cs : List Char) : Prop :=
  ∃ rest, Segment.Reaches dialect cs rest ∧ OpensComment rest

section

variable {dialect : Dialect} {cs : List Char}

theorem not_hasOpenComment_nil : ¬HasOpenComment dialect [] := by
  rintro ⟨rest, hreach, comment, rfl, -⟩
  cases hreach with
  | step hne => exact hne rfl

/-- An open comment is right at the start, or it is reached from the end of the first segment. -/
theorem hasOpenComment_iff (hne : cs ≠ []) :
    HasOpenComment dialect cs ↔
      OpensComment cs ∨
        HasOpenComment dialect (cs.drop (Segment.first dialect cs).text.length) := by
  constructor
  · rintro ⟨rest, hreach, hopen⟩
    cases hreach with
    | refl => exact .inl hopen
    | step _ hreach => exact .inr ⟨rest, hreach, hopen⟩
  · rintro (hopen | ⟨rest, hreach, hopen⟩)
    · exact ⟨cs, .refl cs, hopen⟩
    · exact ⟨rest, .step hne hreach, hopen⟩

end

/-! ### Braces -/

/-- The number of braces that tokens open, less the number of those that they close. -/
def braceBalance (tokens : List Token) : Int :=
  tokens.countP (·.kind = .openCurly) - tokens.countP (·.kind = .closeCurly)

theorem braceBalance_append (ts ts' : List Token) :
    braceBalance (ts ++ ts') = braceBalance ts + braceBalance ts' := by
  simp only [braceBalance, List.countP_append, Int.natCast_add]
  omega

/-- How what a pattern takes changes the number of open braces. -/
def Pattern.braceWeight : Pattern → Int
  | punctuator .openCurly => 1
  | punctuator .closeCurly => -1
  | _ => 0

/-- How a segment changes the number of open braces. -/
def Segment.braceWeight (s : Segment) : Int := s.pattern.elim 0 Pattern.braceWeight

/-- The tokens of a segment change the number of open braces as the segment does. -/
theorem Segment.braceBalance_items (s : Segment) (position : Position) :
    braceBalance (Item.tokens (s.items position)) = s.braceWeight := by
  obtain ⟨pattern, text⟩ := s
  -- A segment yields one token at most, so only the kind of that one counts.
  have hone {kind : Kind} (hopen : kind ≠ .openCurly) (hclose : kind ≠ .closeCurly)
      (value : String) (literal : Option Literal) :
      braceBalance [⟨kind, value, literal, position⟩] = 0 := by
    simp [braceBalance, hopen, hclose]
  cases pattern with
  | none =>
    have hnone : Item.tokens (items ⟨none, text⟩ position) = [] := by
      rw [Item.tokens, items, List.filterMap_map]
      exact List.filterMap_eq_nil_iff.2 fun _ _ => rfl
    rw [hnone]
    rfl
  | some pattern =>
    cases pattern with
    | blank | lineComment | blockComment | doubleQuote | singleQuote => rfl
    | word =>
      exact hone (Kind.ofWord_ne (by decide) _) (Kind.ofWord_ne (by decide) _) _ _
    | numeral =>
      rw [items]
      cases Numeral.value? text with
      | none => exact hone (by decide) (by decide) _ _
      | some value => exact hone (by decide) (by decide) _ _
    | charLiteral =>
      rw [items]
      dsimp only
      split
      · exact hone (by decide) (by decide) _ _
      · rfl
    | stringLiteral => exact hone (by decide) (by decide) _ _
    | punctuator kind => cases kind <;> rfl

/-- The tokens of a text change the number of open braces as its segments do. -/
theorem Segment.braceBalance_itemsFrom (unit : String) (line : LineNumber)
    (segments : List Segment) :
    braceBalance (Item.tokens (itemsFrom unit line segments))
      = (segments.map braceWeight).sum := by
  induction segments generalizing line with
  | nil => rfl
  | cons s segments ih =>
    rw [itemsFrom, Item.tokens_append, braceBalance_append, braceBalance_items, ih, List.map_cons,
      List.sum_cons]

/-! ### Lone quotes -/

/-- A segment that is no quote by itself. -/
def Segment.IsClosed (s : Segment) : Prop :=
  s.pattern ≠ some .doubleQuote ∧ s.pattern ≠ some .singleQuote

/-- Where no lone quote is reported, there is none. -/
theorem Segment.isClosed_of_mem {unit : String} {line : LineNumber} {segments : List Segment}
    (h : ∀ d ∈ Item.diagnostics (itemsFrom unit line segments),
      d.fault ≠ .unterminatedString ∧ d.fault ≠ .malformedChar) :
    ∀ s ∈ segments, s.IsClosed := by
  induction segments generalizing line with
  | nil => nofun
  | cons s segments ih =>
    rw [itemsFrom, Item.diagnostics_append] at h
    intro s' hs'
    rcases List.mem_cons.1 hs' with rfl | hs'
    · have hitems : ∀ d ∈ Item.diagnostics (s'.items ⟨line, unit⟩),
          d.fault ≠ .unterminatedString ∧ d.fault ≠ .malformedChar := fun d hd =>
        h d (List.mem_append_left _ hd)
      constructor
      · intro hpattern
        rw [items, hpattern] at hitems
        exact (hitems _ List.mem_cons_self).1 rfl
      · intro hpattern
        rw [items, hpattern] at hitems
        exact (hitems _ List.mem_cons_self).2 rfl
    · exact ih (fun d hd => h d (List.mem_append_right _ hd)) s' hs'

end MiniC
