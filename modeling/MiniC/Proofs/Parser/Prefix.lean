import MiniC.Proofs.Parser.Progress

/-!
# Prefixes of the input

What a parser makes of the beginning of its tokens, when it succeeds on all of them. Either it does
the same on the beginning, or it comes to the end of it: it runs out of tokens there, or it succeeds
there because what it would have gone on with is optional (`Parser.Spent`). A parser is
**incremental** if one of the two is so for every beginning, and if it comes to the end whenever it
is started there (`Parser.Incremental`).

The two conditions are apart because a construct that opens a level does not come to the end when
there is no room for the level. Such a construct is never started at the end, but after a token that
cannot be missing.
-/

namespace MiniC

/-- The cursor with more tokens before the end, which may be elsewhere. -/
def Cursor.extend (ts : List Token) (e : Position) (c : Cursor) : Cursor :=
  ⟨c.rest ++ ts, c.depth, e⟩

theorem Cursor.extend_before (ts : List Token) (e : Position) (t : Token) (c : Cursor) :
    (c.before [t]).extend ts e = (c.extend ts e).before [t] := rfl

namespace Parser

/-- A run that has come to the end of the tokens: it succeeds there, or it runs out of them. -/
inductive Spent : EStateM.Result Diagnostic Cursor α → Prop
  | ok {a : α} {c : Cursor} : c.rest = [] → Spent (.ok a c)
  | error {c : Cursor} : c.rest = [] → Spent (.error c.endOfInput c)

/-- A success is seen from any beginning of the tokens, unless that ends too early. -/
def Extends (p : Parser α) : Prop :=
  ∀ ts e c a c', p (c.extend ts e) = .ok a c' →
    (∃ c₁, p c = .ok a c₁ ∧ c' = c₁.extend ts e) ∨ Spent (p c)

/-- An **incremental** parser. -/
structure Incremental (p : Parser α) : Prop where
  /-- A success is seen from any beginning of the tokens. -/
  onPrefix : Extends p
  /-- At the end, the parser comes to the end. -/
  atEnd : ∀ c : Cursor, c.rest = [] → Spent (p c)

section

variable {α β : Type} {p : Parser α} {f : α → Parser β}

/-! ### Failures and single tokens -/

/-- What never succeeds has nothing to show for it. -/
theorem Extends.fail (d : Cursor → Diagnostic) : Extends (fail d : Parser α) :=
  fun _ _ _ _ _ hrun => nomatch hrun

theorem Incremental.pure (a : α) : Incremental (pure a : Parser α) where
  onPrefix ts e c a' c' h := by
    cases h
    exact .inl ⟨c, rfl, rfl⟩
  atEnd _ hc := .ok hc

/-- Before a token, the next kind is the same for every continuation. -/
theorem Incremental.kind_bind {f : Kind → Parser α}
    (hend : ∀ c : Cursor, c.rest = [] → Spent (f .endOfInput c)) (h : ∀ k, Extends (f k)) :
    Incremental (kind >>= f) := by
  have hatEnd (c : Cursor) (hc : c.rest = []) : Spent ((kind >>= f) c) := by
    rw [bind_of_ok (kind_apply c), Cursor.kind_of_end hc]
    exact hend c hc
  refine ⟨fun ts e c a c' hrun => ?_, hatEnd⟩
  rcases c.end_or_before with hc | ⟨t, c, rfl⟩
  · exact .inr (hatEnd c hc)
  · rw [bind_of_ok (kind_apply _)] at hrun ⊢
    exact h _ ts e _ a c' hrun

/-! ### Sequences -/

/-- What goes on from the end has come to the end. -/
theorem Spent.bind {c : Cursor} (hp : Spent (p c)) (hf : ∀ a (c : Cursor), c.rest = [] →
    Spent (f a c)) : Spent ((p >>= f) c) := by
  rcases hrun : p c with ⟨a, c₁⟩ | ⟨d, c₁⟩
  · rw [hrun] at hp
    obtain ⟨hc⟩ | _ := hp
    rw [bind_of_ok hrun]
    exact hf a c₁ hc
  · rw [hrun] at hp
    obtain _ | ⟨hc⟩ := hp
    rw [bind_of_error hrun]
    exact .error hc

/-- A sequence does the same on a beginning, or one of its parts comes to the end of it. -/
theorem Extends.bind (hp : Extends p) (hf : ∀ a, Incremental (f a)) : Extends (p >>= f) := by
  intro ts e c b c' hrun
  obtain ⟨a, c₁, h₁, h₂⟩ := bind_ok_iff.1 hrun
  rcases hp ts e c a c₁ h₁ with ⟨c₂, h₃, rfl⟩ | hspent
  · rw [bind_of_ok h₃]
    exact (hf a).onPrefix ts e c₂ b c' h₂
  · exact .inr (hspent.bind fun a => (hf a).atEnd)

theorem Incremental.bind (hp : Incremental p) (hf : ∀ a, Incremental (f a)) :
    Incremental (p >>= f) where
  onPrefix := hp.onPrefix.bind hf
  atEnd c hc := (hp.atEnd c hc).bind fun a => (hf a).atEnd

/-! ### Optional parts, repetition and levels -/

/-- A loop is incremental if its parser is, and if its test looks no further than the next token. -/
theorem Incremental.manyWhile {room : Nat} {test : Cursor → Bool}
    (htest : ∀ ts e t (c : Cursor), test ((c.before [t]).extend ts e) = test (c.before [t]))
    (hadv : Advances room p) (hp : Incremental p) : Incremental (manyWhile test p) := by
  have hatEnd (c : Cursor) (hc : c.rest = []) : Spent (Parser.manyWhile test p c) := by
    rw [manyWhile_eq test hadv]
    split
    -- Without tokens the parser of the loop cannot succeed, since it takes one if it does.
    · have hspent := hp.atEnd c hc
      rcases hrun : p c with ⟨a, c₁⟩ | ⟨d, c₁⟩
      · have hlt := hadv.lt hrun
        rw [hc] at hlt
        exact absurd hlt (Nat.not_lt_zero _)
      · rw [hrun] at hspent
        rw [bind_of_error hrun]
        obtain _ | ⟨hc⟩ := hspent
        exact .error hc
    · exact .ok hc
  refine ⟨fun ts e c as c' hrun => ?_, hatEnd⟩
  induction hlength : c.rest.length using Nat.strongRecOn generalizing c as with
  | ind length ih =>
    rcases c.end_or_before with hc | ⟨t, c, rfl⟩
    · exact .inr (hatEnd c hc)
    · rw [manyWhile_eq test hadv, htest] at hrun
      rw [manyWhile_eq test hadv]
      split at hrun
      · rename_i ht
        rw [if_pos ht]
        obtain ⟨a, c₁, h₁, h₂⟩ := bind_ok_iff.1 hrun
        obtain ⟨rest, c₂, h₃, h₄⟩ := bind_ok_iff.1 h₂
        cases h₄
        -- Either the first round is the same on the beginning, and the other rounds decide, or it
        -- has come to the end, and so has the loop.
        rcases hp.onPrefix ts e _ a c₁ h₁ with ⟨c₁, h₅, rfl⟩ | hspent
        · rw [bind_of_ok h₅]
          rcases ih _ (hlength ▸ hadv.lt h₅) c₁ rest h₃ rfl with ⟨c₂, h₆, rfl⟩ | hspent
          · exact .inl ⟨c₂, bind_of_ok h₆, rfl⟩
          · exact .inr (hspent.bind fun rest _ hc => .ok hc)
        · refine .inr (hspent.bind fun a c hc => ?_)
          exact (hatEnd c hc).bind fun rest _ hc => .ok hc
      · rename_i ht
        rw [if_neg ht]
        cases hrun
        exact .inl ⟨_, rfl, rfl⟩

/-- A level does not change how much is read. -/
theorem Extends.opened (hp : Extends p) : Extends (opened p) := by
  intro ts e c a c' hrun
  obtain ⟨c₁, h₁, rfl⟩ := opened_ok_iff.1 hrun
  rcases hp ts e { c with depth := c.depth + 1 } a c₁ h₁ with ⟨c₂, h₂, rfl⟩ | hspent
  · exact .inl ⟨_, opened_ok_iff.2 ⟨c₂, h₂, rfl⟩, rfl⟩
  · refine .inr ?_
    rw [opened_apply]
    exact hspent.bind fun a c hc => .ok hc

end

end Parser

end MiniC
