import MiniC.Proofs.Parser.Run
import MiniC.Proofs.Token.Shape

/-!
# Parsers that stop at a prefix minus

A minus after an operand is an operator, and any other minus is a **prefix minus**. Which of the two
a minus is can be told from the token before it (`Token.prefixMinus?`).

A parser **narrows** another one (`Parser.Narrows`) if it answers what the other one answers on the
same tokens, or stops at the first prefix minus and objects to it. A parser that has the prefix
minus itself never stops so. What it reads may come after an operand or not, and may end in one or
not, so both are part of the relation: a factor is read where no operand ends, and ends one itself.

The relation also says where a diagnostic that both parsers give is raised: at the token that they
have come to (`Cursor.Raises`), unless some token is not shaped.
-/

namespace MiniC

/-! ### Prefix minuses -/

/-- Whether a token of a kind ends an operand. -/
def Kind.endsOperand : Kind → Bool
  | identifier | number | char | string | closeParen => true
  | _ => false

/-- The first **prefix minus** of tokens: a minus that comes after no operand. Whether the tokens
come after one is given. -/
def Token.prefixMinus? : (afterOperand : Bool) → List Token → Option Token
  | _, [] => none
  | afterOperand, t :: ts =>
    if t.kind = .dash ∧ afterOperand = false then some t else prefixMinus? t.kind.endsOperand ts

/-- Tokens that come **later** than others: they are what is left of them. Where a prefix minus may
not be taken, none has been, so the first one is the same. -/
structure Token.Later (minus after : Bool) (tokens : List Token) (after' : Bool)
    (tokens' : List Token) : Prop where
  suffix : tokens' <:+ tokens
  prefixMinus? : minus = false → prefixMinus? after' tokens' = prefixMinus? after tokens

namespace Token.Later

variable {minus after after₁ after₂ : Bool} {tokens tokens₁ tokens₂ : List Token} {t : Token}

theorem refl : Later minus after tokens after tokens := ⟨List.suffix_rfl, fun _ => rfl⟩

theorem trans (h : Later minus after tokens after₁ tokens₁)
    (h₁ : Later minus after₁ tokens₁ after₂ tokens₂) :
    Later minus after tokens after₂ tokens₂ where
  suffix := h₁.suffix.trans h.suffix
  prefixMinus? hminus := (h₁.prefixMinus? hminus).trans (h.prefixMinus? hminus)

/-- A token that is taken may be a minus only after an operand, or where there is a prefix minus. -/
theorem cons (ht : t.kind = .dash → after = true ∨ minus = true) :
    Later minus after (t :: tokens) t.kind.endsOperand tokens where
  suffix := List.suffix_cons t tokens
  prefixMinus? hminus := by
    have hne : ¬(t.kind = .dash ∧ after = false) := by
      rintro ⟨hdash, hafter⟩
      have hor := ht hdash
      rw [hafter, hminus] at hor
      exact absurd hor (by decide)
    rw [Token.prefixMinus?, if_neg hne]

end Token.Later

/-! ### Diagnostics that are raised -/

/-- The diagnostics that are **raised** at a cursor: they object to the next token, or to the end.
That a word names no type is told of a token that has been taken, so it is not among them. -/
inductive Cursor.Raises (c : Cursor) : Diagnostic → Prop
  | unexpected : c.Raises c.unexpected
  | unexpectedBecause {message : String} : message ≠ "unknown type name" →
      c.Raises (c.unexpectedBecause message)
  | tooDeep : c.Raises c.tooDeep

theorem Cursor.unexpected_of_current? {c : Cursor} {t : Token} (h : c.current? = some t) :
    c.unexpected = ⟨.unexpectedToken t.value, t.position⟩ := by
  rcases c.end_or_before with hc | ⟨t, c, rfl⟩
  · rw [current?, hc] at h
    cases h
  · cases h
    rfl

/-- At the end it is said that the tokens run out. -/
theorem Cursor.raises_endOfInput {c : Cursor} (hc : c.rest = []) : c.Raises c.endOfInput := by
  rw [← Parser.unexpected_of_end hc]
  exact .unexpected

/-- A diagnostic that is raised does not call the name of a type unknown. -/
theorem Cursor.Raises.fault_ne {c : Cursor} {d : Diagnostic} (h : c.Raises d) (text : String) :
    d.fault ≠ .unexpectedTokenDetailed text "unknown type name" := by
  rcases c.end_or_before with hc | ⟨t, c, rfl⟩
  · cases h with
    | unexpected =>
      rw [Parser.unexpected_of_end hc]
      nofun
    | unexpectedBecause =>
      rw [Parser.unexpectedBecause_of_end _ hc]
      nofun
    | tooDeep => nofun
  · cases h with
    | unexpected | tooDeep => nofun
    | unexpectedBecause hne =>
      rintro ⟨⟩
      exact hne rfl

namespace Parser

/-! ### Answers -/

/-- Where a parser may end: anywhere, -/
def Anywhere (_after : Bool) : Prop := True

/-- or after an operand. -/
def AfterOperand (after : Bool) : Prop := after = true

theorem afterOperand_true : AfterOperand true := rfl

/-- The answers of a parser that **narrows** another one, and those of the other one. -/
inductive Narrowed (minus after : Bool) (tokens : List Token) (Ends : Bool → Prop) :
    EStateM.Result Diagnostic Cursor α → EStateM.Result Diagnostic Cursor α → Prop
  | ok {a : α} {c : Cursor} {after' : Bool} : Token.Later minus after tokens after' c.rest →
      Ends after' → Narrowed minus after tokens Ends (.ok a c) (.ok a c)
  | error {d : Diagnostic} {c : Cursor} : ((∀ t ∈ tokens, t.IsShaped) → c.Raises d) →
      Narrowed minus after tokens Ends (.error d c) (.error d c)
  /-- The other parser may go on after a prefix minus, and answer anything. -/
  | stopped {t : Token} {c : Cursor} {r : EStateM.Result Diagnostic Cursor α} : minus = false →
      Token.prefixMinus? after tokens = some t → c.current? = some t →
      Narrowed minus after tokens Ends (.error c.unexpected c) r

section

variable {α β : Type} {minus after after₁ : Bool} {tokens tokens₁ : List Token}
  {Ends Ends₁ : Bool → Prop} {k : Kind} {p p₁ : Parser α} {f f₁ : α → Parser β}

private theorem Narrowed.raise {c : Cursor} {d : Diagnostic} (h : c.Raises d) :
    Narrowed minus after tokens Ends (.error d c : EStateM.Result Diagnostic Cursor α)
      (.error d c) := .error fun _ => h

/-- What is answered after some tokens is answered on all of them. -/
private theorem Narrowed.of_later {r r₁ : EStateM.Result Diagnostic Cursor α}
    (hlater : Token.Later minus after tokens after₁ tokens₁)
    (h : Narrowed minus after₁ tokens₁ Ends r r₁) : Narrowed minus after tokens Ends r r₁ := by
  cases h with
  | ok hlater₁ hends => exact .ok (hlater.trans hlater₁) hends
  | error hraises => exact .error fun h => hraises fun t ht => h t (hlater.suffix.subset ht)
  | stopped hminus ht hcurrent =>
    exact .stopped hminus ((hlater.prefixMinus? hminus).symm.trans ht) hcurrent

/-- A parser **narrows** another one before tokens of a kind. -/
structure NarrowsFor (minus after : Bool) (k : Kind) (Ends : Bool → Prop) (p p₁ : Parser α) :
    Prop where
  narrowed : ∀ {c : Cursor}, c.kind = k → Narrowed minus after c.rest Ends (p c) (p₁ c)

/-- A parser **narrows** another one before whatever tokens. -/
def Narrows (minus after : Bool) (Ends : Bool → Prop) (p p₁ : Parser α) : Prop :=
  ∀ k, NarrowsFor minus after k Ends p p₁

theorem Narrows.narrowed (h : Narrows minus after Ends p p₁) (c : Cursor) :
    Narrowed minus after c.rest Ends (p c) (p₁ c) := (h _).narrowed rfl

/-! ### Single tokens -/

/-- Both parsers take a token, which is no prefix minus unless the first one has it. -/
theorem NarrowsFor.advance_bind {f f₁ : Token → Parser β}
    (hk : k = .dash → after = true ∨ minus = true)
    (h : ∀ t : Token, t.kind = k → Narrows minus k.endsOperand Ends (f t) (f₁ t) ∨
      ¬t.IsShaped ∧ ∃ d, f t = throw d ∧ f₁ t = throw d) :
    NarrowsFor minus after k Ends (advance >>= f) (advance >>= f₁) := by
  refine ⟨fun {c} hkind => ?_⟩
  rcases c.end_or_before with hc | ⟨t, c, rfl⟩
  · rw [bind_of_error (advance_of_end hc), bind_of_error (advance_of_end hc)]
    exact .raise (Cursor.raises_endOfInput hc)
  · rw [Cursor.kind_before] at hkind
    subst hkind
    rw [bind_of_ok (advance_before t c), bind_of_ok (advance_before t c)]
    rcases h t rfl with hnarrows | ⟨hshape, d, hthrow, hthrow₁⟩
    · exact .of_later (.cons hk) (hnarrows.narrowed c)
    · rw [hthrow, hthrow₁]
      exact .error fun hall => absurd (hall t List.mem_cons_self) hshape

/-- A token that is taken for its kind. -/
theorem NarrowsFor.skip_bind (hk : k ≠ .dash) {f f₁ : Token → Parser β}
    (h : ∀ t, Narrows minus k.endsOperand Ends (f t) (f₁ t)) :
    NarrowsFor minus after k Ends (advance >>= f) (advance >>= f₁) :=
  .advance_bind (fun hdash => absurd hdash hk) fun t _ => .inl (h t)

/-- A parser that takes one token, which is no minus, or objects to it. -/
private theorem Narrows.of_takes
    (h : ∀ c : Cursor, (∃ t c₁ a, c = Cursor.before [t] c₁ ∧ t.kind ≠ .dash ∧
      Ends t.kind.endsOperand ∧ p c = .ok a c₁) ∨ ∃ d, c.Raises d ∧ p c = .error d c) :
    Narrows minus after Ends p p := by
  refine fun _ => ⟨fun {c} _ => ?_⟩
  rcases h c with ⟨t, c, a, rfl, hdash, hends, hrun⟩ | ⟨d, hraises, hrun⟩
  · rw [hrun]
    exact .ok (.cons fun heq => absurd heq hdash) hends
  · rw [hrun]
    exact .raise hraises

theorem Narrows.expect (hk : k ≠ .dash) :
    Narrows minus after (k.endsOperand = ·) (expect k) (expect k) := by
  refine .of_takes fun c => ?_
  rcases c.end_or_before with hc | ⟨t, c, rfl⟩
  · exact .inr ⟨_, Cursor.raises_endOfInput hc, expect_of_end k hc⟩
  · by_cases ht : t.kind = k
    · subst ht
      exact .inl ⟨t, c, t, rfl, hk, rfl, expect_of_eq rfl c⟩
    · exact .inr ⟨_, .unexpected, expect_of_ne (c := c.before [t]) ht⟩

theorem Narrows.expectFor {message : String} (hmessage : message ≠ "unknown type name")
    (hk : k ≠ .dash) :
    Narrows minus after (k.endsOperand = ·) (expectFor message k) (expectFor message k) := by
  refine .of_takes fun c => ?_
  rcases c.end_or_before with hc | ⟨t, c, rfl⟩
  · exact .inr ⟨_, Cursor.raises_endOfInput hc, expectFor_of_end message k hc⟩
  · by_cases ht : t.kind = k
    · subst ht
      exact .inl ⟨t, c, t, rfl, hk, rfl, expectFor_of_eq message rfl c⟩
    · exact .inr ⟨_, .unexpectedBecause hmessage,
        expectFor_of_ne (c := c.before [t]) message ht⟩

/-- No minus is a case label. -/
theorem Narrows.caseLabel : Narrows minus after Anywhere caseLabel caseLabel := by
  refine .of_takes fun c => ?_
  rcases caseLabel_cases c with ⟨t, c, label, rfl, hlabel, hrun⟩ | ⟨-, hrun⟩
  · refine .inl ⟨t, c, label, rfl, fun hdash => ?_, trivial, hrun⟩
    rw [Token.caseLabel?, hdash] at hlabel
    cases hlabel
  · exact .inr ⟨_, .unexpectedBecause (by decide), hrun⟩

/-- The next token is refused by both parsers. -/
theorem Narrows.unexpected :
    Narrows minus after Ends (fail Cursor.unexpected : Parser α) (fail Cursor.unexpected) :=
  fun _ => ⟨fun _ => .raise .unexpected⟩

theorem Narrows.unexpectedBecause {message : String} (hmessage : message ≠ "unknown type name") :
    Narrows minus after Ends (fail (Cursor.unexpectedBecause message) : Parser α)
      (fail (Cursor.unexpectedBecause message)) :=
  fun _ => ⟨fun _ => .raise (.unexpectedBecause hmessage)⟩

theorem Narrows.tooDeep :
    Narrows minus after Ends (fail Cursor.tooDeep : Parser α) (fail Cursor.tooDeep) :=
  fun _ => ⟨fun _ => .raise .tooDeep⟩

theorem Narrows.pure (h : Ends after) (a : α) :
    Narrows minus after Ends (pure a) (pure a : Parser α) := fun _ => ⟨fun _ => .ok .refl h⟩

/-- The kind of the next token chooses the parsers. -/
theorem Narrows.kind_bind {f f₁ : Kind → Parser α}
    (h : ∀ k, NarrowsFor minus after k Ends (f k) (f₁ k)) :
    Narrows minus after Ends (kind >>= f) (kind >>= f₁) := by
  refine fun _ => ⟨fun {c} _ => ?_⟩
  rw [bind_of_ok (kind_apply c), bind_of_ok (kind_apply c)]
  exact (h c.kind).narrowed rfl

/-! ### Sequences -/

/-- If the first parts part at a minus, so do the sequences. -/
theorem Narrowed.bind {c : Cursor} (h : Narrowed minus after c.rest Ends₁ (p c) (p₁ c))
    (hf : ∀ a after', Ends₁ after' → Narrows minus after' Ends (f a) (f₁ a)) :
    Narrowed minus after c.rest Ends ((p >>= f) c) ((p₁ >>= f₁) c) := by
  generalize hr : p c = r at h
  generalize hr₁ : p₁ c = r₁ at h
  cases h with
  | ok hlater hends =>
    rw [bind_of_ok hr, bind_of_ok hr₁]
    exact .of_later hlater ((hf _ _ hends).narrowed _)
  | error hraises =>
    rw [bind_of_error hr, bind_of_error hr₁]
    exact .error hraises
  | stopped hminus ht hcurrent =>
    rw [bind_of_error hr]
    exact .stopped hminus ht hcurrent

/-- Sequences narrow if their parts do, wherever the first part ends. -/
theorem Narrows.bind (hp : Narrows minus after Ends₁ p p₁)
    (hf : ∀ a after', Ends₁ after' → Narrows minus after' Ends (f a) (f₁ a)) :
    Narrows minus after Ends (p >>= f) (p₁ >>= f₁) :=
  fun _ => ⟨fun {c} _ => (hp.narrowed c).bind hf⟩

theorem Narrows.expect_bind (hk : k ≠ .dash) {f f₁ : Token → Parser β}
    (hf : ∀ t, Narrows minus k.endsOperand Ends (f t) (f₁ t)) :
    Narrows minus after Ends (Parser.expect k >>= f) (Parser.expect k >>= f₁) :=
  (Narrows.expect hk).bind fun t _ hends => hends ▸ hf t

theorem Narrows.expectFor_bind {message : String} (hmessage : message ≠ "unknown type name")
    (hk : k ≠ .dash) {f f₁ : Token → Parser β}
    (hf : ∀ t, Narrows minus k.endsOperand Ends (f t) (f₁ t)) :
    Narrows minus after Ends (Parser.expectFor message k >>= f)
      (Parser.expectFor message k >>= f₁) :=
  (Narrows.expectFor hmessage hk).bind fun t _ hends => hends ▸ hf t

/-- An operand, and what comes after it. -/
theorem Narrows.operand_bind (hp : Narrows minus after AfterOperand p p₁)
    (hf : ∀ a, Narrows minus true Ends (f a) (f₁ a)) :
    Narrows minus after Ends (p >>= f) (p₁ >>= f₁) := by
  refine hp.bind fun a after' hends => ?_
  cases hends
  exact hf a

/-- A part that may end anywhere, and what comes after it. -/
theorem Narrows.part_bind (hp : Narrows minus after Anywhere p p₁)
    (hf : ∀ a after', Narrows minus after' Ends (f a) (f₁ a)) :
    Narrows minus after Ends (p >>= f) (p₁ >>= f₁) :=
  hp.bind fun a after' _ => hf a after'

/-! ### Optional parts, repetition and levels -/

/-- An optional part may end anywhere, for it may be missing. -/
theorem Narrows.optionalAfter (hk : k ≠ .dash)
    (hp : Narrows minus k.endsOperand Ends p p₁) :
    Narrows minus after Anywhere (optionalAfter k p) (optionalAfter k p₁) := by
  refine .kind_bind fun k' => ?_
  split
  · rename_i heq
    subst heq
    refine .skip_bind hk fun _ => ?_
    rw [map_eq_pure_bind, map_eq_pure_bind]
    exact hp.bind fun a _ _ => .pure trivial (some a)
  · exact Narrows.pure trivial none k'

/-- A loop narrows another one if its parser does so wherever the test is passed. -/
theorem Narrows.manyWhile {test : Cursor → Bool}
    (hp : ∀ {after : Bool} {c : Cursor}, test c = true →
      Narrowed minus after c.rest Anywhere (p c) (p₁ c)) :
    Narrows minus after Anywhere (manyWhile test p) (manyWhile test p₁) := by
  have hmany (bound : Nat) (after : Bool) :
      Narrows minus after Anywhere (manyAtMost test p bound) (manyAtMost test p₁ bound) := by
    induction bound generalizing after with
    | zero => exact .pure trivial []
    | succ bound ih =>
      refine fun _ => ⟨fun {c} _ => ?_⟩
      rw [manyAtMost_succ, manyAtMost_succ]
      split
      · rename_i htest
        exact (hp htest).bind fun a _ _ => (ih _).part_bind fun rest _ => .pure trivial (a :: rest)
      · exact .ok .refl trivial
  exact fun _ => ⟨fun {c} _ => (hmany _ _).narrowed c⟩

/-- A loop that is told to go on by the kind of the next token. -/
theorem Narrows.manyWhile_kind {test : Kind → Bool}
    (hp : ∀ k after, test k = true → NarrowsFor minus after k Anywhere p p₁) :
    Narrows minus after Anywhere (Parser.manyWhile (fun c => test c.kind) p)
      (Parser.manyWhile (fun c => test c.kind) p₁) :=
  .manyWhile fun htest => (hp _ _ htest).narrowed rfl

theorem NarrowsFor.opened (hp : NarrowsFor minus after k Ends p p₁) :
    NarrowsFor minus after k Ends (opened p) (opened p₁) := by
  refine ⟨fun {c} hkind => ?_⟩
  -- To open a level takes no token, so the tokens inside are those before it.
  have hinside := hp.narrowed (c := { c with depth := c.depth + 1 }) hkind
  rw [opened_apply, opened_apply]
  exact hinside.bind fun a after' hends _ => ⟨fun _ => .ok .refl hends⟩

/-- Both parsers have the same levels left. -/
theorem NarrowsFor.deeper {room : Nat} {level level₁ : Nat → Parser α}
    {body body₁ : Parser α → Parser β}
    (h : ∀ r, room = r + 1 →
      NarrowsFor minus after k Ends (body (level r)) (body₁ (level₁ r))) :
    NarrowsFor minus after k Ends (deeper (below level room) body)
      (deeper (below level₁ room) body₁) := by
  cases room with
  | zero => exact Narrows.tooDeep k
  | succ r => exact (h r rfl).opened

/-! ### Chains -/

/-- A chain has an operand before each of its operators, so none of them is a prefix minus. -/
theorem Narrows.chain {op? : Kind → Option BinaryOp}
    (hop : ∀ k op, op? k = some op → k.endsOperand = false) {operand operand₁ : Parser Expr}
    (h : Narrows minus false AfterOperand operand operand₁) :
    Narrows minus false AfterOperand (chain op? operand) (chain op? operand₁) := by
  have hfrom (bound : Nat) (left : Expr) :
      Narrows minus true AfterOperand (chainFrom op? operand bound left)
        (chainFrom op? operand₁ bound left) := by
    induction bound generalizing left with
    | zero => exact .pure afterOperand_true left
    | succ bound ih =>
      refine .kind_bind fun k => ?_
      split
      · exact Narrows.pure afterOperand_true left k
      · rename_i op hsome
        refine .advance_bind (fun _ => .inl rfl) fun _ _ => .inl ?_
        rw [hop k op hsome]
        exact h.operand_bind fun right => ih (.binary op left right)
  exact h.operand_bind fun left _ => ⟨fun {c} _ => (hfrom _ left).narrowed c⟩

end

end Parser

end MiniC
