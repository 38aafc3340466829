import MiniC.Proofs.Parser.Run

/-!
# Tokens that are written otherwise

A parser looks at the kinds of tokens, at the values of literals, and at the texts of names and
types. Tokens that agree in all of that **match** (`Token.Matches`), wherever they stand and however
else they are written. On tokens that match one by one, a parser does **likewise**
(`Parser.Likewise`): it answers the same tree after as many tokens, or diagnostics that
**correspond**. Those say the same of tokens in the same place, or of the end.

Two parsers are compared and not one, since what a parser does after a token may depend on the
token.
-/

namespace MiniC

/-- Tokens that **match**: the grammar cannot tell them apart. -/
structure Token.Matches (t t₁ : Token) : Prop where
  kind : t₁.kind = t.kind
  literal : t₁.literal = t.literal
  value : t.kind = .identifier ∨ t.kind = .type → t₁.value = t.value

/-! ### Diagnostics that correspond -/

/-- What a diagnostic may say of the token that it is at. -/
inductive Objection where
  /-- The token cannot come next. -/
  | unexpected
  /-- The token cannot come next, and there is a reason. -/
  | unexpectedBecause (message : String)
  /-- There is one level too many. -/
  | tooDeep

namespace Objection

/-- The fault, for a token with the given text. -/
def fault (text : String) : Objection → Fault
  | unexpected => .unexpectedToken text
  | unexpectedBecause message => .unexpectedTokenDetailed text message
  | tooDeep => .nestingTooDeep maxNesting

/-- The diagnostic at a token. -/
def diagnostic (o : Objection) (t : Token) : Diagnostic := ⟨o.fault t.value, t.position⟩

end Objection

/-- Diagnostics that **correspond**, for pairs of tokens and for the two positions of the end. -/
inductive Diagnostic.Corresponds (pairs : List (Token × Token)) (ends : Position × Position) :
    Diagnostic → Diagnostic → Prop
  | atToken (o : Objection) {t t₁ : Token} : (t, t₁) ∈ pairs →
      Corresponds pairs ends (o.diagnostic t) (o.diagnostic t₁)
  | tooDeepAtEnd :
      Corresponds pairs ends ⟨.nestingTooDeep maxNesting, ends.1⟩
        ⟨.nestingTooDeep maxNesting, ends.2⟩
  | endOfInput :
      Corresponds pairs ends ⟨.unexpectedEndOfInput, ends.1⟩ ⟨.unexpectedEndOfInput, ends.2⟩

/-- Diagnostics that correspond for some pairs do so for more. -/
theorem Diagnostic.Corresponds.mono {pairs pairs' : List (Token × Token)}
    {ends : Position × Position} {d d₁ : Diagnostic} (h : Corresponds pairs' ends d d₁)
    (hpairs : pairs' ⊆ pairs) : Corresponds pairs ends d d₁ := by
  cases h with
  | atToken o hmem => exact .atToken o (hpairs hmem)
  | tooDeepAtEnd => exact .tooDeepAtEnd
  | endOfInput => exact .endOfInput

/-! ### Cursors in parallel -/

namespace Cursor

/-- Cursors **in parallel**: the tokens that are left match one by one, and the levels are the
same. -/
structure Parallel (pairs : List (Token × Token)) (ends : Position × Position) (c c₁ : Cursor) :
    Prop where
  rest : c.rest = pairs.map Prod.fst
  rest₁ : c₁.rest = pairs.map Prod.snd
  matches_of_mem : ∀ p ∈ pairs, p.1.Matches p.2
  depth : c₁.depth = c.depth
  endPosition : c.endPosition = ends.1
  endPosition₁ : c₁.endPosition = ends.2

variable {pairs : List (Token × Token)} {ends : Position × Position} {c c₁ : Cursor}

/-- Cursors in parallel are both at the end, or both before a token. -/
theorem Parallel.end_or_before (h : Parallel pairs ends c c₁) :
    (pairs = [] ∧ c.rest = [] ∧ c₁.rest = []) ∨
      ∃ t t₁ pairs' c' c₁', pairs = (t, t₁) :: pairs' ∧ c = before [t] c' ∧ c₁ = before [t₁] c₁' ∧
        t.Matches t₁ ∧ Parallel pairs' ends c' c₁' := by
  obtain ⟨rest, depth, e⟩ := c
  obtain ⟨rest₁, depth₁, e₁⟩ := c₁
  obtain ⟨hrest, hrest₁, hmatches, hdepth, he, he₁⟩ := h
  cases pairs with
  | nil => exact .inl ⟨rfl, hrest, hrest₁⟩
  | cons p pairs =>
    obtain ⟨t, t₁⟩ := p
    cases hrest
    cases hrest₁
    obtain ⟨hmatch, hmatches⟩ := List.forall_mem_cons.1 hmatches
    exact .inr ⟨t, t₁, pairs, ⟨_, depth, e⟩, ⟨_, depth₁, e₁⟩, rfl, rfl, rfl, hmatch,
      ⟨rfl, rfl, hmatches, hdepth, he, he₁⟩⟩

/-- Cursors in parallel are before tokens of the same kind, or both at the end. -/
theorem Parallel.kind_eq (h : Parallel pairs ends c c₁) : c₁.kind = c.kind := by
  rcases h.end_or_before with ⟨-, hc, hc₁⟩ | ⟨t, t₁, pairs', c, c₁, -, rfl, rfl, hmatch, -⟩
  · rw [kind_of_end hc, kind_of_end hc₁]
  · exact hmatch.kind

theorem Parallel.length_eq (h : Parallel pairs ends c c₁) : c₁.rest.length = c.rest.length := by
  rw [h.rest, h.rest₁, List.length_map, List.length_map]

theorem Parallel.hasTokens_eq (h : Parallel pairs ends c c₁) : c₁.hasTokens = c.hasTokens := by
  rw [hasTokens, hasTokens, h.rest, h.rest₁, List.isEmpty_map, List.isEmpty_map]

private theorem Parallel.setDepth (h : Parallel pairs ends c c₁) (f : Nat → Nat) :
    Parallel pairs ends { c with depth := f c.depth } { c₁ with depth := f c₁.depth } :=
  { h with depth := congrArg f h.depth }

end Cursor

namespace Parser

variable {α β : Type} {pairs : List (Token × Token)} {ends : Position × Position}
  {k : Kind} {p p₁ : Parser α} {f f₁ : α → Parser β}

/-- Answers that **agree**. -/
inductive Agree (pairs : List (Token × Token)) (ends : Position × Position) :
    EStateM.Result Diagnostic Cursor α → EStateM.Result Diagnostic Cursor α → Prop
  | ok {a : α} {c c₁ : Cursor} {pairs' : List (Token × Token)} : pairs' <:+ pairs →
      c.Parallel pairs' ends c₁ → Agree pairs ends (.ok a c) (.ok a c₁)
  | error {d d₁ : Diagnostic} {c c₁ : Cursor} : d.Corresponds pairs ends d₁ →
      Agree pairs ends (.error d c) (.error d₁ c₁)

/-- Answers that agree for the pairs that are left agree for all pairs. -/
theorem Agree.mono {r r₁ : EStateM.Result Diagnostic Cursor α} {pairs' : List (Token × Token)}
    (h : Agree pairs' ends r r₁) (hpairs : pairs' <:+ pairs) : Agree pairs ends r r₁ := by
  cases h with
  | ok hsuffix hparallel => exact .ok (hsuffix.trans hpairs) hparallel
  | error hd => exact .error (hd.mono hpairs.subset)

/-- Two parsers do **likewise** before tokens of a kind. -/
structure LikewiseFor (k : Kind) (p p₁ : Parser α) : Prop where
  agree : ∀ {pairs : List (Token × Token)} {ends : Position × Position} {c c₁ : Cursor},
    c.Parallel pairs ends c₁ → c.kind = k → Agree pairs ends (p c) (p₁ c₁)

/-- Two parsers do **likewise** before whatever tokens. -/
def Likewise (p p₁ : Parser α) : Prop := ∀ k, LikewiseFor k p p₁

theorem Likewise.agree (h : Likewise p p₁) {c c₁ : Cursor} (hc : c.Parallel pairs ends c₁) :
    Agree pairs ends (p c) (p₁ c₁) := (h _).agree hc rfl

/-! ### Single tokens -/

/-- Parsers that start with a token, and both go on after it or both object to it. -/
theorem LikewiseFor.of_token (hend : ∀ c : Cursor, c.rest = [] → p c = .error c.endOfInput c)
    (hend₁ : ∀ c : Cursor, c.rest = [] → p₁ c = .error c.endOfInput c)
    (htoken : ∀ {t t₁ : Token}, t.Matches t₁ → t.kind = k →
      (∃ q q₁ : Parser α, Likewise q q₁ ∧ (∀ c : Cursor, p (c.before [t]) = q c) ∧
        ∀ c : Cursor, p₁ (c.before [t₁]) = q₁ c) ∨
      ∃ o : Objection, (∀ c : Cursor, ∃ c', p (c.before [t]) = .error (o.diagnostic t) c') ∧
        ∀ c : Cursor, ∃ c', p₁ (c.before [t₁]) = .error (o.diagnostic t₁) c') :
    LikewiseFor k p p₁ := by
  refine ⟨fun {pairs ends c c₁} hparallel hkind => ?_⟩
  rcases hparallel.end_or_before with
    ⟨-, hc, hc₁⟩ | ⟨t, t₁, pairs', c, c₁, rfl, rfl, rfl, hmatch, hrest⟩
  · have hposition : c.position = ends.1 :=
      (Cursor.position_of_end hc).trans hparallel.endPosition
    have hposition₁ : c₁.position = ends.2 :=
      (Cursor.position_of_end hc₁).trans hparallel.endPosition₁
    rw [hend c hc, hend₁ c₁ hc₁, Cursor.endOfInput, Cursor.endOfInput, hposition, hposition₁]
    exact .error .endOfInput
  · rcases htoken hmatch hkind with ⟨q, q₁, hq, heq, heq₁⟩ | ⟨o, ho, ho₁⟩
    · rw [heq, heq₁]
      exact (hq.agree hrest).mono (List.suffix_cons ..)
    · obtain ⟨c', herror⟩ := ho c
      obtain ⟨c₁', herror₁⟩ := ho₁ c₁
      rw [herror, herror₁]
      exact .error (.atToken o List.mem_cons_self)

/-- After a token of a kind, parsers go on likewise, or object to it with the same words. -/
theorem LikewiseFor.advance_bind {f f₁ : Token → Parser β}
    (h : ∀ {t t₁ : Token}, t.Matches t₁ → t.kind = k → Likewise (f t) (f₁ t₁) ∨
      ∃ o : Objection, f t = throw (o.diagnostic t) ∧ f₁ t₁ = throw (o.diagnostic t₁)) :
    LikewiseFor k (advance >>= f) (advance >>= f₁) := by
  refine .of_token (fun c hc => bind_of_error (advance_of_end hc))
    (fun c hc => bind_of_error (advance_of_end hc)) fun {t t₁} hmatch hkind => ?_
  rcases h hmatch hkind with hlike | ⟨o, ho, ho₁⟩
  · exact .inl ⟨f t, f₁ t₁, hlike, fun c => bind_of_ok (advance_before t c),
      fun c => bind_of_ok (advance_before t₁ c)⟩
  · refine .inr ⟨o, fun c => ⟨c, ?_⟩, fun c => ⟨c, ?_⟩⟩
    · rw [bind_of_ok (advance_before t c), ho]
      rfl
    · rw [bind_of_ok (advance_before t₁ c), ho₁]
      rfl

/-- A token that is taken whatever it is. -/
theorem Likewise.skip_bind {f f₁ : Token → Parser β} (h : ∀ t t₁, Likewise (f t) (f₁ t₁)) :
    Likewise (advance >>= f) (advance >>= f₁) :=
  fun _ => .advance_bind fun _ _ => .inl (h _ _)

theorem Likewise.expect_bind (k : Kind) {f f₁ : Token → Parser β}
    (h : ∀ t t₁, Likewise (f t) (f₁ t₁)) : Likewise (expect k >>= f) (expect k >>= f₁) := by
  intro _
  refine .of_token (fun c hc => bind_of_error (expect_of_end k hc))
    (fun c hc => bind_of_error (expect_of_end k hc)) fun {t t₁} hmatch _ => ?_
  by_cases ht : t.kind = k
  · exact .inl ⟨f t, f₁ t₁, h t t₁, fun c => bind_of_ok (expect_of_eq ht c),
      fun c => bind_of_ok (expect_of_eq (hmatch.kind.trans ht) c)⟩
  · have ht₁ : t₁.kind ≠ k := fun heq => ht (hmatch.kind.symm.trans heq)
    exact .inr ⟨.unexpected,
      fun c => ⟨_, bind_of_error (expect_of_ne (c := c.before [t]) ht)⟩,
      fun c => ⟨_, bind_of_error (expect_of_ne (c := c.before [t₁]) ht₁)⟩⟩

theorem Likewise.expectFor_bind (message : String) (k : Kind) {f f₁ : Token → Parser β}
    (h : ∀ {t t₁ : Token}, t.Matches t₁ → t.kind = k → Likewise (f t) (f₁ t₁)) :
    Likewise (expectFor message k >>= f) (expectFor message k >>= f₁) := by
  intro _
  refine .of_token (fun c hc => bind_of_error (expectFor_of_end message k hc))
    (fun c hc => bind_of_error (expectFor_of_end message k hc)) fun {t t₁} hmatch _ => ?_
  by_cases ht : t.kind = k
  · exact .inl ⟨f t, f₁ t₁, h hmatch ht, fun c => bind_of_ok (expectFor_of_eq message ht c),
      fun c => bind_of_ok (expectFor_of_eq message (hmatch.kind.trans ht) c)⟩
  · have ht₁ : t₁.kind ≠ k := fun heq => ht (hmatch.kind.symm.trans heq)
    exact .inr ⟨.unexpectedBecause message,
      fun c => ⟨_, bind_of_error (expectFor_of_ne (c := c.before [t]) message ht)⟩,
      fun c => ⟨_, bind_of_error (expectFor_of_ne (c := c.before [t₁]) message ht₁)⟩⟩

end Parser

/-- Tokens that match stand for the same expression, since only a name is told by its text. -/
theorem Token.Matches.expr?_eq {t t₁ : Token} (h : t.Matches t₁) : t₁.expr? = t.expr? := by
  rw [Token.expr?, Token.expr?, h.kind, h.literal]
  split
  · rename_i hkind
    rw [h.value (.inl hkind)]
  all_goals rfl

/-- Tokens that match stand for the same case label. -/
private theorem Token.Matches.caseLabel?_eq {t t₁ : Token} (h : t.Matches t₁) :
    t₁.caseLabel? = t.caseLabel? := by
  rw [Token.caseLabel?, Token.caseLabel?, h.kind, h.literal]
  split
  · rename_i hkind
    rw [h.value (.inl hkind)]
  all_goals rfl

namespace Parser

variable {α β : Type} {pairs : List (Token × Token)} {ends : Position × Position}
  {k : Kind} {p p₁ : Parser α} {f f₁ : α → Parser β}

/-- Tokens that match are the same label. -/
theorem Likewise.caseLabel_bind {f f₁ : CaseLabel → Parser β}
    (h : ∀ a, Likewise (f a) (f₁ a)) : Likewise (caseLabel >>= f) (caseLabel >>= f₁) := by
  intro _
  have hend {f : CaseLabel → Parser β} (c : Cursor) (hc : c.rest = []) :
      (caseLabel >>= f) c = .error c.endOfInput c := by
    have hnone : c.current?.bind Token.caseLabel? = none := by
      rw [Cursor.current?, hc]
      rfl
    rw [bind_of_error (caseLabel_of_none hnone), unexpectedBecause_of_end _ hc]
  refine .of_token hend hend fun {t t₁} hmatch _ => ?_
  rcases hlabel : t.caseLabel? with - | label
  · exact .inr ⟨.unexpectedBecause "expected case label",
      fun c => ⟨_, bind_of_error (caseLabel_of_none (c := c.before [t]) hlabel)⟩,
      fun c => ⟨_, bind_of_error (caseLabel_of_none (c := c.before [t₁])
        (hmatch.caseLabel?_eq.trans hlabel))⟩⟩
  · exact .inl ⟨f label, f₁ label, h label, fun c => bind_of_ok (caseLabel_of_some hlabel c),
      fun c => bind_of_ok (caseLabel_of_some (hmatch.caseLabel?_eq.trans hlabel) c)⟩

/-- The next tokens are refused with their texts, or both runs are at the end. -/
theorem Likewise.unexpected :
    Likewise (fail Cursor.unexpected : Parser α) (fail Cursor.unexpected) := by
  intro _
  have hend (c : Cursor) (hc : c.rest = []) :
      (fail Cursor.unexpected : Parser α) c = .error c.endOfInput c := by
    rw [fail, unexpected_of_end hc]
  exact .of_token hend hend fun _ _ =>
    .inr ⟨.unexpected, fun c => ⟨_, rfl⟩, fun c => ⟨_, rfl⟩⟩

theorem Likewise.unexpectedBecause (message : String) :
    Likewise (fail (Cursor.unexpectedBecause message) : Parser α)
      (fail (Cursor.unexpectedBecause message)) := by
  intro _
  have hend (c : Cursor) (hc : c.rest = []) :
      (fail (Cursor.unexpectedBecause message) : Parser α) c = .error c.endOfInput c := by
    rw [fail, unexpectedBecause_of_end message hc]
  exact .of_token hend hend fun _ _ =>
    .inr ⟨.unexpectedBecause message, fun c => ⟨_, rfl⟩, fun c => ⟨_, rfl⟩⟩

theorem Likewise.tooDeep :
    Likewise (fail Cursor.tooDeep : Parser α) (fail Cursor.tooDeep) := by
  refine fun _ => ⟨fun {pairs ends c c₁} hparallel _ => ?_⟩
  rcases hparallel.end_or_before with
    ⟨-, hc, hc₁⟩ | ⟨t, t₁, pairs', c, c₁, rfl, rfl, rfl, -, -⟩
  · have hposition : c.position = ends.1 :=
      (Cursor.position_of_end hc).trans hparallel.endPosition
    have hposition₁ : c₁.position = ends.2 :=
      (Cursor.position_of_end hc₁).trans hparallel.endPosition₁
    rw [fail, fail, Cursor.tooDeep, Cursor.tooDeep, hposition, hposition₁]
    exact .error .tooDeepAtEnd
  · exact .error (.atToken .tooDeep List.mem_cons_self)

theorem Likewise.pure (a : α) : Likewise (pure a) (pure a : Parser α) :=
  fun _ => ⟨fun hparallel _ => .ok List.suffix_rfl hparallel⟩

/-- The kind of the next token chooses the parsers. -/
theorem Likewise.kind_bind {f f₁ : Kind → Parser α} (h : ∀ k, LikewiseFor k (f k) (f₁ k)) :
    Likewise (kind >>= f) (kind >>= f₁) := by
  refine fun _ => ⟨fun {pairs ends c c₁} hparallel _ => ?_⟩
  rw [bind_of_ok (kind_apply c), bind_of_ok (kind_apply c₁), hparallel.kind_eq]
  exact (h c.kind).agree hparallel rfl

/-! ### Sequences -/

/-- Sequences are likewise if their parts are, since a success leaves cursors in parallel. -/
theorem LikewiseFor.bind (hp : LikewiseFor k p p₁) (hf : ∀ a, Likewise (f a) (f₁ a)) :
    LikewiseFor k (p >>= f) (p₁ >>= f₁) := by
  refine ⟨fun {pairs ends c c₁} hparallel hkind => ?_⟩
  have hagree := hp.agree hparallel hkind
  rcases h : p c with ⟨a, c'⟩ | ⟨d, c'⟩ <;> rcases h₁ : p₁ c₁ with ⟨a₁, c₁'⟩ | ⟨d₁, c₁'⟩ <;>
    rw [h, h₁] at hagree <;> cases hagree
  · rename_i pairs' hsuffix hparallel'
    rw [bind_of_ok h, bind_of_ok h₁]
    exact ((hf a).agree hparallel').mono hsuffix
  · rename_i hd
    rw [bind_of_error h, bind_of_error h₁]
    exact .error hd

theorem Likewise.bind (hp : Likewise p p₁) (hf : ∀ a, Likewise (f a) (f₁ a)) :
    Likewise (p >>= f) (p₁ >>= f₁) := fun k => (hp k).bind hf

/-! ### Optional parts, repetition and levels -/

theorem Likewise.optionalAfter (k : Kind) (hp : Likewise p p₁) :
    Likewise (optionalAfter k p) (optionalAfter k p₁) := by
  refine .kind_bind fun k' => ?_
  split
  · refine Likewise.skip_bind (fun _ _ => ?_) k'
    rw [map_eq_pure_bind, map_eq_pure_bind]
    exact hp.bind fun a => .pure (some a)
  · exact Likewise.pure none k'

/-- A loop does likewise if its parser does, and if its test is the same for tokens that match. -/
theorem Likewise.manyWhile {test : Cursor → Bool}
    (htest : ∀ {pairs : List (Token × Token)} {ends : Position × Position} {c c₁ : Cursor},
      c.Parallel pairs ends c₁ → test c₁ = test c)
    (hp : Likewise p p₁) : Likewise (manyWhile test p) (manyWhile test p₁) := by
  have hmany (bound : Nat) : Likewise (manyAtMost test p bound) (manyAtMost test p₁ bound) := by
    induction bound with
    | zero => exact .pure []
    | succ bound ih =>
      refine fun _ => ⟨fun {pairs ends c c₁} hparallel _ => ?_⟩
      rw [manyAtMost_succ, manyAtMost_succ, htest hparallel]
      split
      · exact (hp.bind fun a => ih.bind fun rest => .pure (a :: rest)).agree hparallel
      · exact .ok List.suffix_rfl hparallel
  refine fun _ => ⟨fun {pairs ends c c₁} hparallel _ => ?_⟩
  rw [Parser.manyWhile, Parser.manyWhile, hparallel.length_eq]
  exact (hmany _).agree hparallel

/-- Loops are likewise if the kind of the next token decides whether they go on. -/
theorem Likewise.manyWhile_kind (test : Kind → Bool) (hp : Likewise p p₁) :
    Likewise (Parser.manyWhile (fun c => test c.kind) p)
      (Parser.manyWhile (fun c => test c.kind) p₁) :=
  .manyWhile (fun h => by rw [h.kind_eq]) hp

/-- Cursors in parallel have the same levels open, and one more keeps them so. -/
theorem Likewise.opened (hp : Likewise p p₁) : Likewise (opened p) (opened p₁) := by
  refine fun _ => ⟨fun {pairs ends c c₁} hparallel _ => ?_⟩
  rw [opened_apply, opened_apply]
  have hexit (a : α) : Likewise (exit >>= fun _ => Pure.pure a) (exit >>= fun _ => Pure.pure a) :=
    fun _ => ⟨fun h _ => .ok List.suffix_rfl (h.setDepth (· - 1))⟩
  exact (hp.bind hexit).agree (hparallel.setDepth (· + 1))

theorem Likewise.deeper {room : Nat} {level level₁ : Nat → Parser α}
    {body body₁ : Parser α → Parser β}
    (h : ∀ r, room = r + 1 → Likewise (body (level r)) (body₁ (level₁ r))) :
    Likewise (deeper (below level room) body) (deeper (below level₁ room) body₁) := by
  cases room with
  | zero => exact .tooDeep
  | succ r => exact (h r rfl).opened

/-! ### Chains -/

theorem Likewise.chain (op? : Kind → Option BinaryOp) {operand operand₁ : Parser Expr}
    (h : Likewise operand operand₁) : Likewise (chain op? operand) (chain op? operand₁) := by
  have hfrom (bound : Nat) (left : Expr) :
      Likewise (chainFrom op? operand bound left) (chainFrom op? operand₁ bound left) := by
    induction bound generalizing left with
    | zero => exact .pure left
    | succ bound ih =>
      refine .kind_bind fun k => ?_
      split
      · exact Likewise.pure left k
      · exact Likewise.skip_bind (fun _ _ => h.bind fun right => ih (.binary _ left right)) k
  refine h.bind fun left _ => ⟨fun {pairs ends c c₁} hparallel _ => ?_⟩
  rw [hparallel.length_eq]
  exact (hfrom _ left).agree hparallel

end Parser

end MiniC
