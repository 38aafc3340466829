import MiniC.Proofs.Parser.Prefix

/-!
# One token of lookahead

A parser that succeeds has looked at the tokens it took and at the one after them, and a parser that
blames a token has looked at that token and the ones before it. So whatever comes later does not
matter, and neither does the position of the end: the parser **settles** its answer
(`Parser.Settles`). When it blames a token, the tokens before that token are not to blame: on those
alone it comes to the end (`Parser.Rejects`).

An incremental parser that settles its answers is **predictive** (`Parser.Predictive`). As with
incremental parsers, what is only ever started after a token that cannot be missing need not come to
the end when it is started there, and only settles.
-/

namespace MiniC

/-- The text of the token that a fault blames, if it blames one. -/
def Fault.token? : Fault → Option String
  | unexpectedToken token | unexpectedTokenDetailed token _ => some token
  | _ => none

/-- A diagnostic **blames** a token: it shows the text of the token, and is where the token is. -/
structure Diagnostic.Blames (d : Diagnostic) (t : Token) : Prop where
  token? : d.fault.token? = some t.value
  position : d.position = t.position

namespace Cursor

/-- Two cursors that **look alike** have the same next token, or none, and the same levels open. -/
structure Alike (c c₁ : Cursor) : Prop where
  current? : c₁.current? = c.current?
  depth : c₁.depth = c.depth

variable {c c₁ : Cursor}

/-- Before the same tokens, cursors that look alike still do. -/
theorem Alike.before (h : Alike c c₁) (ts : List Token) : Alike (c.before ts) (c₁.before ts) where
  current? := by
    cases ts with
    | nil => exact h.current?
    | cons t ts => rfl
  depth := h.depth

/-- Before the same token, cursors look alike if their levels do. -/
theorem alike_before_concat (h : c₁.depth = c.depth) (ts : List Token) (t : Token) :
    Alike (c.before (ts ++ [t])) (c₁.before (ts ++ [t])) where
  current? := by cases ts <;> rfl
  depth := h

private theorem kind_eq_of_current? (h : c₁.current? = c.current?) : c₁.kind = c.kind := by
  obtain ⟨rest, depth, e⟩ := c
  obtain ⟨rest₁, depth₁, e₁⟩ := c₁
  cases rest <;> cases rest₁ <;> cases h <;> rfl

theorem hasTokens_eq_of_current? (h : c₁.current? = c.current?) : c₁.hasTokens = c.hasTokens := by
  obtain ⟨rest, depth, e⟩ := c
  obtain ⟨rest₁, depth₁, e₁⟩ := c₁
  cases rest <;> cases rest₁ <;> cases h <;> rfl

end Cursor

namespace Parser

/-- A parser **rejects** a token after other tokens, with the given number of levels open: it blames
the token whatever follows it, and comes to the end where the token is missing. -/
structure Rejects (p : Parser α) (depth : Nat) (ts : List Token) (t : Token) (d : Diagnostic) :
    Prop where
  blames : d.Blames t
  settled : ∀ c : Cursor, c.depth = depth → ∃ c', p (c.before (ts ++ [t])) = .error d c'
  spent : ∀ c : Cursor, c.depth = depth → c.rest = [] → Spent (p (c.before ts))

/-- The answer at a cursor is **settled** by the tokens up to the one that is looked at last. -/
structure SettlesAt (p : Parser α) (c : Cursor) : Prop where
  /-- A success is the same before everything that looks alike. -/
  ok : ∀ {a c'}, p c = .ok a c' →
    ∃ ts, c = c'.before ts ∧ ∀ c₁ : Cursor, c'.Alike c₁ → p (c₁.before ts) = .ok a c₁
  /-- A token is blamed because it is rejected. -/
  error : ∀ {d c'}, p c = .error d c' → d.fault.token?.isSome = true →
    ∃ ts t, ∃ c₁ : Cursor, c = c₁.before (ts ++ [t]) ∧ Rejects p c.depth ts t d

/-- A parser that **settles** its answers. -/
structure Settles (p : Parser α) : Prop where
  onPrefix : Extends p
  settlesAt : ∀ c, SettlesAt p c

/-- A **predictive** parser. -/
structure Predictive (p : Parser α) : Prop extends Incremental p, Settles p

section

variable {α β : Type} {p : Parser α} {f : α → Parser β} {c : Cursor}

/-! ### Failures and single tokens -/

/-- A failure that blames no token is settled by nothing. -/
theorem SettlesAt.of_error {d : Diagnostic} {c' : Cursor} (h : p c = .error d c')
    (hd : d.fault.token? = none) : SettlesAt p c where
  ok hrun := by cases hrun.symm.trans h
  error hrun htoken := by
    cases hrun.symm.trans h
    rw [hd] at htoken
    cases htoken

theorem Settles.tooDeep : Settles (fail Cursor.tooDeep : Parser α) where
  onPrefix := .fail _
  settlesAt _ := .of_error rfl rfl

/-- The next token is rejected if it is blamed before every cursor. -/
theorem SettlesAt.of_blames {t : Token} {d : Diagnostic} (hd : d.Blames t)
    (h : ∀ c : Cursor, ∃ c', p (c.before [t]) = .error d c')
    (hend : ∀ c : Cursor, c.rest = [] → Spent (p c)) : SettlesAt p (c.before [t]) where
  ok hrun := by
    obtain ⟨c₁, herror⟩ := h c
    cases hrun.symm.trans herror
  error hrun _ := by
    obtain ⟨c₁, herror⟩ := h c
    cases hrun.symm.trans herror
    exact ⟨[], t, c, rfl, hd, fun c _ => h c, fun c _ => hend c⟩

/-- After the next token, another parser settles the answer. -/
theorem SettlesAt.cons {q : Parser α} {t : Token} (h : ∀ c : Cursor, q (c.before [t]) = p c)
    (hp : SettlesAt p c) : SettlesAt q (c.before [t]) where
  ok hrun := by
    obtain ⟨ts, rfl, hlike⟩ := hp.ok ((h c).symm.trans hrun)
    exact ⟨t :: ts, rfl, fun c₁ hc₁ => (h _).trans (hlike c₁ hc₁)⟩
  error hrun htoken := by
    obtain ⟨ts, t', c₁, rfl, hd, hsettled, hspent⟩ := hp.error ((h c).symm.trans hrun) htoken
    refine ⟨t :: ts, t', c₁, rfl, hd, fun c₂ hc₂ => ?_, fun c₂ hc₂ hend => ?_⟩
    · obtain ⟨c', hrun'⟩ := hsettled c₂ hc₂
      exact ⟨c', (h _).trans hrun'⟩
    · have hc := hspent c₂ hc₂ hend
      rwa [← h] at hc

/-- A parser that starts with a token, and either goes on after it or blames it. -/
theorem Predictive.of_token (hend : ∀ c : Cursor, c.rest = [] → p c = .error c.endOfInput c)
    (htoken : ∀ t, (∃ q : Parser α, Settles q ∧ ∀ c : Cursor, p (c.before [t]) = q c) ∨
      ∃ d : Diagnostic, d.Blames t ∧ ∀ c : Cursor, ∃ c', p (c.before [t]) = .error d c') :
    Predictive p := by
  have hatEnd (c : Cursor) (hc : c.rest = []) : Spent (p c) := by
    rw [hend c hc]
    exact .error hc
  refine ⟨⟨fun ts e c a c' hrun => ?_, hatEnd⟩, fun c => ?_⟩
  · rcases c.end_or_before with hc | ⟨t, c, rfl⟩
    · exact .inr (hatEnd c hc)
    · rw [Cursor.extend_before] at hrun
      rcases htoken t with ⟨q, hq, heq⟩ | ⟨d, -, hd⟩
      · rw [heq] at hrun ⊢
        exact hq.onPrefix ts e c a c' hrun
      · obtain ⟨c₁, herror⟩ := hd (c.extend ts e)
        cases hrun.symm.trans herror
  · rcases c.end_or_before with hc | ⟨t, c, rfl⟩
    · exact .of_error (hend c hc) rfl
    · rcases htoken t with ⟨q, hq, heq⟩ | ⟨d, hblames, hd⟩
      · exact .cons heq (hq.settlesAt c)
      · exact .of_blames hblames hd hatEnd

/-- After a token has been taken, the rest settles the answer, or the token is to blame. -/
theorem Predictive.advance_bind {f : Token → Parser β}
    (h : ∀ t, Settles (f t) ∨ ∃ d : Diagnostic, d.Blames t ∧ f t = throw d) :
    Predictive (advance >>= f) := by
  refine .of_token (fun c hc => bind_of_error (advance_of_end hc)) fun t => ?_
  rcases h t with hsettles | ⟨d, hd, hthrow⟩
  · exact .inl ⟨f t, hsettles, fun c => bind_of_ok (advance_before t c)⟩
  · refine .inr ⟨d, hd, fun c => ⟨c, ?_⟩⟩
    rw [bind_of_ok (advance_before t c), hthrow]
    rfl

/-- A token that is taken whatever it is. -/
theorem Predictive.skip_bind {f : Token → Parser β} (h : ∀ t, Settles (f t)) :
    Predictive (advance >>= f) :=
  .advance_bind fun t => .inl (h t)

/-- A token that is asked for is to blame if it is another one. -/
theorem Predictive.expect_bind (k : Kind) {f : Token → Parser β} (h : ∀ t, Settles (f t)) :
    Predictive (expect k >>= f) := by
  refine .of_token (fun c hc => bind_of_error (expect_of_end k hc)) fun t => ?_
  by_cases ht : t.kind = k
  · exact .inl ⟨f t, h t, fun c => bind_of_ok (expect_of_eq ht c)⟩
  · exact .inr ⟨⟨.unexpectedToken t.value, t.position⟩, ⟨rfl, rfl⟩, fun c =>
      ⟨_, bind_of_error (expect_of_ne (c := c.before [t]) ht)⟩⟩

theorem Predictive.expectFor_bind (message : String) (k : Kind) {f : Token → Parser β}
    (h : ∀ t, Settles (f t)) : Predictive (expectFor message k >>= f) := by
  refine .of_token (fun c hc => bind_of_error (expectFor_of_end message k hc)) fun t => ?_
  by_cases ht : t.kind = k
  · exact .inl ⟨f t, h t, fun c => bind_of_ok (expectFor_of_eq message ht c)⟩
  · exact .inr ⟨⟨.unexpectedTokenDetailed t.value message, t.position⟩, ⟨rfl, rfl⟩, fun c =>
      ⟨_, bind_of_error (expectFor_of_ne (c := c.before [t]) message ht)⟩⟩

/-- A token that is no label is to blame. -/
theorem Predictive.caseLabel_bind {f : CaseLabel → Parser β} (h : ∀ a, Settles (f a)) :
    Predictive (caseLabel >>= f) := by
  refine .of_token (fun c hc => ?_) fun t => ?_
  · have hnone : c.current?.bind Token.caseLabel? = none := by
      rw [Cursor.current?, hc]
      rfl
    rw [bind_of_error (caseLabel_of_none hnone), unexpectedBecause_of_end _ hc]
  · rcases hlabel : t.caseLabel? with - | label
    · exact .inr ⟨⟨.unexpectedTokenDetailed t.value "expected case label", t.position⟩,
        ⟨rfl, rfl⟩, fun c => ⟨_, bind_of_error (caseLabel_of_none (c := c.before [t]) hlabel)⟩⟩
    · exact .inl ⟨f label, h label, fun c => bind_of_ok (caseLabel_of_some hlabel c)⟩

/-- Where there is a token it is to blame, and at the end nothing is. -/
theorem Predictive.unexpected : Predictive (fail Cursor.unexpected : Parser α) := by
  refine .of_token (fun c hc => ?_) fun t => ?_
  · rw [fail, unexpected_of_end hc]
  · exact .inr ⟨⟨.unexpectedToken t.value, t.position⟩, ⟨rfl, rfl⟩, fun c => ⟨_, rfl⟩⟩

theorem Predictive.unexpectedBecause (message : String) :
    Predictive (fail (Cursor.unexpectedBecause message) : Parser α) := by
  refine .of_token (fun c hc => ?_) fun t => ?_
  · rw [fail, unexpectedBecause_of_end message hc]
  · exact .inr ⟨⟨.unexpectedTokenDetailed t.value message, t.position⟩, ⟨rfl, rfl⟩,
      fun c => ⟨_, rfl⟩⟩

theorem Predictive.pure (a : α) : Predictive (pure a : Parser α) where
  toIncremental := .pure a
  settlesAt c :=
    { ok := fun hrun => by
        cases hrun
        exact ⟨[], rfl, fun c₁ _ => rfl⟩
      error := nofun }

/-! ### What is next -/

/-- A parser that runs as another one does wherever the next token is the same. -/
theorem SettlesAt.congr {q : Parser α} (hp : SettlesAt p c)
    (h : ∀ c₁ : Cursor, c₁.current? = c.current? → q c₁ = p c₁)
    (hend : ∀ c : Cursor, c.rest = [] → Spent (q c)) : SettlesAt q c where
  ok hrun := by
    obtain ⟨ts, rfl, hlike⟩ := hp.ok ((h c rfl).symm.trans hrun)
    refine ⟨ts, rfl, fun c₁ hc₁ => ?_⟩
    rw [h _ (hc₁.before ts).current?, hlike c₁ hc₁]
  error hrun htoken := by
    obtain ⟨ts, t, c₁, rfl, hd, hsettled, hspent⟩ := hp.error ((h c rfl).symm.trans hrun) htoken
    refine ⟨ts, t, c₁, rfl, hd, fun c₂ hc₂ => ?_, fun c₂ hc₂ hc₂' => ?_⟩
    · obtain ⟨c', hrun'⟩ := hsettled c₂ hc₂
      exact ⟨c', (h _ (Cursor.alike_before_concat (c := c₁) hc₂ ts t).current?).trans hrun'⟩
    -- Without the rejected token there may be no next token any more.
    · cases ts with
      | nil => exact hend c₂ hc₂'
      | cons t' ts =>
        rw [h (c₂.before (t' :: ts)) rfl]
        exact hspent c₂ hc₂ hc₂'

/-- The kind of the next token chooses the parser. -/
theorem Predictive.kind_bind {f : Kind → Parser α}
    (hend : ∀ c : Cursor, c.rest = [] → Spent (f .endOfInput c)) (h : ∀ k, Settles (f k)) :
    Predictive (kind >>= f) where
  toIncremental := .kind_bind hend fun k => (h k).onPrefix
  settlesAt c := by
    refine ((h c.kind).settlesAt c).congr (fun c₁ hc₁ => ?_) ?_
    · rw [bind_of_ok (kind_apply c₁), Cursor.kind_eq_of_current? hc₁]
    · exact (Incremental.kind_bind hend fun k => (h k).onPrefix).atEnd

theorem Predictive.kind : Predictive kind := by
  rw [← bind_pure Parser.kind]
  exact .kind_bind (fun c hc => .ok hc) fun k => (Predictive.pure k).toSettles

/-! ### Sequences -/

/-- Where the token is missing that the second part of a sequence rejects, the sequence comes to the
end. The first part may come to it already, if the second one rejects the first token it sees. -/
private theorem Extends.spent_bind {ts ts' : List Token} {t : Token} {a : α} {c₁ c₂ : Cursor}
    (hp : Extends p)
    (hlike : ∀ c : Cursor, (c₁.before (ts' ++ [t])).Alike c → p (c.before ts) = .ok a c)
    (hdepth : c₂.depth = c₁.depth) (hrest : c₂.rest = []) (hspent : Spent (f a (c₂.before ts')))
    (hend : ∀ a (c : Cursor), c.rest = [] → Spent (f a c)) :
    Spent ((p >>= f) (c₂.before (ts ++ ts'))) := by
  rw [Cursor.before_append]
  cases ts' with
  | nil =>
    have hextend : (c₁.before [t]).before ts
        = (c₂.before ts).extend (t :: c₁.rest) c₁.endPosition := by
      simp [Cursor.before, Cursor.extend, hdepth, hrest]
    have hrun := hlike (c₁.before [t]) ⟨rfl, rfl⟩
    rw [hextend] at hrun
    rcases hp _ _ _ _ _ hrun with ⟨c₃, h₃, heq⟩ | hspent'
    · have hlength := congrArg Cursor.rest heq
      have hc₃ : c₃.rest = [] := by simpa [Cursor.extend] using hlength
      rw [Cursor.before_nil, bind_of_ok h₃]
      exact hend a c₃ hc₃
    · exact hspent'.bind hend
  | cons t' ts' =>
    have halike : (c₁.before (t' :: ts' ++ [t])).Alike (c₂.before (t' :: ts')) := ⟨rfl, hdepth⟩
    rwa [bind_of_ok (hlike _ halike)]

/-- A sequence is settled by the tokens of both parts: what its second part looks at last does not
come before what its first part looked at. -/
theorem SettlesAt.bind (hp : SettlesAt p c) (hextends : Extends p)
    (hf : ∀ {a c₁}, p c = .ok a c₁ → SettlesAt (f a) c₁)
    (hend : ∀ a (c : Cursor), c.rest = [] → Spent (f a c)) : SettlesAt (p >>= f) c where
  ok hrun := by
    obtain ⟨a, c₁, h₁, h₂⟩ := bind_ok_iff.1 hrun
    obtain ⟨ts, rfl, hlike⟩ := hp.ok h₁
    obtain ⟨ts', rfl, hlike'⟩ := (hf h₁).ok h₂
    refine ⟨ts ++ ts', (Cursor.before_append ..).symm, fun c₂ hc₂ => ?_⟩
    rw [Cursor.before_append, bind_of_ok (hlike _ (hc₂.before ts')), hlike' c₂ hc₂]
  error hrun htoken := by
    rcases bind_error_iff.1 hrun with h₁ | ⟨a, c₁, h₁, h₂⟩
    · obtain ⟨ts, t, c₁, rfl, hd, hsettled, hspent⟩ := hp.error h₁ htoken
      refine ⟨ts, t, c₁, rfl, hd, fun c₂ hc₂ => ?_, fun c₂ hc₂ hc₂' => ?_⟩
      · obtain ⟨c', hrun'⟩ := hsettled c₂ hc₂
        exact ⟨c', bind_of_error hrun'⟩
      · exact (hspent c₂ hc₂ hc₂').bind hend
    · -- The second part blames its token after whatever looks like this to the first part.
      obtain ⟨ts, rfl, hlike⟩ := hp.ok h₁
      obtain ⟨ts', t, c₁, rfl, hd, hsettled, hspent⟩ := (hf h₁).error h₂ htoken
      have hassoc (c : Cursor) :
          c.before (ts ++ ts' ++ [t]) = (c.before (ts' ++ [t])).before ts := by
        rw [List.append_assoc, Cursor.before_append]
      refine ⟨ts ++ ts', t, c₁, (hassoc c₁).symm, hd, fun c₂ hc₂ => ?_, fun c₂ hc₂ hc₂' => ?_⟩
      · obtain ⟨c', hrun'⟩ := hsettled c₂ hc₂
        refine ⟨c', ?_⟩
        rw [hassoc, bind_of_ok (hlike _ (Cursor.alike_before_concat (c := c₁) hc₂ ts' t)), hrun']
      · exact hextends.spent_bind hlike hc₂ hc₂' (hspent c₂ hc₂ hc₂') hend

theorem Settles.bind (hp : Settles p) (hf : ∀ a, Predictive (f a)) : Settles (p >>= f) where
  onPrefix := hp.onPrefix.bind fun a => (hf a).toIncremental
  settlesAt c := (hp.settlesAt c).bind hp.onPrefix (fun _ => (hf _).settlesAt _)
    fun a => (hf a).atEnd

theorem Predictive.bind (hp : Predictive p) (hf : ∀ a, Predictive (f a)) :
    Predictive (p >>= f) where
  toIncremental := hp.toIncremental.bind fun a => (hf a).toIncremental
  settlesAt := (hp.toSettles.bind hf).settlesAt

/-! ### Optional parts, repetition and levels -/

/-- The next token tells whether an optional part is there. -/
theorem Predictive.optionalAfter (k : Kind) (hp : Predictive p) :
    Predictive (optionalAfter k p) := by
  refine Predictive.kind.bind fun k' => ?_
  split
  · refine .skip_bind fun _ => ?_
    rw [map_eq_pure_bind]
    exact (hp.bind fun a => .pure (some a)).toSettles
  · exact .pure none

/-- A loop is predictive if its parser is, and if its test looks no further than the next token. -/
theorem Predictive.manyWhile {room : Nat} {test : Cursor → Bool}
    (htest : ∀ {c c₁ : Cursor}, c₁.current? = c.current? → test c₁ = test c)
    (hadv : Advances room p) (hp : Predictive p) : Predictive (manyWhile test p) := by
  have hmany : Incremental (Parser.manyWhile test p) :=
    .manyWhile (fun _ _ _ _ => htest rfl) hadv hp.toIncremental
  refine ⟨hmany, fun c => ?_⟩
  -- A round is shorter than the rest of the tokens, so the rounds after it are settled.
  induction hlength : c.rest.length using Nat.strongRecOn generalizing c with
  | ind length ih =>
    by_cases hc : test c = true
    · have hround : SettlesAt (p >>= fun a => Parser.manyWhile test p >>= fun rest =>
          Pure.pure (a :: rest)) c := by
        refine (hp.settlesAt c).bind hp.onPrefix (fun {a c₁} h₁ => ?_) fun a => ?_
        · exact (ih _ (hlength ▸ hadv.lt h₁) c₁ rfl).bind hmany.onPrefix
            (fun _ => (Predictive.pure _).settlesAt _) fun rest => (Incremental.pure _).atEnd
        · exact (hmany.bind fun rest => .pure (a :: rest)).atEnd
      refine hround.congr (fun c₁ hc₁ => ?_) hmany.atEnd
      rw [manyWhile_eq test hadv, htest hc₁, if_pos hc]
    · refine ((Predictive.pure []).settlesAt c).congr (fun c₁ hc₁ => ?_) hmany.atEnd
      rw [manyWhile_eq test hadv, htest hc₁, if_neg hc]
      rfl

/-- A test for the next kind looks no further than the next token. -/
theorem Predictive.manyWhile_kind {room : Nat} (test : Kind → Bool) (hadv : Advances room p)
    (hp : Predictive p) : Predictive (Parser.manyWhile (fun c => test c.kind) p) :=
  .manyWhile (fun h => by rw [Cursor.kind_eq_of_current? h]) hadv hp

/-- A level that is opened and closed changes nothing in what is looked at. -/
theorem SettlesAt.opened (hp : SettlesAt p { c with depth := c.depth + 1 }) :
    SettlesAt (opened p) c where
  ok hrun := by
    obtain ⟨c₁, h₁, rfl⟩ := opened_ok_iff.1 hrun
    obtain ⟨ts, heq, hlike⟩ := hp.ok h₁
    have hclosed := congrArg (fun c : Cursor => { c with depth := c.depth - 1 }) heq
    have hdepth : c.depth + 1 = c₁.depth := congrArg Cursor.depth heq
    refine ⟨ts, hclosed, fun c₂ hc₂ => ?_⟩
    have halike : c₁.Alike { c₂ with depth := c₂.depth + 1 } := by
      refine ⟨hc₂.current?, ?_⟩
      rw [hc₂.depth, ← hdepth, Nat.add_sub_cancel]
    exact opened_ok_iff.2 ⟨_, hlike _ halike, rfl⟩
  error hrun htoken := by
    obtain ⟨ts, t, c₁, heq, hd, hsettled, hspent⟩ := hp.error (opened_error_iff.1 hrun) htoken
    have hclosed := congrArg (fun c : Cursor => { c with depth := c.depth - 1 }) heq
    refine ⟨ts, t, { c₁ with depth := c₁.depth - 1 }, hclosed, hd, fun c₂ hc₂ => ?_,
      fun c₂ hc₂ hc₂' => ?_⟩
    · obtain ⟨c', hrun'⟩ := hsettled { c₂ with depth := c₂.depth + 1 } (by rw [hc₂])
      exact ⟨c', opened_error_iff.2 hrun'⟩
    · have hinside := hspent { c₂ with depth := c₂.depth + 1 } (by rw [hc₂]) hc₂'
      rw [opened_apply]
      exact hinside.bind fun a c hc => .ok hc

theorem Settles.opened (hp : Settles p) : Settles (opened p) where
  onPrefix := hp.onPrefix.opened
  settlesAt _ := (hp.settlesAt _).opened

theorem Settles.deeper {room : Nat} {level : Nat → Parser α} {body : Parser α → Parser β}
    (h : ∀ r, room = r + 1 → Settles (body (level r))) :
    Settles (deeper (below level room) body) := by
  cases room with
  | zero => exact .tooDeep
  | succ r => exact (h r rfl).opened

/-! ### Chains -/

/-- The next token tells whether there is an operator. -/
theorem Predictive.link (op? : Kind → Option BinaryOp) {operand : Parser Expr}
    (h : Predictive operand) : Predictive (link op? operand) := by
  refine Predictive.kind.bind fun k => ?_
  split
  · exact .unexpected
  · exact .skip_bind fun _ => (h.bind fun right => .pure _).toSettles

/-- A chain goes on as long as the next token is an operator. -/
theorem Predictive.chain {room : Nat} {op? : Kind → Option BinaryOp} {operand : Parser Expr}
    (hend : op? .endOfInput = none) (hadv : Advances room operand) (h : Predictive operand) :
    Predictive (chain op? operand) := by
  rw [chain_eq hend hadv]
  refine h.bind fun left => ?_
  refine (Predictive.manyWhile_kind (fun k => (op? k).isSome) hadv.link (h.link op?)).bind ?_
  exact fun links => .pure _

end

end Parser

end MiniC
