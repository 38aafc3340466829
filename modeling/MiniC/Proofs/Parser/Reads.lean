import MiniC.Proofs.Grammar.Derivation
import MiniC.Proofs.Parser.Progress

/-!
# What parsers read

`Parser.ReadsAt room p P c` says what a run of the parser `p` at the cursor `c` tells about phrases
of the sort `P`, where `room` levels may be opened. If the run succeeds, then the tokens it took are
such a phrase, for the tree it answers. If it runs out of tokens while not every level is open, then
the tokens it was given begin such a phrase: they were read as far as they go, and what is missing
can be filled in with one more level at most.

There is one lemma for each way of putting parsers together. The phrases of a sequence are
`Phrase.Then`, and what can be filled in is the class `Phrase.Fillable`, whose instances follow the
shape of the phrases.
-/

namespace MiniC

namespace Phrase

/-- A phrase, and after it another one, whose sort depends on the tree of the first. -/
inductive Then (P : Phrase α) (Q : α → Phrase β) : Phrase β
  | mk {ts ts' : List Token} {a : α} {b : β} {n m : Nat} :
      P ts a n → Q a ts' b m → Then P Q (ts ++ ts') b (max n m)

/-- No tokens. -/
inductive Just (a : α) : Phrase α
  | mk : Just a [] a 0

/-- A phrase that is a level. -/
inductive Level (P : Phrase α) : Phrase α
  | mk {ts : List Token} {a : α} {n : Nat} : P ts a n → Level P ts a (n + 1)

/-- One token of a kind. -/
inductive One (k : Kind) : Phrase Token
  | mk {t : Token} : t.kind = k → One k [t] t 0

/-- One token whose kind stands for an operator. -/
inductive Operator (op? : Kind → Option α) : Phrase α
  | mk {t : Token} {op : α} : op? t.kind = some op → Operator op? [t] op 0

/-- One **link** of a chain: an operator, and the operand after it. -/
inductive Link (op? : Kind → Option BinaryOp) (P : Phrase Expr) : Phrase (BinaryOp × Expr)
  | mk {t : Token} {ts : List Token} {op : BinaryOp} {right : Expr} {n : Nat} :
      op? t.kind = some op → P ts right n → Link op? P (t :: ts) (op, right) n

/-! ### Chains and their links -/

/-- One more phrase can come last. -/
theorem Many.concat {P : Phrase α} {ts ts' : List Token} {as : List α} {a : α} {n m : Nat}
    (h : Many P ts as n) (ha : P ts' a m) : Many P (ts ++ ts') (as ++ [a]) (max n m) := by
  induction h with
  | nil => simpa using Many.cons ha .nil
  | cons hb _ ih =>
    rw [List.append_assoc, Nat.max_assoc]
    exact .cons hb ih

section

variable {op? : Kind → Option BinaryOp} {P : Phrase Expr} {ts ts' : List Token} {e : Expr}
  {links : List (BinaryOp × Expr)} {n m : Nat}

/-- A chain is read from the left, so a longer one has a shorter one as its left operand. -/
private theorem Chain.append_links (h : Chain op? P ts e n)
    (hlinks : Many (Link op? P) ts' links m) :
    Chain op? P (ts ++ ts') (Parser.linked e links) (max n m) := by
  induction hlinks generalizing ts e n with
  | nil => simpa [Parser.linked] using h
  | cons hlink _ ih =>
    cases hlink with
    | mk hop hright =>
      rw [← List.append_assoc, ← Nat.max_assoc]
      exact ih (.binary h hop hright)

/-- A chain is an operand and links. -/
theorem Chain.exists_links (h : Chain op? P ts e n) :
    ∃ ts₀ left n₀ ts' links m, P ts₀ left n₀ ∧ Many (Link op? P) ts' links m ∧
      ts = ts₀ ++ ts' ∧ e = Parser.linked left links ∧ n = max n₀ m := by
  induction h with
  | operand h => exact ⟨_, _, _, [], [], 0, h, .nil, by simp, rfl, by simp⟩
  | binary _ hop hright ih =>
    obtain ⟨ts₀, left, n₀, ts', links, m, hleft, hlinks, rfl, rfl, rfl⟩ := ih
    refine ⟨ts₀, left, n₀, _, _, _, hleft, hlinks.concat (.mk hop hright), ?_, ?_, ?_⟩
    · rw [List.append_assoc]
    · simp [Parser.linked]
    · rw [Nat.max_assoc]

end

/-! ### Filling in what is missing -/

/-- A sort of phrases one of which needs one level at most. -/
class Fillable (P : Phrase α) : Prop where
  exists_phrase : ∃ ts a n, P ts a n ∧ n ≤ 1

section

variable {P : Phrase α}

/-- A phrase that opens no level can stand for one that is missing. -/
theorem Fillable.of_phrase (ts : List Token) {a : α} (h : P ts a 0) : Fillable P :=
  ⟨ts, a, 0, h, Nat.zero_le _⟩

/-- A token of any kind. -/
def someToken (k : Kind) : Token := ⟨k, "", none, default⟩

instance (a : α) : Fillable (Just a) := .of_phrase [] .mk

instance (k : Kind) : Fillable (One k) := .of_phrase [someToken k] (.mk rfl)

instance : Fillable (Many P) := .of_phrase [] .nil

instance : Fillable (Optional P) := .of_phrase [] .none

instance (Q : α → Phrase β) [h : Fillable P] [hQ : ∀ a, Fillable (Q a)] : Fillable (Then P Q) := by
  obtain ⟨ts, a, n, hP, hn⟩ := h
  obtain ⟨ts', b, m, hQ, hm⟩ := hQ a
  exact ⟨_, b, _, .mk hP hQ, Nat.max_le.2 ⟨hn, hm⟩⟩

instance (op? : Kind → Option BinaryOp) (P : Phrase Expr) [h : Fillable P] :
    Fillable (Chain op? P) := by
  obtain ⟨ts, a, n, hP, hn⟩ := h
  exact ⟨ts, a, n, .operand hP, hn⟩

end

end Phrase

namespace Parser

open Phrase

/-- What a run of a parser at a cursor, with the given **room**, tells about phrases. -/
structure ReadsAt (room : Nat) (p : Parser α) (P : Phrase α) (c : Cursor) : Prop where
  /-- The tokens that are taken are a phrase. -/
  ok : ∀ {a c'}, p c = .ok a c' → ∃ ts n, P ts a n ∧ n ≤ room ∧ c = c'.before ts
  /-- Where the tokens run out with a level to spare, they begin a phrase. -/
  viable : ∀ {d c'}, p c = .error d c' → d.fault = .unexpectedEndOfInput →
    c.depth + room = maxNesting → c'.depth < maxNesting →
    1 ≤ room ∧ ∃ ts a n, P (c.rest ++ ts) a n ∧ n ≤ room

/-- A parser that **reads** phrases of a sort, wherever the cursor is. -/
def Reads (room : Nat) (p : Parser α) (P : Phrase α) : Prop := ∀ c, ReadsAt room p P c

section

variable {α β : Type} {room : Nat} {p : Parser α} {f : α → Parser β} {P P' : Phrase α}
  {Q : α → Phrase β} {c : Cursor}

/-- What reads phrases of a sort reads phrases of a wider sort. -/
theorem ReadsAt.mono (h : ReadsAt room p P c) (hP : ∀ {ts a n}, P ts a n → P' ts a n) :
    ReadsAt room p P' c where
  ok hrun := by
    obtain ⟨ts, n, ht, hn, hc⟩ := h.ok hrun
    exact ⟨ts, n, hP ht, hn, hc⟩
  viable hrun hfault hdepth hdepth' := by
    obtain ⟨hroom, ts, a, n, ht, hn⟩ := h.viable hrun hfault hdepth hdepth'
    exact ⟨hroom, ts, a, n, hP ht, hn⟩

theorem ReadsAt.congr {q : Parser α} (hq : q c = p c) (h : ReadsAt room p P c) :
    ReadsAt room q P c where
  ok hrun := h.ok (hq.symm.trans hrun)
  viable hrun := h.viable (hq.symm.trans hrun)

/-! ### Runs that fail at once -/

/-- A fault of a token tells nothing about phrases. -/
theorem ReadsAt.of_fault {d : Diagnostic} {c' : Cursor} (h : p c = .error d c')
    (hd : d.fault ≠ .unexpectedEndOfInput) : ReadsAt room p P c where
  ok hrun := by cases hrun.symm.trans h
  viable hrun hfault := by
    cases hrun.symm.trans h
    exact absurd hfault hd

/-- Where there are no tokens, a whole phrase is missing. -/
theorem ReadsAt.of_end {d : Diagnostic} [hP : Fillable P] (hc : c.rest = [])
    (h : p c = .error d c) : ReadsAt room p P c where
  ok hrun := by cases hrun.symm.trans h
  viable hrun _ hdepth hdepth' := by
    cases hrun.symm.trans h
    obtain ⟨ts, a, n, ht, hn⟩ := hP
    have hroom : 1 ≤ room := by omega
    exact ⟨hroom, ts, a, n, by rwa [hc], Nat.le_trans hn hroom⟩

/-- A level too many is no end of the tokens, so nothing has to be filled in. -/
theorem ReadsAt.tooDeep : ReadsAt room (fail Cursor.tooDeep) P c := .of_fault rfl nofun

/-- A next token that cannot come next is reported, if there is one. -/
theorem ReadsAt.unexpected [Fillable P] (h : p c = .error c.unexpected c) :
    ReadsAt room p P c := by
  rcases c.end_or_before with hend | ⟨t, c, rfl⟩
  · exact .of_end hend h
  · exact .of_fault h nofun

theorem ReadsAt.unexpectedBecause {message : String} [Fillable P]
    (h : p c = .error (c.unexpectedBecause message) c) : ReadsAt room p P c := by
  rcases c.end_or_before with hend | ⟨t, c, rfl⟩
  · exact .of_end hend h
  · exact .of_fault h nofun

/-! ### Sequences -/

theorem Reads.pure (a : α) : Reads room (pure a : Parser α) (Just a) := fun _ =>
  { ok := fun hrun => by
      cases hrun
      exact ⟨[], 0, .mk, Nat.zero_le _, rfl⟩
    viable := nofun }

/-- What is read after a first phrase is read after its tokens. If the first phrase is not complete,
then the second one is missing altogether. -/
theorem ReadsAt.bind (hp : ReadsAt room p P c)
    (hf : ∀ {a c₁}, p c = .ok a c₁ → ReadsAt room (f a) (Q a) c₁) [hQ : ∀ a, Fillable (Q a)] :
    ReadsAt room (p >>= f) (Then P Q) c where
  ok hrun := by
    obtain ⟨a, c₁, h₁, h₂⟩ := bind_ok_iff.1 hrun
    obtain ⟨ts, n, ht, hn, rfl⟩ := hp.ok h₁
    obtain ⟨ts', m, ht', hm, rfl⟩ := (hf h₁).ok h₂
    exact ⟨_, _, .mk ht ht', Nat.max_le.2 ⟨hn, hm⟩, (Cursor.before_append ..).symm⟩
  viable hrun hfault hdepth hdepth' := by
    -- The second phrase is missing where the first one is not complete, and only begun otherwise.
    rcases bind_error_iff.1 hrun with h | ⟨a, c₁, h₁, h₂⟩
    · obtain ⟨hroom, ts, a, n, ht, hn⟩ := hp.viable h hfault hdepth hdepth'
      obtain ⟨ts', b, m, ht', hm⟩ := hQ a
      refine ⟨hroom, ts ++ ts', b, _, ?_, Nat.max_le.2 ⟨hn, Nat.le_trans hm hroom⟩⟩
      rw [← List.append_assoc]
      exact .mk ht ht'
    · obtain ⟨ts, n, ht, hn, rfl⟩ := hp.ok h₁
      obtain ⟨hroom, ts', b, m, ht', hm⟩ := (hf h₁).viable h₂ hfault hdepth hdepth'
      refine ⟨hroom, ts', b, _, ?_, Nat.max_le.2 ⟨hn, hm⟩⟩
      rw [Cursor.before_rest, List.append_assoc]
      exact .mk ht ht'

/-- A sequence reads one phrase after the other; what is missing of the second can be filled in. -/
theorem Reads.bind (hp : Reads room p P) (hf : ∀ a, Reads room (f a) (Q a))
    [∀ a, Fillable (Q a)] : Reads room (p >>= f) (Then P Q) := fun c =>
  (hp c).bind fun _ => hf _ _

/-! ### One token -/

/-- A run that takes the next token and goes on as another parser reads a phrase after the token. -/
theorem ReadsAt.cons {q : Parser α} {t : Token} (hq : q (c.before [t]) = p c)
    (hp : ReadsAt room p P c) (hP : ∀ {ts a n}, P ts a n → P' (t :: ts) a n) :
    ReadsAt room q P' (c.before [t]) where
  ok hrun := by
    obtain ⟨ts, n, ht, hn, rfl⟩ := hp.ok (hq.symm.trans hrun)
    exact ⟨t :: ts, n, hP ht, hn, rfl⟩
  viable hrun hfault hdepth hdepth' := by
    obtain ⟨hroom, ts, a, n, ht, hn⟩ := hp.viable (hq.symm.trans hrun) hfault hdepth hdepth'
    exact ⟨hroom, ts, a, n, hP ht, hn⟩

/-- A token that is asked for is read; where the tokens have run out, it can be filled in. -/
theorem Reads.expect (k : Kind) : Reads room (expect k) (One k) := by
  intro c
  rcases c.end_or_before with hend | ⟨t, c, rfl⟩
  · exact .of_end hend (expect_of_end k hend)
  · by_cases hk : t.kind = k
    · refine .cons (expect_of_eq hk c) (Reads.pure t c) ?_
      rintro _ _ _ ⟨⟩
      exact .mk hk
    · exact .of_fault (expect_of_ne hk) nofun

theorem Reads.expectFor (message : String) (k : Kind) :
    Reads room (expectFor message k) (One k) := by
  intro c
  rcases c.end_or_before with hend | ⟨t, c, rfl⟩
  · exact .of_end hend (expectFor_of_end message k hend)
  · by_cases hk : t.kind = k
    · refine .cons (expectFor_of_eq message hk c) (Reads.pure t c) ?_
      rintro _ _ _ ⟨⟩
      exact .mk hk
    · exact .of_fault (expectFor_of_ne message hk) nofun

/-- A parser that goes on by the operator that is next, and fails if none is. -/
theorem ReadsAt.operator {ω : Type} (op? : Kind → Option ω) {q : Parser β} {f : ω → Parser β}
    {Q : ω → Phrase β} (message : String) (hend : op? .endOfInput = none)
    (hnone : op? c.kind = none → q c = .error (c.unexpectedBecause message) c)
    (hsome : ∀ {op}, op? c.kind = some op → q c = (advance >>= fun _ => f op) c)
    (hf : ∀ op, Reads room (f op) (Q op)) [Fillable (Then (Operator op?) Q)] :
    ReadsAt room q (Then (Operator op?) Q) c := by
  rcases c.end_or_before with hrest | ⟨t, c, rfl⟩
  · have hop : op? c.kind = none := by rw [Cursor.kind_of_end hrest, hend]
    exact .of_end hrest (hnone hop)
  · rcases hop : op? (c.before [t]).kind with - | op
    · exact .of_fault (hnone hop) nofun
    · refine .cons ((hsome hop).trans (bind_of_ok (advance_before t c))) (hf op c) ?_
      intro ts b n hb
      simpa using Then.mk (Operator.mk hop) hb

/-! ### Optional parts and repetition -/

/-- An optional part is read if its first token is there. -/
theorem Reads.optionalAfter (k : Kind) (hp : Reads room p P) :
    Reads room (optionalAfter k p) (Optional (After k P)) := by
  intro c
  have hnone (h : c.kind ≠ k) : ReadsAt room (Parser.optionalAfter k p) (Optional (After k P)) c :=
    { ok := fun hrun => by
        cases hrun.symm.trans (optionalAfter_of_ne h)
        exact ⟨[], 0, .none, Nat.zero_le _, rfl⟩
      viable := fun hrun => by cases hrun.symm.trans (optionalAfter_of_ne h) }
  rcases c.end_or_before with hend | ⟨t, c, rfl⟩
  · by_cases hk : c.kind = k
    · refine .of_end (d := c.endOfInput) hend ?_
      rw [Parser.optionalAfter, bind_of_ok (kind_apply _), if_pos hk,
        bind_of_error (advance_of_end hend)]
    · exact hnone hk
  · by_cases hk : t.kind = k
    · refine .cons (optionalAfter_of_eq hk c) (hp.bind (fun a => .pure (some a)) c) ?_
      rintro _ _ _ ⟨ht, ⟨⟩⟩
      simpa using Optional.some (After.mk hk ht)
    · exact hnone hk

/-- A loop reads repeated phrases, if its test lets only those in. -/
theorem Reads.manyAtMost {test : Cursor → Bool} (hp : ∀ c, test c = true → ReadsAt room p P c)
    (bound : Nat) : Reads room (manyAtMost test p bound) (Many P) := by
  induction bound with
  | zero =>
    refine fun c => (Reads.pure [] c).mono ?_
    rintro _ _ _ ⟨⟩
    exact .nil
  | succ bound ih =>
    intro c
    by_cases htest : test c = true
    · have hbody := (hp c htest).bind fun {a _} _ => ih.bind (fun rest => .pure (a :: rest)) _
      refine .congr ?_ (hbody.mono ?_)
      · rw [manyAtMost_succ, if_pos htest]
      · rintro _ _ _ ⟨ha, ⟨has, ⟨⟩⟩⟩
        simpa using Many.cons ha has
    · refine .congr ?_ ((Reads.pure [] c).mono ?_)
      · rw [manyAtMost_succ, if_neg htest]
        rfl
      · rintro _ _ _ ⟨⟩
        exact .nil

/-- A loop reads any number of phrases, if its parser reads one wherever the test holds. -/
theorem Reads.manyWhile {test : Cursor → Bool} (hp : ∀ c, test c = true → ReadsAt room p P c) :
    Reads room (manyWhile test p) (Many P) := fun c =>
  .congr (p := Parser.manyAtMost test p (c.rest.length + 1)) rfl (Reads.manyAtMost hp _ c)

/-- Where the test of a loop holds, the loop reads at least one phrase. -/
theorem ReadsAt.manyWhile_of_test {test : Cursor → Bool} (hadv : Advances room p)
    (hp : ∀ c, test c = true → ReadsAt room p P c) (hc : test c = true) :
    ReadsAt room (manyWhile test p) (fun ts as n => Many P ts as n ∧ as ≠ []) c := by
  have hbody := (hp c hc).bind fun {a _} _ =>
    (Reads.manyWhile hp).bind (fun rest => .pure (a :: rest)) _
  refine .congr ?_ (hbody.mono ?_)
  · rw [manyWhile_eq test hadv, if_pos hc]
  · rintro _ _ _ ⟨ha, ⟨has, ⟨⟩⟩⟩
    exact ⟨by simpa using Many.cons ha has, nofun⟩

/-! ### Levels -/

/-- A phrase that is read inside a level has that level more. -/
theorem ReadsAt.opened (hp : ReadsAt room p P { c with depth := c.depth + 1 }) :
    ReadsAt (room + 1) (opened p) (Level P) c where
  ok hrun := by
    obtain ⟨c₁, h₁, rfl⟩ := opened_ok_iff.1 hrun
    obtain ⟨ts, n, ht, hn, heq⟩ := hp.ok h₁
    -- Before the level is closed again, the cursors are equal one level deeper.
    have hclosed := congrArg (fun c : Cursor => { c with depth := c.depth - 1 }) heq
    exact ⟨ts, n + 1, .mk ht, Nat.succ_le_succ hn, hclosed⟩
  viable hrun hfault hdepth hdepth' := by
    obtain ⟨hroom, ts, a, n, ht, hn⟩ := hp.viable (opened_error_iff.1 hrun) hfault
      (by rw [← hdepth, Nat.succ_add_eq_add_succ]) hdepth'
    exact ⟨Nat.le_add_left .., ts, a, n + 1, .mk ht, Nat.succ_le_succ hn⟩

theorem Reads.deeper {level : Nat → Parser β} {body : Parser β → Parser α}
    (h : ∀ r, room = r + 1 → Reads r (body (level r)) P) :
    Reads room (deeper (below level room) body) (Level P) := by
  cases room with
  | zero => exact fun _ => .tooDeep
  | succ r => exact fun _ => .opened (h r rfl _)

/-! ### Chains -/

theorem ReadsAt.link {op? : Kind → Option BinaryOp} {operand : Parser Expr} {P : Phrase Expr}
    {op : BinaryOp} (hend : op? .endOfInput = none) (h : Reads room operand P)
    (hop : op? c.kind = some op) : ReadsAt room (link op? operand) (Link op? P) c := by
  rcases c.end_or_before with hrest | ⟨t, c, rfl⟩
  · rw [Cursor.kind_of_end hrest, hend] at hop
    cases hop
  · refine .cons ((link_of_some hop).trans (bind_of_ok (advance_before t c)))
      (h.bind (fun right => .pure (op, right)) c) ?_
    rintro _ _ _ ⟨hright, ⟨⟩⟩
    simpa using Link.mk hop hright

/-- A chain is read as its first operand and the links after it. -/
theorem Reads.chain {op? : Kind → Option BinaryOp} {operand : Parser Expr} {P : Phrase Expr}
    (hend : op? .endOfInput = none) (hadv : Advances room operand) (h : Reads room operand P) :
    Reads room (chain op? operand) (Chain op? P) := by
  have hlink : ∀ c : Cursor, (op? c.kind).isSome = true →
      ReadsAt room (Parser.link op? operand) (Link op? P) c := fun c htest => by
    obtain ⟨op, hop⟩ := Option.isSome_iff_exists.1 htest
    exact .link hend h hop
  rw [chain_eq hend hadv]
  intro c
  have hbody := h.bind (fun left => (Reads.manyWhile hlink).bind
    fun links => .pure (linked left links)) c
  refine hbody.mono ?_
  rintro _ _ _ ⟨hleft, ⟨hlinks, ⟨⟩⟩⟩
  simpa using (Chain.operand hleft).append_links hlinks

end

end Parser

end MiniC
