import MiniC.Proofs.Grammar.Soundness
import MiniC.Proofs.Parser.Accepts

/-!
# Completeness of the parsers of a dialect

Every parser of `Grammar.ofDialect` accepts the phrases of its name: `Grammar.factorAt_accepts` and
`Grammar.statementAt_accepts`, by induction on the room, and `Grammar.statements_accepts` for
programs. A phrase that needs more levels than there is room for is refused for that reason and for
no other.

What may follow a phrase is what could not go on with it: no operator after an expression, no `else`
after a statement.
-/

namespace MiniC

open Phrase

variable {dialect : Dialect} {room : Nat}

/-! ### First tokens -/

/-- A token that has an expression is of a kind that the rule for one token is chosen by. -/
private theorem IsFactor.rule_of_expr? {t : Token} {e : Expr} (h : t.expr? = some e) :
    (Grammar.ofDialect dialect).factorRule? t.kind = some .primary := by
  unfold Token.expr? at h
  split at h <;> cases h <;> simp_all [Grammar.ofDialect]

private theorem IsBlock.kind_before {S : Phrase Stmt} {ts : List Token} {block : Block} {n : Nat}
    (h : IsBlock S ts block n) (c : Cursor) : (c.before ts).kind = .openCurly := by
  obtain ⟨⟨ht, -, -⟩⟩ := h
  exact ht

private theorem IsAssignment.kind_before {ts : List Token} {a : Assignment} {n : Nat}
    (h : IsAssignment dialect ts a n) (c : Cursor) : (c.before ts).kind = .identifier := by
  obtain ⟨ht, -, -⟩ := h
  exact ht

/-- A label is one token and no level. -/
private theorem IsCaseLabel.exists_token {ts : List Token} {label : CaseLabel} {n : Nat}
    (h : IsCaseLabel ts label n) : ∃ t, ts = [t] ∧ n = 0 ∧ t.caseLabel? = some label := by
  cases h with
  | identifier ht => exact ⟨_, rfl, rfl, by simp [Token.caseLabel?, ht]⟩
  | int ht hvalue => exact ⟨_, rfl, rfl, by simp [Token.caseLabel?, ht, hvalue]⟩
  | float ht hvalue => exact ⟨_, rfl, rfl, by simp [Token.caseLabel?, ht, hvalue]⟩
  | char ht hvalue => exact ⟨_, rfl, rfl, by simp [Token.caseLabel?, ht, hvalue]⟩

/-- A case group starts with the word of its first label. -/
private theorem IsCaseGroup.kind_before {S : Phrase Stmt} {ts : List Token} {group : CaseGroup}
    {n : Nat} (h : IsCaseGroup S ts group n) (c : Cursor) : (c.before ts).kind = .caseWord := by
  obtain ⟨hlabels, hne, -⟩ := h
  cases hlabels with
  | nil => exact absurd rfl hne
  | cons hlabel _ =>
    obtain ⟨ht, -, -⟩ := hlabel
    exact ht

/-- A statement starts with a token that there is a rule for. -/
private theorem IsStatement.exists_rule {ts : List Token} {s : Stmt} {n : Nat}
    (h : IsStatement dialect ts s n) (c : Cursor) :
    ∃ rule, (c.before ts).kind = Grammar.firstKind rule := by
  cases h with
  | declaration ht => exact ⟨.declaration, ht⟩
  | assignment ha =>
    rw [Cursor.before_append]
    exact ⟨.assignment, ha.kind_before _⟩
  | conditional ht => exact ⟨.conditional, ht⟩
  | switch ht => exact ⟨.switch, ht⟩
  | whileLoop ht => exact ⟨.whileLoop, ht⟩
  | forLoop ht => exact ⟨.forLoop, ht⟩
  | leave ht => exact ⟨.leave, ht⟩

/-- No statement starts with what ends a block, nor with what goes on after one. -/
private theorem Grammar.firstKind_ne (rule : StatementRule) :
    firstKind rule ≠ .closeCurly ∧ firstKind rule ≠ .elseWord := by
  cases rule <;> decide

/-- Where a statement starts, the unit has not ended, and no conditional goes on. -/
theorem IsStatement.hasTokens_and_kind_ne {ts : List Token} {s : Stmt} {n : Nat}
    (h : IsStatement dialect ts s n) (c : Cursor) :
    (c.before ts).hasTokens = true ∧ (c.before ts).kind ≠ .elseWord := by
  obtain ⟨rule, hrule⟩ := h.exists_rule c
  have hne := (Grammar.firstKind_ne rule).2
  rw [hrule]
  refine ⟨?_, hne⟩
  rcases (c.before ts).end_or_before with hend | ⟨t, c', heq⟩
  · rw [Cursor.kind_of_end hend] at hrule
    cases rule <;> cases hrule
  · rw [heq]
    rfl

namespace Parser

section

variable {factor : Parser Expr} {level : Nat → Parser Expr} {statement : Nat → Parser Stmt}

/-! ### Expressions -/

/-- Where no operator is next, an expression has ended. -/
theorem Accepts.expression (hadv : Advances room factor)
    (h : Accepts room factor (IsFactor dialect) fun _ => True) :
    Accepts room (expression factor) (IsExpression dialect)
      (fun c => BinaryOp.ofKind? c.kind = none) := by
  have hterm : Accepts room (term factor) (IsTerm dialect)
      (fun c => True ∧ BinaryOp.multiplicative? c.kind = none) :=
    Accepts.chain rfl hadv h fun _ _ => trivial
  -- An operator between terms ends a term, as no operator is of both sorts.
  have hadditive (c : Cursor) (hc : (BinaryOp.additive? c.kind).isSome = true) :
      True ∧ BinaryOp.multiplicative? c.kind = none := by
    refine ⟨trivial, ?_⟩
    cases hk : c.kind <;> rw [hk] at hc <;> first | rfl | cases hc
  refine (Accepts.chain rfl hadv.term hterm hadditive).weaken fun c hc => ?_
  rw [BinaryOp.ofKind?_eq_orElse, Option.or_eq_none_iff] at hc
  exact ⟨⟨trivial, hc.2⟩, hc.1⟩

/-- A condition is accepted before everything that does not go on with its right side. -/
private theorem Accepts.condition (hadv : Advances room factor)
    (h : Accepts room factor (IsFactor dialect) fun _ => True) :
    Accepts room (condition factor) (IsCondition dialect)
      (fun c => BinaryOp.ofKind? c.kind = none) := by
  intro ts condition n hcondition c hc
  obtain @⟨_, ts', t, _, _, _, _, _, hleft, hop, hright⟩ := hcondition
  have hexpr := Accepts.expression hadv h
  -- A relational operator ends the expression before it.
  have hnone : BinaryOp.ofKind? t.kind = none := by
    cases hk : t.kind <;> rw [hk] at hop <;> first | rfl | cases hop
  rw [Cursor.before_append, Cursor.before_cons]
  refine (hexpr hleft (c := (c.before ts').before [t]) hnone).bind ?_
  rw [bind_of_ok (kind_apply _), Cursor.kind_before, hop]
  exact .of_ok_bind (advance_before ..) ((hexpr hright hc).bind_ok rfl)

private theorem Delivers.primary {t : Token} {e : Expr} (h : t.expr? = some e) (c : Cursor) :
    Delivers room 0 e c (primary (c.before [t])) := by
  rw [Parser.primary, bind_of_ok (advance_before t c), h]
  exact .ok (Nat.zero_le _)

/-- A group is one level around what is inside, or it is the one that is too many. -/
private theorem Delivers.grouping {t t' : Token} {ts : List Token} {e : Expr} {n : Nat}
    (hadv : ∀ r, Advances r (level r))
    (h : ∀ r, room = r + 1 → Accepts r (level r) (IsFactor dialect) fun _ => True)
    (he : IsExpression dialect ts e n) (ht' : t'.kind = .closeParen) (c : Cursor) :
    Delivers room (n + 1) e c
      (grouping (below level room) (c.before (t :: (ts ++ [t'])))) := by
  rw [Cursor.before_cons, Cursor.before_append]
  have hclose : BinaryOp.ofKind? t'.kind = none := by rw [ht']; rfl
  let inside : Cursor := { c with depth := c.depth + 1 }
  refine .deeper fun r hr => .of_ok_bind (advance_before t ((inside.before [t']).before ts)) ?_
  have hexpr := Accepts.expression (hadv r) (h r hr) he (c := inside.before [t']) hclose
  exact hexpr.bind_ok (bind_of_ok (expect_of_eq ht' _))

/-- A minus is one level around its operand, or it is the one that is too many. -/
private theorem Delivers.negation {t : Token} {ts : List Token} {e : Expr} {n : Nat}
    (h : ∀ r, room = r + 1 → Accepts r (level r) (IsFactor dialect) fun _ => True)
    (he : IsFactor dialect ts e n) (c : Cursor) :
    Delivers room (n + 1) (.negate e) c (negation (below level room) (c.before (t :: ts))) := by
  rw [Cursor.before_cons]
  let inside : Cursor := { c with depth := c.depth + 1 }
  refine .deeper fun r hr => .of_ok_bind (advance_before t (inside.before ts)) ?_
  exact (h r hr he trivial).bind_ok rfl

/-! ### Declarations and assignments -/

/-- A declarator is accepted before all that neither goes on with its value nor starts one. -/
private theorem Accepts.declarator (hadv : Advances room factor)
    (h : Accepts room factor (IsFactor dialect) fun _ => True) :
    Accepts room (declarator factor) (IsDeclarator dialect)
      (fun c => BinaryOp.ofKind? c.kind = none ∧ c.kind ≠ .assign) := by
  intro ts declarator n hdeclarator c hc
  obtain ⟨hname, hinitializer⟩ := hdeclarator
  have hoptional := (Accepts.expression hadv h).optionalAfter .assign
  rw [Cursor.before_cons]
  exact .of_ok_bind (expectFor_of_eq _ hname _) ((hoptional hinitializer hc).bind_ok rfl)

/-- An assignment is accepted before everything that does not go on with its value. -/
private theorem Accepts.assignment (hadv : Advances room factor)
    (h : Accepts room factor (IsFactor dialect) fun _ => True) :
    Accepts room (assignment factor) (IsAssignment dialect)
      (fun c => BinaryOp.ofKind? c.kind = none) := by
  intro ts a n ha c hc
  obtain @⟨target, t, ts, _, _, _, htarget, hop, hvalue⟩ := ha
  rw [Cursor.before_cons target, Cursor.before_cons t]
  refine .of_ok_bind (expectFor_of_eq _ htarget _) ?_
  rw [bind_of_ok (kind_apply _), Cursor.kind_before, hop]
  exact .of_ok_bind (advance_before ..) ((Accepts.expression hadv h hvalue hc).bind_ok rfl)

/-! ### Blocks and what holds them -/

section

variable (hadv : ∀ r, Advances r (statement r))
  (hs : ∀ r, room = r + 1 →
    Accepts r (statement r) (IsStatement dialect) fun c => c.kind ≠ .elseWord)

include hadv hs

/-- A block is accepted before everything, as its brace ends it. -/
private theorem Accepts.block :
    Accepts room (block (below statement room)) (IsBlock (IsStatement dialect))
      fun _ => True := by
  intro ts block n hblock c _
  obtain ⟨@⟨t, t', ts, _, n, ht, hstatements, ht'⟩⟩ := hblock
  rw [Cursor.before_cons, Cursor.before_append]
  refine .of_ok_bind (expect_of_eq ht _) (.deeper fun r hr => ?_)
  have hloop : Accepts r (Parser.manyWhile (fun c => c.kind ≠ .closeCurly) (statement r))
      (Many (IsStatement dialect))
      (fun c => c.kind ≠ .elseWord ∧ decide (c.kind ≠ .closeCurly) = false) := by
    -- A statement starts neither like the end of its block nor like the rest of a statement.
    refine Accepts.manyWhile (hadv r) (hs r hr) fun {ts s n} hstatement c => ?_
    obtain ⟨rule, hrule⟩ := hstatement.exists_rule c
    obtain ⟨hclose, helse⟩ := Grammar.firstKind_ne rule
    exact ⟨by simp [hrule, hclose], by simp [hrule, helse]⟩
  let inside : Cursor := { c with depth := c.depth + 1 }
  have hfollow : (inside.before [t']).kind ≠ .elseWord ∧
      decide ((inside.before [t']).kind ≠ .closeCurly) = false := by
    rw [Cursor.kind_before, ht']
    decide
  exact (hloop hstatements hfollow).bind_ok (bind_of_ok (expect_of_eq ht' _))

/-- A group is accepted before everything, as its block ends it. -/
private theorem Accepts.caseGroup :
    Accepts room (caseGroup (below statement room)) (IsCaseGroup (IsStatement dialect))
      fun _ => True := by
  intro ts group n hgroup c _
  obtain ⟨hlabels, -, hbody⟩ := hgroup
  have hclause : Accepts room Parser.caseClause (Between .caseWord .colon IsCaseLabel)
      fun _ => True := by
    intro ts label n hlabel c _
    obtain ⟨ht, hlabel, hcolon⟩ := hlabel
    obtain ⟨t, rfl, rfl, hvalue⟩ := hlabel.exists_token
    rw [Cursor.before_cons, Cursor.before_append]
    refine .of_ok_bind (advance_before ..) (.of_ok_bind (caseLabel_of_some hvalue _) ?_)
    exact .of_ok_bind (expect_of_eq hcolon _) (.ok (Nat.zero_le _))
  have hloop : Accepts room (Parser.manyWhile (fun c => c.kind = .caseWord) Parser.caseClause)
      (Many (Between .caseWord .colon IsCaseLabel))
      (fun c => True ∧ decide (c.kind = .caseWord) = false) := by
    have hadvClause : Advances room Parser.caseClause := .caseClause
    refine Accepts.manyWhile hadvClause hclause fun hlabel c => ?_
    obtain ⟨ht, -, -⟩ := hlabel
    exact ⟨decide_eq_true ht, trivial⟩
  rw [Cursor.before_append]
  refine (hloop hlabels ⟨trivial, ?_⟩).bind ((Accepts.block hadv hs hbody trivial).bind_ok rfl)
  rw [hbody.kind_before]
  rfl

end

/-! ### Statements -/

section

variable (hadv : Advances room factor)
  (h : Accepts room factor (IsFactor dialect) fun _ => True)

include hadv h

private theorem Accepts.header :
    Accepts room (header factor) (Between .openParen .closeParen (IsCondition dialect))
      fun _ => True := by
  intro ts condition n hheader c _
  obtain @⟨t, t', ts, _, _, ht, hcondition, ht'⟩ := hheader
  have hclose : BinaryOp.ofKind? (c.before [t']).kind = none := by
    rw [Cursor.kind_before, ht']
    rfl
  rw [Cursor.before_cons, Cursor.before_append]
  refine .of_ok_bind (expect_of_eq ht _) ?_
  exact (Accepts.condition hadv h hcondition hclose).bind_ok (bind_of_ok (expect_of_eq ht' _))

/-- The declarators are told apart by the commas between them. -/
private theorem Delivers.declaration {t semi : Token} {ts ts' : List Token} {type : TypeName}
    {first : Declarator} {more : List Declarator} {n m : Nat}
    (htype : TypeName.ofWord? t.value = some type) (hfirst : IsDeclarator dialect ts first n)
    (hmore : Many (After .comma (IsDeclarator dialect)) ts' more m)
    (hsemi : semi.kind = .semicolon) (c : Cursor) :
    Delivers room (max n m) (.declaration type (first :: more)) c
      (declaration factor (c.before (t :: (ts ++ (ts' ++ [semi]))))) := by
  have hdeclarator := Accepts.declarator hadv h
  have hitem : Accepts room (advance >>= fun _ => declarator factor)
      (After .comma (IsDeclarator dialect))
      (fun c => BinaryOp.ofKind? c.kind = none ∧ c.kind ≠ .assign) := by
    rintro _ d n ⟨ht, hd⟩ c hc
    rw [Cursor.before_cons]
    exact .of_ok_bind (advance_before ..) (hdeclarator hd hc)
  -- A comma goes on with the loop and ends the expression before it.
  have hcomma {ts : List Token} {d : Declarator} {n : Nat}
      (hd : After .comma (IsDeclarator dialect) ts d n) (c : Cursor) :
      decide ((c.before ts).kind = .comma) = true ∧
        BinaryOp.ofKind? (c.before ts).kind = none ∧ (c.before ts).kind ≠ .assign := by
    obtain ⟨ht, -⟩ := hd
    rw [Cursor.before_cons, Cursor.kind_before, ht]
    decide
  have hloop : Accepts room
      (manyWhile (fun c => c.kind = .comma) (advance >>= fun _ => declarator factor))
      (Many (After .comma (IsDeclarator dialect)))
      (fun c => (BinaryOp.ofKind? c.kind = none ∧ c.kind ≠ .assign) ∧
        decide (c.kind = .comma) = false) :=
    Accepts.manyWhile (Advances.advance.bind fun _ => hadv.declarator.toMoves) hitem hcomma
  have hend : (BinaryOp.ofKind? (c.before [semi]).kind = none ∧
      (c.before [semi]).kind ≠ .assign) ∧ decide ((c.before [semi]).kind = .comma) = false := by
    rw [Cursor.kind_before, hsemi]
    decide
  have hnext := follow_many (F := fun c => BinaryOp.ofKind? c.kind = none ∧ c.kind ≠ .assign)
    (fun hd c => (hcomma hd c).2) hmore hend.1
  rw [Cursor.before_cons, Cursor.before_append, Cursor.before_append]
  refine .of_ok_bind (advance_before ..) ?_
  rw [htype]
  refine (hdeclarator hfirst hnext).bind ?_
  exact (hloop hmore hend).bind_ok (bind_of_ok (expect_of_eq hsemi _))

private theorem Delivers.assignmentStatement {semi : Token} {ts : List Token} {a : Assignment}
    {n : Nat} (ha : IsAssignment dialect ts a n) (hsemi : semi.kind = .semicolon) (c : Cursor) :
    Delivers room n (.assignment a) c (assignmentStatement factor (c.before (ts ++ [semi]))) := by
  have hend : BinaryOp.ofKind? (c.before [semi]).kind = none := by
    rw [Cursor.kind_before, hsemi]
    rfl
  rw [Cursor.before_append]
  exact (Accepts.assignment hadv h ha hend).bind_ok (bind_of_ok (expect_of_eq hsemi _))

variable (hadv' : ∀ r, Advances r (statement r))
  (hs : ∀ r, room = r + 1 →
    Accepts r (statement r) (IsStatement dialect) fun c => c.kind ≠ .elseWord)

include hadv' hs

/-- A conditional without a second block is delivered where no `else` follows. -/
private theorem Delivers.conditional {t : Token} {ts ts' ts'' : List Token} {condition : Condition}
    {thenBlock : Block} {elseBlock : Option Block} {n m k : Nat}
    (hcondition : Between .openParen .closeParen (IsCondition dialect) ts condition n)
    (hthen : IsBlock (IsStatement dialect) ts' thenBlock m)
    (helse : Optional (After .elseWord (IsBlock (IsStatement dialect))) ts'' elseBlock k)
    {c : Cursor} (hc : c.kind ≠ .elseWord) :
    Delivers room (max n (max m k)) (.conditional condition thenBlock elseBlock) c
      (conditional factor (below statement room) (c.before (t :: (ts ++ (ts' ++ ts''))))) := by
  have hblock := Accepts.block hadv' hs
  rw [Cursor.before_cons, Cursor.before_append, Cursor.before_append]
  refine .of_ok_bind (advance_before ..) ?_
  refine (Accepts.header hadv h hcondition trivial).bind ((hblock hthen trivial).bind ?_)
  exact (hblock.optionalAfter .elseWord helse ⟨trivial, hc⟩).bind_ok rfl

private theorem Delivers.whileLoop {t : Token} {ts ts' : List Token} {condition : Condition}
    {body : Block} {n m : Nat}
    (hcondition : Between .openParen .closeParen (IsCondition dialect) ts condition n)
    (hbody : IsBlock (IsStatement dialect) ts' body m) (c : Cursor) :
    Delivers room (max n m) (.whileLoop condition body) c
      (whileLoop factor (below statement room) (c.before (t :: (ts ++ ts')))) := by
  rw [Cursor.before_cons, Cursor.before_append]
  refine .of_ok_bind (advance_before ..) ((Accepts.header hadv h hcondition trivial).bind ?_)
  exact (Accepts.block hadv' hs hbody trivial).bind_ok rfl

/-- The header of a loop is delivered part by part, up to what ends each of them. -/
private theorem Delivers.forLoop {t l s s' r : Token} {ts₁ ts₂ ts₃ ts₄ : List Token}
    {init step : Assignment} {condition : Condition} {body : Block} {n₁ n₂ n₃ n₄ : Nat}
    (hl : l.kind = .openParen) (hinit : IsAssignment dialect ts₁ init n₁)
    (hsemi : s.kind = .semicolon) (hcondition : IsCondition dialect ts₂ condition n₂)
    (hsemi' : s'.kind = .semicolon) (hstep : IsAssignment dialect ts₃ step n₃)
    (hr : r.kind = .closeParen) (hbody : IsBlock (IsStatement dialect) ts₄ body n₄) (c : Cursor) :
    Delivers room (max n₁ (max n₂ (max n₃ n₄))) (.forLoop init condition step body) c
      (forLoop factor (below statement room)
        (c.before (t :: l :: (ts₁ ++ s :: (ts₂ ++ s' :: (ts₃ ++ r :: ts₄)))))) := by
  have hend {t : Token} (ht : t.kind = .semicolon ∨ t.kind = .closeParen) (c : Cursor) :
      BinaryOp.ofKind? (c.before [t]).kind = none := by
    rcases ht with ht | ht <;> rw [Cursor.kind_before, ht] <;> rfl
  have hassignment := Accepts.assignment hadv h
  rw [Cursor.before_cons t, Cursor.before_cons l, Cursor.before_append, Cursor.before_cons s,
    Cursor.before_append, Cursor.before_cons s', Cursor.before_append, Cursor.before_cons r]
  refine .of_ok_bind (advance_before ..) (.of_ok_bind (expect_of_eq hl _) ?_)
  refine (hassignment hinit (hend (.inl hsemi) _)).bind (.of_ok_bind (expect_of_eq hsemi _) ?_)
  refine (Accepts.condition hadv h hcondition (hend (.inl hsemi') _)).bind ?_
  refine .of_ok_bind (expect_of_eq hsemi' _) ?_
  refine (hassignment hstep (hend (.inr hr) _)).bind (.of_ok_bind (expect_of_eq hr _) ?_)
  exact (Accepts.block hadv' hs hbody trivial).bind_ok rfl

end

section

variable (hadv : ∀ r, Advances r (statement r))
  (hs : ∀ r, room = r + 1 →
    Accepts r (statement r) (IsStatement dialect) fun c => c.kind ≠ .elseWord)

include hadv hs

/-- The groups end before a default, or before the brace. -/
private theorem Delivers.switch {t l name r lb rb : Token} {ts ts' : List Token}
    {cases : List CaseGroup} {default : Option Block} {n m : Nat} (hl : l.kind = .openParen)
    (hname : name.kind = .identifier) (hr : r.kind = .closeParen) (hlb : lb.kind = .openCurly)
    (hcases : Many (IsCaseGroup (IsStatement dialect)) ts cases n)
    (hdefault : Optional (After .defaultWord (After .colon (IsBlock (IsStatement dialect)))) ts'
      default m)
    (hrb : rb.kind = .closeCurly) (c : Cursor) :
    Delivers room (max n m) (.switch name.value cases default) c
      (switch (below statement room)
        (c.before (t :: l :: name :: r :: lb :: (ts ++ (ts' ++ [rb]))))) := by
  have hgroup := Accepts.caseGroup hadv hs
  have hadvGroup : Advances room (caseGroup (below statement room)) :=
    .caseGroup fun r _ => hadv r
  have hloop : Accepts room
      (manyWhile (fun c => c.kind = .caseWord) (caseGroup (below statement room)))
      (Many (IsCaseGroup (IsStatement dialect)))
      (fun c => True ∧ decide (c.kind = .caseWord) = false) := by
    refine Accepts.manyWhile hadvGroup hgroup fun hg c => ⟨?_, trivial⟩
    exact decide_eq_true (hg.kind_before c)
  have hcolon : Accepts room (expect .colon >>= fun _ => block (below statement room))
      (After .colon (IsBlock (IsStatement dialect))) fun _ => True := by
    rintro _ b n ⟨ht, hb⟩ c -
    rw [Cursor.before_cons]
    exact .of_ok_bind (expect_of_eq ht _) (Accepts.block hadv hs hb trivial)
  have hdefaultWord : (c.before [rb]).kind ≠ .defaultWord := by
    rw [Cursor.kind_before, hrb]
    decide
  -- After the groups comes the default, or the brace.
  have hcaseWord : decide (((c.before [rb]).before ts').kind = .caseWord) = false := by
    rcases hdefault with - | ⟨ht, -⟩
    · rw [Cursor.before_nil, Cursor.kind_before, hrb]
      rfl
    · rw [Cursor.before_cons, Cursor.kind_before, ht]
      rfl
  rw [Cursor.before_cons t, Cursor.before_cons l, Cursor.before_cons name, Cursor.before_cons r,
    Cursor.before_cons lb, Cursor.before_append, Cursor.before_append]
  refine .of_ok_bind (advance_before ..) (.of_ok_bind (expect_of_eq hl _) ?_)
  refine .of_ok_bind (expectFor_of_eq _ hname _) (.of_ok_bind (expect_of_eq hr _) ?_)
  refine .of_ok_bind (expect_of_eq hlb _) ((hloop hcases ⟨trivial, hcaseWord⟩).bind ?_)
  refine (hcolon.optionalAfter .defaultWord hdefault ⟨trivial, hdefaultWord⟩).bind_ok ?_
  exact bind_of_ok (expect_of_eq hrb _)

end

end

end Parser

namespace Grammar

open MiniC.Parser

/-! ### The parsers of a dialect -/

/-- The parser for factors accepts factors, whatever follows them. -/
theorem factorAt_accepts (dialect : Dialect) (room : Nat) :
    Accepts room ((ofDialect dialect).factorAt room) (IsFactor dialect) fun _ => True := by
  induction room using Nat.strongRecOn with
  | ind room ih =>
    intro ts e n hfactor c _
    have hadv := (ofDialect dialect).factorAt_advances
    have hlevel : ∀ r, room = r + 1 →
        Accepts r ((ofDialect dialect).factorAt r) (IsFactor dialect) fun _ => True :=
      fun r hr => ih r (by omega)
    -- All factors of one token are read by one rule.
    have hprimary {t : Token} {e : Expr} (he : t.expr? = some e) :
        Delivers room 0 e c ((ofDialect dialect).factorAt room (c.before [t])) := by
      rw [factorAt_eq, factorOver_of_some (IsFactor.rule_of_expr? he)]
      exact .primary he c
    cases hfactor with
    | identifier ht => exact hprimary (by simp [Token.expr?, ht])
    | int ht hvalue => exact hprimary (by simp [Token.expr?, ht, hvalue])
    | float ht hvalue => exact hprimary (by simp [Token.expr?, ht, hvalue])
    | char ht hvalue => exact hprimary (by simp [Token.expr?, ht, hvalue])
    | string ht hvalue => exact hprimary (by simp [Token.expr?, ht, hvalue])
    | grouping hbetween =>
      obtain @⟨t, t', ts, _, _, ht, he, ht'⟩ := hbetween
      have hrule : (ofDialect dialect).factorRule? (c.before (t :: (ts ++ [t']))).kind
          = some .grouping := by
        rw [Cursor.before_cons, Cursor.kind_before, ht]
        rfl
      rw [factorAt_eq, factorOver_of_some hrule]
      exact .grouping hadv hlevel he ht' c
    | negation hminus hafter =>
      obtain @⟨t, ts, _, _, ht, he⟩ := hafter
      have hrule : (ofDialect dialect).factorRule? (c.before (t :: ts)).kind
          = some .negation := by
        rw [Cursor.before_cons, Cursor.kind_before, ht]
        simp [ofDialect, hminus]
      rw [factorAt_eq, factorOver_of_some hrule]
      exact .negation hlevel he c

/-- The kind that a rule for statements starts with chooses the rule. -/
private theorem statementRule?_firstKind (dialect : Dialect) (rule : StatementRule) :
    (ofDialect dialect).statementRule? (firstKind rule) = some rule := by
  cases rule <;> rfl

/-- The parser for statements accepts statements before anything but an `else`. -/
theorem statementAt_accepts (dialect : Dialect) (room : Nat) :
    Accepts room ((ofDialect dialect).statementAt room) (IsStatement dialect)
      fun c => c.kind ≠ .elseWord := by
  induction room using Nat.strongRecOn with
  | ind room ih =>
    intro ts s n hstatement c hc
    have hadv := (ofDialect dialect).factorAt_advances room
    have hadv' := (ofDialect dialect).statementAt_advances
    have hfactor := factorAt_accepts dialect room
    have hlevel : ∀ r, room = r + 1 →
        Accepts r ((ofDialect dialect).statementAt r) (IsStatement dialect)
          fun c => c.kind ≠ .elseWord := fun r hr => ih r (by omega)
    -- The first token of a statement chooses the rule it is derived by.
    have hrule (rule : StatementRule) (hkind : (c.before ts).kind = firstKind rule) :
        (ofDialect dialect).statementAt room (c.before ts)
          = rule.parser ((ofDialect dialect).factorAt room)
              (below (ofDialect dialect).statementAt room) (c.before ts) := by
      rw [statementAt_eq, statementOver_of_some (hkind ▸ statementRule?_firstKind dialect rule)]
    cases hstatement with
    | declaration ht htype hfirst hmore hsemi =>
      rw [hrule .declaration ht]
      exact .declaration hadv hfactor htype hfirst hmore hsemi c
    | assignment ha hsemi =>
      rw [hrule .assignment (Cursor.before_append .. ▸ ha.kind_before _)]
      exact .assignmentStatement hadv hfactor ha hsemi c
    | conditional ht hcondition hthen helse =>
      rw [hrule .conditional ht]
      exact .conditional hadv hfactor hadv' hlevel hcondition hthen helse hc
    | switch ht hl hname hr hlb hcases hdefault hrb =>
      rw [hrule .switch ht]
      exact .switch hadv' hlevel hl hname hr hlb hcases hdefault hrb c
    | whileLoop ht hcondition hbody =>
      rw [hrule .whileLoop ht]
      exact .whileLoop hadv hfactor hadv' hlevel hcondition hbody c
    | forLoop ht hl hinit hs hcondition hs' hstep hr hbody =>
      rw [hrule .forLoop ht]
      exact .forLoop hadv hfactor hadv' hlevel hl hinit hs hcondition hs' hstep hr hbody c
    | leave ht hsemi =>
      rw [hrule .leave ht, Cursor.before_cons]
      exact .of_ok_bind (advance_before ..)
        (.of_ok_bind (expect_of_eq hsemi _) (.ok (Nat.zero_le _)))

end Grammar

end MiniC
