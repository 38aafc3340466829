import MiniC.Proofs.Grammar.Progress
import MiniC.Proofs.Parser.Reads

/-!
# Soundness of the parsers of a dialect

Every parser of `Grammar.ofDialect` reads the phrases of its name: `Grammar.factorAt_reads` and
`Grammar.statementAt_reads`, by induction on the room, and `Grammar.statements_reads` for programs.
What is read by a parser is derived from the grammar, and what runs out of tokens begins something
that is.
-/

namespace MiniC

open Phrase

variable {dialect : Dialect} {room : Nat}

/-! ### Phrases that need little -/

instance : Fillable (IsFactor dialect) :=
  .of_phrase [someToken .identifier] (.identifier rfl)

instance : Fillable (Operator RelOp.ofKind?) := .of_phrase [someToken .equals] (.mk rfl)

instance : Fillable (Operator AssignOp.ofKind?) := .of_phrase [someToken .assign] (.mk rfl)

instance : Fillable IsCaseLabel := .of_phrase [someToken .identifier] (.identifier rfl)

instance (S : Phrase Stmt) : Fillable (IsBlock S) :=
  ⟨_, [], 1, .mk (@Between.mk _ _ _ _ (someToken .openCurly) (someToken .closeCurly) [] _ 0
    rfl .nil rfl), Nat.le_refl 1⟩

/-- An identifier fills in for a factor that is missing. -/
private theorem isFactor_someToken : IsFactor dialect [someToken .identifier] (.identifier "") 0 :=
  .identifier rfl

instance : Fillable (IsCondition dialect) :=
  .of_phrase _ (.mk (.operand (.operand isFactor_someToken)) (t := someToken .equals) rfl
    (.operand (.operand isFactor_someToken)))

instance : Fillable (IsAssignment dialect) :=
  .of_phrase [someToken .identifier, someToken .assign, someToken .identifier]
    (.mk rfl rfl (.operand (.operand isFactor_someToken)))

instance : Fillable (IsStatement dialect) :=
  .of_phrase [someToken .breakWord, someToken .semicolon] (.leave rfl rfl)

/-! ### Single tokens -/

private theorem isFactor_of_expr? {t : Token} {e : Expr} (h : t.expr? = some e) :
    IsFactor dialect [t] e 0 := by
  unfold Token.expr? at h
  split at h <;> cases h
  · exact .identifier ‹_›
  · exact .int ‹_› ‹_›
  · exact .float ‹_› ‹_›
  · exact .char ‹_› ‹_›
  · exact .string ‹_› ‹_›

private theorem isCaseLabel_of_caseLabel? {t : Token} {label : CaseLabel}
    (h : t.caseLabel? = some label) : IsCaseLabel [t] label 0 := by
  unfold Token.caseLabel? at h
  split at h <;> cases h
  · exact .identifier ‹_›
  · exact .int ‹_› ‹_›
  · exact .float ‹_› ‹_›
  · exact .char ‹_› ‹_›

namespace Parser

section

variable {factor : Parser Expr} {level : Nat → Parser Expr} {statement : Nat → Parser Stmt}
  {c : Cursor}

/-! ### Expressions -/

/-- An expression is a chain of terms, which are chains of factors. -/
private theorem Reads.expression (hadv : Advances room factor)
    (h : Reads room factor (IsFactor dialect)) :
    Reads room (expression factor) (IsExpression dialect) :=
  Reads.chain rfl hadv.term (Reads.chain rfl hadv h)

/-- The operator between two expressions is looked at before it is taken. -/
private theorem Reads.condition (hadv : Advances room factor)
    (h : Reads room factor (IsFactor dialect)) :
    Reads room (condition factor) (IsCondition dialect) := by
  intro c
  have hexpr := Reads.expression hadv h
  refine ((hexpr c).bind fun {left c} _ => ReadsAt.operator RelOp.ofKind?
    "expected relational operator" rfl ?_ ?_ fun op => hexpr.bind fun right =>
      .pure (Condition.mk op left right)).mono ?_
  · intro hop
    rw [bind_of_ok (kind_apply c), hop]
    rfl
  · intro op hop
    rw [bind_of_ok (kind_apply c), hop]
  · rintro _ _ _ ⟨hleft, ⟨⟨hop⟩, ⟨hright, ⟨⟩⟩⟩⟩
    simpa using IsCondition.mk hleft hop hright

/-- A literal whose value does not fit its kind is a fault, although its token starts a factor. -/
private theorem Reads.primary : Reads room primary (IsFactor dialect) := by
  intro c
  rcases c.end_or_before with hend | ⟨t, c, rfl⟩
  · exact .of_end hend (bind_of_error (advance_of_end hend))
  · rcases h : t.expr? with - | e
    · have herror : Parser.primary (c.before [t])
          = .error ⟨.unexpectedToken t.value, t.position⟩ c := by
        rw [Parser.primary, bind_of_ok (advance_before t c), h]
        rfl
      exact .of_fault herror nofun
    · refine .cons ?_ (Reads.pure e c) ?_
      · rw [Parser.primary, bind_of_ok (advance_before t c), h]
      · rintro _ _ _ ⟨⟩
        exact isFactor_of_expr? h

/-- Before a parenthesis, a group is read, or there is no level left for it. -/
private theorem ReadsAt.grouping (hadv : ∀ r, Advances r (level r))
    (h : ∀ r, room = r + 1 → Reads r (level r) (IsFactor dialect)) (hc : c.kind = .openParen) :
    ReadsAt room (grouping (below level room)) (IsFactor dialect) c := by
  obtain ⟨t, c, rfl, ht⟩ := Cursor.exists_before hc nofun
  cases room with
  | zero => exact .tooDeep
  | succ r =>
    refine .cons (opened_advance _ t c) (.opened ((Reads.expression (hadv r) (h r rfl)).bind
      (fun e => (Reads.expect .closeParen).bind fun _ => .pure e) _)) ?_
    rintro _ _ _ ⟨⟨he, ⟨⟨hclose⟩, ⟨⟩⟩⟩⟩
    simpa using IsFactor.grouping (.mk ht he hclose)

/-- Before a minus, a dialect that has it reads a negation, or there is no level left for it. -/
private theorem ReadsAt.negation (h : ∀ r, room = r + 1 → Reads r (level r) (IsFactor dialect))
    (hminus : dialect.unaryMinus = true) (hc : c.kind = .dash) :
    ReadsAt room (negation (below level room)) (IsFactor dialect) c := by
  obtain ⟨t, c, rfl, ht⟩ := Cursor.exists_before hc nofun
  cases room with
  | zero => exact .tooDeep
  | succ r =>
    refine .cons (opened_advance _ t c)
      (.opened ((h r rfl).bind (fun operand => .pure (Expr.negate operand)) _)) ?_
    rintro _ _ _ ⟨⟨hoperand, ⟨⟩⟩⟩
    simpa using IsFactor.negation hminus (.mk ht hoperand)

/-! ### Declarations and assignments -/

private theorem Reads.declarator (hadv : Advances room factor)
    (h : Reads room factor (IsFactor dialect)) :
    Reads room (declarator factor) (IsDeclarator dialect) := by
  intro c
  refine ((Reads.expectFor "expected identifier in declaration" .identifier).bind (fun name =>
    (Reads.optionalAfter .assign (Reads.expression hadv h)).bind fun initializer =>
      .pure (Declarator.mk name.value initializer)) c).mono ?_
  rintro _ _ _ ⟨⟨hname⟩, ⟨hinitializer, ⟨⟩⟩⟩
  simpa using IsDeclarator.mk hname hinitializer

/-- Before a type word, declarators up to the semicolon are read, if the word is that of a type. -/
private theorem ReadsAt.declaration (hadv : Advances room factor)
    (h : Reads room factor (IsFactor dialect)) (hc : c.kind = .type) :
    ReadsAt room (declaration factor) (IsStatement dialect) c := by
  obtain ⟨t, c, rfl, ht⟩ := Cursor.exists_before hc nofun
  have hmore : ∀ c : Cursor, decide (c.kind = .comma) = true →
      ReadsAt room (advance >>= fun _ => declarator factor) (After .comma (IsDeclarator dialect))
        c := fun c hc => by
    obtain ⟨t, c, rfl, ht⟩ := Cursor.exists_before (of_decide_eq_true hc) nofun
    exact .cons (bind_of_ok (advance_before t c)) (Reads.declarator hadv h c) (.mk ht)
  rcases htype : TypeName.ofWord? t.value with - | type
  · have herror : Parser.declaration factor (c.before [t])
        = .error ⟨.unexpectedTokenDetailed t.value "unknown type name", t.position⟩ c := by
      rw [Parser.declaration, bind_of_ok (advance_before t c), htype]
      rfl
    exact .of_fault herror nofun
  · refine .cons ?_ ((Reads.declarator hadv h).bind (fun first => (Reads.manyWhile hmore).bind
      fun more => (Reads.expect .semicolon).bind fun _ =>
        .pure (Stmt.declaration type (first :: more))) c) ?_
    · rw [Parser.declaration, bind_of_ok (advance_before t c), htype]
    · rintro _ _ _ ⟨hfirst, ⟨hmore, ⟨⟨hsemi⟩, ⟨⟩⟩⟩⟩
      simpa using IsStatement.declaration ht htype hfirst hmore hsemi

/-- The operator of an assignment is looked at before it is taken. -/
private theorem Reads.assignment (hadv : Advances room factor)
    (h : Reads room factor (IsFactor dialect)) :
    Reads room (assignment factor) (IsAssignment dialect) := by
  intro c
  refine ((Reads.expectFor "expected assignment target" .identifier c).bind fun {target c} _ =>
    ReadsAt.operator AssignOp.ofKind? "expected assignment operator" rfl ?_ ?_ fun op =>
      (Reads.expression hadv h).bind fun value =>
        .pure (Assignment.mk target.value op value)).mono ?_
  · intro hop
    rw [bind_of_ok (kind_apply c), hop]
    rfl
  · intro op hop
    rw [bind_of_ok (kind_apply c), hop]
  · rintro _ _ _ ⟨⟨htarget⟩, ⟨⟨hop⟩, ⟨hvalue, ⟨⟩⟩⟩⟩
    simpa using IsAssignment.mk htarget hop hvalue

private theorem Reads.assignmentStatement (hadv : Advances room factor)
    (h : Reads room factor (IsFactor dialect)) :
    Reads room (assignmentStatement factor) (IsStatement dialect) := by
  intro c
  refine ((Reads.assignment hadv h).bind (fun a => (Reads.expect .semicolon).bind fun _ =>
    .pure (Stmt.assignment a)) c).mono ?_
  rintro _ _ _ ⟨ha, ⟨⟨hsemi⟩, ⟨⟩⟩⟩
  simpa using IsStatement.assignment ha hsemi

/-! ### Blocks and what holds them -/

/-- The statements of a block are read with one level less. -/
private theorem Reads.block {S : Phrase Stmt} (hs : ∀ r, room = r + 1 → Reads r (statement r) S) :
    Reads room (block (below statement room)) (IsBlock S) := by
  intro c
  rcases c.end_or_before with hend | ⟨t, c, rfl⟩
  · exact .of_end hend (bind_of_error (expect_of_end _ hend))
  · by_cases ht : t.kind = .openCurly
    · refine .cons (bind_of_ok (expect_of_eq ht c)) (Reads.deeper (fun r hr =>
        (Reads.manyWhile fun c _ => hs r hr c).bind fun statements =>
          (Reads.expect .closeCurly).bind fun _ => .pure statements) c) ?_
      rintro _ _ _ ⟨⟨hstatements, ⟨⟨hclose⟩, ⟨⟩⟩⟩⟩
      simpa using IsBlock.mk (.mk ht hstatements hclose)
    · exact .of_fault (bind_of_error (expect_of_ne ht)) nofun

private theorem Reads.header (hadv : Advances room factor)
    (h : Reads room factor (IsFactor dialect)) :
    Reads room (header factor) (Between .openParen .closeParen (IsCondition dialect)) := by
  intro c
  refine ((Reads.expect .openParen).bind (fun _ => (Reads.condition hadv h).bind fun condition =>
    (Reads.expect .closeParen).bind fun _ => .pure condition) c).mono ?_
  rintro _ _ _ ⟨⟨hopen⟩, ⟨hcondition, ⟨⟨hclose⟩, ⟨⟩⟩⟩⟩
  simpa using Between.mk hopen hcondition hclose

/-- Before an `if`, one block is read, and a second one after an `else`. -/
private theorem ReadsAt.conditional (hadv : Advances room factor)
    (h : Reads room factor (IsFactor dialect))
    (hs : ∀ r, room = r + 1 → Reads r (statement r) (IsStatement dialect))
    (hc : c.kind = .ifWord) :
    ReadsAt room (conditional factor (below statement room)) (IsStatement dialect) c := by
  obtain ⟨t, c, rfl, ht⟩ := Cursor.exists_before hc nofun
  refine .cons (bind_of_ok (advance_before t c)) ((Reads.header hadv h).bind (fun condition =>
    (Reads.block hs).bind fun thenBlock =>
      (Reads.optionalAfter .elseWord (Reads.block hs)).bind fun elseBlock =>
        .pure (Stmt.conditional condition thenBlock elseBlock)) c) ?_
  rintro _ _ _ ⟨hcondition, ⟨hthen, ⟨helse, ⟨⟩⟩⟩⟩
  simpa using IsStatement.conditional ht hcondition hthen helse

/-- One token is read as a label, or nothing is taken. -/
private theorem Reads.caseLabel : Reads room caseLabel IsCaseLabel := by
  intro c
  rcases caseLabel_cases c with ⟨t, c, label, rfl, hlabel, heq⟩ | ⟨-, heq⟩
  · refine .cons heq (Reads.pure label c) ?_
    rintro _ _ _ ⟨⟩
    exact isCaseLabel_of_caseLabel? hlabel
  · exact .unexpectedBecause heq

private theorem ReadsAt.caseClause (hc : c.kind = .caseWord) :
    ReadsAt room caseClause (Between .caseWord .colon IsCaseLabel) c := by
  obtain ⟨t, c, rfl, ht⟩ := Cursor.exists_before hc nofun
  refine .cons (bind_of_ok (advance_before t c)) (Reads.caseLabel.bind (fun label =>
    (Reads.expect .colon).bind fun _ => .pure label) c) ?_
  rintro _ _ _ ⟨hlabel, ⟨⟨hcolon⟩, ⟨⟩⟩⟩
  simpa using Between.mk ht hlabel hcolon

/-- Groups are read only before a `case`, so that they have a label. -/
private theorem ReadsAt.caseGroup {S : Phrase Stmt}
    (hs : ∀ r, room = r + 1 → Reads r (statement r) S) (hc : c.kind = .caseWord) :
    ReadsAt room (caseGroup (below statement room)) (IsCaseGroup S) c := by
  have hlabels : ReadsAt room (manyWhile (fun c => c.kind = .caseWord) Parser.caseClause)
      (fun ts labels n => Many (Between .caseWord .colon IsCaseLabel) ts labels n ∧ labels ≠ [])
      c :=
    .manyWhile_of_test .caseClause (fun c hc => .caseClause (of_decide_eq_true hc))
      (decide_eq_true hc)
  refine (hlabels.bind fun {labels c} _ => (Reads.block hs).bind
    (fun body => .pure (CaseGroup.mk labels body)) c).mono ?_
  rintro _ _ _ ⟨⟨hlabels, hne⟩, ⟨hbody, ⟨⟩⟩⟩
  simpa using IsCaseGroup.mk hlabels hne hbody

/-- Before a `switch`, groups are read as long as there is a `case`, and then a default if there is
one. -/
private theorem ReadsAt.switch
    (hs : ∀ r, room = r + 1 → Reads r (statement r) (IsStatement dialect))
    (hc : c.kind = .switchWord) :
    ReadsAt room (switch (below statement room)) (IsStatement dialect) c := by
  obtain ⟨t, c, rfl, ht⟩ := Cursor.exists_before hc nofun
  have hgroups : ∀ c : Cursor, decide (c.kind = .caseWord) = true →
      ReadsAt room (Parser.caseGroup (below statement room)) (IsCaseGroup (IsStatement dialect))
        c := fun c hc => .caseGroup hs (of_decide_eq_true hc)
  have hdefault : Reads room (Parser.expect .colon >>= fun _ => Parser.block (below statement room))
      (After .colon (IsBlock (IsStatement dialect))) := fun c => by
    refine ((Reads.expect .colon).bind (fun _ => Reads.block hs) c).mono ?_
    rintro _ _ _ ⟨⟨hcolon⟩, hblock⟩
    simpa using After.mk hcolon hblock
  refine .cons (bind_of_ok (advance_before t c)) ((Reads.expect .openParen).bind (fun _ =>
    (Reads.expectFor "expected identifier to switch on" .identifier).bind fun discriminant =>
      (Reads.expect .closeParen).bind fun _ => (Reads.expect .openCurly).bind fun _ =>
        (Reads.manyWhile hgroups).bind fun cases =>
          (Reads.optionalAfter .defaultWord hdefault).bind fun default =>
            (Reads.expect .closeCurly).bind fun _ =>
              .pure (Stmt.switch discriminant.value cases default)) c) ?_
  rintro _ _ _ ⟨⟨hopen⟩, ⟨⟨hname⟩, ⟨⟨hclose⟩, ⟨⟨hbrace⟩, ⟨hcases, ⟨hdef, ⟨⟨hbrace'⟩, ⟨⟩⟩⟩⟩⟩⟩⟩⟩
  simpa using IsStatement.switch ht hopen hname hclose hbrace hcases hdef hbrace'

private theorem ReadsAt.whileLoop (hadv : Advances room factor)
    (h : Reads room factor (IsFactor dialect))
    (hs : ∀ r, room = r + 1 → Reads r (statement r) (IsStatement dialect))
    (hc : c.kind = .whileWord) :
    ReadsAt room (whileLoop factor (below statement room)) (IsStatement dialect) c := by
  obtain ⟨t, c, rfl, ht⟩ := Cursor.exists_before hc nofun
  refine .cons (bind_of_ok (advance_before t c)) ((Reads.header hadv h).bind (fun condition =>
    (Reads.block hs).bind fun body => .pure (Stmt.whileLoop condition body)) c) ?_
  rintro _ _ _ ⟨hcondition, ⟨hbody, ⟨⟩⟩⟩
  simpa using IsStatement.whileLoop ht hcondition hbody

-- That the rest of a loop's header can be filled in is seen through eight parts.
set_option synthInstance.maxSize 400 in
/-- Before a `for`, two assignments and the condition between them are read as its header. -/
private theorem ReadsAt.forLoop (hadv : Advances room factor)
    (h : Reads room factor (IsFactor dialect))
    (hs : ∀ r, room = r + 1 → Reads r (statement r) (IsStatement dialect))
    (hc : c.kind = .forWord) :
    ReadsAt room (forLoop factor (below statement room)) (IsStatement dialect) c := by
  obtain ⟨t, c, rfl, ht⟩ := Cursor.exists_before hc nofun
  have hassignment := Reads.assignment hadv h
  refine .cons (bind_of_ok (advance_before t c)) ((Reads.expect .openParen).bind (fun _ =>
    hassignment.bind fun init => (Reads.expect .semicolon).bind fun _ =>
      (Reads.condition hadv h).bind fun condition => (Reads.expect .semicolon).bind fun _ =>
        hassignment.bind fun step => (Reads.expect .closeParen).bind fun _ =>
          (Reads.block hs).bind fun body => .pure (Stmt.forLoop init condition step body)) c) ?_
  rintro _ _ _ ⟨⟨hopen⟩, ⟨hinit, ⟨⟨hsemi⟩, ⟨hcondition, ⟨⟨hsemi'⟩, ⟨hstep, ⟨⟨hclose⟩,
    ⟨hbody, ⟨⟩⟩⟩⟩⟩⟩⟩⟩⟩
  simpa using IsStatement.forLoop ht hopen hinit hsemi hcondition hsemi' hstep hclose hbody

private theorem ReadsAt.leave (hc : c.kind = .breakWord) :
    ReadsAt room leave (IsStatement dialect) c := by
  obtain ⟨t, c, rfl, ht⟩ := Cursor.exists_before hc nofun
  refine .cons (bind_of_ok (advance_before t c))
    ((Reads.expect .semicolon).bind (fun _ => .pure Stmt.leave) c) ?_
  rintro _ _ _ ⟨⟨hsemi⟩, ⟨⟩⟩
  exact IsStatement.leave ht hsemi

end

end Parser

namespace Grammar

open MiniC.Parser

/-! ### Rules of a dialect -/

/-- Only a parenthesis starts a group. -/
theorem kind_of_grouping {k : Kind} (h : (ofDialect dialect).factorRule? k = some .grouping) :
    k = .openParen := by
  unfold ofDialect at h
  cases k <;> simp_all

/-- Only a dash starts a negation, and only in a dialect that has it. -/
theorem kind_of_negation {k : Kind} (h : (ofDialect dialect).factorRule? k = some .negation) :
    k = .dash ∧ dialect.unaryMinus = true := by
  unfold ofDialect at h
  cases k <;> simp_all

/-- The kind of token that a statement of a rule starts with. -/
def firstKind : StatementRule → Kind
  | .declaration => .type
  | .assignment => .identifier
  | .conditional => .ifWord
  | .switch => .switchWord
  | .whileLoop => .whileWord
  | .forLoop => .forWord
  | .leave => .breakWord

/-- Each rule for statements is chosen by one kind of token. -/
theorem kind_of_statementRule {k : Kind} {rule : StatementRule}
    (h : (ofDialect dialect).statementRule? k = some rule) : k = firstKind rule := by
  unfold ofDialect at h
  cases k <;> cases h <;> rfl

/-! ### The parsers of a dialect -/

/-- The parser for factors reads factors. -/
theorem factorAt_reads (dialect : Dialect) (room : Nat) :
    Reads room ((ofDialect dialect).factorAt room) (IsFactor dialect) := by
  induction room using Nat.strongRecOn with
  | ind room ih =>
    intro c
    rw [factorAt_eq]
    rcases hrule : (ofDialect dialect).factorRule? c.kind with - | rule
    · exact .unexpected (factorOver_of_none hrule)
    · refine .congr (factorOver_of_some hrule) ?_
      have hlevel : ∀ r, room = r + 1 →
          Reads r ((ofDialect dialect).factorAt r) (IsFactor dialect) := fun r hr => ih r (by omega)
      cases rule with
      | primary => exact Reads.primary c
      | grouping => exact .grouping (factorAt_advances _) hlevel (kind_of_grouping hrule)
      | negation =>
        obtain ⟨hkind, hminus⟩ := kind_of_negation hrule
        exact .negation hlevel hminus hkind

/-- The parser for statements reads statements. -/
theorem statementAt_reads (dialect : Dialect) (room : Nat) :
    Reads room ((ofDialect dialect).statementAt room) (IsStatement dialect) := by
  induction room using Nat.strongRecOn with
  | ind room ih =>
    intro c
    rw [statementAt_eq]
    rcases hrule : (ofDialect dialect).statementRule? c.kind with - | rule
    · exact .unexpected (statementOver_of_none hrule)
    · refine .congr (statementOver_of_some hrule) ?_
      have hlevel : ∀ r, room = r + 1 →
          Reads r ((ofDialect dialect).statementAt r) (IsStatement dialect) :=
        fun r hr => ih r (by omega)
      have hadv := (ofDialect dialect).factorAt_advances room
      have hfactor := factorAt_reads dialect room
      have hkind := kind_of_statementRule hrule
      cases rule with
      | declaration => exact .declaration hadv hfactor hkind
      | assignment => exact Reads.assignmentStatement hadv hfactor c
      | conditional => exact .conditional hadv hfactor hlevel hkind
      | switch => exact .switch hlevel hkind
      | whileLoop => exact .whileLoop hadv hfactor hlevel hkind
      | forLoop => exact .forLoop hadv hfactor hlevel hkind
      | leave => exact .leave hkind

/-- The parser for units reads any number of statements. -/
theorem statements_reads (dialect : Dialect) :
    Reads maxNesting (ofDialect dialect).statements (Many (IsStatement dialect)) :=
  Reads.manyWhile fun c _ => statementAt_reads dialect maxNesting c

end Grammar

end MiniC
