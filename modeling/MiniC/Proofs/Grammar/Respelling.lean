import Mathlib.Data.List.Forall2
import MiniC.Proofs.Grammar.Recognition
import MiniC.Proofs.Parser.Lookahead
import MiniC.Proofs.Parser.Respelling

/-!
# Positions and spelling

What is parsed, and what is said of which token, does not depend on where tokens stand nor on how
they are written, but for the texts of names and types. Every parser of a dialect does likewise on
tokens that match: `Grammar.factorAt_likewise` and `Grammar.statementAt_likewise`, by induction on
the room, and `Grammar.statements_likewise` for programs. The text of a token that starts a
declaration matters, and it is that of a type, since no other token starts one.

So two units whose tokens match are read as the same program or refused for the same reason, at
tokens with the same number (`parse_respelled`). Any tokens match themselves: a diagnostic of the
grammar is always at a token, and it is at the last one if the tokens have run out
(`exists_token_of_parse`).
-/

namespace MiniC

namespace Parser

variable {room : Nat} {factor factor₁ : Parser Expr} {level level₁ : Nat → Parser Expr}
  {statement statement₁ : Nat → Parser Stmt}

section

variable (h : Likewise factor factor₁)

include h

/-! ### Expressions -/

private theorem Likewise.expression : Likewise (expression factor) (expression factor₁) :=
  (h.chain _).chain _

/-- The operator is looked at by its kind, which tokens that match share. -/
private theorem Likewise.condition : Likewise (condition factor) (condition factor₁) := by
  refine h.expression.bind fun left => .kind_bind fun k => ?_
  split
  · exact Likewise.unexpectedBecause _ k
  · refine (Likewise.skip_bind fun _ _ => ?_) k
    exact h.expression.bind fun right => .pure _

/-! ### Declarations and assignments -/

/-- The name is the text of an identifier, which tokens that match share. -/
private theorem Likewise.declarator : Likewise (declarator factor) (declarator factor₁) := by
  refine .expectFor_bind _ _ fun hmatch hkind => ?_
  rw [hmatch.value (.inl hkind)]
  exact (h.expression.optionalAfter _).bind fun _ => .pure _

/-- A type is named by the text of a type word, so both words name it or neither does. -/
private theorem LikewiseFor.declaration :
    LikewiseFor .type (declaration factor) (declaration factor₁) := by
  refine .advance_bind fun {t t₁} hmatch hkind => ?_
  have hword : TypeName.ofWord? t₁.value = TypeName.ofWord? t.value := by
    rw [hmatch.value (.inr hkind)]
  rw [hword]
  split
  · exact .inr ⟨.unexpectedBecause "unknown type name", rfl, rfl⟩
  · refine .inl (h.declarator.bind fun first => ?_)
    have hmore := Likewise.skip_bind fun _ _ => h.declarator
    refine (hmore.manyWhile_kind (fun k => k = .comma)).bind fun more => ?_
    exact .expect_bind _ fun _ _ => .pure _

/-- The target is the text of an identifier, which tokens that match share. -/
private theorem Likewise.assignment : Likewise (assignment factor) (assignment factor₁) := by
  refine .expectFor_bind _ _ fun hmatch hkind => .kind_bind fun k => ?_
  rw [hmatch.value (.inl hkind)]
  split
  · exact Likewise.unexpectedBecause _ k
  · refine (Likewise.skip_bind fun _ _ => ?_) k
    exact h.expression.bind fun value => .pure _

private theorem Likewise.assignmentStatement :
    Likewise (assignmentStatement factor) (assignmentStatement factor₁) :=
  h.assignment.bind fun _ => .expect_bind _ fun _ _ => .pure _

private theorem Likewise.header : Likewise (header factor) (header factor₁) :=
  .expect_bind _ fun _ _ => h.condition.bind fun _ => .expect_bind _ fun _ _ => .pure _

end

/-! ### Factors -/

/-- A factor of one token is told by its kind, its literal and its name. -/
private theorem Likewise.primary : Likewise primary primary := by
  refine fun _ => .advance_bind fun {t t₁} hmatch _ => ?_
  rw [hmatch.expr?_eq]
  split
  · exact .inl (.pure _)
  · exact .inr ⟨.unexpected, rfl, rfl⟩

private theorem Likewise.grouping (h : ∀ r, room = r + 1 → Likewise (level r) (level₁ r)) :
    Likewise (grouping (below level room)) (grouping (below level₁ room)) :=
  .deeper fun r hr => .skip_bind fun _ _ => (h r hr).expression.bind fun _ =>
    .expect_bind _ fun _ _ => .pure _

private theorem Likewise.negation (h : ∀ r, room = r + 1 → Likewise (level r) (level₁ r)) :
    Likewise (negation (below level room)) (negation (below level₁ room)) :=
  .deeper fun r hr => .skip_bind fun _ _ => (h r hr).bind fun _ => .pure _

/-! ### Blocks and what holds them -/

section

variable (h : ∀ r, room = r + 1 → Likewise (statement r) (statement₁ r))

include h

/-- A block refuses a level too many at the token after its brace, in both runs. -/
private theorem Likewise.block :
    Likewise (block (below statement room)) (block (below statement₁ room)) := by
  refine .expect_bind _ fun _ _ => .deeper fun r hr => ?_
  refine ((h r hr).manyWhile_kind (fun k => k ≠ .closeCurly)).bind fun _ => ?_
  exact .expect_bind _ fun _ _ => .pure _

/-- Labels are told by what tokens that match share. -/
private theorem Likewise.caseGroup :
    Likewise (caseGroup (below statement room)) (caseGroup (below statement₁ room)) := by
  have hclause : Likewise caseClause caseClause :=
    .skip_bind fun _ _ => .caseLabel_bind fun _ => .expect_bind _ fun _ _ => .pure _
  refine (hclause.manyWhile_kind (fun k => k = .caseWord)).bind fun _ => ?_
  exact (Likewise.block h).bind fun _ => .pure _

/-- The name to switch on is the text of an identifier, which tokens that match share. -/
private theorem Likewise.switch :
    Likewise (switch (below statement room)) (switch (below statement₁ room)) := by
  refine .skip_bind fun _ _ => .expect_bind _ fun _ _ => ?_
  refine .expectFor_bind _ _ fun hmatch hkind => ?_
  rw [hmatch.value (.inl hkind)]
  refine .expect_bind _ fun _ _ => .expect_bind _ fun _ _ => ?_
  refine ((Likewise.caseGroup h).manyWhile_kind (fun k => k = .caseWord)).bind fun _ => ?_
  refine (Likewise.optionalAfter _ (.expect_bind _ fun _ _ => .block h)).bind fun _ => ?_
  exact .expect_bind _ fun _ _ => .pure _

private theorem Likewise.conditional (hfactor : Likewise factor factor₁) :
    Likewise (conditional factor (below statement room))
      (conditional factor₁ (below statement₁ room)) := by
  have hblock := Likewise.block h
  refine .skip_bind fun _ _ => hfactor.header.bind fun _ => ?_
  exact hblock.bind fun _ => (hblock.optionalAfter _).bind fun _ => .pure _

private theorem Likewise.whileLoop (hfactor : Likewise factor factor₁) :
    Likewise (whileLoop factor (below statement room))
      (whileLoop factor₁ (below statement₁ room)) := by
  refine .skip_bind fun _ _ => hfactor.header.bind fun _ => ?_
  exact (Likewise.block h).bind fun _ => .pure _

private theorem Likewise.forLoop (hfactor : Likewise factor factor₁) :
    Likewise (forLoop factor (below statement room))
      (forLoop factor₁ (below statement₁ room)) := by
  refine .skip_bind fun _ _ => .expect_bind _ fun _ _ => ?_
  refine hfactor.assignment.bind fun _ => .expect_bind _ fun _ _ => ?_
  refine hfactor.condition.bind fun _ => .expect_bind _ fun _ _ => ?_
  refine hfactor.assignment.bind fun _ => .expect_bind _ fun _ _ => ?_
  exact (Likewise.block h).bind fun _ => .pure _

end

private theorem Likewise.leave : Likewise leave leave :=
  .skip_bind fun _ _ => .expect_bind _ fun _ _ => .pure _

end Parser

namespace Grammar

open MiniC.Parser

/-! ### The parsers of a dialect -/

/-- Factors are read likewise, whatever the rules for factors are. -/
theorem factorAt_likewise (g : Grammar) (room : Nat) :
    Likewise (g.factorAt room) (g.factorAt room) := by
  induction room using Nat.strongRecOn with
  | ind room ih =>
    have hlevel : ∀ r, room = r + 1 → Likewise (g.factorAt r) (g.factorAt r) :=
      fun r hr => ih r (by omega)
    rw [factorAt_eq]
    refine .kind_bind fun k => ?_
    split
    · rename_i rule _
      cases rule with
      | primary => exact Likewise.primary k
      | grouping => exact Likewise.grouping hlevel k
      | negation => exact Likewise.negation hlevel k
    · exact Likewise.unexpected k

/-- Statements of a dialect are read likewise, as only a type word starts a declaration. -/
theorem statementAt_likewise (dialect : Dialect) (room : Nat) :
    Likewise ((ofDialect dialect).statementAt room) ((ofDialect dialect).statementAt room) := by
  induction room using Nat.strongRecOn with
  | ind room ih =>
    have hfactor := (ofDialect dialect).factorAt_likewise room
    have hlevel : ∀ r, room = r + 1 →
        Likewise ((ofDialect dialect).statementAt r) ((ofDialect dialect).statementAt r) :=
      fun r hr => ih r (by omega)
    rw [statementAt_eq]
    refine .kind_bind fun k => ?_
    split
    · rename_i rule hrule
      cases rule with
      | declaration =>
        -- Only a type starts a declaration.
        rw [kind_of_statementRule hrule]
        exact .declaration hfactor
      | assignment => exact hfactor.assignmentStatement k
      | conditional => exact Likewise.conditional hlevel hfactor k
      | switch => exact Likewise.switch hlevel k
      | whileLoop => exact Likewise.whileLoop hlevel hfactor k
      | forLoop => exact Likewise.forLoop hlevel hfactor k
      | leave => exact Likewise.leave k
    · exact Likewise.unexpected k

/-- Units are read likewise. -/
theorem statements_likewise (dialect : Dialect) :
    Likewise (ofDialect dialect).statements (ofDialect dialect).statements :=
  (statementAt_likewise dialect maxNesting).manyWhile fun h => h.hasTokens_eq

end Grammar

/-! ### Diagnostics of the grammar -/

/-- The fault, said of a token with another text. A fault that shows no token stays as it is. -/
def Fault.naming (text : String) : Fault → Fault
  | unexpectedToken _ => .unexpectedToken text
  | unexpectedTokenDetailed _ message => .unexpectedTokenDetailed text message
  | fault => fault

/-- A diagnostic that **is said of** a token: it is at the token, and shows no other text. -/
def Diagnostic.IsSaidOf (d : Diagnostic) (t : Token) : Prop :=
  d = ⟨d.fault.naming t.value, t.position⟩

/-- A fault shows no text but the one that it names. -/
private theorem Fault.eq_of_mem_token? {fault : Fault} {text shown : String}
    (h : fault = fault.naming text) (hshown : shown ∈ fault.token?) : shown = text := by
  cases fault <;> cases hshown <;> cases h <;> rfl

namespace Objection

variable (o : Objection) (text : String)

/-- Every objection is one of the grammar. -/
private theorem phase_fault : (o.fault text).phase = .grammatical := by
  cases o <;> rfl

/-- The same objection to another token. -/
private theorem naming_fault (other : String) : (o.fault text).naming other = o.fault other := by
  cases o <;> rfl

/-- There is a token that is objected to. -/
private theorem fault_ne_endOfInput : o.fault text ≠ .unexpectedEndOfInput := by
  intro h
  cases o <;> cases h

end Objection

/-- The end of a unit that has tokens is reported at the last one. -/
private theorem Cursor.exists_endPosition_eq {tokens : List Token} (hne : tokens ≠ [])
    (unit : Option String) :
    ∃ t, tokens[tokens.length - 1]? = some t ∧ (ofTokens unit tokens).endPosition = t.position := by
  refine ⟨tokens.getLast hne, ?_, ?_⟩
  · rw [← List.getLast?_eq_getElem?, List.getLast?_eq_some_getLast hne]
  · rw [ofTokens, List.getLast?_eq_some_getLast hne]
    rfl

section

variable {dialect : Dialect} {tokens tokens₁ : List Token}

/-- Cursors before the first tokens of two units that match are in parallel. -/
private theorem Cursor.parallel_ofTokens (h : List.Forall₂ Token.Matches tokens tokens₁)
    (unit unit₁ : Option String) :
    (ofTokens unit tokens).Parallel (tokens.zip tokens₁)
      ((ofTokens unit tokens).endPosition, (ofTokens unit₁ tokens₁).endPosition)
      (ofTokens unit₁ tokens₁) where
  rest := (List.map_fst_zip (Nat.le_of_eq h.length_eq)).symm
  rest₁ := (List.map_snd_zip (Nat.le_of_eq h.length_eq.symm)).symm
  matches_of_mem := fun _ hp => (List.forall₂_iff_zip.1 h).2 hp
  depth := rfl
  endPosition := rfl
  endPosition₁ := rfl

/-- Diagnostics that correspond are said of tokens with the same number. One that reports the end is
said of the last token. -/
private theorem Diagnostic.Corresponds.exists_isSaidOf {unit unit₁ : Option String}
    {d d₁ : Diagnostic} (hlength : tokens.length = tokens₁.length) (hne : tokens ≠ [])
    (h : d.Corresponds (tokens.zip tokens₁)
      ((Cursor.ofTokens unit tokens).endPosition, (Cursor.ofTokens unit₁ tokens₁).endPosition) d₁) :
    ∃ (k : Nat) (t t₁ : Token), tokens[k]? = some t ∧ tokens₁[k]? = some t₁ ∧ d.IsSaidOf t ∧
      d₁ = ⟨d.fault.naming t₁.value, t₁.position⟩ ∧ d.fault.phase = .grammatical ∧
      (d.fault = .unexpectedEndOfInput → k + 1 = tokens.length) := by
  have hne₁ : tokens₁ ≠ [] := List.ne_nil_of_length_pos (hlength ▸ List.length_pos_iff.2 hne)
  have hpos := List.length_pos_iff.2 hne
  obtain ⟨t, ht, hend⟩ := Cursor.exists_endPosition_eq hne unit
  obtain ⟨t₁, ht₁, hend₁⟩ := Cursor.exists_endPosition_eq hne₁ unit₁
  rw [← hlength] at ht₁
  cases h with
  | @atToken o t t₁ hmem =>
    obtain ⟨k, hk⟩ := List.mem_iff_getElem?.1 hmem
    obtain ⟨ht, ht₁⟩ := List.getElem?_zip_eq_some.1 hk
    refine ⟨k, t, t₁, ht, ht₁, ?_, ?_, o.phase_fault _, fun hend =>
      absurd hend (o.fault_ne_endOfInput _)⟩
    · rw [Diagnostic.IsSaidOf, Objection.diagnostic, Objection.naming_fault]
    · rw [Objection.diagnostic, Objection.diagnostic, Objection.naming_fault]
  | tooDeepAtEnd =>
    exact ⟨_, t, t₁, ht, ht₁, by rw [Diagnostic.IsSaidOf, hend]; rfl, by rw [hend₁]; rfl, rfl,
      nofun⟩
  | endOfInput =>
    exact ⟨_, t, t₁, ht, ht₁, by rw [Diagnostic.IsSaidOf, hend]; rfl, by rw [hend₁]; rfl, rfl,
      fun _ => Nat.sub_add_cancel hpos⟩

/-- Units whose tokens match are both read, as the same program, or are both refused, with
diagnostics that are said of tokens with the same number. -/
theorem parse_likewise (h : List.Forall₂ Token.Matches tokens tokens₁)
    (unit unit₁ : Option String) :
    (∃ program, parse dialect unit tokens = .ok program ∧
        parse dialect unit₁ tokens₁ = .ok program) ∨
      ∃ (d : Diagnostic) (k : Nat) (t t₁ : Token), parse dialect unit tokens = .error d ∧
        tokens[k]? = some t ∧ tokens₁[k]? = some t₁ ∧ d.IsSaidOf t ∧
        parse dialect unit₁ tokens₁ = .error ⟨d.fault.naming t₁.value, t₁.position⟩ ∧
        d.fault.phase = .grammatical ∧
        (d.fault = .unexpectedEndOfInput → k + 1 = tokens.length) := by
  have hagree := (Grammar.statements_likewise dialect).agree (Cursor.parallel_ofTokens h unit unit₁)
  rcases hrun : (Grammar.ofDialect dialect).statements (.ofTokens unit tokens) with
    ⟨ss, c⟩ | ⟨d, c⟩ <;>
  rcases hrun₁ : (Grammar.ofDialect dialect).statements (.ofTokens unit₁ tokens₁) with
    ⟨ss₁, c₁⟩ | ⟨d₁, c₁⟩ <;>
  rw [hrun, hrun₁] at hagree <;> cases hagree
  · exact .inl ⟨⟨ss⟩, parse_eq_ok_iff.2 ⟨c, hrun⟩, parse_eq_ok_iff.2 ⟨c₁, hrun₁⟩⟩
  · rename_i hd
    have hne : tokens ≠ [] := by
      -- A unit without tokens is read.
      rintro rfl
      cases hrun
    obtain ⟨k, t, t₁, ht, ht₁, hsaid, rfl, hphase, hend⟩ := hd.exists_isSaidOf h.length_eq hne
    exact .inr ⟨d, k, t, t₁, parse_eq_error_iff.2 ⟨c, hrun⟩, ht, ht₁, hsaid,
      parse_eq_error_iff.2 ⟨c₁, hrun₁⟩, hphase, hend⟩

/-- **Where the grammar objects.** A diagnostic of the grammar is at one of the tokens, and shows
the text of that token if it shows any. If the tokens have run out, it is at the last one. -/
theorem exists_token_of_parse {unit : Option String} {d : Diagnostic}
    (h : parse dialect unit tokens = .error d) :
    ∃ (k : Nat) (t : Token), tokens[k]? = some t ∧ d.position = t.position ∧
      d.fault.phase = .grammatical ∧ (∀ text ∈ d.fault.token?, text = t.value) ∧
      (d.fault = .unexpectedEndOfInput → k + 1 = tokens.length) := by
  have hself : List.Forall₂ Token.Matches tokens tokens :=
    List.forall₂_same.2 fun _ _ => ⟨rfl, rfl, fun _ => rfl⟩
  obtain ⟨program, hok : parse dialect unit tokens = _, -⟩ |
    ⟨d', k, t, -, herror, ht, -, hsaid, -, hphase, hend⟩ := parse_likewise hself unit unit
  · cases h.symm.trans hok
  · cases h.symm.trans herror
    exact ⟨k, t, ht, congrArg Diagnostic.position hsaid, hphase, fun _ hshown =>
      Fault.eq_of_mem_token? (congrArg Diagnostic.fault hsaid) hshown, hend⟩

/-- **Positions and spelling.** Units whose tokens match are read as the same programs. If they are
refused, then for the same reason: both diagnostics are said of tokens with the same number. -/
theorem parse_respelled (h : List.Forall₂ Token.Matches tokens tokens₁)
    (unit unit₁ : Option String) :
    (∀ program, parse dialect unit tokens = .ok program ↔
        parse dialect unit₁ tokens₁ = .ok program) ∧
      ∀ d, parse dialect unit tokens = .error d →
        ∃ (k : Nat) (t t₁ : Token), tokens[k]? = some t ∧ tokens₁[k]? = some t₁ ∧
          d = ⟨d.fault.naming t.value, t.position⟩ ∧
          parse dialect unit₁ tokens₁ = .error ⟨d.fault.naming t₁.value, t₁.position⟩ := by
  obtain ⟨program, hok : parse dialect unit tokens = _, hok₁⟩ |
    ⟨d, k, t, t₁, herror, ht, ht₁, hsaid, herror₁, -, -⟩ := parse_likewise h unit unit₁
  · rw [hok, hok₁]
    exact ⟨fun _ => Iff.rfl, nofun⟩
  · rw [herror, herror₁]
    refine ⟨fun _ => ⟨nofun, nofun⟩, ?_⟩
    rintro _ ⟨⟩
    exact ⟨k, t, t₁, ht, ht₁, hsaid, rfl⟩

end

/-- The tokens of `int x = 1 2`, written with the given texts and placed by the given function. -/
def Token.twoNumbers (equals one two : String) (place : Nat → Position) : List Token :=
  [⟨.type, "int", none, place 0⟩, ⟨.identifier, "x", none, place 1⟩,
    ⟨.assign, equals, none, place 2⟩, ⟨.number, one, some (.int 1), place 3⟩,
    ⟨.number, two, some (.int 2), place 4⟩]

/-- The second number is refused however it is written, and wherever it stands. -/
theorem parse_respelled_twoNumbers :
    List.Forall₂ Token.Matches (Token.twoNumbers "=" "1" "2" fun _ => ⟨1, "shell"⟩)
        (Token.twoNumbers "is" "01" "002" fun k => ⟨.ofNat (9 - k), "notes"⟩) ∧
      parse {} none (Token.twoNumbers "=" "1" "2" fun _ => ⟨1, "shell"⟩)
        = .error ⟨.unexpectedToken "2", ⟨1, "shell"⟩⟩ ∧
      ∃ (k : Nat) (t t₁ : Token),
        (Token.twoNumbers "=" "1" "2" fun _ => ⟨1, "shell"⟩)[k]? = some t ∧
        (Token.twoNumbers "is" "01" "002" fun k => ⟨.ofNat (9 - k), "notes"⟩)[k]? = some t₁ ∧
        (⟨.unexpectedToken "2", ⟨1, "shell"⟩⟩ : Diagnostic)
          = ⟨.unexpectedToken t.value, t.position⟩ ∧
        parse {} (some "notes")
            (Token.twoNumbers "is" "01" "002" fun k => ⟨.ofNat (9 - k), "notes"⟩)
          = .error ⟨.unexpectedToken t₁.value, t₁.position⟩ := by
  have hmatches : List.Forall₂ Token.Matches (Token.twoNumbers "=" "1" "2" fun _ => ⟨1, "shell"⟩)
      (Token.twoNumbers "is" "01" "002" fun k => ⟨.ofNat (9 - k), "notes"⟩) := by
    refine .cons ⟨rfl, rfl, fun _ => rfl⟩ (.cons ⟨rfl, rfl, fun _ => rfl⟩
      (.cons ⟨rfl, rfl, ?_⟩ (.cons ⟨rfl, rfl, ?_⟩ (.cons ⟨rfl, rfl, ?_⟩ .nil)))) <;>
    exact fun hkind => absurd hkind (by decide)
  have herror : parse {} none (Token.twoNumbers "=" "1" "2" fun _ => ⟨1, "shell"⟩)
      = .error ⟨.unexpectedToken "2", ⟨1, "shell"⟩⟩ := rfl
  exact ⟨hmatches, herror, (parse_respelled hmatches none (some "notes")).2 _ herror⟩

end MiniC
