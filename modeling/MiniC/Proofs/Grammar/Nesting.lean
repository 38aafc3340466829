import MiniC.Proofs.Grammar.Narrowing
import MiniC.Proofs.Grammar.Recognition
import MiniC.Proofs.Parser.Tracks

/-!
# Grammars keep track of levels

The parsers of a dialect are tracked (`Grammar.factorAt_tracks`, `Grammar.statementAt_tracks`), by
induction on the room. The levels among the marks and the room add up to `maxNesting`
(`Nesting.Leaves`), so a level has no room just where as many levels are open as may be. A factor
ends the minuses before it, and the first factor of an expression comes after none. A statement
leads back to the marks that it starts from.

So a unit that is read closes all that it opens (`levelsAfter_of_parse`), and one that is refused
for a level too many is reported where that is to be blamed (`blames_of_parse`).
-/

namespace MiniC

namespace Parser

open Nesting (Mark IsSettled Leaves)

/-- A parser for factors that is **tracked**, with room for the given number of levels. -/
def TracksFactor (room : Nat) (factor : Parser Expr) : Prop :=
  ∀ marks, marks.head? ≠ some .word → Leaves marks room →
    Tracks ⟨marks, false⟩ (· = ⟨Mark.settle marks, true⟩) factor

/-- A parser for statements that is **tracked**, with room for the given number of levels. -/
def TracksStatement (room : Nat) (statement : Parser Stmt) : Prop :=
  ∀ marks after, IsSettled marks → Leaves marks room →
    Tracks ⟨marks, after⟩ (·.marks = marks) statement

section

variable {marks : List Mark} {after : Bool} {room : Nat}

section

variable {factor : Parser Expr} (h : TracksFactor room factor) (hmarks : IsSettled marks)
  (hroom : Leaves marks room)

include h hmarks hroom

/-! ### Expressions -/

/-- An expression that starts after no operand ends after one, with the same marks. -/
private theorem Tracks.expression :
    Tracks ⟨marks, false⟩ (· = ⟨marks, true⟩) (expression factor) := by
  have hfactor := h marks hmarks.head?_ne hroom
  rw [hmarks.settle] at hfactor
  have hle := hroom.levels_le false
  exact .chain (fun _ _ => Nesting.read_of_additive?) hle <|
    .chain (fun _ _ => Nesting.read_of_multiplicative?) hle hfactor

/-- A condition that starts after no operand ends after one, with the same marks. -/
private theorem Tracks.condition :
    Tracks ⟨marks, false⟩ (· = ⟨marks, true⟩) (condition factor) := by
  have hexpression := Tracks.expression h hmarks hroom
  refine hexpression.part_bind fun left => .kind_bind fun k => ?_
  split
  · exact (Tracks.unexpectedBecause _).for k
  · rename_i op hop
    exact .advance_bind (hroom.levels_le false) (Nesting.read_of_relOp hop) fun _ =>
      hexpression.part_bind fun right => .done _

/-! ### Declarations and assignments -/

/-- A declarator leaves the marks as they are, with or without a value. -/
private theorem Tracks.declarator :
    Tracks ⟨marks, after⟩ (·.marks = marks) (declarator factor) := by
  refine .expectFor_bind (hroom.levels_le true) (hmarks.read_identifier after) fun _ => ?_
  have hvalue : Tracks ⟨marks, false⟩ (·.marks = marks) (Parser.expression factor) :=
    (Tracks.expression h hmarks hroom).weaken fun s hs => congrArg Nesting.marks hs
  exact (Tracks.optionalAfter (hroom.levels_le false) rfl hvalue).keep_bind fun _ _ => .kept _

/-- The declarators are tracked one by one, for a comma leaves no mark. -/
private theorem TracksFor.declaration :
    TracksFor ⟨marks, after⟩ .type (·.marks = marks) (declaration factor) := by
  have hmore (after : Bool) (k : Kind) (hk : decide (k = .comma) = true) :
      TracksFor ⟨marks, after⟩ k (·.marks = marks)
        (advance >>= fun _ => Parser.declarator factor) := by
    rw [of_decide_eq_true hk]
    exact .advance_bind (hroom.levels_le false) rfl fun _ => .declarator h hmarks hroom
  refine .advance_bind (hroom.levels_le false) rfl fun t => ?_
  split
  · exact .throw (by nofun) _
  · refine (Tracks.declarator h hmarks hroom).keep_bind fun first after => ?_
    refine (Tracks.manyWhile_kind hmore after).keep_bind fun more after => ?_
    exact .expect_bind (hroom.levels_le false) rfl fun _ => .kept _

private theorem Tracks.assignment :
    Tracks ⟨marks, after⟩ (· = ⟨marks, true⟩) (assignment factor) := by
  refine .expectFor_bind (hroom.levels_le true) (hmarks.read_identifier after) fun _ => ?_
  refine .kind_bind fun k => ?_
  split
  · exact (Tracks.unexpectedBecause _).for k
  · rename_i op hop
    exact .advance_bind (hroom.levels_le false) (Nesting.read_of_assignOp hop) fun _ =>
      (Tracks.expression h hmarks hroom).part_bind fun value => .done _

private theorem Tracks.assignmentStatement :
    Tracks ⟨marks, after⟩ (·.marks = marks) (assignmentStatement factor) :=
  (Tracks.assignment h hmarks hroom).part_bind fun _ =>
    .expect_bind (hroom.levels_le false) rfl fun _ => .kept _

/-- A header takes the place of the word before it, and is gone after its parenthesis. -/
private theorem Tracks.header :
    Tracks ⟨.word :: marks, after⟩ (· = ⟨marks, true⟩) (header factor) := by
  have hheader : Leaves (.header :: marks) room := hroom.cons rfl
  have hsettled := Nesting.isSettled_cons .header (by decide) marks
  refine .expect_bind (hheader.levels_le false) rfl fun _ => ?_
  refine (Tracks.condition h hsettled hheader).part_bind fun c => ?_
  exact .expect_bind (hroom.levels_le true) (hmarks.read_closeParen true) fun _ => .done c

end

/-! ### Factors -/

section

variable {k : Kind} {level : Nat → Parser Expr} (hroom : Leaves marks room)

include hroom

/-- An identifier or a literal. -/
private theorem TracksFor.primary (hk : k ∈ Kind.identifier :: Kind.literals) :
    TracksFor ⟨marks, false⟩ k (· = ⟨Mark.settle marks, true⟩) primary := by
  refine .advance_bind (hroom.settle_levels_le true) (Nesting.read_operand hk _) fun t => ?_
  split
  · exact .done _
  · exact .throw (by nofun) _

/-- The end of a group is the end of the operand of every minus right before it. -/
private theorem TracksFor.grouping (hword : marks.head? ≠ some .word)
    (h : ∀ r, room = r + 1 → TracksFactor r (level r)) :
    TracksFor ⟨marks, false⟩ .openParen (· = ⟨Mark.settle marks, true⟩)
      (grouping (below level room)) := by
  have hread := Nesting.read_openParen hword false
  refine .deeper (fun hfull => ?_) fun r hr => ?_
  · subst hfull
    refine .tooDeep (.inl rfl) (hroom.levels_eq false) ?_
    rw [hread]
    exact hroom.levels_cons rfl false
  · subst hr
    have hgroup : Leaves (.group :: marks) r := hroom.level rfl
    have hsettled := Nesting.isSettled_cons .group (by decide) marks
    refine .advance_bind (hgroup.levels_le false) hread fun _ => ?_
    refine (Tracks.expression (h r rfl) hsettled hgroup).part_bind fun e => ?_
    exact .expect_bind (hroom.settle_levels_le true) rfl fun _ => .done e

/-- A minus stays open until its operand ends, which settles it. -/
private theorem TracksFor.negation (h : ∀ r, room = r + 1 → TracksFactor r (level r)) :
    TracksFor ⟨marks, false⟩ .dash (· = ⟨Mark.settle marks, true⟩)
      (negation (below level room)) := by
  refine .deeper (fun hfull => ?_) fun r hr => ?_
  · subst hfull
    exact .tooDeep (.inr rfl) (hroom.levels_eq false) (hroom.levels_cons rfl false)
  · subst hr
    have hminus : Leaves (.minus :: marks) r := hroom.level rfl
    refine .advance_bind (hminus.levels_le false) rfl fun _ => ?_
    exact (h r rfl _ (by nofun) hminus).part_bind fun e => .done _

end

/-! ### Blocks and what holds them -/

section

variable {statement : Nat → Parser Stmt}
  (h : ∀ r, room = r + 1 → TracksStatement r (statement r))

include h

/-- A block that is too many is blamed on the token after its brace. -/
private theorem Tracks.block (hmarks : IsSettled marks) (hroom : Leaves marks room) :
    Tracks ⟨marks, after⟩ (·.marks = marks) (block (below statement room)) := by
  cases room with
  | zero =>
    refine .block_none (hroom.levels_eq after) ?_
    rw [hmarks.read_openCurly]
    exact hroom.levels_cons rfl false
  | succ r =>
    have hblock : Leaves (.block :: marks) r := hroom.level rfl
    have hsettled := Nesting.isSettled_cons .block (by decide) marks
    have hstatements : Tracks ⟨.block :: marks, false⟩ (·.marks = .block :: marks)
        (Parser.manyWhile (·.kind ≠ .closeCurly) (statement r)) :=
      .manyWhile (fun after c _ => h r rfl _ after hsettled hblock c) false
    refine .expect_bind (hblock.levels_le false) (hmarks.read_openCurly after) fun _ => ?_
    refine .opened (hstatements.keep_bind fun _ after => ?_)
    exact .expect_bind (hroom.levels_le false) rfl fun _ => .kept _

/-- The marks before a label are settled, so a label leaves them as they are. -/
private theorem Tracks.caseGroup (hmarks : IsSettled marks) (hroom : Leaves marks room) :
    Tracks ⟨marks, after⟩ (·.marks = marks) (caseGroup (below statement room)) := by
  have hclause (after : Bool) (k : Kind) (hk : decide (k = .caseWord) = true) :
      TracksFor ⟨marks, after⟩ k (·.marks = marks) caseClause := by
    rw [of_decide_eq_true hk]
    refine .advance_bind (hroom.levels_le false) rfl fun _ => ?_
    refine .caseLabel_bind (hroom.levels_le true) (hmarks.read_identifier false) fun _ => ?_
    exact .expect_bind (hroom.levels_le false) rfl fun _ => .kept _
  refine (Tracks.manyWhile_kind hclause after).keep_bind fun _ after => ?_
  exact (Tracks.block h hmarks hroom).keep_bind fun _ _ => .kept _

/-- The braces of a switch are a mark, but no level. -/
private theorem TracksFor.switch (hroom : Leaves marks room) :
    TracksFor ⟨marks, after⟩ .switchWord (·.marks = marks) (switch (below statement room)) := by
  have hswitch : Leaves (.switch :: marks) room := hroom.cons rfl
  have hword : Leaves (.word :: .switch :: marks) room := hswitch.cons rfl
  have hheader : Leaves (.header :: .switch :: marks) room := hswitch.cons rfl
  have hcases : Leaves (.cases :: marks) room := hroom.cons rfl
  have hsettled := Nesting.isSettled_cons .cases (by decide) marks
  have hgroups : Tracks ⟨.cases :: marks, false⟩ (·.marks = .cases :: marks)
      (Parser.manyWhile (·.kind = .caseWord) (Parser.caseGroup (below statement room))) :=
    .manyWhile (fun after c _ => Tracks.caseGroup h hsettled hcases c) false
  have hdefault : Tracks ⟨.cases :: marks, false⟩ (·.marks = .cases :: marks)
      (Parser.expect .colon >>= fun _ => Parser.block (below statement room)) :=
    .expect_bind (hcases.levels_le false) rfl fun _ => .block h hsettled hcases
  refine .advance_bind (hword.levels_le false) rfl fun _ => ?_
  refine .expect_bind (hheader.levels_le false) rfl fun _ => ?_
  refine .expectFor_bind (hheader.levels_le true) rfl fun _ => ?_
  refine .expect_bind (hswitch.levels_le true) rfl fun _ => ?_
  refine .expect_bind (hcases.levels_le false) rfl fun _ => ?_
  refine hgroups.keep_bind fun _ after => ?_
  refine (Tracks.optionalAfter (hcases.levels_le false) rfl hdefault).keep_bind fun _ _ => ?_
  exact .expect_bind (hroom.levels_le false) rfl fun _ => .kept _

variable {factor : Parser Expr} (hfactor : TracksFactor room factor)

include hfactor

/-- The header of a conditional is gone before its block starts. -/
private theorem TracksFor.conditional (hmarks : IsSettled marks) (hroom : Leaves marks room) :
    TracksFor ⟨marks, after⟩ .ifWord (·.marks = marks)
      (conditional factor (below statement room)) := by
  have hword : Leaves (.word :: marks) room := hroom.cons rfl
  have hblock (after : Bool) : Tracks ⟨marks, after⟩ (·.marks = marks)
      (Parser.block (below statement room)) := .block h hmarks hroom
  refine .advance_bind (hword.levels_le false) rfl fun _ => ?_
  refine (Tracks.header hfactor hmarks hroom).part_bind fun _ => ?_
  refine (hblock true).keep_bind fun _ after => ?_
  exact (Tracks.optionalAfter (hroom.levels_le false) rfl (hblock false)).keep_bind fun _ _ =>
    .kept _

private theorem TracksFor.whileLoop (hmarks : IsSettled marks) (hroom : Leaves marks room) :
    TracksFor ⟨marks, after⟩ .whileWord (·.marks = marks)
      (whileLoop factor (below statement room)) := by
  have hword : Leaves (.word :: marks) room := hroom.cons rfl
  refine .advance_bind (hword.levels_le false) rfl fun _ => ?_
  refine (Tracks.header hfactor hmarks hroom).part_bind fun _ => ?_
  exact (Tracks.block h hmarks hroom).keep_bind fun _ _ => .kept _

/-- The semicolons in the header of a loop leave it open. -/
private theorem TracksFor.forLoop (hmarks : IsSettled marks) (hroom : Leaves marks room) :
    TracksFor ⟨marks, after⟩ .forWord (·.marks = marks)
      (forLoop factor (below statement room)) := by
  have hword : Leaves (.word :: marks) room := hroom.cons rfl
  have hheader : Leaves (.header :: marks) room := hroom.cons rfl
  have hsettled := Nesting.isSettled_cons .header (by decide) marks
  have hassignment (after : Bool) :
      Tracks ⟨.header :: marks, after⟩ (· = ⟨.header :: marks, true⟩) (Parser.assignment factor) :=
    .assignment hfactor hsettled hheader
  refine .advance_bind (hword.levels_le false) rfl fun _ => ?_
  refine .expect_bind (hheader.levels_le false) rfl fun _ => ?_
  refine (hassignment false).part_bind fun _ => ?_
  refine .expect_bind (hheader.levels_le false) rfl fun _ => ?_
  refine (Tracks.condition hfactor hsettled hheader).part_bind fun _ => ?_
  refine .expect_bind (hheader.levels_le false) rfl fun _ => ?_
  refine (hassignment false).part_bind fun _ => ?_
  refine .expect_bind (hroom.levels_le true) (hmarks.read_closeParen true) fun _ => ?_
  exact (Tracks.block h hmarks hroom).keep_bind fun _ _ => .kept _

end

private theorem TracksFor.leave (hroom : Leaves marks room) :
    TracksFor ⟨marks, after⟩ .breakWord (·.marks = marks) leave :=
  .advance_bind (hroom.levels_le false) rfl fun _ =>
    .expect_bind (hroom.levels_le false) rfl fun _ => .kept _

end

end Parser

namespace Grammar

open MiniC.Parser

/-! ### The parsers of a dialect -/

/-- The parser for factors keeps track of the levels that are open. -/
theorem factorAt_tracks (dialect : Dialect) (room : Nat) :
    TracksFactor room ((ofDialect dialect).factorAt room) := by
  induction room using Nat.strongRecOn with
  | ind room ih =>
    intro marks hword hroom
    have hlevel : ∀ r, room = r + 1 → TracksFactor r ((ofDialect dialect).factorAt r) :=
      fun r hr => ih r (by omega)
    rw [factorAt_eq]
    refine .kind_bind fun k => ?_
    split
    · rename_i rule hrule
      cases rule with
      | primary => exact .primary hroom (kind_of_primary hrule)
      | grouping =>
        rw [kind_of_grouping hrule]
        exact .grouping hroom hword hlevel
      | negation =>
        rw [(kind_of_negation hrule).1]
        exact .negation hroom hlevel
    · exact Tracks.unexpected.for k

/-- The parser for statements keeps track of the levels that are open. -/
theorem statementAt_tracks (dialect : Dialect) (room : Nat) :
    TracksStatement room ((ofDialect dialect).statementAt room) := by
  induction room using Nat.strongRecOn with
  | ind room ih =>
    intro marks after hmarks hroom
    have hfactor := factorAt_tracks dialect room
    have hlevel : ∀ r, room = r + 1 → TracksStatement r ((ofDialect dialect).statementAt r) :=
      fun r hr => ih r (by omega)
    rw [statementAt_eq]
    refine .kind_bind fun k => ?_
    split
    · rename_i rule hrule
      rw [kind_of_statementRule hrule]
      cases rule with
      | declaration => exact .declaration hfactor hmarks hroom
      | assignment => exact (Tracks.assignmentStatement hfactor hmarks hroom).for _
      | conditional => exact .conditional hlevel hfactor hmarks hroom
      | switch => exact .switch hlevel hroom
      | whileLoop => exact .whileLoop hlevel hfactor hmarks hroom
      | forLoop => exact .forLoop hlevel hfactor hmarks hroom
      | leave => exact .leave hroom
    · exact Tracks.unexpected.for k

/-- The parser for units keeps track of the levels that are open, and leaves none. -/
theorem statements_tracks (dialect : Dialect) :
    Tracks .start (·.marks = []) (ofDialect dialect).statements :=
  .manyWhile (fun after c _ =>
    statementAt_tracks dialect maxNesting [] after Nesting.isSettled_nil rfl c) false

end Grammar

section

variable {dialect : Dialect} {unit : Option String} {tokens : List Token}

/-- A unit that is read closes all that it opens, and no more levels are open between two of its
tokens than may be. -/
theorem levelsAfter_of_parse {program : Program} (h : parse dialect unit tokens = .ok program) :
    levelsAfter tokens = 0 ∧ ∀ ts, ts <+: tokens → levelsAfter ts ≤ maxNesting := by
  obtain ⟨c, hrun⟩ := parse_eq_ok_iff.1 h
  have htracked := Grammar.statements_tracks dialect (.ofTokens unit tokens)
  rw [hrun] at htracked
  cases htracked with
  | ok read hrest _ hread hmarks =>
    rw [Grammar.rest_of_statements hrun, List.append_nil] at hrest
    subst hrest
    exact ⟨congrArg (List.countP Nesting.Mark.isLevel) hmarks,
      fun ts hts => hread.levels_le (Nat.zero_le _) hts⟩

/-- A unit that is refused for a level too many is reported where that is to be blamed. -/
theorem blames_of_parse {limit : Nat} {position : Position}
    (h : parse dialect unit tokens = .error ⟨.nestingTooDeep limit, position⟩) :
    Nesting.start.Blames tokens (Cursor.ofTokens unit tokens).endPosition position := by
  obtain ⟨c, hrun⟩ := parse_eq_error_iff.1 h
  have htracked := Grammar.statements_tracks dialect (.ofTokens unit tokens)
  rw [hrun] at htracked
  cases htracked with
  | error hblames => exact hblames limit rfl

end

end MiniC
