import MiniC.Proofs.Grammar.Depth
import MiniC.Proofs.Grammar.Narrowing
import MiniC.Proofs.Grammar.Recognition

/-!
# What a prefix minus adds

The prefix minus extends the language and changes nothing else (`parse_unaryMinus`). Whatever is
read without it is read with it, as the same program, and a program that is read with it and has no
minus is read without it. A program that has a minus is refused without it, at the first minus that
comes after no operand.

With and without it, the same tokens are read as the same, or the first minus of that sort is
refused (`parse_narrows`). What is left is which of the two happens, and that can be told by the
program: a derivation in a dialect without the minus has a tree without one (`IsProgram.depth_le`),
and a derivation of a tree without a minus needs no dialect that has it
(`IsProgram.of_not_hasMinus`).
-/

namespace MiniC

namespace Phrase

/-- Phrases of one sort with at most `n` levels **carry over** to another sort where their trees
satisfy a property. -/
def CarriesOver (n : Nat) (Q : α → Prop) (P P₁ : Phrase α) : Prop :=
  ∀ ⦃ts a m⦄, P ts a m → m ≤ n → Q a → P₁ ts a m

section

variable {α : Type} {n : Nat} {Q : α → Prop} {P P₁ : Phrase α}

/-- Repeated phrases carry over one by one. -/
private theorem CarriesOver.many (h : CarriesOver n Q P P₁) :
    CarriesOver n (fun as => ∀ a ∈ as, Q a) (Many P) (Many P₁) := by
  intro ts as m hmany hm has
  induction hmany with
  | nil => exact .nil
  | cons hP _ ih =>
    obtain ⟨hm, hm'⟩ := Nat.max_le.1 hm
    obtain ⟨ha, has⟩ := List.forall_mem_cons.1 has
    exact .cons (h hP hm ha) (ih hm' has)

private theorem CarriesOver.optional (h : CarriesOver n Q P P₁) :
    CarriesOver n (fun o => ∀ a ∈ o, Q a) (Optional P) (Optional P₁) := by
  rintro _ _ m (_ | hP) hm ha
  · exact .none
  · exact .some (h hP hm (ha _ rfl))

private theorem CarriesOver.after (h : CarriesOver n Q P P₁) (k : Kind) :
    CarriesOver n Q (After k P) (After k P₁) := by
  rintro _ _ m ⟨hk, hP⟩ hm ha
  exact .mk hk (h hP hm ha)

private theorem CarriesOver.between (h : CarriesOver n Q P P₁) (k k' : Kind) :
    CarriesOver n Q (Between k k' P) (Between k k' P₁) := by
  rintro _ _ m ⟨hk, hP, hk'⟩ hm ha
  exact .mk hk (h hP hm ha) hk'

end

end Phrase

open Phrase

variable {dialect dialect₁ : Dialect} {n : Nat}

/-! ### Trees without a minus -/

/-- A chain without a minus has operands without one. -/
private theorem Phrase.CarriesOver.chain {op? : Kind → Option BinaryOp} {P P₁ : Phrase Expr}
    (h : CarriesOver n (·.depth .minuses ≤ 0) P P₁) :
    CarriesOver n (·.depth .minuses ≤ 0) (Chain op? P) (Chain op? P₁) := by
  intro ts e m hchain hm he
  induction hchain with
  | operand hP => exact .operand (h hP hm he)
  | binary _ hop hright ih =>
    obtain ⟨hm, hm'⟩ := Nat.max_le.1 hm
    obtain ⟨he, he'⟩ := Nat.max_le.1 he
    exact .binary (ih hm he) hop (h hright hm' he')

section

variable (dialect dialect₁)

/-- Only a negation depends on the dialect, and its tree weighs something. -/
private theorem IsFactor.carriesOver (n : Nat) :
    CarriesOver n (·.depth .minuses ≤ 0) (IsFactor dialect) (IsFactor dialect₁) := by
  induction n using Nat.strongRecOn with
  | ind n ih =>
    intro ts e m hfactor hm he
    cases hfactor with
    | identifier hkind => exact .identifier hkind
    | int hkind hliteral => exact .int hkind hliteral
    | float hkind hliteral => exact .float hkind hliteral
    | char hkind hliteral => exact .char hkind hliteral
    | string hkind hliteral => exact .string hkind hliteral
    | @grouping _ _ m hbetween =>
      exact .grouping (((ih m hm).chain.chain.between _ _) hbetween (Nat.le_refl m) he)
    | negation =>
      -- The tree of a minus weighs something.
      exact absurd he (Nat.not_succ_le_zero _)

private theorem IsExpression.carriesOver (n : Nat) :
    CarriesOver n (·.depth .minuses ≤ 0) (IsExpression dialect) (IsExpression dialect₁) :=
  (IsFactor.carriesOver dialect dialect₁ n).chain.chain

private theorem IsCondition.carriesOver (n : Nat) :
    CarriesOver n (·.depth .minuses ≤ 0) (IsCondition dialect) (IsCondition dialect₁) := by
  rintro _ _ m ⟨hleft, hop, hright⟩ hm hc
  obtain ⟨hm, hm'⟩ := Nat.max_le.1 hm
  obtain ⟨hc, hc'⟩ := Nat.max_le.1 hc
  have hexpression := IsExpression.carriesOver dialect dialect₁ n
  exact .mk (hexpression hleft hm hc) hop (hexpression hright hm' hc')

/-- A declarator has a minus if its value does. -/
private theorem IsDeclarator.carriesOver (n : Nat) :
    CarriesOver n (·.depth .minuses ≤ 0) (IsDeclarator dialect) (IsDeclarator dialect₁) := by
  rintro _ ⟨name, initializer⟩ m ⟨hname, hinitializer⟩ hm hd
  have hexpression := (IsExpression.carriesOver dialect dialect₁ n).after .assign
  refine .mk hname (hexpression.optional hinitializer hm ?_)
  rintro value ⟨⟩
  exact hd

private theorem IsAssignment.carriesOver (n : Nat) :
    CarriesOver n (·.depth .minuses ≤ 0) (IsAssignment dialect) (IsAssignment dialect₁) := by
  rintro _ _ m ⟨htarget, hop, hvalue⟩ hm ha
  exact .mk htarget hop (IsExpression.carriesOver dialect dialect₁ n hvalue hm ha)

end

section

variable (h : ∀ m, m < n →
  CarriesOver m (·.depth .minuses ≤ 0) (IsStatement dialect) (IsStatement dialect₁))

include h

/-- A block holds statements with one level less, and weighs nothing where minuses are counted. -/
private theorem IsBlock.carriesOver :
    CarriesOver n (Stmt.depthIn .minuses · ≤ 0) (IsBlock (IsStatement dialect))
      (IsBlock (IsStatement dialect₁)) := by
  rintro _ _ _ @⟨_, _, m, hbetween⟩ hm hblock
  exact .mk (((h m hm).many.between _ _) hbetween (Nat.le_refl m) (Stmt.depthIn_le_iff.1 hblock))

private theorem IsCaseGroup.carriesOver :
    CarriesOver n (·.depth .minuses ≤ 0) (IsCaseGroup (IsStatement dialect))
      (IsCaseGroup (IsStatement dialect₁)) := by
  rintro _ _ m ⟨hlabels, hne, hbody⟩ hm hgroup
  exact .mk hlabels hne (IsBlock.carriesOver h hbody (Nat.max_le.1 hm).2 hgroup)

/-- The step of the induction: statements with `n` levels carry over if those with fewer do. -/
private theorem IsStatement.carriesOver_of_lt :
    CarriesOver n (·.depth .minuses ≤ 0) (IsStatement dialect) (IsStatement dialect₁) := by
  intro ts s m hstatement hm hs
  -- The depth is that of the deepest part, so no part has a minus if the statement has none.
  have hbody := IsBlock.carriesOver h
  have hcondition := IsCondition.carriesOver dialect dialect₁ n
  have hassignment := IsAssignment.carriesOver dialect dialect₁ n
  have hdeclarator := IsDeclarator.carriesOver dialect dialect₁ n
  cases hstatement with
  | declaration hkind htype hfirst hmore hsemi =>
    obtain ⟨hm, hm'⟩ := Nat.max_le.1 hm
    obtain ⟨hd, hd'⟩ := Nat.max_le.1 hs
    exact .declaration hkind htype (hdeclarator hfirst hm hd)
      ((hdeclarator.after _).many hmore hm' (Declarator.depthIn_le_iff.1 hd')) hsemi
  | assignment ha hsemi => exact .assignment (hassignment ha hm hs) hsemi
  | conditional hkind hc hthen helse =>
    simp only [Nat.max_le] at hm
    simp only [Stmt.depth, Nat.max_le] at hs
    exact .conditional hkind ((hcondition.between _ _) hc hm.1 hs.1) (hbody hthen hm.2.1 hs.2.1)
      ((hbody.after _).optional helse hm.2.2 (Stmt.depthInOption_le_iff.1 hs.2.2))
  | switch hkind hopen hname hclose hbrace hcases hdefault hbrace' =>
    obtain ⟨hm, hm'⟩ := Nat.max_le.1 hm
    simp only [Stmt.depth, Nat.max_le] at hs
    refine .switch hkind hopen hname hclose hbrace ?_ ?_ hbrace'
    · exact (IsCaseGroup.carriesOver h).many hcases hm (CaseGroup.depthIn_le_iff.1 hs.1)
    · exact ((hbody.after _).after _).optional hdefault hm' (Stmt.depthInOption_le_iff.1 hs.2)
  | whileLoop hkind hc hblock =>
    obtain ⟨hm, hm'⟩ := Nat.max_le.1 hm
    simp only [Stmt.depth, Nat.max_le] at hs
    exact .whileLoop hkind ((hcondition.between _ _) hc hm hs.1) (hbody hblock hm' hs.2)
  | forLoop hkind hopen hinit hsemi hc hsemi' hstep hclose hblock =>
    simp only [Nat.max_le] at hm
    simp only [Stmt.depth, Nat.max_le] at hs
    exact .forLoop hkind hopen (hassignment hinit hm.1 hs.1) hsemi (hcondition hc hm.2.1 hs.2.1)
      hsemi' (hassignment hstep hm.2.2.1 hs.2.2.1) hclose (hbody hblock hm.2.2.2 hs.2.2.2)
  | leave hkind hsemi => exact .leave hkind hsemi

end

/-- A statement without a minus is derived in every dialect if it is in one. -/
theorem IsStatement.carriesOver (dialect dialect₁ : Dialect) (n : Nat) :
    CarriesOver n (·.depth .minuses ≤ 0) (IsStatement dialect) (IsStatement dialect₁) := by
  induction n using Nat.strongRecOn with
  | ind n ih => exact carriesOver_of_lt ih

variable {unit : Option String} {tokens : List Token} {program : Program}

/-- A program without a minus is derived in every dialect if it is in one. -/
theorem IsProgram.of_not_hasMinus (h : IsProgram dialect tokens program n)
    (hprogram : ¬program.HasMinus) (dialect₁ : Dialect) : IsProgram dialect₁ tokens program n :=
  (IsStatement.carriesOver dialect dialect₁ n).many h (Nat.le_refl n)
    (Stmt.depthIn_le_iff.1 (Nat.le_of_not_lt hprogram))

/-- A program has a minus only in a dialect that does. -/
theorem IsProgram.not_hasMinus (h : IsProgram dialect tokens program n)
    (hdialect : dialect.unaryMinus = false) : ¬program.HasMinus := by
  -- Nothing that the dialect has weighs anything, so the depth is zero.
  have hdepth := h.depth_le (w := .minuses) (k := 0)
    (fun hminus => absurd (hminus.symm.trans hdialect) (by decide)) (Nat.le_refl 0)
  rw [Nat.zero_mul] at hdepth
  exact Nat.not_lt_of_le hdepth

/-! ### The two dialects -/

/-- Without the prefix minus, tokens are read as they are with it, or the first prefix minus is
refused. -/
theorem parse_narrows (dialect dialect₁ : Dialect)
    (hdialect : dialect.unaryMinus = true → dialect₁.unaryMinus = true) (unit : Option String)
    (tokens : List Token) :
    parse dialect unit tokens = parse dialect₁ unit tokens ∨
      ∃ t, Token.prefixMinus? false tokens = some t ∧
        parse dialect unit tokens = .error ⟨.unexpectedToken t.value, t.position⟩ := by
  have hrun := (Grammar.statements_narrows hdialect false).narrowed (.ofTokens unit tokens)
  rw [parse, parse]
  generalize (Grammar.ofDialect dialect).statements _ = r at hrun
  generalize (Grammar.ofDialect dialect₁).statements _ = r₁ at hrun
  cases hrun with
  | ok | error => exact .inl rfl
  | stopped _ ht hcurrent => exact .inr ⟨_, ht, by rw [Cursor.unexpected_of_current? hcurrent]⟩

/-- **Conservative extension.** The programs that are read without the prefix minus are those that
are read with it and have no minus. Tokens that are read with it as a program with a minus are
refused without it, at the first minus that comes after no operand. -/
theorem parse_unaryMinus (dialect : Dialect) (unit : Option String) (tokens : List Token) :
    (∀ program, parse { dialect with unaryMinus := false } unit tokens = .ok program ↔
      parse { dialect with unaryMinus := true } unit tokens = .ok program ∧ ¬program.HasMinus) ∧
    (∀ program, parse { dialect with unaryMinus := true } unit tokens = .ok program →
      program.HasMinus → ∃ t, Token.prefixMinus? false tokens = some t ∧
        parse { dialect with unaryMinus := false } unit tokens
          = .error ⟨.unexpectedToken t.value, t.position⟩) := by
  have hnarrows := parse_narrows { dialect with unaryMinus := false }
    { dialect with unaryMinus := true } nofun unit tokens
  have hfree {program : Program}
      (h : parse { dialect with unaryMinus := false } unit tokens = .ok program) :
      ¬program.HasMinus := by
    obtain ⟨n, -, hprogram⟩ := isProgram_of_parse h
    exact hprogram.not_hasMinus rfl
  refine ⟨fun program => ⟨fun h => ?_, ?_⟩, fun program h hminus => ?_⟩
  · rcases hnarrows with heq | ⟨t, -, herror⟩
    · exact ⟨heq.symm.trans h, hfree h⟩
    · cases h.symm.trans herror
  · rintro ⟨h, hminus⟩
    obtain ⟨n, hn, hprogram⟩ := isProgram_of_parse h
    exact (hprogram.of_not_hasMinus hminus _).parse_eq_ok hn unit
  · refine hnarrows.resolve_left fun heq => ?_
    exact hfree (heq.trans h) hminus

/-- The tokens of `x = y - -z;`, with the second minus on a line of its own. -/
def Token.difference : List Token :=
  [⟨.identifier, "x", none, ⟨1, "shell"⟩⟩, ⟨.assign, "=", none, ⟨1, "shell"⟩⟩,
    ⟨.identifier, "y", none, ⟨1, "shell"⟩⟩, ⟨.dash, "-", none, ⟨1, "shell"⟩⟩,
    ⟨.dash, "-", none, ⟨2, "shell"⟩⟩, ⟨.identifier, "z", none, ⟨3, "shell"⟩⟩,
    ⟨.semicolon, ";", none, ⟨3, "shell"⟩⟩]

/-- The program `x = y - -z;`. -/
def Program.difference : Program :=
  ⟨[.assignment ⟨"x", .assign, .binary .sub (.identifier "y") (.negate (.identifier "z"))⟩]⟩

/-- The second minus of `x = y - -z;` comes after no operand. -/
theorem parse_unaryMinus_difference :
    parse { unaryMinus := true } none Token.difference = .ok Program.difference ∧
      Program.difference.HasMinus ∧
      Token.prefixMinus? false Token.difference = some ⟨.dash, "-", none, ⟨2, "shell"⟩⟩ ∧
      parse { unaryMinus := false } none Token.difference
        = .error ⟨.unexpectedToken "-", ⟨2, "shell"⟩⟩ := by
  have hparse : parse { unaryMinus := true } none Token.difference = .ok Program.difference := rfl
  have hminus : Program.difference.HasMinus := Nat.one_pos
  obtain ⟨t, ht, herror⟩ := (parse_unaryMinus {} none Token.difference).2 _ hparse hminus
  cases ht
  exact ⟨hparse, hminus, rfl, herror⟩

end MiniC
