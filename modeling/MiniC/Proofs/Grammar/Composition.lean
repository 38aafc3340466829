import MiniC.Proofs.Grammar.Derivation
import MiniC.Proofs.Syntax.Composed

/-!
# What derived trees are composed of

A tree that tokens derive is composed over any class that the literals of the tokens are in
(`IsProgram.composed`), if the identifiers among the tokens are names.

Grouped expressions and blocks hold phrases of the sort they are part of. They are levels, so the
phrases inside have one level less, and the induction is on the number of levels. `Phrase.Ensures`
says what a property of trees gets from phrases with a bounded number of levels.
-/

namespace MiniC

namespace Phrase

/-- The trees of phrases with at most `n` levels have a property, if the tokens are over a class of
literals. -/
def Ensures (L : Literal → Prop) (n : Nat) (P : Phrase α) (Q : α → Prop) : Prop :=
  ∀ ⦃ts a m⦄, P ts a m → m ≤ n → (∀ t ∈ ts, t.IsOver L) → Q a

section

variable {α : Type} {L : Literal → Prop} {n : Nat} {P : Phrase α} {Q : α → Prop}

/-- The tokens and the levels of each repeated phrase are among those of all of them. -/
private theorem Ensures.many (h : Ensures L n P Q) :
    Ensures L n (Many P) fun as => ∀ a ∈ as, Q a := by
  intro ts as m hmany hm hts
  induction hmany with
  | nil => nofun
  | cons hP _ ih =>
    rw [List.forall_mem_append] at hts
    obtain ⟨hm, hm'⟩ := Nat.max_le.1 hm
    exact List.forall_mem_cons.2 ⟨h hP hm hts.1, ih hm' hts.2⟩

private theorem Ensures.optional (h : Ensures L n P Q) :
    Ensures L n (Optional P) fun o => ∀ a ∈ o, Q a := by
  rintro _ _ m (_ | hP) hm hts
  · nofun
  · rintro _ ⟨⟩
    exact h hP hm hts

private theorem Ensures.after (h : Ensures L n P Q) (k : Kind) : Ensures L n (After k P) Q := by
  rintro _ _ m ⟨-, hP⟩ hm hts
  exact h hP hm (List.forall_mem_cons.1 hts).2

private theorem Ensures.between (h : Ensures L n P Q) (k k' : Kind) :
    Ensures L n (Between k k' P) Q := by
  rintro _ _ m ⟨-, hP, -⟩ hm hts
  rw [List.forall_mem_cons, List.forall_mem_append] at hts
  exact h hP hm hts.2.1

/-- A block holds statements with one level less. -/
private theorem Ensures.block {S : Phrase Stmt} {Q : Stmt → Prop}
    (h : ∀ m, m < n → Ensures L m S Q) : Ensures L n (IsBlock S) fun block => ∀ s ∈ block, Q s := by
  rintro _ _ _ @⟨_, _, m, hbetween⟩ hm hts
  exact ((h m hm).many.between _ _) hbetween (Nat.le_refl m) hts

end

end Phrase

open Phrase

variable {dialect : Dialect} {L : Literal → Prop} {n : Nat}

/-! ### Expressions -/

/-- A chain is composed of its operands, whatever the operators. -/
private theorem Phrase.Ensures.chain {op? : Kind → Option BinaryOp} {P : Phrase Expr}
    (h : Ensures L n P (Expr.Composed dialect L)) :
    Ensures L n (Chain op? P) (Expr.Composed dialect L) := by
  intro ts e m hchain hm hts
  induction hchain with
  | operand hP => exact h hP hm hts
  | binary _ _ hright ih =>
    rw [List.forall_mem_append, List.forall_mem_cons] at hts
    obtain ⟨hm, hm'⟩ := Nat.max_le.1 hm
    exact ⟨ih hm hts.1, h hright hm' hts.2.2⟩

/-- The literal of a factor is the value of its token, or is inside, with one level less. -/
private theorem IsFactor.ensures (n : Nat) :
    Ensures L n (IsFactor dialect) (Expr.Composed dialect L) := by
  induction n using Nat.strongRecOn with
  | ind n ih =>
    intro ts e m hfactor hm hts
    -- A factor of one token is over the value of the token.
    have hliteral {t : Token} {l : Literal} (hts : ∀ t' ∈ [t], t'.IsOver L)
        (hl : t.literal = some l) : L l := (hts t List.mem_cons_self).literal l hl
    cases hfactor with
    | identifier hkind => exact (hts _ List.mem_cons_self).isName hkind
    | int _ hvalue => exact hliteral hts hvalue
    | float _ hvalue => exact hliteral hts hvalue
    | char _ hvalue => exact hliteral hts hvalue
    | string _ hvalue => exact hliteral hts hvalue
    | @grouping _ _ k hbetween =>
      exact ((ih k hm).chain.chain.between _ _) hbetween (Nat.le_refl k) hts
    | @negation _ _ k hminus hafter =>
      exact ⟨hminus, ((ih k hm).after _) hafter (Nat.le_refl k) hts⟩

private theorem IsExpression.ensures (n : Nat) :
    Ensures L n (IsExpression dialect) (Expr.Composed dialect L) :=
  (IsFactor.ensures n).chain.chain

/-- Both sides of a condition are composed over the tokens on their side. -/
private theorem IsCondition.ensures (n : Nat) :
    Ensures L n (IsCondition dialect) (Condition.Composed dialect L) := by
  rintro _ _ m ⟨hleft, -, hright⟩ hm hts
  rw [List.forall_mem_append, List.forall_mem_cons] at hts
  obtain ⟨hm, hm'⟩ := Nat.max_le.1 hm
  exact ⟨IsExpression.ensures n hleft hm hts.1, IsExpression.ensures n hright hm' hts.2.2⟩

/-! ### Parts of statements -/

/-- The name of a declarator is that of a token, and so are the literals of its value. -/
private theorem IsDeclarator.ensures (n : Nat) :
    Ensures L n (IsDeclarator dialect) (Declarator.Composed dialect L) := by
  rintro _ _ m ⟨hname, hinitializer⟩ hm hts
  rw [List.forall_mem_cons] at hts
  exact ⟨hts.1.isName hname,
    ((IsExpression.ensures n).after _).optional hinitializer hm hts.2⟩

private theorem IsAssignment.ensures (n : Nat) :
    Ensures L n (IsAssignment dialect) (Assignment.Composed dialect L) := by
  rintro _ _ m ⟨htarget, -, hvalue⟩ hm hts
  rw [List.forall_mem_cons, List.forall_mem_cons] at hts
  exact ⟨hts.1.isName htarget, IsExpression.ensures n hvalue hm hts.2.2⟩

/-- A label is a name, or the value of its token. -/
private theorem IsCaseLabel.ensures (n : Nat) : Ensures L n IsCaseLabel (CaseLabel.Composed L) := by
  intro ts label m hlabel _ hts
  cases hlabel with
  | identifier hkind => exact (hts _ List.mem_cons_self).isName hkind
  | int _ hvalue | float _ hvalue | char _ hvalue =>
    exact (hts _ List.mem_cons_self).literal _ hvalue

/-! ### Statements and programs -/

section

variable (h : ∀ m, m < n → Ensures L m (IsStatement dialect) (Stmt.Composed dialect L))

include h

/-- A group has a label, as the grammar asks for one. -/
private theorem IsCaseGroup.ensures :
    Ensures L n (IsCaseGroup (IsStatement dialect)) fun group =>
      ∀ labels body, group = .mk labels body → labels ≠ [] ∧
        (∀ label ∈ labels, label.Composed L) ∧ ∀ s ∈ body, s.Composed dialect L := by
  rintro _ _ m ⟨hlabels, hne, hbody⟩ hm hts _ _ ⟨⟩
  rw [List.forall_mem_append] at hts
  obtain ⟨hm, hm'⟩ := Nat.max_le.1 hm
  exact ⟨hne, ((IsCaseLabel.ensures n).between _ _).many hlabels hm hts.1,
    Ensures.block h hbody hm' hts.2⟩

/-- The step of the induction: statements with `n` levels are composed if those with fewer are. -/
private theorem IsStatement.ensures_of_lt :
    Ensures L n (IsStatement dialect) (Stmt.Composed dialect L) := by
  intro ts s m hstatement hm hts
  -- The tokens of each part are among those of the statement, and so are the levels.
  have hblock := Ensures.block h
  have hassignment : Ensures L n (IsAssignment dialect) _ := IsAssignment.ensures n
  have hcondition : Ensures L n (IsCondition dialect) _ := IsCondition.ensures n
  cases hstatement with
  | declaration _ _ hfirst hmore _ =>
    simp only [List.forall_mem_cons, List.forall_mem_append] at hts
    obtain ⟨-, hts, hts', -⟩ := hts
    obtain ⟨hm, hm'⟩ := Nat.max_le.1 hm
    refine .declaration (List.cons_ne_nil _ _) (List.forall_mem_cons.2 ⟨?_, ?_⟩)
    · exact IsDeclarator.ensures n hfirst hm hts
    · exact ((IsDeclarator.ensures n).after _).many hmore hm' hts'
  | assignment ha _ =>
    rw [List.forall_mem_append] at hts
    exact .assignment (hassignment ha hm hts.1)
  | conditional _ hc hthen helse =>
    simp only [List.forall_mem_cons, List.forall_mem_append] at hts
    obtain ⟨-, hts, hts', hts''⟩ := hts
    simp only [Nat.max_le] at hm
    exact .conditional ((hcondition.between _ _) hc hm.1 hts) (hblock hthen hm.2.1 hts')
      ((hblock.after _).optional helse hm.2.2 hts'')
  | switch _ _ hname _ _ hcases hdefault _ =>
    simp only [List.forall_mem_cons, List.forall_mem_append] at hts
    obtain ⟨-, -, hname', -, -, hts, hts', -⟩ := hts
    obtain ⟨hm, hm'⟩ := Nat.max_le.1 hm
    have hgroups := (IsCaseGroup.ensures h).many hcases hm hts
    exact .switch (hname'.isName hname)
      (fun labels body hgroup => (hgroups _ hgroup labels body rfl).1)
      (fun labels body hgroup => (hgroups _ hgroup labels body rfl).2.1)
      (fun labels body hgroup => (hgroups _ hgroup labels body rfl).2.2)
      (((hblock.after _).after _).optional hdefault hm' hts')
  | whileLoop _ hc hbody =>
    simp only [List.forall_mem_cons, List.forall_mem_append] at hts
    obtain ⟨-, hts, hts'⟩ := hts
    obtain ⟨hm, hm'⟩ := Nat.max_le.1 hm
    exact .whileLoop ((hcondition.between _ _) hc hm hts) (hblock hbody hm' hts')
  | forLoop _ _ hinit _ hc _ hstep _ hbody =>
    simp only [List.forall_mem_cons, List.forall_mem_append] at hts
    obtain ⟨-, -, hts₁, -, hts₂, -, hts₃, -, hts₄⟩ := hts
    simp only [Nat.max_le] at hm
    exact .forLoop (hassignment hinit hm.1 hts₁) (hcondition hc hm.2.1 hts₂)
      (hassignment hstep hm.2.2.1 hts₃) (hblock hbody hm.2.2.2 hts₄)
  | leave => exact .leave

end

/-- Statements are composed over the literals of the tokens that derive them. -/
theorem IsStatement.ensures (n : Nat) :
    Ensures L n (IsStatement dialect) (Stmt.Composed dialect L) := by
  induction n using Nat.strongRecOn with
  | ind n ih => exact ensures_of_lt ih

/-- **Composition.** A program is composed over the literals of the tokens that derive it. -/
theorem IsProgram.composed {tokens : List Token} {program : Program}
    (h : IsProgram dialect tokens program n) (htokens : ∀ t ∈ tokens, t.IsOver L) :
    program.Composed dialect L :=
  (IsStatement.ensures n).many h (Nat.le_refl n) htokens

end MiniC
