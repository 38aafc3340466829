import MiniC.Proofs.Grammar.Derivation
import MiniC.Proofs.Syntax.Depth

/-!
# The depth of derived trees

A tree is no deeper than its derivation has levels, if neither a minus nor a block weighs more than
one (`IsProgram.depth_le`). For every minus and every block of the tree is a level of its tokens,
and levels that are open at once are what lies on a path. The bound holds with any factor, so that a
dialect without a minus, where only the weight of blocks counts, has trees of depth zero if blocks
weigh nothing.

Levels hold phrases of the sort they are part of, so the induction is on the number of levels.
-/

namespace MiniC

namespace Phrase

/-- The trees of phrases with at most `n` levels **satisfy** a property. -/
def Satisfies (n : Nat) (P : Phrase α) (Q : α → Prop) : Prop :=
  ∀ ⦃ts a m⦄, P ts a m → m ≤ n → Q a

section

variable {α : Type} {n : Nat} {P : Phrase α} {Q : α → Prop}

/-- The levels of repeated phrases bound those of each of them. -/
private theorem Satisfies.many (h : Satisfies n P Q) :
    Satisfies n (Many P) fun as => ∀ a ∈ as, Q a := by
  intro ts as m hmany hm
  induction hmany with
  | nil => nofun
  | cons hP _ ih =>
    obtain ⟨hm, hm'⟩ := Nat.max_le.1 hm
    exact List.forall_mem_cons.2 ⟨h hP hm, ih hm'⟩

private theorem Satisfies.optional (h : Satisfies n P Q) :
    Satisfies n (Optional P) fun o => ∀ a ∈ o, Q a := by
  rintro _ _ m (_ | hP) hm
  · nofun
  · rintro _ ⟨⟩
    exact h hP hm

private theorem Satisfies.after (h : Satisfies n P Q) (k : Kind) : Satisfies n (After k P) Q := by
  rintro _ _ m ⟨-, hP⟩ hm
  exact h hP hm

private theorem Satisfies.between (h : Satisfies n P Q) (k k' : Kind) :
    Satisfies n (Between k k' P) Q := by
  rintro _ _ m ⟨-, hP, -⟩ hm
  exact h hP hm

end

end Phrase

open Phrase

variable {dialect : Dialect} {w : Weights} {k n : Nat}

/-! ### Expressions -/

/-- A chain is as deep as its deepest operand: operators weigh nothing. -/
private theorem Phrase.Satisfies.chain {op? : Kind → Option BinaryOp} {P : Phrase Expr}
    (h : Satisfies n P (·.depth w ≤ k)) : Satisfies n (Chain op? P) (·.depth w ≤ k) := by
  intro ts e m hchain hm
  induction hchain with
  | operand hP => exact h hP hm
  | binary _ _ hright ih =>
    obtain ⟨hm, hm'⟩ := Nat.max_le.1 hm
    exact Nat.max_le.2 ⟨ih hm, h hright hm'⟩

section

variable (hminus : dialect.unaryMinus = true → w.minus ≤ k)

include hminus

/-- A minus is a level that may weigh `k`, and parentheses are a level that weighs nothing. -/
private theorem IsFactor.depth_le (n : Nat) :
    Satisfies n (IsFactor dialect) (·.depth w ≤ k * n) := by
  induction n using Nat.strongRecOn with
  | ind n ih =>
    intro ts e m hfactor hm
    cases hfactor with
    | identifier | int | float | char | string => exact Nat.zero_le _
    | @grouping _ _ m hbetween =>
      have hinside := ((ih m hm).chain.chain.between _ _) hbetween (Nat.le_refl m)
      exact Nat.le_trans hinside (Nat.mul_le_mul_left k (Nat.le_of_succ_le hm))
    | @negation _ operand m hdialect hafter =>
      have hinside := ((ih m hm).after _) hafter (Nat.le_refl m)
      calc operand.depth w + w.minus
        _ ≤ k * m + k := Nat.add_le_add hinside (hminus hdialect)
        _ ≤ k * n := Nat.mul_le_mul_left k hm

private theorem IsExpression.depth_le (n : Nat) :
    Satisfies n (IsExpression dialect) (·.depth w ≤ k * n) :=
  (IsFactor.depth_le hminus n).chain.chain

/-- A condition is as deep as the deeper one of its sides. -/
private theorem IsCondition.depth_le (n : Nat) :
    Satisfies n (IsCondition dialect) (·.depth w ≤ k * n) := by
  rintro _ _ m ⟨hleft, -, hright⟩ hm
  have hexpression := IsExpression.depth_le hminus n
  obtain ⟨hm, hm'⟩ := Nat.max_le.1 hm
  exact Nat.max_le.2 ⟨hexpression hleft hm, hexpression hright hm'⟩

/-! ### Parts of statements -/

/-- A declarator is as deep as its initializer, if it has one. -/
private theorem IsDeclarator.depth_le (n : Nat) :
    Satisfies n (IsDeclarator dialect) (·.depth w ≤ k * n) := by
  rintro _ _ m ⟨-, hinitializer⟩ hm
  have hvalue := ((IsExpression.depth_le hminus n).after _).optional hinitializer hm
  rw [Declarator.depth]
  split
  · exact hvalue _ ‹_›
  · exact Nat.zero_le _

private theorem IsAssignment.depth_le (n : Nat) :
    Satisfies n (IsAssignment dialect) (·.depth w ≤ k * n) := by
  rintro _ _ m ⟨-, -, hvalue⟩ hm
  exact IsExpression.depth_le hminus n hvalue hm

/-! ### Statements and programs -/

section

variable (hblock : w.block ≤ k)
  (h : ∀ m, m < n → Satisfies m (IsStatement dialect) (·.depth w ≤ k * m))

include hblock h

omit hminus in
/-- A block holds statements with one level less. -/
private theorem IsBlock.depth_le :
    Satisfies n (IsBlock (IsStatement dialect)) (Stmt.depthIn w · + w.block ≤ k * n) := by
  rintro _ block _ @⟨_, _, m, hbetween⟩ hm
  have hstatements := ((h m hm).many.between _ _) hbetween (Nat.le_refl m)
  calc Stmt.depthIn w block + w.block
    _ ≤ k * m + k := Nat.add_le_add (Stmt.depthIn_le_iff.2 hstatements) hblock
    _ ≤ k * n := Nat.mul_le_mul_left k hm

omit hminus in
/-- A group is as deep as its block: labels weigh nothing. -/
private theorem IsCaseGroup.depth_le :
    Satisfies n (IsCaseGroup (IsStatement dialect)) (·.depth w ≤ k * n) := by
  rintro _ _ m ⟨-, -, hbody⟩ hm
  exact IsBlock.depth_le hblock h hbody (Nat.max_le.1 hm).2

/-- The step of the induction: the bound holds with `n` levels if it does with fewer. -/
private theorem IsStatement.depth_le_of_lt :
    Satisfies n (IsStatement dialect) (·.depth w ≤ k * n) := by
  intro ts s m hstatement hm
  have hbody : Satisfies n (IsBlock (IsStatement dialect)) _ := IsBlock.depth_le hblock h
  have hcondition : Satisfies n (IsCondition dialect) _ := IsCondition.depth_le hminus n
  have hassignment : Satisfies n (IsAssignment dialect) _ := IsAssignment.depth_le hminus n
  have hdeclarator : Satisfies n (IsDeclarator dialect) _ := IsDeclarator.depth_le hminus n
  cases hstatement with
  | declaration _ _ hfirst hmore _ =>
    obtain ⟨hm, hm'⟩ := Nat.max_le.1 hm
    exact Declarator.depthIn_le_iff.2 <| List.forall_mem_cons.2
      ⟨hdeclarator hfirst hm, (hdeclarator.after _).many hmore hm'⟩
  | assignment ha _ => exact hassignment ha hm
  | conditional _ hc hthen helse =>
    simp only [Nat.max_le] at hm
    refine Nat.max_le.2 ⟨(hcondition.between _ _) hc hm.1, Nat.max_le.2 ⟨hbody hthen hm.2.1, ?_⟩⟩
    exact Stmt.depthInOption_le_iff.2 ((hbody.after _).optional helse hm.2.2)
  | switch _ _ _ _ _ hcases hdefault _ =>
    obtain ⟨hm, hm'⟩ := Nat.max_le.1 hm
    refine Nat.max_le.2 ⟨CaseGroup.depthIn_le_iff.2 ?_, Stmt.depthInOption_le_iff.2 ?_⟩
    · exact (IsCaseGroup.depth_le hblock h).many hcases hm
    · exact ((hbody.after _).after _).optional hdefault hm'
  | whileLoop _ hc hblock =>
    obtain ⟨hm, hm'⟩ := Nat.max_le.1 hm
    exact Nat.max_le.2 ⟨(hcondition.between _ _) hc hm, hbody hblock hm'⟩
  | forLoop _ _ hinit _ hc _ hstep _ hblock =>
    simp only [Nat.max_le] at hm
    exact Nat.max_le.2 ⟨hassignment hinit hm.1, Nat.max_le.2 ⟨hcondition hc hm.2.1,
      Nat.max_le.2 ⟨hassignment hstep hm.2.2.1, hbody hblock hm.2.2.2⟩⟩⟩
  | leave => exact Nat.zero_le _

end

/-- The tree of a statement with at most `n` levels is no deeper than `k * n`. -/
theorem IsStatement.depth_le (hblock : w.block ≤ k) (n : Nat) :
    Satisfies n (IsStatement dialect) (·.depth w ≤ k * n) := by
  induction n using Nat.strongRecOn with
  | ind n ih => exact depth_le_of_lt hminus hblock ih

/-- **Depth.** The tree of a program with `n` levels is no deeper than `k * n`, if no node that the
dialect has weighs more than `k`. -/
theorem IsProgram.depth_le (hblock : w.block ≤ k) {tokens : List Token} {program : Program}
    (h : IsProgram dialect tokens program n) : program.depth w ≤ k * n :=
  Stmt.depthIn_le_iff.2 ((IsStatement.depth_le hminus hblock n).many h (Nat.le_refl n))

end

end MiniC
