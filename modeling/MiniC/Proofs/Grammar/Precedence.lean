import Mathlib.Data.List.Induction
import MiniC.Proofs.Grammar.Completeness

/-!
# Precedence and grouping

An expression is read from left to right, by two loops that go on with the tree they have
(`Parser.chain`). What they build can be told from the top, without a word about the order in which
the factors are read: the operator of the whole is the last one that adds or subtracts, or the last
one if none does, and what is on its two sides is grouped in the same way (`Expr.grouped`).

`Grammar.expression_eq_grouped` says that the two trees are one, for any number of operators in any
order. The tree told from the top derives from the tokens (`isExpression_grouped`), and the parser
follows every derivation.
-/

namespace MiniC

/-! ### Splitting a list at the last element of a sort -/

/-- The last element that passes a test, between what is before it and what is after it. -/
def splitAtLast? (test : α → Bool) : List α → Option (List α × α × List α)
  | [] => none
  | a :: as =>
    match splitAtLast? test as with
    | some (before, b, after) => some (a :: before, b, after)
    | none => if test a then some ([], a, as) else none

section

variable {test : α → Bool} {as before after : List α} {b : α}

/-- Nothing is split if nothing passes the test. -/
theorem splitAtLast?_eq_none_iff : splitAtLast? test as = none ↔ ∀ a ∈ as, test a = false := by
  induction as with
  | nil => simp [splitAtLast?]
  | cons a as ih =>
    rw [splitAtLast?, List.forall_mem_cons]
    cases hsplit : splitAtLast? test as with
    | some found =>
      refine iff_of_false nofun fun h => ?_
      rw [ih.2 h.2] at hsplit
      cases hsplit
    | none =>
      cases htest : test a
      · simpa using ih.1 hsplit
      · simp

theorem splitAtLast?_append (hb : test b = true) (hafter : ∀ a ∈ after, test a = false) :
    splitAtLast? test (before ++ b :: after) = some (before, b, after) := by
  induction before with
  | nil => rw [List.nil_append, splitAtLast?, splitAtLast?_eq_none_iff.2 hafter, if_pos hb]
  | cons a before ih => rw [List.cons_append, splitAtLast?, ih]

/-- The split is at the last element that passes the test. -/
theorem of_splitAtLast? (h : splitAtLast? test as = some (before, b, after)) :
    as = before ++ b :: after ∧ test b = true ∧ ∀ a ∈ after, test a = false := by
  induction as generalizing before with
  | nil => cases h
  | cons a as ih =>
    rw [splitAtLast?] at h
    split at h
    · rename_i hsplit
      cases h
      obtain ⟨rfl, hb, hafter⟩ := ih hsplit
      exact ⟨rfl, hb, hafter⟩
    · rename_i hsplit
      split at h <;> cases h
      rename_i ha
      exact ⟨rfl, ha, splitAtLast?_eq_none_iff.1 hsplit⟩

end

/-! ### The tree told from the top -/

/-- Whether an operator adds or subtracts. -/
def BinaryOp.isAdditive : BinaryOp → Bool
  | add | sub => true
  | mul | div => false

private theorem BinaryOp.additive?_of_ofKind? {k : Kind} {op : BinaryOp} (h : ofKind? k = some op)
    (hop : op.isAdditive = true) : additive? k = some op := by
  cases k <;> cases h <;> first | rfl | cases hop

private theorem BinaryOp.multiplicative?_of_ofKind? {k : Kind} {op : BinaryOp}
    (h : ofKind? k = some op) (hop : op.isAdditive = false) : multiplicative? k = some op := by
  cases k <;> cases h <;> first | rfl | cases hop

namespace Expr

/-- The operator of a whole expression, between what is before it and what is after it. An
expression is given by its first factor and its links, each of them an operator and the factor after
it. The operator is the last one that adds or subtracts, or else the last one. -/
def top? (links : List (BinaryOp × Expr)) :
    Option (List (BinaryOp × Expr) × (BinaryOp × Expr) × List (BinaryOp × Expr)) :=
  (splitAtLast? (fun l => l.1.isAdditive) links).or (splitAtLast? (fun _ => true) links)

/-- The top operator splits the links in two. -/
theorem eq_append_of_top? {links before after : List (BinaryOp × Expr)} {l : BinaryOp × Expr}
    (h : top? links = some (before, l, after)) : links = before ++ l :: after := by
  rcases Option.or_eq_some_iff.1 h with h | ⟨-, h⟩ <;> exact (of_splitAtLast? h).1

/-- The tree of an expression, **told from the top**. -/
def grouped (first : Expr) (links : List (BinaryOp × Expr)) : Expr :=
  match _h : top? links with
  | none => first
  | some (before, (op, next), after) => .binary op (grouped first before) (grouped next after)
termination_by links.length
decreasing_by
  all_goals
    rw [eq_append_of_top? _h]
    simp only [List.length_append, List.length_cons]
    omega

variable {first next : Expr} {links before after : List (BinaryOp × Expr)} {op : BinaryOp}

theorem grouped_nil : grouped first [] = first := by
  rw [grouped]
  rfl

/-- The top operator is the root, with what is before it on its left and the rest on its right. -/
theorem grouped_of_top? (h : top? links = some (before, (op, next), after)) :
    grouped first links = .binary op (grouped first before) (grouped next after) := by
  rw [grouped]
  split
  · rename_i heq
    cases h.symm.trans heq
  · rename_i heq
    cases h.symm.trans heq
    rfl

/-- Terms are added and subtracted after everything in them has been multiplied and divided. -/
private theorem grouped_additive (hop : op.isAdditive = true)
    (hafter : ∀ l ∈ after, l.1.isAdditive = false) :
    grouped first (before ++ (op, next) :: after)
      = .binary op (grouped first before) (grouped next after) := by
  refine grouped_of_top? ?_
  have hsplit : splitAtLast? (fun l : BinaryOp × Expr => l.1.isAdditive)
      (before ++ (op, next) :: after) = some (before, (op, next), after) :=
    splitAtLast?_append hop hafter
  rw [top?, hsplit, Option.some_or]

/-- Within a term, what is multiplied and divided last is on top. -/
private theorem grouped_multiplicative (hbefore : ∀ l ∈ before, l.1.isAdditive = false)
    (hop : op.isAdditive = false) :
    grouped first (before ++ [(op, next)]) = .binary op (grouped first before) next := by
  have hnone : splitAtLast? (fun l : BinaryOp × Expr => l.1.isAdditive)
      (before ++ [(op, next)]) = none := by
    refine splitAtLast?_eq_none_iff.2 fun l hl => ?_
    rcases List.mem_append.1 hl with hl | hl
    · exact hbefore l hl
    · rw [List.mem_singleton.1 hl]
      exact hop
  have hlast : splitAtLast? (fun _ : BinaryOp × Expr => true) (before ++ [(op, next)])
      = some (before, (op, next), []) := splitAtLast?_append rfl (by simp)
  rw [grouped_of_top? (by rw [top?, hnone, hlast, Option.none_or]), grouped_nil]

end Expr

/-! ### Derivations of the tree -/

/-- A **link** in tokens: an operator, and the tokens of the factor after it, with the tree of the
factor. -/
structure TokenLink where
  /-- The token of the operator. -/
  operator : Token
  /-- The operator. -/
  op : BinaryOp
  /-- The tokens of the factor. -/
  factor : List Token
  /-- The tree of the factor. -/
  tree : Expr
  ofKind?_operator : BinaryOp.ofKind? operator.kind = some op

namespace TokenLink

/-- All tokens of a link. -/
def tokens (l : TokenLink) : List Token := l.operator :: l.factor

/-- What the tree of a whole expression depends on. -/
def link (l : TokenLink) : BinaryOp × Expr := (l.op, l.tree)

end TokenLink

open Phrase

variable {dialect : Dialect} {room : Nat} {ts : List Token} {e : Expr} {links : List TokenLink}

/-- A phrase with no more levels than there is room for. -/
def Phrase.Within (room : Nat) (P : Phrase α) (ts : List Token) (a : α) : Prop :=
  ∃ n, n ≤ room ∧ P ts a n

/-- The room that both sides need is the room that the larger side needs. -/
private theorem Phrase.Within.chain_binary {op? : Kind → Option BinaryOp} {P : Phrase Expr}
    {ts' : List Token} {t : Token} {op : BinaryOp} {left right : Expr}
    (hleft : (Chain op? P).Within room ts left) (hop : op? t.kind = some op)
    (hright : P.Within room ts' right) :
    (Chain op? P).Within room (ts ++ t :: ts') (.binary op left right) := by
  obtain ⟨n, hn, hleft⟩ := hleft
  obtain ⟨m, hm, hright⟩ := hright
  exact ⟨max n m, Nat.max_le.2 ⟨hn, hm⟩, .binary hleft hop hright⟩

/-- Factors that are multiplied and divided are a term, by the tree told from the top. -/
theorem isTerm_grouped (hfirst : (IsFactor dialect).Within room ts e)
    (hlinks : ∀ l ∈ links, (IsFactor dialect).Within room l.factor l.tree)
    (hops : ∀ l ∈ links, l.op.isAdditive = false) :
    (IsTerm dialect).Within room (ts ++ links.flatMap TokenLink.tokens)
      (.grouped e (links.map TokenLink.link)) := by
  -- From the last factor on, as the last operator is on top.
  induction links using List.reverseRecOn with
  | nil =>
    obtain ⟨n, hn, hfirst⟩ := hfirst
    refine ⟨n, hn, ?_⟩
    rw [List.flatMap_nil, List.append_nil, List.map_nil, Expr.grouped_nil]
    exact .operand hfirst
  | append_singleton links l ih =>
    rw [List.forall_mem_append] at hlinks hops
    have hop := hops.2 l List.mem_cons_self
    have hbefore : ∀ l' ∈ links.map TokenLink.link, l'.1.isAdditive = false :=
      List.forall_mem_map.2 hops.1
    rw [List.flatMap_append, List.flatMap_singleton, ← List.append_assoc, List.map_append,
      List.map_singleton, TokenLink.link, Expr.grouped_multiplicative hbefore hop]
    exact (ih hlinks.1 hops.1).chain_binary
      (BinaryOp.multiplicative?_of_ofKind? l.ofKind?_operator hop) (hlinks.2 l List.mem_cons_self)

/-- Factors between operators are an expression, by the tree told from the top. -/
theorem isExpression_grouped (hfirst : (IsFactor dialect).Within room ts e)
    (hlinks : ∀ l ∈ links, (IsFactor dialect).Within room l.factor l.tree) :
    (IsExpression dialect).Within room (ts ++ links.flatMap TokenLink.tokens)
      (.grouped e (links.map TokenLink.link)) := by
  -- What is before the last additive operator is a shorter expression, and what is after it is a
  -- term.
  induction hlength : links.length using Nat.strongRecOn generalizing links with
  | ind length ih =>
    cases hsplit : splitAtLast? (fun l : TokenLink => l.op.isAdditive) links with
    | none =>
      obtain ⟨n, hn, hterm⟩ := isTerm_grouped hfirst hlinks (splitAtLast?_eq_none_iff.1 hsplit)
      exact ⟨n, hn, .operand hterm⟩
    | some found =>
      obtain ⟨before, l, after⟩ := found
      obtain ⟨rfl, hop, hafter⟩ := of_splitAtLast? hsplit
      rw [List.forall_mem_append, List.forall_mem_cons] at hlinks
      obtain ⟨hbefore, hl, hlinks⟩ := hlinks
      have hterm := isTerm_grouped hl hlinks hafter
      have hshorter : before.length < length := by
        rw [← hlength, List.length_append, List.length_cons]
        omega
      rw [List.flatMap_append, List.flatMap_cons, TokenLink.tokens, List.cons_append,
        ← List.append_assoc, List.map_append, List.map_cons, TokenLink.link,
        Expr.grouped_additive hop (List.forall_mem_map.2 hafter)]
      exact (ih _ hshorter hbefore rfl).chain_binary
        (BinaryOp.additive?_of_ofKind? l.ofKind?_operator hop) hterm

/-! ### Reading expressions -/

namespace Grammar

open MiniC.Parser

/-- That the parser for factors, with so many levels open, takes all of the given tokens and no
more, and answers the given tree. -/
def TakesFactor (g : Grammar) (depth : Nat) (ts : List Token) (e : Expr) : Prop :=
  ∃ c : Cursor, c.depth = depth ∧ g.factor (c.before ts) = .ok e c

/-- What is taken as a factor derives as one. -/
theorem TakesFactor.within {depth : Nat} (h : (ofDialect dialect).TakesFactor depth ts e) :
    (IsFactor dialect).Within (maxNesting - depth) ts e := by
  obtain ⟨c, rfl, hrun⟩ := h
  obtain ⟨ts', n, hfactor, hn, hbefore⟩ := (factorAt_reads dialect _ _).ok hrun
  have hrest := congrArg Cursor.rest hbefore
  cases List.append_cancel_right hrest
  exact ⟨n, hn, hfactor⟩

/-- **Precedence and grouping.** Where factors between operators are next, up to the end or a token
that is no operator, the parser for expressions takes them and no more, and answers the tree told
from the top. -/
theorem expression_eq_grouped {c : Cursor}
    (hfirst : (ofDialect dialect).TakesFactor c.depth ts e)
    (hlinks : ∀ l ∈ links, (ofDialect dialect).TakesFactor c.depth l.factor l.tree)
    (hend : BinaryOp.ofKind? c.kind = none) :
    (ofDialect dialect).expression (c.before (ts ++ links.flatMap TokenLink.tokens))
      = .ok (.grouped e (links.map TokenLink.link)) c := by
  obtain ⟨n, hn, hexpression⟩ :=
    isExpression_grouped hfirst.within fun l hl => (hlinks l hl).within
  have haccepts := Accepts.expression ((ofDialect dialect).factorAt_advances c.room)
    (factorAt_accepts dialect c.room)
  exact (haccepts hexpression hend).eq_ok hn

/-- The links of `a - (b) * 2 / -c + d`. -/
def differenceLinks : List TokenLink :=
  [⟨⟨.dash, "-", none, ⟨1, "shell"⟩⟩, .sub,
      [⟨.openParen, "(", none, ⟨1, "shell"⟩⟩, ⟨.identifier, "b", none, ⟨1, "shell"⟩⟩,
        ⟨.closeParen, ")", none, ⟨1, "shell"⟩⟩], .identifier "b", rfl⟩,
    ⟨⟨.star, "*", none, ⟨1, "shell"⟩⟩, .mul,
      [⟨.number, "2", some (.int 2), ⟨1, "shell"⟩⟩], .number (.int 2), rfl⟩,
    ⟨⟨.slash, "/", none, ⟨1, "shell"⟩⟩, .div,
      [⟨.dash, "-", none, ⟨1, "shell"⟩⟩, ⟨.identifier, "c", none, ⟨1, "shell"⟩⟩],
      .negate (.identifier "c"), rfl⟩,
    ⟨⟨.plus, "+", none, ⟨1, "shell"⟩⟩, .add,
      [⟨.identifier, "d", none, ⟨1, "shell"⟩⟩], .identifier "d", rfl⟩]

/-- The place after that expression, before a semicolon, with all levels open but one. -/
def afterDifference : Cursor := ⟨[⟨.semicolon, ";", none, ⟨1, "shell"⟩⟩], 255, ⟨1, "shell"⟩⟩

theorem expression_eq_grouped_difference :
    (ofDialect {}).expression (afterDifference.before
        ([⟨.identifier, "a", none, ⟨1, "shell"⟩⟩]
          ++ differenceLinks.flatMap TokenLink.tokens))
      = .ok (.binary .add
          (.binary .sub (.identifier "a")
            (.binary .div (.binary .mul (.identifier "b") (.number (.int 2)))
              (.negate (.identifier "c"))))
          (.identifier "d")) afterDifference := by
  have htakes {ts : List Token} {e : Expr}
      (h : (ofDialect {}).factor (afterDifference.before ts) = .ok e afterDifference) :
      (ofDialect {}).TakesFactor 255 ts e := ⟨afterDifference, rfl, h⟩
  have hfirst : (ofDialect {}).TakesFactor 255 [⟨.identifier, "a", none, ⟨1, "shell"⟩⟩]
      (.identifier "a") := htakes rfl
  have hlinks : ∀ l ∈ differenceLinks, (ofDialect {}).TakesFactor 255 l.factor l.tree := by
    simp only [differenceLinks, List.forall_mem_cons]
    exact ⟨htakes rfl, htakes rfl, htakes rfl, htakes rfl, List.forall_mem_nil _⟩
  have hgrouped : Expr.grouped (.identifier "a") (differenceLinks.map TokenLink.link)
      = .binary .add
          (.binary .sub (.identifier "a")
            (.binary .div (.binary .mul (.identifier "b") (.number (.int 2)))
              (.negate (.identifier "c"))))
          (.identifier "d") := by
    cbv
  rw [expression_eq_grouped hfirst hlinks rfl, hgrouped]

end Grammar

end MiniC
