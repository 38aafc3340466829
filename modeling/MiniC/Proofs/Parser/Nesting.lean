import MiniC.Proofs.Parser.Narrowing

/-!
# Levels that are open between two tokens

How many levels are open after some tokens can be told from the kinds of the tokens, without
parsing (`levelsAfter`). A stack of marks holds what has been opened and not closed yet. A brace
opens a block, unless it is the one of a switch; a parenthesis opens a group, unless it is the one
of a header; and a minus that comes after no operand stays open up to the end of its operand.

`Nesting.Blames` says which position is to be blamed for a level too many: that of the first token
with which more levels are open than may be. For a brace it is that of the token after it, as a
block takes its brace before it opens the level.
-/

namespace MiniC

namespace Nesting

/-! ### Marks -/

/-- A **mark** of what has been opened and not closed yet. -/
inductive Mark where
  /-- A block. -/
  | block
  /-- A factor in parentheses. -/
  | group
  /-- A prefix minus. -/
  | minus
  /-- A word that a header comes after. -/
  | word
  /-- A header. -/
  | header
  /-- A switch, up to its brace. -/
  | switch
  /-- The cases of a switch. -/
  | cases
  deriving DecidableEq

namespace Mark

/-- Whether a mark is that of a level. -/
def isLevel : Mark → Bool
  | block | group | minus => true
  | word | header | switch | cases => false

/-- The marks that are left where an operand ends. -/
def settle (marks : List Mark) : List Mark := marks.dropWhile (· = minus)

end Mark

end Nesting

/-- What is known between two tokens of the tokens before. -/
structure Nesting where
  /-- What has been opened and not closed, the last one first. -/
  marks : List Nesting.Mark
  /-- Whether an operand has just ended. -/
  afterOperand : Bool

namespace Nesting

/-- Before the first token. -/
def start : Nesting := ⟨[], false⟩

/-- The marks after a token of a kind. -/
def marksAfter (s : Nesting) : Kind → List Mark
  | .openParen =>
    if s.marks.head? = some .word then .header :: s.marks.tail else .group :: s.marks
  | .closeParen => Mark.settle s.marks.tail
  | .openCurly =>
    if s.marks.head? = some .switch then .cases :: s.marks.tail else .block :: s.marks
  | .closeCurly => s.marks.tail
  | .dash => if s.afterOperand then s.marks else .minus :: s.marks
  | .ifWord | .whileWord | .forWord => .word :: s.marks
  | .switchWord => .word :: .switch :: s.marks
  | .identifier | .number | .char | .string => Mark.settle s.marks
  | _ => s.marks

/-- What is known after a token of a kind. -/
def read (s : Nesting) (k : Kind) : Nesting := ⟨s.marksAfter k, k.endsOperand⟩

/-- What is known after tokens. -/
def readAll (s : Nesting) (ts : List Token) : Nesting := ts.foldl (fun s t => s.read t.kind) s

/-- The number of levels that are open. -/
def levels (s : Nesting) : Nat := s.marks.countP Mark.isLevel

end Nesting

/-- The number of **levels that are open** after tokens. -/
def levelsAfter (tokens : List Token) : Nat := (Nesting.start.readAll tokens).levels

example : (Nesting.levels <| [Kind.whileWord, .openParen, .dash, .openParen, .identifier, .dash,
    .dash].foldl Nesting.read .start) = 3 := by decide

namespace Nesting

/-! ### What tokens leave open -/

variable {s : Nesting} {marks : List Mark} {mark : Mark} {room : Nat} {k : Kind}
  {tokens : List Token} {endPosition position : Position}

/-- That the tokens leave no more levels open than may be, after each of them. -/
def Within (s : Nesting) : List Token → Prop
  | [] => True
  | t :: ts => (s.read t.kind).levels ≤ maxNesting ∧ Within (s.read t.kind) ts

/-- That a position is **blamed** for a level too many. There is a first token with which more
levels are open than may be. The position is that of the token, unless the token is a brace: then it
is that of the token after it, or of the end. -/
def Blames (s : Nesting) (tokens : List Token) (endPosition position : Position) : Prop :=
  ∃ before t after, tokens = before ++ t :: after ∧ s.Within before ∧
    (s.readAll before).levels = maxNesting ∧
    (s.readAll (before ++ [t])).levels = maxNesting + 1 ∧
    (t.kind = .openCurly ∧ position = (after.head?.map Token.position).getD endPosition ∨
      (t.kind = .openParen ∨ t.kind = .dash) ∧ position = t.position)

theorem readAll_append (s : Nesting) (ts ts' : List Token) :
    s.readAll (ts ++ ts') = (s.readAll ts).readAll ts' := List.foldl_append

/-- Levels are counted token by token, so a bound on both parts is one on the whole. -/
theorem Within.append {ts ts' : List Token} (h : s.Within ts) (h' : (s.readAll ts).Within ts') :
    s.Within (ts ++ ts') := by
  induction ts generalizing s with
  | nil => exact h'
  | cons t ts ih => exact ⟨h.1, ih h.2 h'⟩

/-- The bound holds after every beginning of the tokens. -/
theorem Within.levels_le (h : s.Within tokens) (hs : s.levels ≤ maxNesting) {ts : List Token}
    (hts : ts <+: tokens) : (s.readAll ts).levels ≤ maxNesting := by
  induction ts generalizing s tokens with
  | nil => exact hs
  | cons t ts ih =>
    obtain ⟨rest, rfl⟩ := hts
    exact ih h.2 h.1 (List.prefix_append ts rest)

/-- What is blamed after tokens is blamed with them. -/
theorem Blames.append {ts : List Token} (hwithin : s.Within ts)
    (h : (s.readAll ts).Blames tokens endPosition position) :
    s.Blames (ts ++ tokens) endPosition position := by
  obtain ⟨before, t, after, rfl, hbefore, hfull, hover, hposition⟩ := h
  refine ⟨ts ++ before, t, after, (List.append_assoc ..).symm, hwithin.append hbefore, ?_, ?_,
    hposition⟩
  · rwa [readAll_append]
  · rwa [List.append_assoc, readAll_append]

/-! ### Marks that are settled -/

/-- That marks are **settled**: neither an operand nor a header nor a brace is owed. -/
def IsSettled (marks : List Mark) : Prop :=
  ∀ mark ∈ marks.head?, mark ≠ .minus ∧ mark ≠ .word ∧ mark ≠ .switch

theorem isSettled_nil : IsSettled [] := nofun

theorem isSettled_cons (mark : Mark) (h : mark ≠ .minus ∧ mark ≠ .word ∧ mark ≠ .switch)
    (marks : List Mark) : IsSettled (mark :: marks) := by
  rintro _ ⟨⟩
  exact h

/-- No header is owed, so a parenthesis would open a group. -/
theorem IsSettled.head?_ne (h : IsSettled marks) : marks.head? ≠ some .word :=
  fun hword => (h .word hword).2.1 rfl

/-- No operand is owed, so the end of one leaves the marks as they are. -/
theorem IsSettled.settle (h : IsSettled marks) : Mark.settle marks = marks := by
  cases marks with
  | nil => rfl
  | cons mark marks => exact List.dropWhile_cons_of_neg (by simpa using (h mark rfl).1)

theorem IsSettled.read_identifier (h : IsSettled marks) (after : Bool) :
    read ⟨marks, after⟩ .identifier = ⟨marks, true⟩ := congrArg (Nesting.mk · true) h.settle

/-- The end of a header. -/
theorem IsSettled.read_closeParen (h : IsSettled marks) (after : Bool) :
    read ⟨.header :: marks, after⟩ .closeParen = ⟨marks, true⟩ :=
  congrArg (Nesting.mk · true) h.settle

/-- The start of a block. -/
theorem IsSettled.read_openCurly (h : IsSettled marks) (after : Bool) :
    read ⟨marks, after⟩ .openCurly = ⟨.block :: marks, false⟩ :=
  congrArg (Nesting.mk · false) (if_neg fun hswitch => (h .switch hswitch).2.2 rfl)

/-- The start of a group. -/
theorem read_openParen (h : marks.head? ≠ some .word) (after : Bool) :
    read ⟨marks, after⟩ .openParen = ⟨.group :: marks, false⟩ :=
  congrArg (Nesting.mk · false) (if_neg h)

/-! ### Operands and operators -/

/-- Whatever token stands for an operand by itself leaves the same marks. -/
theorem read_operand (h : k ∈ Kind.identifier :: Kind.literals) (s : Nesting) :
    s.read k = s.read .identifier := by
  simp only [Kind.literals, List.mem_cons, List.not_mem_nil, or_false] at h
  rcases h with rfl | rfl | rfl | rfl <;> rfl

/-- After an operand, a dash is an operator and leaves no mark. -/
theorem read_of_additive? {k : Kind} {op : BinaryOp} (h : BinaryOp.additive? k = some op) :
    read ⟨marks, true⟩ k = ⟨marks, false⟩ := by
  cases k <;> first | rfl | cases h

theorem read_of_multiplicative? {k : Kind} {op : BinaryOp}
    (h : BinaryOp.multiplicative? k = some op) : read ⟨marks, true⟩ k = ⟨marks, false⟩ := by
  cases k <;> first | rfl | cases h

theorem read_of_relOp {k : Kind} {op : RelOp} (h : RelOp.ofKind? k = some op) :
    read ⟨marks, true⟩ k = ⟨marks, false⟩ := by
  cases k <;> first | rfl | cases h

theorem read_of_assignOp {k : Kind} {op : AssignOp} (h : AssignOp.ofKind? k = some op) :
    read ⟨marks, true⟩ k = ⟨marks, false⟩ := by
  cases k <;> first | rfl | cases h

/-! ### Room -/

/-- That marks **leave** room for the given number of levels. -/
def Leaves (marks : List Mark) (room : Nat) : Prop :=
  marks.countP Mark.isLevel + room = maxNesting

theorem Leaves.levels_le (h : Leaves marks room) (after : Bool) :
    levels ⟨marks, after⟩ ≤ maxNesting := Nat.le.intro h

/-- The end of an operand only closes levels. -/
theorem Leaves.settle_levels_le (h : Leaves marks room) (after : Bool) :
    levels ⟨Mark.settle marks, after⟩ ≤ maxNesting :=
  Nat.le_trans (List.dropWhile_sublist _).countP_le (h.levels_le after)

/-- A mark that is no level takes no room. -/
theorem Leaves.cons (h : Leaves marks room) (hmark : mark.isLevel = false) :
    Leaves (mark :: marks) room := by
  rwa [Leaves, List.countP_cons_of_neg (by simp [hmark])]

/-- A level takes the room of one. -/
theorem Leaves.level (h : Leaves marks (room + 1)) (hmark : mark.isLevel = true) :
    Leaves (mark :: marks) room := by
  rw [Leaves, List.countP_cons_of_pos hmark, Nat.add_right_comm]
  exact h

/-- Where no room is left, as many levels are open as may be. -/
theorem Leaves.levels_eq (h : Leaves marks 0) (after : Bool) :
    levels ⟨marks, after⟩ = maxNesting := h

/-- Where no room is left, the next level is one too many. -/
theorem Leaves.levels_cons (h : Leaves marks 0) (hmark : mark.isLevel = true) (after : Bool) :
    levels ⟨mark :: marks, after⟩ = maxNesting + 1 := by
  rw [levels, List.countP_cons_of_pos hmark]
  exact congrArg (· + 1) h

end Nesting

end MiniC
