import MiniC.Proofs.Parser.Nesting

/-!
# Parsers that keep track of levels

A parser is **tracked** (`Parser.Tracks`) from one stack of marks on if what it reads leads to
another one, without more levels on the way than may be open, and if it objects to a level too many
only where that is to be blamed (`Nesting.Blames`). Where a parser leads to is part of the relation:
an operand ends the minuses before it, and most other parts lead back to the marks that they start
from.

There is a lemma for each way of putting parsers together. A token is taken with the marks that it
leaves; for a parser that finds no room for a level, the token that opens the level is the next one,
or the brace that has just been taken (`Tracks.block_none`).
-/

namespace MiniC

/-- A label is an identifier or a literal. -/
private theorem Token.kind_mem_of_caseLabel? {t : Token} {label : CaseLabel}
    (h : t.caseLabel? = some label) : t.kind ∈ Kind.identifier :: Kind.literals := by
  unfold caseLabel? at h
  split at h
  case h_5 => cases h
  all_goals
    rw [‹t.kind = _›]
    decide

namespace Parser

/-! ### Tracked parsers -/

/-- The outcomes of a parser that is **tracked** from one stack of marks on. -/
inductive Tracked (s : Nesting) (c : Cursor) (Ends : Nesting → Prop) :
    EStateM.Result Diagnostic Cursor α → Prop
  | ok {a : α} {c₁ : Cursor} (read : List Token) : c.rest = read ++ c₁.rest →
      c₁.endPosition = c.endPosition → s.Within read → Ends (s.readAll read) →
      Tracked s c Ends (.ok a c₁)
  | error {d : Diagnostic} {c₁ : Cursor} :
      (∀ limit, d.fault = .nestingTooDeep limit → s.Blames c.rest c.endPosition d.position) →
      Tracked s c Ends (.error d c₁)

/-- A parser that is **tracked** before tokens of a kind. -/
def TracksFor (s : Nesting) (k : Kind) (Ends : Nesting → Prop) (p : Parser α) : Prop :=
  ∀ c : Cursor, c.kind = k → Tracked s c Ends (p c)

/-- A parser that is **tracked** before whatever tokens. -/
def Tracks (s : Nesting) (Ends : Nesting → Prop) (p : Parser α) : Prop :=
  ∀ c : Cursor, Tracked s c Ends (p c)

variable {α β : Type} {s s₁ : Nesting} {Ends Ends₁ : Nesting → Prop} {k : Kind} {p : Parser α}
  {f : α → Parser β}

/-- What is tracked after tokens is tracked with them. -/
theorem Tracked.append {c c₁ : Cursor} (read : List Token)
    {r : EStateM.Result Diagnostic Cursor α}
    (hrest : c.rest = read ++ c₁.rest) (hend : c₁.endPosition = c.endPosition)
    (hread : s.Within read) (h : Tracked (s.readAll read) c₁ Ends r) : Tracked s c Ends r := by
  cases h with
  | ok read₂ hrest₂ hend₂ hread₂ hends =>
    refine .ok (read ++ read₂) ?_ (hend₂.trans hend) (hread.append hread₂) ?_
    · rw [hrest, hrest₂, List.append_assoc]
    · rwa [Nesting.readAll_append]
  | error h =>
    refine .error fun limit hfault => ?_
    rw [hrest, ← hend]
    exact (h limit hfault).append hread

/-- The depth of the cursor does not matter. -/
private theorem Tracked.of_depth {c : Cursor} {depth : Nat} {r : EStateM.Result Diagnostic Cursor α}
    (h : Tracked s { c with depth := depth } Ends r) : Tracked s c Ends r := by
  cases h with
  | ok read hrest hend hread hends => exact .ok read hrest hend hread hends
  | error h => exact .error h

/-- Other faults blame nothing. -/
theorem Tracked.of_fault {c c₁ : Cursor} {d : Diagnostic}
    (h : ∀ limit, d.fault ≠ .nestingTooDeep limit) :
    Tracked s c Ends (.error d c₁ : EStateM.Result Diagnostic Cursor α) :=
  .error fun limit hfault => absurd hfault (h limit)

theorem Tracks.for (h : Tracks s Ends p) (k : Kind) : TracksFor s k Ends p := fun c _ => h c

/-! ### One token -/

theorem Tracks.pure (h : Ends s) (a : α) : Tracks s Ends (pure a : Parser α) :=
  fun _ => .ok [] rfl rfl trivial h

theorem Tracks.unexpected : Tracks s Ends (fail Cursor.unexpected : Parser α) := by
  refine fun c => .of_fault fun limit => ?_
  rcases c.end_or_before with hc | ⟨t, _, rfl⟩
  · rw [unexpected_of_end hc]
    nofun
  · nofun

theorem Tracks.unexpectedBecause (message : String) :
    Tracks s Ends (fail (Cursor.unexpectedBecause message) : Parser α) := by
  refine fun c => .of_fault fun limit => ?_
  rcases c.end_or_before with hc | ⟨t, _, rfl⟩
  · rw [unexpectedBecause_of_end message hc]
    nofun
  · nofun

/-- A fault that is not about levels blames no position for one. -/
theorem Tracks.throw {fault : Fault} (h : ∀ limit, fault ≠ .nestingTooDeep limit)
    (position : Position) : Tracks s Ends (throw ⟨fault, position⟩ : Parser α) :=
  fun _ => .of_fault h

/-- Nothing is left to be read. -/
theorem Tracks.done (a : α) : Tracks s (· = s) (Pure.pure a : Parser α) :=
  fun _ => .ok [] rfl rfl trivial rfl

theorem Tracks.kept {marks : List Nesting.Mark} {after : Bool} (a : α) :
    Tracks ⟨marks, after⟩ (·.marks = marks) (Pure.pure a : Parser α) :=
  fun _ => .ok [] rfl rfl trivial rfl

/-- The kind of the next token chooses the parser. -/
theorem Tracks.kind_bind {f : Kind → Parser α} (h : ∀ k, TracksFor s k Ends (f k)) :
    Tracks s Ends (kind >>= f) := by
  intro c
  rw [bind_of_ok (kind_apply c)]
  exact h c.kind c rfl

/-- The next token is taken, and what comes after it goes on with the marks that it leaves. -/
theorem TracksFor.advance_bind {f : Token → Parser β} (hle : s₁.levels ≤ maxNesting)
    (hs : s.read k = s₁) (h : ∀ t, Tracks s₁ Ends (f t)) :
    TracksFor s k Ends (advance >>= f) := by
  intro c hkind
  rcases c.end_or_before with hc | ⟨t, c, rfl⟩
  · rw [bind_of_error (advance_of_end hc)]
    exact .of_fault nofun
  · rw [Cursor.kind_before] at hkind
    subst hkind hs
    rw [bind_of_ok (advance_before t c)]
    exact .append [t] rfl rfl ⟨hle, trivial⟩ (h t c)

/-- A token of a kind is taken, or there is an objection to the next token. -/
private theorem Tracks.take_bind {d : Cursor → Diagnostic} {f : Token → Parser β}
    (hle : s₁.levels ≤ maxNesting) (hs : s.read k = s₁) (h : ∀ t, Tracks s₁ Ends (f t))
    (hfail : Tracks s Ends (fail d : Parser β)) :
    Tracks s Ends ((kind >>= fun k' => if k' = k then advance else fail d) >>= f) := by
  rw [bind_assoc]
  refine .kind_bind fun k' => ?_
  split
  · rename_i heq
    subst heq
    exact .advance_bind hle hs h
  · exact hfail.for k'

theorem Tracks.expect_bind {f : Token → Parser β} (hle : s₁.levels ≤ maxNesting)
    (hs : s.read k = s₁) (h : ∀ t, Tracks s₁ Ends (f t)) :
    Tracks s Ends (expect k >>= f) := .take_bind hle hs h .unexpected

theorem Tracks.expectFor_bind {message : String} {f : Token → Parser β}
    (hle : s₁.levels ≤ maxNesting) (hs : s.read k = s₁) (h : ∀ t, Tracks s₁ Ends (f t)) :
    Tracks s Ends (expectFor message k >>= f) := .take_bind hle hs h (.unexpectedBecause message)

/-- A case label is an operand. -/
theorem Tracks.caseLabel_bind {f : CaseLabel → Parser β} (hle : s₁.levels ≤ maxNesting)
    (hs : s.read .identifier = s₁) (h : ∀ label, Tracks s₁ Ends (f label)) :
    Tracks s Ends (caseLabel >>= f) := by
  intro c
  rcases caseLabel_cases c with ⟨t, c, label, rfl, hlabel, hrun⟩ | ⟨-, hrun⟩
  · have hread : s.read t.kind = s₁ :=
      (s.read_operand (Token.kind_mem_of_caseLabel? hlabel)).trans hs
    subst hread
    rw [bind_of_ok hrun]
    exact .append [t] rfl rfl ⟨hle, trivial⟩ (h label c)
  · rw [bind_of_error hrun]
    exact Tracks.unexpectedBecause (α := β) _ c

/-! ### Sequences -/

/-- A sequence is tracked from where its first part ends. -/
theorem Tracked.bind {c : Cursor} (h : Tracked s c Ends₁ (p c))
    (hf : ∀ a s₁, Ends₁ s₁ → Tracks s₁ Ends (f a)) : Tracked s c Ends ((p >>= f) c) := by
  generalize hr : p c = r at h
  cases h with
  | ok read hrest hend hread hends =>
    rw [bind_of_ok hr]
    exact .append read hrest hend hread (hf _ _ hends _)
  | error hblames =>
    rw [bind_of_error hr]
    exact .error hblames

theorem Tracks.bind (hp : Tracks s Ends₁ p) (hf : ∀ a s₁, Ends₁ s₁ → Tracks s₁ Ends (f a)) :
    Tracks s Ends (p >>= f) := fun c => (hp c).bind hf

/-- What leads to one stack of marks, and what comes after it. -/
theorem Tracks.part_bind (hp : Tracks s (· = s₁) p) (hf : ∀ a, Tracks s₁ Ends (f a)) :
    Tracks s Ends (p >>= f) := by
  refine hp.bind fun a s₂ hends => ?_
  subst hends
  exact hf a

theorem Tracks.weaken (hp : Tracks s Ends₁ p) (h : ∀ s₁, Ends₁ s₁ → Ends s₁) :
    Tracks s Ends p := by
  rw [← bind_pure p]
  exact hp.bind fun a s₁ hends => .pure (h s₁ hends) a

/-- What leads back to some marks, and what comes after it. -/
theorem Tracks.keep_bind {marks : List Nesting.Mark} (hp : Tracks s (·.marks = marks) p)
    (hf : ∀ a after, Tracks ⟨marks, after⟩ Ends (f a)) : Tracks s Ends (p >>= f) := by
  refine hp.bind fun a s₁ hmarks => ?_
  subst hmarks
  exact hf a s₁.afterOperand

/-! ### Optional parts, repetition and levels -/

/-- An optional part leaves the marks as they are, so it does not matter if it is there. -/
theorem Tracks.optionalAfter {marks : List Nesting.Mark} {after : Bool}
    (hle : Nesting.levels ⟨marks, false⟩ ≤ maxNesting)
    (hs : Nesting.read ⟨marks, after⟩ k = ⟨marks, false⟩)
    (hp : Tracks ⟨marks, false⟩ (·.marks = marks) p) :
    Tracks ⟨marks, after⟩ (·.marks = marks) (optionalAfter k p) := by
  refine .kind_bind fun k' => ?_
  split
  · rename_i heq
    subst heq
    refine .advance_bind hle hs fun _ => ?_
    rw [map_eq_pure_bind]
    exact hp.keep_bind fun a _ => .kept (some a)
  · exact (Tracks.kept none).for k'

/-- A loop leads back to some marks if each turn of it does. -/
theorem Tracks.manyWhile {marks : List Nesting.Mark} {test : Cursor → Bool}
    (h : ∀ after (c : Cursor), test c = true →
      Tracked ⟨marks, after⟩ c (·.marks = marks) (p c)) (after : Bool) :
    Tracks ⟨marks, after⟩ (·.marks = marks) (manyWhile test p) := by
  have hmany (bound : Nat) (after : Bool) :
      Tracks ⟨marks, after⟩ (·.marks = marks) (manyAtMost test p bound) := by
    induction bound generalizing after with
    | zero => exact .kept []
    | succ bound ih =>
      intro c
      rw [manyAtMost_succ]
      split
      · rename_i htest
        refine (h after c htest).bind fun a s hs => ?_
        subst hs
        exact (ih s.afterOperand).keep_bind fun rest after => .kept (a :: rest)
      · exact .ok [] rfl rfl trivial rfl
  exact fun c => hmany _ after c

/-- A loop that is told to go on by the kind of the next token. -/
theorem Tracks.manyWhile_kind {marks : List Nesting.Mark} {test : Kind → Bool}
    (h : ∀ after k, test k = true → TracksFor ⟨marks, after⟩ k (·.marks = marks) p)
    (after : Bool) :
    Tracks ⟨marks, after⟩ (·.marks = marks) (Parser.manyWhile (fun c => test c.kind) p) :=
  .manyWhile (fun after c htest => h after c.kind htest c rfl) after

theorem TracksFor.opened (h : TracksFor s k Ends p) : TracksFor s k Ends (opened p) := by
  intro c hkind
  have hinside := h { c with depth := c.depth + 1 } hkind
  rw [opened_apply]
  exact .of_depth <| hinside.bind fun a s₁ hends c => .ok [] rfl rfl trivial hends

theorem Tracks.opened (h : Tracks s Ends p) : Tracks s Ends (opened p) :=
  fun c => (h.for c.kind).opened c rfl

/-- Where no level is left the failure is tracked, and where one is, what is inside it. -/
theorem TracksFor.deeper {room : Nat} {level : Nat → Parser α} {body : Parser α → Parser β}
    (hfull : room = 0 → TracksFor s k Ends (fail Cursor.tooDeep : Parser β))
    (h : ∀ r, room = r + 1 → TracksFor s k Ends (body (level r))) :
    TracksFor s k Ends (deeper (below level room) body) := by
  cases room with
  | zero => exact hfull rfl
  | succ r => exact (h r rfl).opened

/-- A level too many is blamed on the token that would open it. -/
theorem TracksFor.tooDeep (hk : k = .openParen ∨ k = .dash) (hlevels : s.levels = maxNesting)
    (hs : (s.read k).levels = maxNesting + 1) :
    TracksFor s k Ends (fail Cursor.tooDeep : Parser α) := by
  intro c hkind
  have hne : k ≠ .endOfInput := by rcases hk with rfl | rfl <;> nofun
  obtain ⟨t, c, rfl, rfl⟩ := Cursor.exists_before hkind hne
  exact .error fun limit _ => ⟨[], t, c.rest, rfl, trivial, hlevels, hs, .inr ⟨hk, rfl⟩⟩

/-- A block without room takes its brace before there is a level too many. -/
theorem Tracks.block_none (hlevels : s.levels = maxNesting)
    (hs : (s.read .openCurly).levels = maxNesting + 1) : Tracks s Ends (block none) := by
  intro c
  by_cases hk : c.kind = .openCurly
  · obtain ⟨t, c, rfl, ht⟩ := Cursor.exists_before hk nofun
    rw [block, bind_of_ok (expect_of_eq ht c)]
    have hposition : c.position = (c.rest.head?.map Token.position).getD c.endPosition := by
      rcases c.end_or_before with hc | ⟨t, c, rfl⟩
      · rw [Cursor.position_of_end hc, hc]
        rfl
      · rfl
    refine .error fun limit _ => ⟨[], t, c.rest, rfl, trivial, hlevels, ?_, .inl ⟨ht, hposition⟩⟩
    rw [← hs, ← ht]
    rfl
  · rw [block, bind_of_error (expect_of_ne hk)]
    exact Tracks.unexpected c

/-! ### Chains -/

/-- A chain comes back to the same marks after each of its operands. -/
theorem Tracks.chain {marks : List Nesting.Mark} {op? : Kind → Option BinaryOp}
    (hop : ∀ k op, op? k = some op → Nesting.read ⟨marks, true⟩ k = ⟨marks, false⟩)
    (hle : Nesting.levels ⟨marks, false⟩ ≤ maxNesting) {operand : Parser Expr}
    (h : Tracks ⟨marks, false⟩ (· = ⟨marks, true⟩) operand) :
    Tracks ⟨marks, false⟩ (· = ⟨marks, true⟩) (chain op? operand) := by
  have hfrom (bound : Nat) (left : Expr) :
      Tracks ⟨marks, true⟩ (· = ⟨marks, true⟩) (chainFrom op? operand bound left) := by
    induction bound generalizing left with
    | zero => exact .done left
    | succ bound ih =>
      refine .kind_bind fun k => ?_
      split
      · exact (Tracks.done left).for k
      · rename_i op hsome
        exact .advance_bind hle (hop k op hsome) fun _ => h.part_bind fun right => ih _
  exact h.part_bind fun left c => hfrom _ left c

end Parser

end MiniC
