import MiniC.Proofs.Parser.Run

/-!
# Progress of parsers

A parser never gives tokens back. It closes the levels it opens when it succeeds, and a failure
leaves at most as many levels open as there was room for (`Parser.Moves`). A parser that also takes
a token whenever it succeeds **advances** (`Parser.Advances`). Every parser of a grammar does,
whatever the rules of the grammar are (`Grammar.factorAt_advances`, `Grammar.statementAt_advances`).

This is what makes the bounds of the loops harmless: a loop over a parser that advances obeys the
equation of an unbounded loop (`Parser.manyWhile_eq`).
-/

namespace MiniC

/-- A later cursor **onward** from an earlier one: some tokens have been taken, and some levels have
been opened, no more than there was room for. -/
structure Cursor.Onward (room : Nat) (c c' : Cursor) : Prop where
  rest : c'.rest <:+ c.rest
  endPosition : c'.endPosition = c.endPosition
  depth_ge : c.depth ≤ c'.depth
  depth_le : c'.depth ≤ c.depth + room

namespace Cursor.Onward

variable {room room' : Nat} {c c₁ c' : Cursor}

theorem refl (room : Nat) (c : Cursor) : Onward room c c :=
  ⟨List.suffix_refl _, rfl, Nat.le_refl _, Nat.le_add_right ..⟩

/-- After a way that leaves no level open, there is as much room for the next one. -/
theorem trans (h : Onward 0 c c₁) (h' : Onward room c₁ c') : Onward room c c' := by
  refine ⟨h'.rest.trans h.rest, h'.endPosition.trans h.endPosition, ?_, ?_⟩
  · exact Nat.le_trans h.depth_ge h'.depth_ge
  · have := h.depth_le
    have := h'.depth_le
    omega

theorem length_le (h : Onward room c c') : c'.rest.length ≤ c.rest.length := h.rest.length_le

end Cursor.Onward

namespace Parser

/-- A parser that, with the given room, only **moves** onward. -/
structure Moves (room : Nat) (p : Parser α) : Prop where
  /-- Success leaves as many levels open as there were. -/
  ok : ∀ {c a c'}, p c = .ok a c' → c.Onward 0 c'
  /-- Failure leaves no more levels open than there was room for. -/
  error : ∀ {c d c'}, p c = .error d c' → c.Onward room c'

/-- A parser that **advances**: it moves onward, and takes a token whenever it succeeds. -/
structure Advances (room : Nat) (p : Parser α) : Prop extends Moves room p where
  lt : ∀ {c a c'}, p c = .ok a c' → c'.rest.length < c.rest.length

section

variable {α β : Type} {room : Nat} {p : Parser α} {f : α → Parser β}

/-! ### Sequences -/

theorem Moves.pure (a : α) : Moves room (pure a : Parser α) where
  ok h := by
    cases h
    exact .refl ..
  error := nofun

theorem Moves.throw (d : Diagnostic) : Moves room (throw d : Parser α) where
  ok := nofun
  error h := by
    cases h
    exact .refl ..

/-- A sequence moves if its parts do: a success leaves as many levels open as there were. -/
theorem Moves.bind (hp : Moves room p) (hf : ∀ a, Moves room (f a)) : Moves room (p >>= f) where
  ok h := by
    obtain ⟨a, c₁, h₁, h₂⟩ := bind_ok_iff.1 h
    exact (hp.ok h₁).trans ((hf a).ok h₂)
  error h := by
    rcases bind_error_iff.1 h with h | ⟨a, c₁, h₁, h₂⟩
    · exact hp.error h
    · exact (hp.ok h₁).trans ((hf a).error h₂)

/-- What moves on from a parser that advances advances. -/
theorem Advances.bind (hp : Advances room p) (hf : ∀ a, Moves room (f a)) :
    Advances room (p >>= f) where
  toMoves := hp.toMoves.bind hf
  lt h := by
    obtain ⟨a, c₁, h₁, h₂⟩ := bind_ok_iff.1 h
    exact Nat.lt_of_le_of_lt ((hf a).ok h₂).length_le (hp.lt h₁)

/-- What advances after a parser that moves advances. -/
theorem Moves.bind_advances (hp : Moves room p) (hf : ∀ a, Advances room (f a)) :
    Advances room (p >>= f) where
  toMoves := hp.bind fun a => (hf a).toMoves
  lt h := by
    obtain ⟨a, c₁, h₁, h₂⟩ := bind_ok_iff.1 h
    exact Nat.lt_of_lt_of_le ((hf a).lt h₂) (hp.ok h₁).length_le

/-! ### One token -/

theorem Moves.kind : Moves room kind where
  ok h := by
    cases h
    exact .refl ..
  error := nofun

/-- A failure where the cursor is takes no token. -/
theorem Advances.fail (d : Cursor → Diagnostic) : Advances room (fail d : Parser α) where
  ok := nofun
  error h := by
    cases h
    exact .refl ..
  lt := nofun

/-- Where there is a token, it is taken, and where there is none, nothing is. -/
theorem Advances.advance : Advances room advance where
  ok {c a c'} h := by
    unfold Parser.advance at h
    split at h <;> cases h
    rename_i rest heq
    exact ⟨heq ▸ List.suffix_cons .., rfl, Nat.le_refl _, Nat.le_refl _⟩
  error {c d c'} h := by
    unfold Parser.advance at h
    split at h <;> cases h
    exact .refl ..
  lt {c a c'} h := by
    unfold Parser.advance at h
    split at h <;> cases h
    rename_i rest heq
    simp [heq]

/-- A token that is asked for is taken or refused. -/
theorem Advances.expect (k : Kind) : Advances room (expect k) := by
  refine Moves.kind.bind_advances fun k' => ?_
  split
  · exact .advance
  · exact .fail _

theorem Advances.expectFor (message : String) (k : Kind) :
    Advances room (expectFor message k) := by
  refine Moves.kind.bind_advances fun k' => ?_
  split
  · exact .advance
  · exact .fail _

/-! ### Optional parts and repetition -/

/-- An optional part that is not there takes no token, so this moves and need not advance. -/
theorem Moves.optionalAfter (k : Kind) (hp : Moves room p) : Moves room (optionalAfter k p) := by
  refine Moves.kind.bind fun k' => ?_
  split
  · refine Advances.advance.toMoves.bind fun _ => ?_
    rw [map_eq_pure_bind]
    exact hp.bind fun a => .pure _
  · exact .pure _

/-- A loop moves as each of its rounds does. -/
theorem Moves.manyAtMost (test : Cursor → Bool) (hp : Moves room p) (bound : Nat) :
    Moves room (manyAtMost test p bound) := by
  induction bound with
  | zero => exact .pure _
  | succ bound ih =>
    have hbody := hp.bind fun a => ih.bind fun rest => (Moves.pure (a :: rest) : Moves room _)
    constructor <;> intro c _ c' h <;> unfold Parser.manyAtMost at h <;> split at h
    · exact hbody.ok h
    · cases h
      exact .refl ..
    · exact hbody.error h
    · cases h

theorem Moves.manyWhile (test : Cursor → Bool) (hp : Moves room p) :
    Moves room (manyWhile test p) where
  ok h := (hp.manyAtMost test _).ok h
  error h := (hp.manyAtMost test _).error h

/-! ### Levels -/

/-- Inside of a level there is room for one level less. -/
theorem Moves.opened (hp : Moves room p) : Moves (room + 1) (opened p) where
  ok {c a c'} h := by
    obtain ⟨c₁, h₁, rfl⟩ := opened_ok_iff.1 h
    have hon := hp.ok h₁
    exact ⟨hon.rest, hon.endPosition, Nat.le_sub_one_of_lt hon.depth_ge,
      Nat.sub_le_of_le_add hon.depth_le⟩
  error {c d c'} h := by
    have hon := hp.error (opened_error_iff.1 h)
    refine ⟨hon.rest, hon.endPosition, Nat.le_of_succ_le hon.depth_ge, ?_⟩
    exact Nat.le_trans hon.depth_le (by simp only; omega)

/-- What is inside a level has room for one less. -/
theorem Advances.opened (hp : Advances room p) : Advances (room + 1) (opened p) where
  toMoves := hp.toMoves.opened
  lt {c a c'} h := by
    obtain ⟨c₁, h₁, rfl⟩ := opened_ok_iff.1 h
    have hlt := hp.lt h₁
    exact hlt

/-- Where no level is left, nothing is taken. -/
theorem Advances.deeper {level : Nat → Parser α} {body : Parser α → Parser β}
    (h : ∀ r, room = r + 1 → Advances r (body (level r))) :
    Advances room (deeper (below level room) body) := by
  cases room with
  | zero => exact .fail _
  | succ r => exact (h r rfl).opened

/-! ### Loops without a bound -/

/-- The bound of a loop does not matter once it exceeds the number of tokens. -/
theorem manyAtMost_eq_of_lt (test : Cursor → Bool) (hp : Advances room p) {m n : Nat} {c : Cursor}
    (hm : c.rest.length < m) (hn : c.rest.length < n) :
    manyAtMost test p m c = manyAtMost test p n c := by
  -- Each round takes a token, so the tokens stay fewer than either bound.
  induction m generalizing n c with
  | zero => exact absurd hm (Nat.not_lt_zero _)
  | succ m ih =>
    obtain ⟨n, rfl⟩ : ∃ k, n = k + 1 := ⟨n - 1, by omega⟩
    rw [manyAtMost_succ, manyAtMost_succ]
    split
    · rcases h : p c with ⟨a, c₁⟩ | ⟨d, c₁⟩
      · have hlt := hp.lt h
        rw [bind_of_ok h, bind_of_ok h]
        exact bind_congr_at (ih (by omega) (by omega))
      · rw [bind_of_error h, bind_of_error h]
    · rfl

/-- **The equation of a loop.** A loop over a parser that advances is that parser and the same loop
again, for as long as the test holds. -/
theorem manyWhile_eq (test : Cursor → Bool) (hp : Advances room p) (c : Cursor) :
    manyWhile test p c =
      if test c then
        (p >>= fun a => manyWhile test p >>= fun rest => pure (a :: rest)) c
      else .ok [] c := by
  change manyAtMost test p (c.rest.length + 1) c = _
  rw [manyAtMost_succ]
  split
  · rcases h : p c with ⟨a, c₁⟩ | ⟨d, c₁⟩
    · rw [bind_of_ok h, bind_of_ok h]
      exact bind_congr_at (manyAtMost_eq_of_lt test hp (hp.lt h) (Nat.lt_succ_self _))
    · rw [bind_of_error h, bind_of_error h]
  · rfl

/-- A loop ends where its test fails. -/
theorem test_eq_false_of_manyWhile (test : Cursor → Bool) (hp : Advances room p) {c c' : Cursor}
    {as : List α} (h : manyWhile test p c = .ok as c') : test c' = false := by
  -- By induction on the number of tokens, as the loop has no bound of its own any more.
  induction hlength : c.rest.length using Nat.strongRecOn generalizing c as with
  | ind length ih =>
    rw [manyWhile_eq test hp] at h
    split at h
    · obtain ⟨a, c₁, h₁, h₂⟩ := bind_ok_iff.1 h
      obtain ⟨rest, c₂, h₃, h₄⟩ := bind_ok_iff.1 h₂
      cases h₄
      exact ih _ (hlength ▸ hp.lt h₁) h₃ rfl
    · rename_i htest
      cases h
      exact Bool.eq_false_iff.2 htest

end

/-! ### Chains as loops -/

section

variable {room : Nat} {operand : Parser Expr} {op? : Kind → Option BinaryOp}

/-- One **link** of a chain: an operator, and the operand after it. -/
def link (op? : Kind → Option BinaryOp) (operand : Parser Expr) : Parser (BinaryOp × Expr) := do
  match op? (← kind) with
  | none => fail Cursor.unexpected
  | some op =>
    let _ ← advance
    let right ← operand
    pure (op, right)

/-- The tree of a chain, from its first operand and its links. -/
def linked (left : Expr) (links : List (BinaryOp × Expr)) : Expr :=
  links.foldl (fun left l => .binary l.1 left l.2) left

/-- A link takes its operator at least. -/
theorem Advances.link (h : Advances room operand) : Advances room (link op? operand) := by
  refine Moves.kind.bind_advances fun k => ?_
  split
  · exact .fail _
  · exact Advances.advance.bind fun _ => h.toMoves.bind fun _ => .pure _

theorem link_of_some {op : BinaryOp} {c : Cursor} (hop : op? c.kind = some op) :
    link op? operand c =
      (advance >>= fun _ => operand >>= fun right => pure (op, right)) c := by
  rw [link, bind_of_ok (kind_apply c), hop]

/-- The loop that goes on with a chain is a loop over its links. -/
theorem chainFrom_eq (hop : op? .endOfInput = none) (h : Advances room operand) {bound : Nat}
    {c : Cursor} (hbound : c.rest.length ≤ bound) (left : Expr) :
    chainFrom op? operand bound left c =
      (manyWhile (fun c => (op? c.kind).isSome) (link op? operand) >>= fun links =>
        pure (linked left links)) c := by
  have hlink : Advances room (link op? operand) := h.link
  -- Both loops make the same test at the same cursors. The bound of one is used up when no
  -- token is left, and there the test of the other fails.
  induction bound generalizing c left with
  | zero =>
    have hrest : c.rest = [] := List.eq_nil_of_length_eq_zero (Nat.le_zero.1 hbound)
    have hkind := Cursor.kind_of_end hrest
    have hmany := manyWhile_eq (fun c => (op? c.kind).isSome) hlink c
    rw [if_neg (by simp [hkind, hop])] at hmany
    rw [bind_of_ok hmany]
    rfl
  | succ bound ih =>
    have hmany := manyWhile_eq (fun c => (op? c.kind).isSome) hlink c
    rcases hk : op? c.kind with - | op
    · rw [if_neg (by simp [hk])] at hmany
      rw [chainFrom_of_none hk, bind_of_ok hmany]
      rfl
    · rw [if_pos (by simp [hk])] at hmany
      rcases c.end_or_before with hend | ⟨t, c, rfl⟩
      · rw [Cursor.kind_of_end hend, hop] at hk
        cases hk
      have hrun := @link_of_some operand op? op _ hk
      rw [bind_of_ok (advance_before ..)] at hrun
      rw [chainFrom_of_some hk, bind_of_ok (advance_before ..), bind_congr_at hmany, bind_assoc]
      rcases hr : operand c with ⟨right, c₁⟩ | ⟨d, c₁⟩
      · rw [bind_of_ok hr] at hrun ⊢
        have hlt := h.lt hr
        have hlength : c₁.rest.length ≤ bound := by
          have hbound' : c.rest.length + 1 ≤ bound + 1 := hbound
          omega
        rw [bind_of_ok hrun, ih hlength, bind_assoc]
        rfl
      · rw [bind_of_error hr] at hrun ⊢
        exact (bind_of_error hrun).symm

/-- A chain is its first operand and a loop over links. -/
theorem chain_eq (hop : op? .endOfInput = none) (h : Advances room operand) :
    chain op? operand =
      operand >>= fun left =>
        manyWhile (fun c => (op? c.kind).isSome) (link op? operand) >>= fun links =>
          pure (linked left links) := by
  unfold chain
  congr 1
  funext left c
  exact chainFrom_eq hop h (Nat.le_refl _) left

/-- A chain takes its first operand at least. -/
theorem Advances.chain (hop : op? .endOfInput = none) (h : Advances room operand) :
    Advances room (chain op? operand) := by
  rw [chain_eq hop h]
  exact h.bind fun _ => (Moves.manyWhile _ h.link.toMoves).bind fun _ => .pure _

end

end Parser

end MiniC
