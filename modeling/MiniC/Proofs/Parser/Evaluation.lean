import MiniC.Proofs.Parser.Progress

/-!
# Code with loops and calls

The parsers of a grammar are functions: they recurse on the room that is left, and their loops have
bounds. **Code** is what a parser is written as when it just calls other parsers and repeats itself,
with nothing said of how often (`Code`). What code does is given by rules (`Evaluates`). There is no
rule for code that goes on for ever, so code that evaluates to something comes to an end, and it
evaluates to one thing only (`Evaluates.unique`).

Code **computes** a parser if it evaluates to what the parser answers (`Computes`). There is a lemma
for each way of putting parsers together. A loop comes to an end because each turn takes a token,
and levels need care only where one is opened.
-/

namespace MiniC

/-- **Code** that may call the given procedures. -/
inductive Code (P : Type → Type) : Type → Type 1 where
  /-- A step, without loops and calls. -/
  | step {α : Type} (p : Parser α) : Code P α
  /-- A call of a procedure. -/
  | call {α : Type} (p : P α) : Code P α
  /-- Some code, and then other code. -/
  | bind {α β : Type} (first : Code P α) (next : α → Code P β) : Code P β
  /-- Code that is repeated while the cursor passes a test, with a value that each turn renews. -/
  | loop {α : Type} (test : Cursor → Bool) (turn : α → Code P α) (a : α) : Code P α

/-- What a parser leaves behind. -/
abbrev Parser.Result (α : Type) : Type := EStateM.Result Diagnostic Cursor α

namespace Code

variable {P : Type → Type} {α β : Type}

instance : Monad (Code P) where
  pure a := step (pure a)
  bind := bind

instance : MonadLift Parser (Code P) := ⟨step⟩

/-- Code between the two ends of a level. -/
def nested (inside : Code P α) : Code P α := do
  Parser.enter
  let a ← inside
  Parser.exit
  pure a

/-- Code for a part that is there exactly when a token of the given kind is next. -/
def optionalAfter (k : Kind) (part : Code P α) : Code P (Option α) := do
  if (← Parser.kind) = k then
    let _ ← Parser.advance
    let a ← part
    pure (some a)
  else pure none

/-- Code that is repeated, and of which the results are put into one. -/
def collect (test : Cursor → Bool) (item : Code P β) (put : α → β → α) (a : α) : Code P α :=
  loop test (fun a => do
    let b ← item
    pure (put a b)) a

/-- Code that is repeated, and of which the results are listed. -/
def many (test : Cursor → Bool) (item : Code P α) : Code P (List α) :=
  collect test item (fun as a => as ++ [a]) []

/-- Code for an operator and the operand after it. -/
def link (op? : Kind → Option BinaryOp) (operand : Code P Expr) : Code P (BinaryOp × Expr) := do
  match op? (← Parser.kind) with
  | none => Parser.fail Cursor.unexpected
  | some op =>
    let _ ← Parser.advance
    let right ← operand
    pure (op, right)

/-- Code for operands between operators. -/
def chain (op? : Kind → Option BinaryOp) (operand : Code P Expr) : Code P Expr := do
  let left ← operand
  collect (fun c => (op? c.kind).isSome) (link op? operand) (fun e l => .binary l.1 e l.2) left

end Code

/-- What code **evaluates** to at a cursor, if it comes to an end. -/
inductive Evaluates {P : Type → Type} (body : {α : Type} → P α → Code P α) :
    {α : Type} → Code P α → Cursor → Parser.Result α → Prop
  | step {α : Type} (p : Parser α) (c : Cursor) : Evaluates body (.step p) c (p c)
  | call {α : Type} {p : P α} {c : Cursor} {r : Parser.Result α} :
      Evaluates body (body p) c r → Evaluates body (.call p) c r
  | bind_ok {α β : Type} {first : Code P α} {next : α → Code P β} {c c' : Cursor} {a : α}
      {r : Parser.Result β} :
      Evaluates body first c (.ok a c') → Evaluates body (next a) c' r →
        Evaluates body (.bind first next) c r
  | bind_error {α β : Type} {first : Code P α} {next : α → Code P β} {c c' : Cursor}
      {d : Diagnostic} :
      Evaluates body first c (.error d c') → Evaluates body (.bind first next) c (.error d c')
  | loop_end {α : Type} {test : Cursor → Bool} {turn : α → Code P α} {a : α} {c : Cursor} :
      test c = false → Evaluates body (.loop test turn a) c (.ok a c)
  | loop_turn {α : Type} {test : Cursor → Bool} {turn : α → Code P α} {a : α} {c : Cursor}
      {r : Parser.Result α} :
      test c = true → Evaluates body (.bind (turn a) (.loop test turn)) c r →
        Evaluates body (.loop test turn a) c r

section

variable {P : Type → Type} {body : {α : Type} → P α → Code P α} {α β : Type}

/-- Code evaluates to one thing only. -/
theorem Evaluates.unique {m : Code P α} {c : Cursor} {r r' : Parser.Result α}
    (h : Evaluates body m c r) (h' : Evaluates body m c r') : r = r' := by
  induction h with
  | step p c =>
    cases h'
    rfl
  | call _ ih =>
    cases h' with
    | call h' => exact ih h'
  | bind_ok _ _ ih₁ ih₂ =>
    cases h' with
    | bind_ok h₁ h₂ =>
      cases ih₁ h₁
      exact ih₂ h₂
    | bind_error h₁ => cases ih₁ h₁
  | bind_error _ ih =>
    cases h' with
    | bind_ok h₁ h₂ => cases ih h₁
    | bind_error h₁ =>
      cases ih h₁
      rfl
  | loop_end htest =>
    cases h' with
    | loop_end _ => rfl
    | loop_turn htest' _ => cases htest.symm.trans htest'
  | loop_turn htest _ ih =>
    cases h' with
    | loop_end htest' => cases htest.symm.trans htest'
    | loop_turn _ h' => exact ih h'

theorem Evaluates.of_step {p : Parser α} {c : Cursor} {r : Parser.Result α} (h : p c = r) :
    Evaluates body (liftM p) c r := h ▸ .step p c

/-- A sequence evaluates as its parts do. -/
theorem Evaluates.sequence {m : Code P α} {f : α → Code P β} {p : Parser α} {q : α → Parser β}
    {c : Cursor} (h : Evaluates body m c (p c))
    (hf : ∀ a c', p c = .ok a c' → Evaluates body (f a) c' (q a c')) :
    Evaluates body (m >>= f) c ((p >>= q) c) := by
  rcases hp : p c with ⟨a, c₁⟩ | ⟨d, c₁⟩
  · rw [hp] at h
    rw [Parser.bind_of_ok hp]
    exact .bind_ok h (hf a c₁ hp)
  · rw [hp] at h
    rw [Parser.bind_of_error hp]
    exact .bind_error h

/-! ### Code for parsers -/

/-- That code **computes** a parser that moves, where there is the given room. -/
structure Computes (body : {α : Type} → P α → Code P α) (room : Nat) (m : Code P α)
    (p : Parser α) : Prop extends Parser.Moves room p where
  evaluates : ∀ {c : Cursor}, c.room = room → Evaluates body m c (p c)

variable {room : Nat} {m : Code P α} {p : Parser α} {f : α → Code P β} {q : α → Parser β}

/-- Where no level has been opened for good there is as much room as before. -/
theorem Cursor.Onward.room_eq {c c' : Cursor} (h : c.Onward 0 c') : c'.room = c.room := by
  rw [Cursor.room, Cursor.room, Nat.le_antisymm h.depth_le h.depth_ge]
  rfl

namespace Computes

open MiniC.Parser (Moves Advances bind_of_ok bind_of_error)

/-- A step computes itself, if it moves. -/
theorem step (hp : Moves room p) : Computes body room (liftM p) p where
  toMoves := hp
  evaluates _ := .step p _

theorem pure (a : α) : Computes body room (pure a) (pure a) where
  toMoves := .pure a
  evaluates _ := .step _ _

theorem kind : Computes body room (liftM Parser.kind) Parser.kind := step .kind

theorem advance : Computes body room (liftM Parser.advance) Parser.advance :=
  step Advances.advance.toMoves

theorem expect (k : Kind) : Computes body room (liftM (Parser.expect k)) (Parser.expect k) :=
  step (Advances.expect k).toMoves

theorem expectFor (message : String) (k : Kind) :
    Computes body room (liftM (Parser.expectFor message k)) (Parser.expectFor message k) :=
  step (Advances.expectFor message k).toMoves

theorem fail (d : Cursor → Diagnostic) :
    Computes body room (liftM (Parser.fail d : Parser α)) (Parser.fail d) :=
  step (Advances.fail d).toMoves

theorem throw (d : Diagnostic) :
    Computes body room (liftM (MonadExcept.throw d : Parser α)) (MonadExcept.throw d) :=
  step (.throw d)

/-- A call computes what the code of the procedure does. -/
theorem call {name : P α} (h : Computes body room (body name) p) :
    Computes body room (.call name) p where
  toMoves := h.toMoves
  evaluates hc := .call (h.evaluates hc)

/-- A sequence computes a sequence: after a success there is as much room as before. -/
theorem bind (h : Computes body room m p) (hf : ∀ a, Computes body room (f a) (q a)) :
    Computes body room (m >>= f) (p >>= q) where
  toMoves := h.toMoves.bind fun a => (hf a).toMoves
  evaluates hc := (h.evaluates hc).sequence fun a _ ha =>
    (hf a).evaluates ((h.ok ha).room_eq.trans hc)

/-- Code for an optional part computes one. -/
theorem optionalAfter (k : Kind) (h : Computes body room m p) :
    Computes body room (.optionalAfter k m) (Parser.optionalAfter k p) := by
  refine kind.bind fun k' => ?_
  split
  · refine advance.bind fun _ => ?_
    rw [map_eq_pure_bind]
    exact h.bind fun a => .pure (some a)
  · exact .pure none

/-- Code in a level computes a parser in a level, if it does so with one level less. -/
theorem nested {inside : Nat → Parser α} {part : Parser α → Parser β} {m : Code P β}
    (h : ∀ r, room = r + 1 → Computes body r m (part (inside r))) :
    Computes body room (.nested m) (Parser.deeper (Parser.below inside room) part) := by
  cases room with
  | zero =>
    refine ⟨(Advances.fail _).toMoves, fun {c} hc => ?_⟩
    have henter : Parser.enter c = .error c.tooDeep c := if_pos hc
    exact .bind_error (.of_step henter)
  | succ r =>
    have hinside := h r rfl
    refine ⟨hinside.toMoves.opened, fun {c} hc => ?_⟩
    have henter : Parser.enter c = .ok () { c with depth := c.depth + 1 } := if_neg (by omega)
    have hroom : Cursor.room { c with depth := c.depth + 1 } = r := by
      rw [Cursor.room] at hc ⊢
      simp only
      omega
    refine .bind_ok (.of_step henter) ?_
    exact (hinside.evaluates hroom).sequence fun a c' _ =>
      .bind_ok (.step Parser.exit c') (.step _ _)

/-- A loop comes to an end, as each turn takes a token. -/
theorem collect (test : Cursor → Bool) (h : Computes body room m p) (hp : Advances room p)
    (put : β → α → β) (b : β) :
    Computes body room (.collect test m put b)
      (Parser.manyWhile test p >>= fun as => Pure.pure (as.foldl put b)) where
  toMoves := (Moves.manyWhile test hp.toMoves).bind fun _ => .pure _
  evaluates {c} hc := by
    -- By induction on the number of tokens, of which each turn leaves fewer.
    induction hlength : c.rest.length using Nat.strongRecOn generalizing c b with
    | ind length ih =>
      have hmany := Parser.manyWhile_eq test hp c
      cases htest : test c with
      | false =>
        rw [htest, if_neg Bool.false_ne_true] at hmany
        rw [Parser.bind_of_ok hmany]
        exact .loop_end htest
      | true =>
        rw [htest, if_pos rfl] at hmany
        have hturn : (Parser.manyWhile test p >>= fun as => Pure.pure (as.foldl put b)) c
            = ((p >>= fun a => Pure.pure (put b a)) >>= fun b =>
                Parser.manyWhile test p >>= fun as => Pure.pure (as.foldl put b)) c := by
          rw [Parser.bind_congr_at hmany]
          simp only [bind_assoc, pure_bind, List.foldl_cons]
        rw [hturn]
        refine .loop_turn htest (Evaluates.sequence ?_ fun b' c' hrun => ?_)
        · exact (h.evaluates hc).sequence fun a c' _ => .step _ _
        · obtain ⟨a, c₁, h₁, h₂⟩ := Parser.bind_ok_iff.1 hrun
          cases h₂
          exact ih _ (hlength ▸ hp.lt h₁) _ ((hp.ok h₁).room_eq.trans hc) rfl

/-- Results that are put at the end of a list are listed in order. -/
theorem many (test : Cursor → Bool) (h : Computes body room m p) (hp : Advances room p) :
    Computes body room (.many test m) (Parser.manyWhile test p) := by
  have hlist (as : List α) : as.foldl (fun as a => as ++ [a]) [] = as := by
    rw [List.foldl_append_eq_append, List.nil_append, ← List.flatMap_def, List.flatMap_singleton']
  have hcollect := h.collect test hp (fun as a => as ++ [a]) []
  simp only [hlist, bind_pure] at hcollect
  exact hcollect

/-- Operands that are put together as they come make the chain that the parser answers. -/
theorem chain {op? : Kind → Option BinaryOp} (hop : op? .endOfInput = none) {m : Code P Expr}
    {operand : Parser Expr} (h : Computes body room m operand) (hp : Advances room operand) :
    Computes body room (.chain op? m) (Parser.chain op? operand) := by
  rw [Parser.chain_eq hop hp]
  refine h.bind fun left => collect _ ?_ hp.link _ left
  refine kind.bind fun k => ?_
  cases op? k with
  | none => exact .fail _
  | some op => exact advance.bind fun _ => h.bind fun right => .pure _

end Computes

end

end MiniC
