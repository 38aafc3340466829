import MiniC.Proofs.Parser.Reads

/-!
# What parsers accept

`Parser.Accepts room p P follow` says that the parser `p` follows every phrase of the sort `P`,
before a cursor that passes `follow`. If the phrase needs no more levels than there is room for, the
run takes its tokens, no more, and answers its tree. If the phrase needs more levels, the run stops
at the first level too many. `Parser.Delivers` is this outcome of a run, and it is put together
along a sequence by `Parser.Delivers.bind`.
-/

namespace MiniC

namespace Parser

open Phrase

/-- The outcome of a run on a phrase of `n` levels: its tree and the cursor after it, or a level too
many where there is no room for `n` levels. -/
inductive Delivers (room n : Nat) (a : α) (c : Cursor) : EStateM.Result Diagnostic Cursor α → Prop
  | ok : n ≤ room → Delivers room n a c (.ok a c)
  | tooDeep {c' : Cursor} : room < n → Delivers room n a c (.error c'.tooDeep c')

/-- A parser that **accepts** the phrases of a sort where what follows them passes a test. -/
def Accepts (room : Nat) (p : Parser α) (P : Phrase α) (follow : Cursor → Prop) : Prop :=
  ∀ ⦃ts a n⦄, P ts a n → ∀ ⦃c⦄, follow c → Delivers room n a c (p (c.before ts))

section

variable {α β : Type} {room n m : Nat} {a : α} {b : β} {c c₁ c' : Cursor} {p : Parser α}
  {f : α → Parser β} {P : Phrase α} {F G : Cursor → Prop}

/-! ### Outcomes along a run -/

/-- With room for the levels, the tree is delivered. -/
theorem Delivers.eq_ok {r : EStateM.Result Diagnostic Cursor α} (h : Delivers room n a c r)
    (hn : n ≤ room) : r = .ok a c := by
  cases h with
  | ok _ => rfl
  | tooDeep hlt => exact absurd hlt (Nat.not_lt.2 hn)

/-- Without room for the levels, the answer is that there is one too many. -/
theorem Delivers.eq_error {r : EStateM.Result Diagnostic Cursor α} (h : Delivers room n a c r)
    (hn : room < n) : ∃ c', r = .error (Cursor.tooDeep c') c' := by
  cases h with
  | ok hle => exact absurd hn (Nat.not_lt.2 hle)
  | tooDeep _ => exact ⟨_, rfl⟩

/-- Where the first part of a sequence stops, or the second, the sequence stops. -/
theorem Delivers.bind (hp : Delivers room n a c₁ (p c)) (hf : Delivers room m b c' (f a c₁)) :
    Delivers room (max n m) b c' ((p >>= f) c) := by
  rcases Nat.lt_or_ge room n with hn | hn
  · obtain ⟨c₂, hrun⟩ := hp.eq_error hn
    rw [bind_of_error hrun]
    exact .tooDeep (Nat.lt_of_lt_of_le hn (Nat.le_max_left ..))
  · rw [bind_of_ok (hp.eq_ok hn)]
    rcases Nat.lt_or_ge room m with hm | hm
    · obtain ⟨c₂, hrun⟩ := hf.eq_error hm
      rw [hrun]
      exact .tooDeep (Nat.lt_of_lt_of_le hm (Nat.le_max_right ..))
    · rw [hf.eq_ok hm]
      exact .ok (Nat.max_le.2 ⟨hn, hm⟩)

/-- A first part that needs no level leaves the outcome to the second. -/
theorem Delivers.of_ok_bind (hp : p c = .ok a c₁) (hf : Delivers room m b c' (f a c₁)) :
    Delivers room m b c' ((p >>= f) c) := by
  rwa [bind_of_ok hp]

/-- A second part that needs no level leaves the outcome to the first. -/
theorem Delivers.bind_ok (hp : Delivers room n a c₁ (p c)) (hf : f a c₁ = .ok b c') :
    Delivers room n b c' ((p >>= f) c) := by
  have h : Delivers room (max n 0) b c' ((p >>= f) c) := hp.bind (hf ▸ .ok (Nat.zero_le _))
  rwa [Nat.max_zero] at h

/-- A level needs room for itself. -/
theorem Delivers.opened
    (h : Delivers room n a { c' with depth := c'.depth + 1 } (p { c with depth := c.depth + 1 })) :
    Delivers (room + 1) (n + 1) a c' (opened p c) := by
  rw [opened_apply]
  rcases Nat.lt_or_ge room n with hn | hn
  · obtain ⟨c₂, hrun⟩ := h.eq_error hn
    rw [bind_of_error hrun]
    exact .tooDeep (Nat.succ_lt_succ hn)
  · rw [bind_of_ok (h.eq_ok hn)]
    exact .ok (Nat.succ_le_succ hn)

/-- The inside of a level is read with one level of room less, and a level without room is one too
many. -/
theorem Delivers.deeper {level : Nat → Parser β} {body : Parser β → Parser α}
    (h : ∀ r, room = r + 1 → Delivers r n a { c' with depth := c'.depth + 1 }
      (body (level r) { c with depth := c.depth + 1 })) :
    Delivers room (n + 1) a c' (deeper (below level room) body c) := by
  cases room with
  | zero => exact .tooDeep (Nat.succ_pos n)
  | succ r => exact (h r rfl).opened

/-! ### Optional parts and repetition -/

theorem Accepts.weaken (h : Accepts room p P F) (hG : ∀ ⦃c⦄, G c → F c) : Accepts room p P G :=
  fun _ _ _ hP _ hc => h hP (hG hc)

/-- An optional part that is missing is accepted before everything that does not start it. -/
theorem Accepts.optionalAfter (k : Kind) (h : Accepts room p P F) :
    Accepts room (optionalAfter k p) (Optional (After k P)) (fun c => F c ∧ c.kind ≠ k) := by
  intro ts a n hopt c hc
  cases hopt with
  | none =>
    rw [Cursor.before_nil, optionalAfter_of_ne hc.2]
    exact .ok (Nat.zero_le _)
  | some hafter =>
    cases hafter with
    | mk ht hP =>
      rw [Cursor.before_cons, optionalAfter_of_eq ht]
      exact (h hP hc.1).bind_ok rfl

/-- What follows a number of phrases is the first of them, or what follows them all. -/
theorem follow_many {ts : List Token} {as : List α}
    (hstart : ∀ {ts a n}, P ts a n → ∀ c : Cursor, F (c.before ts)) (h : Many P ts as n)
    (hc : F c) : F (c.before ts) := by
  cases h with
  | nil => exact hc
  | cons hP _ =>
    rw [Cursor.before_append]
    exact hstart hP _

/-- A loop accepts any number of phrases, if its test tells their first tokens from what follows the
last of them. -/
theorem Accepts.manyWhile {test : Cursor → Bool} {r : Nat} (hadv : Advances r p)
    (h : Accepts room p P F)
    (hstart : ∀ {ts a n}, P ts a n → ∀ c : Cursor, test (c.before ts) = true ∧ F (c.before ts)) :
    Accepts room (manyWhile test p) (Many P) (fun c => F c ∧ test c = false) := by
  intro ts as n hmany c hc
  -- The induction is on the phrases, not on the tokens: what follows one of them is either the
  -- start of the next or what follows them all.
  induction hmany with
  | nil =>
    rw [Cursor.before_nil, manyWhile_eq test hadv, if_neg (by simp [hc.2])]
    exact .ok (Nat.zero_le _)
  | cons hP hmany ih =>
    have hfollow := follow_many (fun hP c => (hstart hP c).2) hmany hc.1
    rw [Cursor.before_append, manyWhile_eq test hadv, if_pos (hstart hP _).1]
    exact (h hP hfollow).bind (ih.bind_ok rfl)

/-- After phrases that it accepts, a loop goes on as it would without them. -/
theorem Accepts.manyWhile_before {test : Cursor → Bool} {r : Nat} {ts : List Token} {as : List α}
    (hadv : Advances r p) (h : Accepts room p P F)
    (hstart : ∀ {ts a n}, P ts a n → ∀ c : Cursor, test (c.before ts) = true ∧ F (c.before ts))
    (hmany : Many P ts as n) (hn : n ≤ room) (hc : F c) :
    Parser.manyWhile test p (c.before ts)
      = (Parser.manyWhile test p >>= fun rest => pure (as ++ rest)) c := by
  induction hmany with
  | nil =>
    simp only [List.nil_append, bind_pure]
    rfl
  | @cons _ ts' a as _ _ hP hmany ih =>
    obtain ⟨hn, hn'⟩ := Nat.max_le.1 hn
    have hfollow := follow_many (fun hP c => (hstart hP c).2) hmany hc
    calc Parser.manyWhile test p (c.before (_ ++ ts'))
      _ = (p >>= fun a => Parser.manyWhile test p >>= fun rest => pure (a :: rest))
            ((c.before ts').before _) := by
          rw [Cursor.before_append, manyWhile_eq test hadv, if_pos (hstart hP _).1]
      _ = (Parser.manyWhile test p >>= fun rest => pure (a :: rest)) (c.before ts') :=
          bind_of_ok ((h hP hfollow).eq_ok hn)
      _ = ((Parser.manyWhile test p >>= fun rest => pure (as ++ rest)) >>= fun rest =>
            pure (a :: rest)) c := bind_congr_at (ih hn')
      _ = (Parser.manyWhile test p >>= fun rest => pure (a :: as ++ rest)) c := by
          simp only [bind_assoc, pure_bind, List.cons_append]

/-! ### Chains -/

theorem Accepts.link {op? : Kind → Option BinaryOp} {operand : Parser Expr} {P : Phrase Expr}
    (h : Accepts room operand P F) : Accepts room (link op? operand) (Link op? P) F := by
  intro ts l n hlink c hc
  cases hlink with
  | mk hop hP =>
    rw [Cursor.before_cons, link_of_some hop]
    exact .of_ok_bind (advance_before ..) ((h hP hc).bind_ok rfl)

/-- A chain accepts operands between operators, before anything but one more operator. -/
theorem Accepts.chain {op? : Kind → Option BinaryOp} {operand : Parser Expr} {P : Phrase Expr}
    {r : Nat} (hend : op? .endOfInput = none) (hadv : Advances r operand)
    (h : Accepts room operand P F) (hF : ∀ c : Cursor, (op? c.kind).isSome = true → F c) :
    Accepts room (chain op? operand) (Chain op? P) (fun c => F c ∧ op? c.kind = none) := by
  intro ts e n hchain c hc
  obtain ⟨ts₀, left, n₀, ts', links, m, hleft, hlinks, rfl, rfl, rfl⟩ := hchain.exists_links
  have hstart : ∀ {ts l n}, Link op? P ts l n → ∀ c : Cursor,
      (op? (c.before ts).kind).isSome = true ∧ F (c.before ts) := fun hlink c => by
    cases hlink with
    | mk hop _ =>
      have hsome := Option.isSome_iff_exists.2 ⟨_, hop⟩
      exact ⟨hsome, hF _ hsome⟩
  have hfollow := follow_many (fun hlink c => (hstart hlink c).2) hlinks hc.1
  have hloop : Accepts room
      (Parser.manyWhile (fun c => (op? c.kind).isSome) (Parser.link op? operand))
      (Many (Link op? P)) (fun c => F c ∧ (op? c.kind).isSome = false) :=
    Accepts.manyWhile hadv.link h.link hstart
  rw [chain_eq hend hadv, Cursor.before_append]
  exact (h hleft hfollow).bind ((hloop hlinks ⟨hc.1, by rw [hc.2]; rfl⟩).bind_ok rfl)

end

end Parser

end MiniC
