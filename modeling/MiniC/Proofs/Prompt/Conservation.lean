import MiniC.Proofs.Prompt.Completion

/-!
# Conservation of lines

A buffer is called with a line, or to be reset, any number of times and in any order
(`LineBuffer.calls`). It never loses a line and never hands one out twice, and nothing of one unit
is left when the next one starts (`LineBuffer.calls_conserve`).

One invariant carries all of this: the buffer between two calls is what an empty buffer becomes that
collects the lines which the buffer holds (`LineBuffer.HoldsOwn`). So a buffer without lines is
empty in every respect, and a unit depends on nothing but its lines.
-/

namespace MiniC.LineBuffer

/-! ### Calls -/

/-- A **call** of a buffer. -/
inductive Call where
  /-- Adds a line. -/
  | push (line : String)
  /-- Drops all lines. -/
  | reset
  deriving DecidableEq, Repr

/-- What a buffer answers to a call, and what becomes of it. -/
def call (b : LineBuffer) : Call → Option String × LineBuffer
  | .push line => b.push line
  | .reset => (none, empty)

/-- What a buffer answers to calls, and what becomes of it. -/
def calls (b : LineBuffer) : List Call → List (Option String) × LineBuffer
  | [] => ([], b)
  | c :: cs => ((b.call c).1 :: ((b.call c).2.calls cs).1, ((b.call c).2.calls cs).2)

/-- The lines of a unit. -/
def unitLines (unit : String) : List String := (unit.toList.splitOn '\n').map String.ofList

/-- The lines of the units among some answers. -/
def handedOut (answers : List (Option String)) : List String :=
  (answers.filterMap id).flatMap unitLines

variable {b b' b'' : LineBuffer} {line unit : String} {lines : List String} {cs : List Call}

theorem calls_append (b : LineBuffer) (cs cs' : List Call) :
    b.calls (cs ++ cs')
      = ((b.calls cs).1 ++ ((b.calls cs).2.calls cs').1, ((b.calls cs).2.calls cs').2) := by
  induction cs generalizing b with
  | nil => rfl
  | cons c cs ih => rw [List.cons_append, calls, calls, ih]; rfl

theorem length_calls (b : LineBuffer) (cs : List Call) : (b.calls cs).1.length = cs.length := by
  induction cs generalizing b with
  | nil => rfl
  | cons c cs ih => rw [calls, List.length_cons, List.length_cons, ih]

theorem unitLines_intercalate (hne : lines ≠ []) (h : ∀ line ∈ lines, '\n' ∉ line.toList) :
    unitLines (String.intercalate "\n" lines) = lines := by
  rw [unitLines, Text.splitOn_toList_intercalate hne h, List.map_map]
  exact List.map_id'' (fun line => String.ofList_toList) lines

/-! ### One line -/

/-- A line completes a unit of all lines, or is kept with the lines before it. -/
theorem push_cases (b : LineBuffer) (line : String) :
    b.push line = (some (String.intercalate "\n" (b.lines ++ [line])), empty) ∨
      (b.push line = (none, b.add line) ∧ (b.add line).isComplete = false) := by
  rw [push]
  cases h : (b.add line).isComplete with
  | true => exact .inl rfl
  | false => exact .inr ⟨rfl, rfl⟩

/-- Lines that complete no unit are answered by nothing. -/
private theorem Collects.calls_push (h : Collects b lines b') :
    b.calls (lines.map .push) = (List.replicate lines.length none, b') := by
  induction h with
  | nil b => rfl
  | cons hpush _ ih => rw [List.map_cons, calls, call, hpush, ih]; rfl

theorem Collects.concat (h : Collects b lines b') (hpush : b'.push line = (none, b'')) :
    Collects b (lines ++ [line]) b'' := by
  induction h with
  | nil b => exact .cons hpush (.nil _)
  | cons hfirst _ ih => exact .cons hfirst (ih hpush)

/-! ### The invariant -/

/-- That the lines of a buffer, in an empty buffer, make the buffer what it is. -/
structure HoldsOwn (b : LineBuffer) : Prop where
  collects : Collects empty b.lines b
  lineFeed_notMem : ∀ line ∈ b.lines, '\n' ∉ line.toList

theorem HoldsOwn.empty : HoldsOwn empty := ⟨.nil _, List.forall_mem_nil _⟩

/-- A buffer that holds no lines is empty. -/
theorem HoldsOwn.eq_empty (h : b.HoldsOwn) (hlines : b.lines = []) : b = LineBuffer.empty := by
  have hcollects := h.collects
  rw [hlines] at hcollects
  cases hcollects
  rfl

/-- **One call** keeps the invariant. -/
theorem HoldsOwn.call (h : b.HoldsOwn) {c : Call}
    (hc : ∀ line, c = .push line → '\n' ∉ line.toList) : (b.call c).2.HoldsOwn := by
  cases c with
  | reset => exact .empty
  | push line =>
    rw [LineBuffer.call]
    rcases push_cases b line with hpush | ⟨hpush, -⟩
    · rw [hpush]
      exact .empty
    · have hcollects := h.collects.concat hpush
      rw [hpush]
      refine ⟨hcollects, List.forall_mem_append.2 ⟨h.lineFeed_notMem, ?_⟩⟩
      exact List.forall_mem_singleton.2 (hc line rfl)

/-- Any number of calls keeps the invariant. -/
theorem HoldsOwn.calls (h : b.HoldsOwn) (hcs : ∀ line, .push line ∈ cs → '\n' ∉ line.toList) :
    (b.calls cs).2.HoldsOwn := by
  induction cs generalizing b with
  | nil => exact h
  | cons c cs ih =>
    refine ih (h.call fun line hc => hcs line ?_) fun line hline => hcs line ?_
    · exact hc ▸ List.mem_cons_self
    · exact List.mem_cons_of_mem c hline

private theorem HoldsOwn.call_push (h : b.HoldsOwn) (hline : '\n' ∉ line.toList) :
    (b.call (.push line)).2.HoldsOwn :=
  h.call fun _ hc => Call.push.inj hc ▸ hline

/-- The lines of a unit are those that the buffer held, and the line that completed it. -/
private theorem HoldsOwn.unitLines_eq (h : b.HoldsOwn) (hline : '\n' ∉ line.toList) :
    unitLines (String.intercalate "\n" (b.lines ++ [line])) = b.lines ++ [line] :=
  unitLines_intercalate (by simp)
    (List.forall_mem_append.2 ⟨h.lineFeed_notMem, List.forall_mem_singleton.2 hline⟩)

/-- That a buffer is empty, or holds lines that are not a unit yet. -/
def IsAtRest (b : LineBuffer) : Prop :=
  (b.isPending = false ∧ b.depth = 0 ∧ b.state = .code) ∨
    (b.isPending = true ∧ (0 < b.depth ∨ b.state = .blockComment))

/-- Lines that are collected are not a unit. -/
private theorem isComplete_of_collects (h : Collects b lines b') (hne : lines ≠ []) :
    b'.isComplete = false := by
  induction h with
  | nil b => exact absurd rfl hne
  | @cons b b' b'' line lines hpush hcollects ih =>
    cases lines with
    | nil =>
      cases hcollects
      rcases push_cases b line with heq | ⟨heq, hcomplete⟩
      · cases hpush.symm.trans heq
      · cases hpush.symm.trans heq
        exact hcomplete
    | cons line' lines => exact ih (List.cons_ne_nil _ _)

private theorem HoldsOwn.isAtRest (h : b.HoldsOwn) : b.IsAtRest := by
  by_cases hlines : b.lines = []
  · rw [h.eq_empty hlines]
    exact .inl ⟨rfl, rfl, rfl⟩
  · have hpending : b.isPending = true := by simpa [isPending] using hlines
    refine .inr ⟨hpending, ?_⟩
    have hcomplete := isComplete_of_collects h.collects hlines
    rw [isComplete, Bool.and_eq_false_iff, decide_eq_false_iff_not, decide_eq_false_iff_not]
      at hcomplete
    refine hcomplete.imp Int.not_le.1 fun hstate => ?_
    cases hend : b.state with
    | code => exact absurd hend hstate
    | blockComment => rfl

/-! ### Units -/

@[simp] theorem handedOut_none (answers : List (Option String)) :
    handedOut (none :: answers) = handedOut answers := rfl

@[simp] theorem handedOut_some (unit : String) (answers : List (Option String)) :
    handedOut (some unit :: answers) = unitLines unit ++ handedOut answers := rfl

/-- The lines that are handed out, and after them those that are still held, are the lines that were
held before and those that were added. -/
theorem HoldsOwn.handedOut_append (h : b.HoldsOwn) (hlines : ∀ line ∈ lines, '\n' ∉ line.toList) :
    handedOut (b.calls (lines.map .push)).1 ++ (b.calls (lines.map .push)).2.lines
      = b.lines ++ lines := by
  induction lines generalizing b with
  | nil => exact (List.append_nil _).symm
  | cons line lines ih =>
    obtain ⟨hline, hlines⟩ := List.forall_mem_cons.1 hlines
    have hnext := ih (h.call_push hline) hlines
    rw [List.map_cons, LineBuffer.calls]
    rw [LineBuffer.call] at hnext ⊢
    rcases push_cases b line with hpush | ⟨hpush, -⟩
    · rw [hpush] at hnext ⊢
      rw [handedOut_some, h.unitLines_eq hline, List.append_assoc, hnext, List.append_assoc]
      rfl
    · rw [hpush] at hnext ⊢
      rw [handedOut_none, hnext, add_lines, List.append_assoc]
      rfl

/-- A unit is what an empty buffer makes of the lines of the unit, and what it hands out last. -/
private theorem HoldsOwn.replay (h : b.HoldsOwn)
    (hcs : ∀ line, .push line ∈ cs → '\n' ∉ line.toList) (hunit : some unit ∈ (b.calls cs).1) :
    LineBuffer.empty.calls ((unitLines unit).map .push)
      = (List.replicate ((unitLines unit).length - 1) none ++ [some unit], LineBuffer.empty) := by
  induction cs generalizing b with
  | nil => cases hunit
  | cons c cs ih =>
    have hc : ∀ line, c = .push line → '\n' ∉ line.toList := fun line hc =>
      hcs line (hc ▸ List.mem_cons_self)
    rw [LineBuffer.calls, List.mem_cons] at hunit
    rcases hunit with hunit | hunit
    · cases c with
      | reset => cases hunit
      | push line =>
        rw [LineBuffer.call] at hunit
        rcases push_cases b line with hpush | ⟨hpush, -⟩
        · rw [hpush] at hunit
          cases hunit
          rw [h.unitLines_eq (hc line rfl), List.map_append, calls_append, h.collects.calls_push,
            List.map_singleton, LineBuffer.calls, LineBuffer.call, hpush, List.length_append]
          rfl
        · rw [hpush] at hunit
          cases hunit
    · exact ih (h.call hc) (fun line hline => hcs line (List.mem_cons_of_mem c hline)) hunit

/-- **Conservation.** After any calls, a buffer is empty in every respect, or holds lines that are
not a unit yet. Of the lines that were added since it was empty or was reset, those that it has
handed out, and after them those that it holds, are all of them in order. Each unit that it has
handed out depends on its own lines only. -/
theorem calls_conserve {cs : List Call} (h : ∀ line, .push line ∈ cs → '\n' ∉ line.toList) :
    (empty.calls cs).2.IsAtRest ∧
    (∀ earlier lines, cs = earlier ++ lines.map .push →
      (earlier = [] ∨ earlier.getLast? = some .reset) →
      handedOut ((empty.calls cs).1.drop earlier.length) ++ (empty.calls cs).2.lines = lines) ∧
    ∀ unit, some unit ∈ (empty.calls cs).1 →
      empty.calls ((unitLines unit).map .push)
        = (List.replicate ((unitLines unit).length - 1) none ++ [some unit], empty) := by
  refine ⟨(HoldsOwn.empty.calls h).isAtRest, ?_, fun unit => HoldsOwn.empty.replay h⟩
  rintro earlier lines rfl hstart
  have hlines : ∀ line ∈ lines, '\n' ∉ line.toList := fun line hline =>
    h line (List.mem_append_right _ (List.mem_map_of_mem hline))
  have hempty : (empty.calls earlier).2 = empty := by
    rcases hstart with rfl | hlast
    · rfl
    · obtain ⟨before, rfl⟩ := List.getLast?_eq_some_iff.1 hlast
      rw [calls_append]
      rfl
  have hconserved := HoldsOwn.empty.handedOut_append hlines
  rw [calls_append, hempty, ← length_calls empty earlier, List.drop_left, hconserved]
  rfl

/-- A unit with a brace too many, a unit that is dropped, one that starts with an open comment, and
one that is not complete. -/
def sampleCalls : List Call :=
  [.push "x = 1; \x7d", .push "if (x < 2) \x7b", .reset, .push "/* \x7b",
    .push "*/ x = 3; \x7b \x7d", .push "while (x < 3) \x7b"]

theorem calls_conserve_sample :
    (∀ line, .push line ∈ sampleCalls → '\n' ∉ line.toList) ∧
      (empty.calls sampleCalls).2.IsAtRest ∧
      handedOut ((empty.calls sampleCalls).1.drop 3) ++ (empty.calls sampleCalls).2.lines
        = ["/* \x7b", "*/ x = 3; \x7b \x7d", "while (x < 3) \x7b"] ∧
      empty.calls [.push "/* \x7b", .push "*/ x = 3; \x7b \x7d"]
        = ([none, some "/* \x7b\n*/ x = 3; \x7b \x7d"], empty) := by
  have hlines : ∀ line, .push line ∈ sampleCalls → '\n' ∉ line.toList := by
    intro line hline
    simp only [sampleCalls, List.mem_cons, List.not_mem_nil, or_false] at hline
    rcases hline with h | h | h | h | h | h <;> cases h <;> decide
  obtain ⟨hrest, hconserved, hreplay⟩ := calls_conserve hlines
  exact ⟨hlines, hrest, hconserved (sampleCalls.take 3) _ rfl (.inr rfl),
    hreplay "/* \x7b\n*/ x = 3; \x7b \x7d" (by decide)⟩

end MiniC.LineBuffer
