import MiniC.Proofs.Prompt.Agreement
import MiniC.Proofs.Text.Lines

/-!
# When a unit is complete

A buffer hands out its lines when it takes them for a unit. `LineBuffer.push_agrees` says what that
means for the text of the lines: no comment is open in it, and its tokens open no more braces than
they close.

All that a buffer remembers of its lines is where a scan of them ends (`LineBuffer.Collects.scan`),
and lines put together are a text that is scanned as the lines are (`scanFrom_intercalate`).
-/

namespace MiniC

/-! ### Lines and texts -/

theorem ScanState.scanLines_append (state : ScanState) (depth : Int)
    (lines lines' : List (List Char)) :
    state.scanLines depth (lines ++ lines')
      = (state.scanLines depth lines).1.scanLines (state.scanLines depth lines).2 lines' := by
  simp only [scanLines, List.foldl_append]

private theorem scanFrom_scanCode_eq_scanLines (depth : Int) (cs : List Char) :
    scanFrom (scanCode depth) cs = ScanState.code.scanLines depth (cs.splitOn '\n') := by
  unfold scanFrom
  obtain ⟨line, lines, hlines⟩ := List.exists_cons_of_ne_nil (List.splitOn_ne_nil '\n' cs)
  rw [hlines]
  rfl

/-- The scan of lines is that of their text. -/
private theorem scanFrom_intercalate {lines : List String} (hne : lines ≠ [])
    (h : ∀ line ∈ lines, '\n' ∉ line.toList) (depth : Int) :
    scanFrom (scanCode depth) (String.intercalate "\n" lines).toList
      = ScanState.code.scanLines depth (lines.map String.toList) := by
  rw [scanFrom_scanCode_eq_scanLines, Text.splitOn_toList_intercalate hne h]

namespace LineBuffer

/-! ### Collected lines -/

/-- That a buffer **collects** lines: none of them completes a unit. -/
inductive Collects : LineBuffer → List String → LineBuffer → Prop
  | nil (b : LineBuffer) : Collects b [] b
  | cons {b b' b'' : LineBuffer} {line : String} {lines : List String} :
      b.push line = (none, b') → Collects b' lines b'' → Collects b (line :: lines) b''

theorem add_lines (b : LineBuffer) (line : String) : (b.add line).lines = b.lines ++ [line] := rfl

/-- A line that completes no unit is added. -/
private theorem eq_add_of_push {b b' : LineBuffer} {line : String} (h : b.push line = (none, b')) :
    b' = b.add line := by
  rw [push] at h
  split at h
  · cases h
  · cases h
    rfl

theorem Collects.lines {b b' : LineBuffer} {lines : List String} (h : Collects b lines b') :
    b'.lines = b.lines ++ lines := by
  induction h with
  | nil b => rw [List.append_nil]
  | cons hpush _ ih => rw [ih, eq_add_of_push hpush, add_lines, List.append_assoc]; rfl

/-- A buffer remembers where the scan of its lines ends. -/
theorem Collects.scan {b b' : LineBuffer} {lines : List String} (h : Collects b lines b') :
    (b'.state, b'.depth) = b.state.scanLines b.depth (lines.map String.toList) := by
  induction h with
  | nil b => rfl
  | cons hpush _ ih =>
    rw [ih, eq_add_of_push hpush]
    rfl

/-- The scan of a text, at the end of its last line. -/
private theorem Collects.scan_add {b : LineBuffer} {earlier : List String}
    (h : Collects empty earlier b)
    (last : String) (hlines : ∀ line ∈ earlier ++ [last], '\n' ∉ line.toList) :
    ((b.add last).state, (b.add last).depth)
      = scanFrom (scanCode 0) (String.intercalate "\n" (earlier ++ [last])).toList := by
  have hscan : (b.state, b.depth) = ScanState.code.scanLines 0 (earlier.map String.toList) := h.scan
  rw [scanFrom_intercalate (by simp) hlines, List.map_append, ScanState.scanLines_append, ← hscan]
  rfl

/-! ### The last line -/

theorem push_eq_some_iff (b : LineBuffer) (line : String) :
    (b.push line).1 = some (String.intercalate "\n" (b.lines ++ [line])) ↔
      (b.add line).isComplete = true := by
  rw [push]
  split
  · rename_i hcomplete
    exact ⟨fun _ => hcomplete, fun _ => rfl⟩
  · rename_i hcomplete
    exact ⟨nofun, fun h => absurd h hcomplete⟩

/-- **The last line.** If a buffer has collected all lines of a text but the last one, and no quote
of the text is reported, then the last line ends in a comment exactly if the scanner reaches an open
one, and in code it leaves as many braces open as the tokens do. So it completes the unit exactly if
no comment is open and the tokens open no more braces than they close. -/
theorem push_agrees (dialect : Dialect) (unit : Option String) {earlier : List String}
    {last text : String} {b : LineBuffer} (hcollects : Collects empty earlier b)
    (htext : text = String.intercalate "\n" (earlier ++ [last]))
    (hlines : ∀ line ∈ earlier ++ [last], '\n' ∉ line.toList)
    (hquotes : ∀ d ∈ (tokenize dialect unit text).2,
      d.fault ≠ .unterminatedString ∧ d.fault ≠ .malformedChar) :
    ((b.add last).state = .blockComment ↔ HasOpenComment dialect text.toList) ∧
    ((b.add last).state = .code → (b.add last).depth
      = (tokenize dialect unit text).1.countP (·.kind = .openCurly)
        - (tokenize dialect unit text).1.countP (·.kind = .closeCurly)) ∧
    ((b.push last).1 = some text ↔ ¬HasOpenComment dialect text.toList ∧
      (tokenize dialect unit text).1.countP (·.kind = .openCurly)
        ≤ (tokenize dialect unit text).1.countP (·.kind = .closeCurly)) := by
  have hscan := hcollects.scan_add last hlines
  rw [← htext] at hscan
  have hclosed : ∀ s ∈ Segment.cut dialect text.toList, s.IsClosed :=
    Segment.isClosed_of_mem hquotes
  have hbalance : braceBalance (tokenize dialect unit text).1
      = ((Segment.cut dialect text.toList).map Segment.braceWeight).sum :=
    Segment.braceBalance_itemsFrom _ _ _
  obtain ⟨hcomment, hcode⟩ := scanFrom_scanCode hclosed 0
  rw [← hscan] at hcomment hcode
  rw [Int.zero_add, ← hbalance] at hcode
  have hstate : (b.add last).state = .blockComment ↔ HasOpenComment dialect text.toList := by
    refine ⟨fun h => Classical.byContradiction fun hopen => ?_, hcomment⟩
    have hcode' := congrArg Prod.fst (hcode hopen)
    rw [h] at hcode'
    cases hcode'
  have hdepth : (b.add last).state = .code →
      (b.add last).depth = braceBalance (tokenize dialect unit text).1 := by
    intro h
    have hopen : ¬HasOpenComment dialect text.toList := by
      rw [← hstate, h]
      nofun
    exact congrArg Prod.snd (hcode hopen)
  refine ⟨hstate, hdepth, ?_⟩
  have hunit : text = String.intercalate "\n" (b.lines ++ [last]) := by
    rw [htext, hcollects.lines]
    rfl
  rw [hunit, push_eq_some_iff, ← hunit, ← hstate, isComplete, Bool.and_eq_true, decide_eq_true_eq,
    decide_eq_true_eq]
  -- In code the depth is the balance, and in a comment the unit is not complete anyway.
  cases hend : (b.add last).state with
  | code =>
    rw [hdepth hend, braceBalance]
    simp only [reduceCtorEq, not_false_eq_true, true_and, and_true]
    omega
  | blockComment => simp

/-- A buffer that has braces in code, in a literal and in both sorts of comments, and ends in a
comment. -/
def sample : LineBuffer where
  lines := ["while (x < 3) \x7b // \x7d", "c = '\x7d'; /* \x7b"]
  depth := 1
  state := .blockComment

theorem push_agrees_sample :
    Collects empty sample.lines sample ∧
      (sample.push "*/ \x7d").1
        = some "while (x < 3) \x7b // \x7d\nc = '\x7d'; /* \x7b\n*/ \x7d" ∧
      ¬HasOpenComment {} "while (x < 3) \x7b // \x7d\nc = '\x7d'; /* \x7b\n*/ \x7d".toList := by
  have hcollects : Collects empty sample.lines sample := .cons rfl (.cons rfl (.nil _))
  have hlines : ∀ line ∈ sample.lines ++ ["*/ \x7d"], '\n' ∉ line.toList := by decide +kernel
  have hquotes : ∀ d ∈ (tokenize {} none
      "while (x < 3) \x7b // \x7d\nc = '\x7d'; /* \x7b\n*/ \x7d").2,
      d.fault ≠ .unterminatedString ∧ d.fault ≠ .malformedChar := by decide +kernel
  obtain ⟨-, -, hcomplete⟩ := push_agrees {} none hcollects rfl hlines hquotes
  exact ⟨hcollects, rfl, (hcomplete.1 rfl).1⟩

end LineBuffer

end MiniC
