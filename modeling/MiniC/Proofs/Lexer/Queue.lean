import MiniC.Proofs.Lexer.Iteration

/-!
# Items of the user in the queue

Between two calls of `Lexer.next` the user of a scanner may queue items of their own. Nothing is
scanned while the queue holds something, and a single step may queue two items at once; so items of
the user come before, between or after those of the scan. An `Account` follows any calls of a
scanner and keeps for each item who queued it.

Nothing is lost, doubled or put out of order (`Account.IsKept`): what was answered of the scan, what
is queued of it and what is still to be scanned (`Lexer.pending?`) are what the unit yields; and
what was answered of the user's items and what is queued of them are the items that were pushed. One
call of `next` moves items from one place to the next one (`Lexer.next_conserves`), and calls of
`next` alone answer all that is left and then `finished` (`Lexer.yieldsAll_of_pending?`).
-/

namespace MiniC.Lexer

/-! ### What is answered, and what is left -/

/-- The items of an answer. -/
def Step.items : Step → List Item
  | .item answer => [answer]
  | .finished | .misplaced => []

/-- What is still to be scanned, unless the cursor is misplaced. -/
def pending? (l : Lexer) : Option (List Item) :=
  l.remainder?.map fun rest => Segment.itemsFrom l.unit l.line (Segment.cut l.dialect rest)

variable {l l' : Lexer} {rest : List Char} {items : List Item} {cs : List Call}

/-! ### One call of `next` -/

private theorem pending?_of_remainder? (h : l.remainder? = some rest) :
    l.pending? = some (Segment.itemsFrom l.unit l.line (Segment.cut l.dialect rest)) :=
  congrArg _ h

/-- What is left is either the first segment and what is left after it, or nothing. -/
private theorem pending?_consume (h : l.remainder? = some rest) (hne : rest ≠ []) :
    ∃ left, (l.consume (Segment.first l.dialect rest)).remainder?
        = some (rest.drop (Segment.first l.dialect rest).text.length) ∧
      (l.consume (Segment.first l.dialect rest)).pending? = some left ∧
      l.pending? = some ((Segment.first l.dialect rest).items l.position ++ left) := by
  have hrest : (l.consume (Segment.first l.dialect rest)).remainder?
      = some (rest.drop (Segment.first l.dialect rest).text.length) :=
    remainder?_consume (h.trans
      (congrArg some (Segment.first_text_append_drop l.dialect rest).symm))
  refine ⟨Segment.itemsFrom l.unit (l.line.after (Segment.first l.dialect rest).lineEnds)
    (Segment.cut l.dialect (rest.drop (Segment.first l.dialect rest).text.length)), hrest, ?_, ?_⟩
  · exact pending?_of_remainder? hrest
  · rw [pending?_of_remainder? h, Segment.cut_of_ne_nil l.dialect hne]
    rfl

/-- Segments are queued until the queue holds something or nothing is left. -/
theorem consumeUntilReady_conserves (h : l.remainder? = some rest) :
    ∃ queued left, (l.consumeUntilReady (Segment.cut l.dialect rest)).pending? = some left ∧
      (l.consumeUntilReady (Segment.cut l.dialect rest)).queue = l.queue ++ queued ∧
      l.pending? = some (queued ++ left) ∧ (l.queue ++ queued = [] → left = []) := by
  obtain ⟨dialect, hdialect⟩ : ∃ dialect, dialect = l.dialect := ⟨_, rfl⟩
  rw [← hdialect]
  induction rest using Segment.cut_induction dialect generalizing l with
  | nil =>
    have hpending : l.pending? = some [] := pending?_of_remainder? h
    exact ⟨[], [], hpending, (List.append_nil _).symm, hpending, fun _ => rfl⟩
  | step rest hne ih =>
    rw [Segment.cut_of_ne_nil dialect hne, consumeUntilReady]
    split
    · next hempty =>
      obtain ⟨left, hrest, hleft, hpending⟩ := pending?_consume h hne
      rw [← hdialect] at hrest hleft hpending
      obtain ⟨queued, left', hleft', hqueue, hpending', hall⟩ := ih hrest hdialect
      obtain rfl : left = queued ++ left' := Option.some.inj (hleft.symm.trans hpending')
      refine ⟨(Segment.first dialect rest).items l.position ++ queued, left', hleft', ?_, ?_, ?_⟩
      · rw [hqueue, ← List.append_assoc]
        rfl
      · rw [hpending, List.append_assoc]
      · rwa [← List.append_assoc]
    · next hready =>
      have hleft := pending?_of_remainder? h
      refine ⟨[], _, hleft, (List.append_nil _).symm, hleft, fun hqueue => ?_⟩
      rw [List.append_nil] at hqueue
      exact absurd (List.isEmpty_iff.2 hqueue) hready

/-- **One call** of `next` queues what it scans, behind what was queued, and answers the first item
of the queue. It answers `finished` just where nothing is queued and nothing is left. -/
theorem next_conserves (h : l.pending? = some items) :
    ∃ queued left, items = queued ++ left ∧ l.next.2.pending? = some left ∧
      l.queue ++ queued = l.next.1.items ++ l.next.2.queue ∧
      l.next.1 ≠ .misplaced ∧ (l.next.1 = .finished ↔ l.queue ++ items = []) := by
  obtain ⟨rest, hrest, -⟩ := Option.map_eq_some_iff.1 h
  obtain ⟨queued, left, hleft, hqueue, hpending, hall⟩ := consumeUntilReady_conserves hrest
  obtain rfl : items = queued ++ left := Option.some.inj (h.symm.trans hpending)
  refine ⟨queued, left, rfl, ?_⟩
  rw [next_eq_pop hrest, ← hqueue]
  generalize l.consumeUntilReady (Segment.cut l.dialect rest) = l' at hleft hqueue
  rw [← hqueue] at hall
  cases hitems : l'.queue with
  | nil =>
    obtain rfl := hall hitems
    have hpop : l'.pop = (.finished, l') := by rw [pop, hitems]
    rw [hpop]
    refine ⟨hleft, hitems.symm, Step.noConfusion, iff_of_true rfl ?_⟩
    rw [List.append_nil, ← hqueue, hitems]
  | cons item queue =>
    have hpop : l'.pop = (.item item, { l' with queue := queue }) := by rw [pop, hitems]
    rw [hpop]
    refine ⟨hleft, rfl, Step.noConfusion, iff_of_false Step.noConfusion ?_⟩
    rw [← List.append_assoc, ← hqueue, hitems]
    exact List.cons_ne_nil _ _

/-- Who queued an item. -/
inductive Origin where
  | scanner
  | user
  deriving DecidableEq

/-- An item, and who queued it. -/
structure Mark where
  origin : Origin
  item : Item

/-- The items of an origin, in their order. -/
def Mark.ofOrigin (origin : Origin) (marks : List Mark) : List Item :=
  (marks.filter (·.origin = origin)).map item

namespace Mark

theorem ofOrigin_append (origin : Origin) (marks marks' : List Mark) :
    ofOrigin origin (marks ++ marks') = ofOrigin origin marks ++ ofOrigin origin marks' := by
  rw [ofOrigin, ofOrigin, ofOrigin, List.filter_append, List.map_append]

private theorem ofOrigin_map_self (origin : Origin) (items : List Item) :
    ofOrigin origin (items.map (mk origin)) = items := by
  simp [ofOrigin, List.filter_map, Function.comp_def]

private theorem ofOrigin_map_of_ne {origin origin' : Origin} (h : origin' ≠ origin)
    (items : List Item) : ofOrigin origin (items.map (mk origin')) = [] := by
  simp [ofOrigin, List.filter_map, Function.comp_def, h]

end Mark

/-- An **account** of calls of a scanner. -/
structure Account where
  /-- The scanner. -/
  lexer : Lexer
  /-- What is in the queue of the scanner. -/
  queue : List Mark
  /-- What `next` answered. -/
  answered : List Mark
  /-- What the user queued. -/
  pushed : List Item

namespace Account

/-- Takes an item of the user into account. -/
def add (a : Account) (item : Item) : Account where
  lexer := a.lexer.push item
  queue := a.queue ++ [⟨.user, item⟩]
  answered := a.answered
  pushed := a.pushed ++ [item]

/-- What is in the queue when `next` answers. What it answers or leaves there and what was not there
before is queued by the scanner. -/
def ready (a : Account) : List Mark :=
  let scanned := (a.lexer.next.1.items ++ a.lexer.next.2.queue).drop a.lexer.queue.length
  a.queue ++ scanned.map (Mark.mk .scanner)

/-- Takes a call of `next` into account. -/
def next (a : Account) : Account where
  lexer := a.lexer.next.2
  queue := a.ready.drop a.lexer.next.1.items.length
  answered := a.answered ++ a.ready.take a.lexer.next.1.items.length
  pushed := a.pushed

/-- Takes a call into account. -/
def call (a : Account) : Call → Account
  | .next => a.next
  | .push item => a.add item
  | .report fault => a.add (.error ⟨fault, a.lexer.position⟩)

/-- Takes calls into account. -/
def calls (a : Account) (cs : List Call) : Account := cs.foldl call a

/-- The account of a scanner that was not called. -/
def start (l : Lexer) : Account := ⟨l, [], [], []⟩

/-- That an account is **kept**, for a unit that yields the given items. -/
structure IsKept (all : List Item) (a : Account) : Prop where
  queue : a.queue.map Mark.item = a.lexer.queue
  /-- What the unit yields was answered, is queued, or is left. -/
  scanner : ∃ left, a.lexer.pending? = some left ∧
    Mark.ofOrigin .scanner a.answered ++ Mark.ofOrigin .scanner a.queue ++ left = all
  /-- What was pushed was answered, or is queued. -/
  user : Mark.ofOrigin .user a.answered ++ Mark.ofOrigin .user a.queue = a.pushed

variable {a : Account} {all : List Item}

theorem IsKept.start (dialect : Dialect) (unit : Option String) (source : String) :
    (start (ofSource dialect unit source)).IsKept (scan dialect unit source) := by
  have hstart := StandsBefore.ofSource dialect unit source
  exact ⟨rfl, ⟨_, pending?_of_remainder? hstart.remainder?, rfl⟩, rfl⟩

theorem IsKept.add (h : a.IsKept all) (item : Item) : (a.add item).IsKept all := by
  obtain ⟨left, hleft, hscanner⟩ := h.scanner
  have hmark : [⟨.user, item⟩] = [item].map (Mark.mk .user) := rfl
  refine ⟨?_, ⟨left, hleft, ?_⟩, ?_⟩
  · rw [Account.add, List.map_append, h.queue]
    rfl
  · rw [Account.add, hmark, Mark.ofOrigin_append, Mark.ofOrigin_map_of_ne (by decide),
      List.append_nil]
    exact hscanner
  · rw [Account.add, hmark, Mark.ofOrigin_append, Mark.ofOrigin_map_self, ← List.append_assoc,
      h.user]

/-- A call of `next` moves items from the front of the queue to the answers. -/
private theorem ofOrigin_next (origin : Origin) (a : Account) :
    Mark.ofOrigin origin a.next.answered ++ Mark.ofOrigin origin a.next.queue
      = Mark.ofOrigin origin a.answered ++ Mark.ofOrigin origin a.ready := by
  rw [next, Mark.ofOrigin_append, List.append_assoc, ← Mark.ofOrigin_append,
    List.take_append_drop]

theorem IsKept.next (h : a.IsKept all) :
    a.next.IsKept all ∧ a.lexer.next.1 ≠ .misplaced ∧
      a.next.answered.map Mark.item = a.answered.map Mark.item ++ a.lexer.next.1.items := by
  obtain ⟨items, hitems, hscanner⟩ := h.scanner
  obtain ⟨queued, left, rfl, hleft, hqueue, hplaced, -⟩ := next_conserves hitems
  have hready : a.ready = a.queue ++ queued.map (Mark.mk .scanner) := by
    rw [ready, ← hqueue, List.drop_left]
  have hmarks : a.ready.map Mark.item = a.lexer.next.1.items ++ a.lexer.next.2.queue := by
    rw [hready, ← hqueue, List.map_append, h.queue, List.map_map]
    exact congrArg _ (List.map_id _)
  refine ⟨⟨?_, ⟨left, hleft, ?_⟩, ?_⟩, hplaced, ?_⟩
  · rw [Account.next, List.map_drop, hmarks, List.drop_left]
  · rw [ofOrigin_next, hready, Mark.ofOrigin_append, Mark.ofOrigin_map_self, ← List.append_assoc,
      List.append_assoc, hscanner]
  · rw [ofOrigin_next, hready, Mark.ofOrigin_append, Mark.ofOrigin_map_of_ne (by decide),
      List.append_nil]
    exact h.user
  · rw [Account.next, List.map_append, List.map_take, hmarks, List.take_left]

/-- **Any calls** keep the account. What `next` answers is what the account says, and no call finds
the cursor misplaced. -/
theorem IsKept.calls (h : a.IsKept all) (cs : List Call) :
    (a.calls cs).IsKept all ∧ .misplaced ∉ (a.lexer.calls cs).1 ∧
      (a.calls cs).answered.map Mark.item
        = a.answered.map Mark.item ++ (a.lexer.calls cs).1.flatMap Step.items := by
  induction cs generalizing a with
  | nil => exact ⟨h, List.not_mem_nil, (List.append_nil _).symm⟩
  | cons c cs ih =>
    cases c with
    | next =>
      obtain ⟨hnext, hplaced, hanswered⟩ := h.next
      obtain ⟨hkept, hmore, hitems⟩ := ih hnext
      refine ⟨hkept, ?_, ?_⟩
      · exact List.not_mem_cons_of_ne_of_not_mem hplaced.symm hmore
      · refine hitems.trans ?_
        rw [hanswered, List.append_assoc]
        rfl
    | push item => exact ih (h.add item)
    | report fault => exact ih (h.add _)

end Account

end MiniC.Lexer
