import MiniC.Lexer.Tokenize

/-!
# Items together, items elsewhere, and some of the items

Segments one after the other yield their items one after the other (`Segment.itemsFrom_append`).

What a segment yields at another place is what it yields here, with every position moved along
(`Segment.items_move`). So a test that does not look at positions tells segments apart once and for
all (`Segment.any_items`).

If items are left out that are no tokens, the tokens are the same as before
(`Item.tokens_filter`), and so are the diagnostics that are not left out
(`Item.diagnostics_filter`).
-/

namespace MiniC

/-! ### Items one after the other -/

/-- The line on which segments end that start on the given line. -/
def Segment.lineAfter (line : LineNumber) (segments : List Segment) : LineNumber :=
  segments.foldl (fun line s => line.after s.lineEnds) line

theorem Segment.itemsFrom_append (unit : String) (line : LineNumber)
    (segments segments' : List Segment) :
    itemsFrom unit line (segments ++ segments')
      = itemsFrom unit line segments ++ itemsFrom unit (lineAfter line segments) segments' := by
  induction segments generalizing line with
  | nil => rfl
  | cons s segments ih =>
    rw [List.cons_append, itemsFrom, itemsFrom, ih, List.append_assoc]
    rfl

/-- A segment without line ends leaves the line as it is. -/
theorem Segment.itemsFrom_cons_of_lineEnds {s : Segment} (h : s.lineEnds = 0) (unit : String)
    (line : LineNumber) (segments : List Segment) :
    itemsFrom unit line (s :: segments)
      = s.items ⟨line, unit⟩ ++ itemsFrom unit line segments := by
  rw [itemsFrom, h, LineNumber.after_zero]

theorem Item.tokens_append (items items' : List Item) :
    tokens (items ++ items') = tokens items ++ tokens items' := List.filterMap_append

theorem Item.diagnostics_append (items items' : List Item) :
    diagnostics (items ++ items') = diagnostics items ++ diagnostics items' :=
  List.filterMap_append

/-! ### Items elsewhere -/

/-- The token at the position that its own is moved to. -/
def Token.move (f : Position → Position) (t : Token) : Token := { t with position := f t.position }

/-- The diagnostic at the position that its own is moved to. -/
def Diagnostic.move (f : Position → Position) (d : Diagnostic) : Diagnostic :=
  { d with position := f d.position }

/-- The item at the position that its own is moved to. -/
def Item.move (f : Position → Position) : Item → Item
  | .ok t => .ok (t.move f)
  | .error d => .error (d.move f)

/-- What a segment yields moves with it. -/
theorem Segment.items_move (s : Segment) (f : Position → Position) (position : Position) :
    s.items (f position) = (s.items position).map (Item.move f) := by
  obtain ⟨pattern, text⟩ := s
  cases pattern with
  | none =>
    rw [items, items, List.map_map]
    rfl
  | some p =>
    cases p with
    | numeral =>
      rw [items, items]
      cases Numeral.value? text <;> rfl
    | charLiteral =>
      rw [items, items]
      dsimp only
      split <;> rfl
    | _ => rfl

/-- A test that does not look at positions gives the same for a segment everywhere. -/
theorem Segment.any_items {test : Item → Bool}
    (htest : ∀ f item, test (Item.move f item) = test item) (s : Segment)
    (position position' : Position) :
    (s.items position).any test = (s.items position').any test := by
  have hmove := s.items_move (fun _ => position) position'
  rw [hmove, List.any_map]
  congr 1
  funext item
  exact htest _ item

namespace Item

theorem tokens_map_move (f : Position → Position) (items : List Item) :
    tokens (items.map (move f)) = (tokens items).map (Token.move f) := by
  rw [tokens, tokens, List.filterMap_map, List.map_filterMap]
  congr 1
  funext item
  cases item <;> rfl

theorem diagnostics_map_move (f : Position → Position) (items : List Item) :
    diagnostics (items.map (move f)) = (diagnostics items).map (Diagnostic.move f) := by
  rw [diagnostics, diagnostics, List.filterMap_map, List.map_filterMap]
  congr 1
  funext item
  cases item <;> rfl

/-! ### Some of the items -/

theorem tokens_filter {keep : Item → Bool} (h : ∀ t, keep (.ok t) = true) (items : List Item) :
    tokens (items.filter keep) = tokens items := by
  rw [tokens, tokens, List.filterMap_filter]
  congr 1
  funext item
  cases item with
  | ok t => exact if_pos (h t)
  | error d => exact ite_self none

theorem diagnostics_filter (keep : Item → Bool) (items : List Item) :
    diagnostics (items.filter keep) = (diagnostics items).filter fun d => keep (.error d) := by
  rw [diagnostics, diagnostics, List.filterMap_filter, List.filter_filterMap]
  congr 1
  funext item
  cases item with
  | ok t => exact ite_self none
  | error d => rw [Option.filter_some]

end Item

end MiniC
