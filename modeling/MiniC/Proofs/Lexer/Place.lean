import Mathlib.Data.List.Forall2
import MiniC.Proofs.Lexer.Lexeme
import MiniC.Proofs.Lexer.Reach

/-!
# Lines of tokens and diagnostics

A segment has a **place** in its text, which is given by what stands before it (`Place`). The lines
that the scanner counts are those of the places: a token or a diagnostic is on the line that has as
many line feeds before the first character of its segment as there are lines before
(`scan_eq_flatMap`). Lines are counted in blanks and comments only, so this rests on the fact that
nothing else takes a line feed (`Segment.lineEnds_eq_of_mem_cut`).

A segment yields one token at most and one diagnostic at most. So the tokens of a unit have places
of their own, in the same order, and so have its diagnostics. Their line numbers are those of the
places as far as 32 bits hold them, which is all the way if the unit has fewer than `2 ^ 32 - 1`
line feeds (`tokenize_lines`).
-/

namespace MiniC

/-- A **place** of a text where a segment starts. -/
structure Place where
  /-- The text before the place. -/
  before : List Char
  /-- The segment that starts there. -/
  segment : Segment

namespace Place

/-- The line of a place, counted from one. -/
def line (p : Place) : Nat := 1 + Text.lineFeeds p.before

/-- What the segment of a place yields in a unit. -/
def items (unit : String) (p : Place) : List Item := p.segment.items ⟨.ofNat p.line, unit⟩

/-- The places of segments that come after a text. -/
def allAfter : List Char → List Segment → List Place
  | _, [] => []
  | before, s :: rest => ⟨before, s⟩ :: allAfter (before ++ s.text) rest

/-- The places of a text. -/
def all (dialect : Dialect) (cs : List Char) : List Place := allAfter [] (Segment.cut dialect cs)

/-- A place **is in** a text if the scanner gets there, and takes the segment there. -/
def IsIn (dialect : Dialect) (cs : List Char) (p : Place) : Prop :=
  ∃ rest, rest ≠ [] ∧ cs = p.before ++ rest ∧ Segment.Reaches dialect cs rest ∧
    p.segment = Segment.first dialect rest

variable {dialect : Dialect} {cs : List Char}

/-! ### Places of a text -/

/-- The text goes on with the segment at each of its places. -/
theorem IsIn.exists_append {p : Place} (h : p.IsIn dialect cs) :
    ∃ after, cs = p.before ++ p.segment.text ++ after := by
  obtain ⟨rest, -, hcs, -, hsegment⟩ := h
  refine ⟨rest.drop p.segment.text.length, ?_⟩
  rw [List.append_assoc, hsegment, Segment.first_text_append_drop, ← hcs]

theorem IsIn.isPrefix_before {p : Place} (h : p.IsIn dialect cs) : p.before <+: cs := by
  obtain ⟨rest, -, hcs, -, -⟩ := h
  exact ⟨rest, hcs.symm⟩

/-- The places of a text are in it. -/
theorem isIn_of_mem_all {p : Place} (h : p ∈ all dialect cs) : p.IsIn dialect cs := by
  -- For what is left of the text, wherever the scanner gets to.
  have hrest : ∀ (rest before : List Char), cs = before ++ rest →
      Segment.Reaches dialect cs rest →
      p ∈ allAfter before (Segment.cut dialect rest) → p.IsIn dialect cs := by
    intro rest
    induction rest using Segment.cut_induction dialect with
    | nil =>
      intro before _ _ hp
      cases hp
    | step rest hne ih =>
      intro before hcs hreach hp
      rw [Segment.cut_of_ne_nil dialect hne, allAfter, List.mem_cons] at hp
      rcases hp with rfl | hp
      · exact ⟨rest, hne, hcs, hreach, rfl⟩
      · refine ih (before ++ (Segment.first dialect rest).text) ?_ ?_ hp
        · rw [List.append_assoc, Segment.first_text_append_drop, hcs]
        · exact hreach.trans (.step hne (.refl _))
  exact hrest cs [] rfl (.refl cs) h

theorem allAfter_append (before : List Char) (taken segments : List Segment) :
    allAfter before (taken ++ segments) = allAfter before taken
      ++ allAfter (before ++ (taken.map Segment.text).flatten) segments := by
  induction taken generalizing before with
  | nil => rw [List.map_nil, List.flatten_nil, List.append_nil, List.nil_append, allAfter,
      List.nil_append]
  | cons s taken ih =>
    rw [List.cons_append, allAfter, allAfter, ih, List.map_cons, List.flatten_cons,
      List.append_assoc, List.cons_append]

/-- After the segment of a place, the text is cut on as if it started there. -/
theorem IsIn.exists_all_eq {p : Place} (h : p.IsIn dialect cs) :
    ∃ earlier after, cs = p.before ++ p.segment.text ++ after ∧
      all dialect cs = earlier
        ++ p :: allAfter (p.before ++ p.segment.text) (Segment.cut dialect after) := by
  obtain ⟨rest, hne, hcs, hreach, hsegment⟩ := h
  obtain ⟨taken, hcut, htext⟩ := Segment.reaches_iff.1 hreach
  have hbefore : (taken.map Segment.text).flatten = p.before :=
    List.append_cancel_right (htext.symm.trans hcs)
  have hrest := Segment.first_text_append_drop dialect rest
  rw [← hsegment] at hrest
  refine ⟨allAfter [] taken, rest.drop p.segment.text.length, ?_, ?_⟩
  · rw [List.append_assoc, hrest, ← hcs]
  · rw [all, hcut, allAfter_append, List.nil_append, hbefore, Segment.cut_of_ne_nil dialect hne,
      ← hsegment, allAfter]

/-- The scanner gets to no other places. -/
theorem IsIn.mem_all {p : Place} (h : p.IsIn dialect cs) : p ∈ all dialect cs := by
  obtain ⟨earlier, after, -, hall⟩ := h.exists_all_eq
  rw [hall]
  exact List.mem_append_right _ List.mem_cons_self

/-- Places are in the order of the text. -/
private theorem pairwise_allAfter {segments : List Segment} (h : ∀ s ∈ segments, s.text ≠ [])
    (before : List Char) :
    (allAfter before segments).Pairwise (fun p q => p.before.length < q.before.length) ∧
      ∀ p ∈ allAfter before segments, before.length ≤ p.before.length := by
  induction segments generalizing before with
  | nil => exact ⟨.nil, nofun⟩
  | cons s segments ih =>
    obtain ⟨hpairwise, hle⟩ := ih (fun s' hs' => h s' (List.mem_cons_of_mem s hs'))
      (before ++ s.text)
    have hpos := List.length_pos_iff.2 (h s List.mem_cons_self)
    have hlt : ∀ p ∈ allAfter (before ++ s.text) segments, before.length < p.before.length := by
      intro p hp
      have := hle p hp
      rw [List.length_append] at this
      omega
    refine ⟨List.pairwise_cons.2 ⟨hlt, hpairwise⟩, fun p hp => ?_⟩
    rcases List.mem_cons.1 hp with rfl | hp
    · exact Nat.le_refl _
    · exact Nat.le_of_lt (hlt p hp)

theorem pairwise_all (dialect : Dialect) (cs : List Char) :
    (all dialect cs).Pairwise fun p q => p.before.length < q.before.length :=
  (pairwise_allAfter (fun _ hs => Segment.text_ne_nil_of_mem_cut dialect hs) []).1

/-- The segment at a place is a lexeme. -/
theorem IsIn.lexeme {p : Place} (h : p.IsIn dialect cs) (position : Position) :
    Lexeme position p.segment.text (p.segment.items position) := by
  obtain ⟨rest, hne, -, -, hsegment⟩ := h
  rw [hsegment]
  exact Segment.lexeme_first hne position

/-- What is before a place is before every later one too. -/
theorem IsIn.prefix_of_le {p q : Place} (hp : p.IsIn dialect cs) (hq : q.IsIn dialect cs)
    (h : p.before.length ≤ q.before.length) : p.before <+: q.before :=
  List.prefix_of_prefix_length_le hp.isPrefix_before hq.isPrefix_before h

/-- A later place of a text is on the same line or on a later one. -/
theorem IsIn.line_le {p q : Place} (hp : p.IsIn dialect cs) (hq : q.IsIn dialect cs)
    (h : p.before.length ≤ q.before.length) : p.line ≤ q.line :=
  Nat.add_le_add_left ((hp.prefix_of_le hq h).sublist.count_le _) 1

/-! ### Lines -/

/-- A text with few enough line feeds has a line number for each of its places. -/
theorem IsIn.toNat_line {p : Place} (h : p.IsIn dialect cs)
    (hfew : Text.lineFeeds cs < UInt32.size - 1) : (LineNumber.ofNat p.line).toNat = p.line := by
  have hle : Text.lineFeeds p.before ≤ Text.lineFeeds cs := h.isPrefix_before.sublist.count_le _
  refine LineNumber.toNat_ofNat_of_lt ?_
  rw [line]
  omega

/-- The line that is counted along segments is that of their places. -/
theorem itemsFrom_eq_flatMap {segments : List Segment}
    (h : ∀ s ∈ segments, s.lineEnds = Text.lineFeeds s.text) (unit : String)
    (before : List Char) :
    Segment.itemsFrom unit (.ofNat (1 + Text.lineFeeds before)) segments
      = (allAfter before segments).flatMap (items unit) := by
  induction segments generalizing before with
  | nil => rfl
  | cons s segments ih =>
    have hline : (LineNumber.ofNat (1 + Text.lineFeeds before)).after s.lineEnds
        = .ofNat (1 + Text.lineFeeds (before ++ s.text)) := by
      rw [LineNumber.after_ofNat, h s List.mem_cons_self, Text.lineFeeds, Text.lineFeeds,
        Text.lineFeeds, List.count_append, Nat.add_assoc]
    rw [Segment.itemsFrom, hline, ih fun s' hs' => h s' (List.mem_cons_of_mem s hs'), allAfter,
      List.flatMap_cons]
    rfl

end Place

/-! ### Open comments -/

/-- An open comment starts at one of the places. -/
theorem hasOpenComment_iff_exists_place {dialect : Dialect} {cs : List Char} :
    HasOpenComment dialect cs
      ↔ ∃ p ∈ Place.all dialect cs, OpensComment (cs.drop p.before.length) := by
  constructor
  · rintro ⟨rest, hreach, hopen⟩
    obtain ⟨taken, hcut, htext⟩ := Segment.reaches_iff.1 hreach
    have hne : rest ≠ [] := by
      obtain ⟨comment, rfl, -⟩ := hopen
      exact List.cons_ne_nil _ _
    have hin : Place.IsIn dialect cs
        ⟨(taken.map Segment.text).flatten, Segment.first dialect rest⟩ :=
      ⟨rest, hne, htext, hreach, rfl⟩
    refine ⟨_, hin.mem_all, ?_⟩
    dsimp only
    rw [htext, List.drop_left]
    exact hopen
  · rintro ⟨p, hp, hopen⟩
    obtain ⟨rest, -, hcs, hreach, -⟩ := Place.isIn_of_mem_all hp
    rw [hcs, List.drop_left] at hopen
    exact ⟨rest, hreach, hopen⟩

theorem opensComment_iff {cs : List Char} :
    OpensComment cs ↔ ['/', '*'] <+: cs ∧ Pattern.throughCommentEnd? (cs.drop 2) = none := by
  constructor
  · rintro ⟨rest, rfl, hopen⟩
    exact ⟨⟨rest, rfl⟩, (Pattern.throughCommentEnd?_eq_none_iff rest).2 hopen⟩
  · rintro ⟨⟨rest, rfl⟩, hopen⟩
    exact ⟨rest, rfl, (Pattern.throughCommentEnd?_eq_none_iff rest).1 hopen⟩

instance (cs : List Char) : Decidable (OpensComment cs) :=
  decidable_of_iff' _ opensComment_iff

instance (dialect : Dialect) (cs : List Char) : Decidable (HasOpenComment dialect cs) :=
  decidable_of_iff' _ hasOpenComment_iff_exists_place

/-! ### Items of a unit -/

/-- A unit yields what its places yield, each on the line of the place. -/
theorem scan_eq_flatMap (dialect : Dialect) (unit : Option String) (source : String) :
    scan dialect unit source
      = (Place.all dialect source.toList).flatMap
          (Place.items (unit.getD Position.anonymousUnit)) :=
  Place.itemsFrom_eq_flatMap (fun _ hs => Segment.lineEnds_eq_of_mem_cut dialect hs) _ []

/-! ### Items in order -/

/-- An item that **comes from** a place of a text: it is yielded there, and its line number is that
of the place. -/
structure Item.ComesFrom (dialect : Dialect) (cs : List Char) (item : Item) (p : Place) : Prop where
  isIn : p.IsIn dialect cs
  mem_items : item ∈ p.segment.items (Item.position item)
  number_eq : (Item.position item).number = .ofNat p.line

/-- Items that **stand in order** at places of a text: each comes from a place of its own, and the
places follow each other. -/
structure StandInOrder (dialect : Dialect) (cs : List Char) (places : List Place)
    (items : List Item) : Prop where
  increasing : places.Pairwise fun p q => p.before.length < q.before.length
  comesFrom : List.Forall₂ (fun p item => Item.ComesFrom dialect cs item p) places items

variable {dialect : Dialect}

/-- The place that an item comes from stands where the item does. -/
theorem StandInOrder.exists_place {cs : List Char} {places : List Place} {items : List Item}
    (h : StandInOrder dialect cs places items) {k : Nat} {item : Item}
    (hitem : items[k]? = some item) :
    ∃ p, places[k]? = some p ∧ Item.ComesFrom dialect cs item p := by
  obtain ⟨hk, rfl⟩ := List.getElem?_eq_some_iff.1 hitem
  obtain ⟨hlength, hitems⟩ := List.forall₂_iff_get.1 h.comesFrom
  exact ⟨places[k], List.getElem?_eq_getElem (hlength ▸ hk), hitems k (hlength ▸ hk) hk⟩

/-- An item is on the line of its place, if the text has few enough line feeds. -/
theorem Item.ComesFrom.line_eq {cs : List Char} {item : Item} {p : Place}
    (h : Item.ComesFrom dialect cs item p) (hfew : Text.lineFeeds cs < UInt32.size - 1) :
    (Item.position item).line = p.line := by
  rw [Position.line, h.number_eq, h.isIn.toNat_line hfew]

/-- So are items that stand in order. -/
theorem StandInOrder.map_line {cs : List Char} {places : List Place} {items : List Item}
    (h : StandInOrder dialect cs places items) (hfew : Text.lineFeeds cs < UInt32.size - 1) :
    items.map (fun item => (Item.position item).line) = places.map Place.line := by
  have hlines := h.comesFrom.imp fun p item hp => (hp.line_eq hfew).symm
  exact (List.forall₂_eq_eq_eq ▸ List.forall₂_map_left_iff.2
    (List.forall₂_map_right_iff.2 hlines)).symm

/-- The lines of places in order do not decrease. -/
theorem StandInOrder.pairwise_line {cs : List Char} {places : List Place} {items : List Item}
    (h : StandInOrder dialect cs places items) :
    (places.map Place.line).Pairwise (· ≤ ·) := by
  obtain ⟨hlength, hitems⟩ := List.forall₂_iff_get.1 h.comesFrom
  have hin {i : Nat} (hi : i < places.length) : places[i].IsIn dialect cs :=
    (hitems i hi (hlength ▸ hi)).isIn
  refine List.pairwise_map.2 (List.pairwise_iff_getElem.2 fun i j hi hj hij => ?_)
  have hlt := List.pairwise_iff_getElem.1 h.increasing i j hi hj hij
  exact (hin hi).line_le (hin hj) (Nat.le_of_lt hlt)

/-- An item of a unit carries the name of the unit, and comes from one of its places. -/
theorem Item.position_of_mem_scan {unit : Option String} {source : String} {item : Item}
    (h : item ∈ scan dialect unit source) :
    (Item.position item).unit = unit.getD Position.anonymousUnit ∧
      ∃ p, Item.ComesFrom dialect source.toList item p := by
  rw [scan_eq_flatMap] at h
  obtain ⟨p, hp, hitem⟩ := List.mem_flatMap.1 h
  have hin := Place.isIn_of_mem_all hp
  have hposition := (hin.lexeme ⟨.ofNat p.line, unit.getD Position.anonymousUnit⟩).position_eq hitem
  refine ⟨by rw [hposition], p, hin, ?_, ?_⟩
  · rw [hposition]
    exact hitem
  · rw [hposition]

/-- The items of one sort stand in order, if no place has two of them. -/
private theorem exists_standInOrder_flatMap {sort : Item → Bool} {cs : List Char} {unit : String}
    {ps : List Place} (hps : ∀ p ∈ ps, p.IsIn dialect cs)
    (hpairwise : ps.Pairwise fun p q => p.before.length < q.before.length)
    (hone : ∀ p ∈ ps, ((p.items unit).filter sort).length ≤ 1) :
    ∃ places, StandInOrder dialect cs places ((ps.flatMap (Place.items unit)).filter sort) := by
  -- The places without such an item are left out.
  refine ⟨ps.filter fun p => !((p.items unit).filter sort).isEmpty,
    hpairwise.sublist List.filter_sublist, ?_⟩
  clear hpairwise
  induction ps with
  | nil => exact .nil
  | cons p ps ih =>
    obtain ⟨hp, hps⟩ := List.forall_mem_cons.1 hps
    obtain ⟨hle, hone⟩ := List.forall_mem_cons.1 hone
    rw [List.filter_cons, List.flatMap_cons, List.filter_append]
    rcases hitems : (p.items unit).filter sort with - | ⟨item, items⟩
    · simpa using ih hps hone
    · rw [hitems, List.length_cons] at hle
      have hnil : items = [] := List.eq_nil_of_length_eq_zero (by omega)
      have hmem : item ∈ p.items unit := List.mem_of_mem_filter (hitems ▸ List.mem_cons_self)
      have hposition := (hp.lexeme ⟨.ofNat p.line, unit⟩).position_eq hmem
      rw [hnil]
      simp only [List.isEmpty_cons, Bool.not_false, if_true, List.singleton_append]
      refine .cons ⟨hp, ?_, ?_⟩ (ih hps hone)
      · rw [hposition]
        exact hmem
      · rw [hposition]

/-- The items of one sort stand in order in a unit, if no lexeme yields two of them. -/
theorem exists_standInOrder_scan {sort : Item → Bool}
    (hone : ∀ {position : Position} {text : List Char} {items : List Item},
      Lexeme position text items → (items.filter sort).length ≤ 1)
    (unit : Option String) (source : String) :
    ∃ places,
      StandInOrder dialect source.toList places ((scan dialect unit source).filter sort) := by
  rw [scan_eq_flatMap]
  exact exists_standInOrder_flatMap (fun p hp => Place.isIn_of_mem_all hp)
    (Place.pairwise_all dialect source.toList)
    fun p hp => hone ((Place.isIn_of_mem_all hp).lexeme _)

private theorem Item.map_ok_tokens (items : List Item) :
    (Item.tokens items).map Except.ok = items.filter Except.isOk := by
  induction items with
  | nil => rfl
  | cons item items ih =>
    cases item with
    | ok t => exact congrArg (Except.ok t :: ·) ih
    | error d => exact ih

private theorem Item.map_error_diagnostics (items : List Item) :
    (Item.diagnostics items).map Except.error = items.filter (!·.isOk) := by
  induction items with
  | nil => rfl
  | cons item items ih =>
    cases item with
    | ok t => exact ih
    | error d => exact congrArg (Except.error d :: ·) ih

/-- The tokens of a unit stand in order in its text. -/
theorem exists_standInOrder_tokens (dialect : Dialect) (unit : Option String) (source : String) :
    ∃ places, StandInOrder dialect source.toList places
      ((tokenize dialect unit source).1.map Except.ok) := by
  rw [tokenize, Item.map_ok_tokens]
  exact exists_standInOrder_scan (fun h => h.length_filter_isOk_le) unit source

/-- The diagnostics of the scanner stand in order in the text. -/
theorem exists_standInOrder_diagnostics (dialect : Dialect) (unit : Option String)
    (source : String) :
    ∃ places, StandInOrder dialect source.toList places
      ((tokenize dialect unit source).2.map Except.error) := by
  rw [tokenize, Item.map_error_diagnostics]
  exact exists_standInOrder_scan (fun h => h.length_filter_not_isOk_le) unit source

/-- **Lines.** Tokens and diagnostics are on the lines of their places: on line `1 + n` if there are
`n` line feeds before the first character of the segment. So neither the lines of the tokens nor
those of the diagnostics ever decrease. The unit must have fewer than `2 ^ 32 - 1` line feeds. -/
theorem tokenize_lines (dialect : Dialect) (unit : Option String) {source : String}
    (hfew : Text.lineFeeds source.toList < UInt32.size - 1) :
    (∃ places, StandInOrder dialect source.toList places
        ((tokenize dialect unit source).1.map Except.ok) ∧
      (tokenize dialect unit source).1.map (fun t => t.position.line) = places.map Place.line) ∧
    (∃ places, StandInOrder dialect source.toList places
        ((tokenize dialect unit source).2.map Except.error) ∧
      (tokenize dialect unit source).2.map (fun d => d.position.line) = places.map Place.line) ∧
    (tokenize dialect unit source).1.Pairwise (fun t t' => t.position.line ≤ t'.position.line) ∧
    (tokenize dialect unit source).2.Pairwise
      (fun d d' => d.position.line ≤ d'.position.line) := by
  obtain ⟨places, htokens⟩ := exists_standInOrder_tokens dialect unit source
  obtain ⟨places', hdiagnostics⟩ := exists_standInOrder_diagnostics dialect unit source
  have htokenLines := htokens.map_line hfew
  have hdiagnosticLines := hdiagnostics.map_line hfew
  rw [List.map_map] at htokenLines hdiagnosticLines
  refine ⟨⟨places, htokens, htokenLines⟩, ⟨places', hdiagnostics, hdiagnosticLines⟩, ?_, ?_⟩
  · have hpairwise := htokens.pairwise_line
    rw [← htokenLines] at hpairwise
    exact List.pairwise_map.1 hpairwise
  · have hpairwise := hdiagnostics.pairwise_line
    rw [← hdiagnosticLines] at hpairwise
    exact List.pairwise_map.1 hpairwise

/-- A comment over a line end, and characters that are skipped before it and after it. -/
theorem tokenize_lines_comment :
    Text.lineFeeds "x $\n/* a\nb */ y #".toList < UInt32.size - 1 ∧
      (∃ places, StandInOrder {} "x $\n/* a\nb */ y #".toList places
          ((tokenize {} none "x $\n/* a\nb */ y #").1.map Except.ok) ∧
        places.map Place.line = [1, 3]) ∧
      ∃ places, StandInOrder {} "x $\n/* a\nb */ y #".toList places
          ((tokenize {} none "x $\n/* a\nb */ y #").2.map Except.error) ∧
        places.map Place.line = [1, 3] := by
  have hfew : Text.lineFeeds "x $\n/* a\nb */ y #".toList < UInt32.size - 1 := by decide +kernel
  obtain ⟨⟨places, htokens, hlines⟩, ⟨places', hdiagnostics, hlines'⟩, -⟩ :=
    tokenize_lines {} none hfew
  refine ⟨hfew, ⟨places, htokens, hlines.symm.trans ?_⟩,
    ⟨places', hdiagnostics, hlines'.symm.trans ?_⟩⟩ <;> decide +kernel

end MiniC
