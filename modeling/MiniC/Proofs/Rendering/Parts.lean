import MiniC.Proofs.Rendering.Expressions

/-!
# Rendered parts of statements

The texts of assignments, declarators and case labels, and of the words and braces around them,
yield tokens that derive them.
-/

namespace MiniC

open Pattern Phrase

variable {dialect : Dialect}

/-! ### Assignments and declarators -/

/-- **Assignments are read back.** -/
theorem Assignment.readsBack (unit : String) (line : LineNumber) {a : Assignment}
    (h : a.WellFormed dialect) :
    ReadsBack dialect unit line (IsAssignment dialect) (Stops isNumeralRest) a.render a
      a.nesting := by
  obtain ⟨target, op, value⟩ := a
  obtain ⟨hvalue, hexpression⟩ := Expr.readsBack_isExpression unit line h.2
  obtain ⟨k, hspelling, hop⟩ := op.exists_kind
  have hname : Yields dialect unit line target.toList _ _ := .name h.1
  have htext := hname.append (.operator k hspelling) fun rest =>
    stops_isWordRest (stops_of_spelling k hspelling rest)
  have htext := htext.append hvalue (Expr.detached h.2).stops_isPunctuatorRest
  exact ⟨htext, .mk (t := ⟨k, op.symbol, none, ⟨line, unit⟩⟩) rfl hop hexpression⟩

/-- **Declarators are read back.** -/
theorem Declarator.readsBack (unit : String) (line : LineNumber) {d : Declarator}
    (h : d.WellFormed dialect) :
    ReadsBack dialect unit line (IsDeclarator dialect) (Stops isNumeralRest) d.render d
      d.nesting := by
  obtain ⟨name, initializer⟩ := d
  have hname : Yields dialect unit line name.toList _ _ := .name h.1
  cases initializer with
  | none => exact ⟨hname.mono fun _ => stops_isWordRest, .mk rfl .none⟩
  | some value =>
    have hvalue := h.2 value rfl
    obtain ⟨htext', hexpression⟩ := Expr.readsBack_isExpression unit line hvalue
    have htext := hname.append (.operator .assign rfl) fun rest =>
      stops_isWordRest (stops_of_spelling .assign rfl rest)
    have htext := htext.append htext' (Expr.detached hvalue).stops_isPunctuatorRest
    refine ⟨htext, ?_⟩
    exact .mk rfl (.some (.mk (t := ⟨.assign, "=", none, ⟨line, unit⟩⟩) rfl hexpression))

theorem Declarator.detached {d : Declarator} (h : d.WellFormed dialect) :
    Detached d.render.toList := by
  obtain ⟨name, initializer⟩ := d
  have hname : Detached name.toList := IsName.detached h.1
  cases initializer with
  | none => exact hname
  | some value =>
    simp only [render, String.toList_append, List.append_assoc]
    exact hname.append _

/-- Texts with something between them are detached if the first one is. -/
theorem Detached.intercalate {s : String} (h : Detached s.toList) (between : String)
    (texts : List String) : Detached (String.intercalate between (s :: texts)).toList := by
  cases texts with
  | nil => rwa [String.intercalate_singleton]
  | cons s' texts =>
    rw [String.intercalate_cons_cons, String.toList_append, String.toList_append,
      List.append_assoc]
    exact h.append _

/-- Declarators between commas are read back. -/
theorem Declarator.yields_intercalate (unit : String) (line : LineNumber) (d : Declarator)
    (ds : List Declarator) (h : ∀ d' ∈ d :: ds, d'.WellFormed dialect) :
    ∃ ts ts', Yields dialect unit line (String.intercalate "," ((d :: ds).map render)).toList
        (ts ++ ts') (Stops isNumeralRest) ∧
      IsDeclarator dialect ts d d.nesting ∧
        Many (After .comma (IsDeclarator dialect)) ts' ds (nestingIn ds) := by
  induction ds generalizing d with
  | nil =>
    obtain @⟨ts, htext, hd⟩ := readsBack unit line (h d List.mem_cons_self)
    refine ⟨ts, [], ?_, hd, .nil⟩
    rwa [List.map_singleton, String.intercalate_singleton, List.append_nil]
  | cons d' ds ih =>
    obtain @⟨ts, hfirst, hd⟩ := readsBack unit line (h d List.mem_cons_self)
    obtain ⟨us, us', hmore, hd', hds⟩ := ih d' fun e he => h e (List.mem_cons_of_mem d he)
    have htext := hfirst.append (.mark .comma rfl rfl) (stops_of_spelling .comma rfl)
    have htext := htext.append hmore fun _ => trivial
    refine ⟨ts, ⟨.comma, ",", none, ⟨line, unit⟩⟩ :: (us ++ us'), ?_, hd, ?_⟩
    · rw [List.map_cons, List.map_cons, String.intercalate_cons_cons]
      simpa using htext
    · exact .cons (.mk (t := ⟨.comma, ",", none, ⟨line, unit⟩⟩) rfl hd') hds

/-! ### Case labels -/

theorem CaseLabel.detached {label : CaseLabel} (h : label.WellFormed) :
    Detached label.render.toList := by
  cases label with
  | identifier name => exact IsName.detached h
  | number value => exact Number.detached h
  | char value => exact detached_quotedChar value

/-- **Case labels are read back.** -/
theorem CaseLabel.readsBack (dialect : Dialect) (unit : String) (line : LineNumber)
    {label : CaseLabel} (h : label.WellFormed) :
    ReadsBack dialect unit line IsCaseLabel (Stops isNumeralRest) label.render label 0 := by
  cases label with
  | identifier name => exact ⟨(Yields.name h).mono fun _ => stops_isWordRest, .identifier rfl⟩
  | number value =>
    refine ⟨.number h, ?_⟩
    cases value with
    | int value => exact .int rfl rfl
    | float value => exact .float rfl rfl
  | char value => exact ⟨(Yields.charLiteral h).mono fun _ _ => trivial, .char rfl rfl⟩

theorem CaseLabel.renderAll_cons (label : CaseLabel) (labels : List CaseLabel) :
    renderAll (label :: labels) = "case " ++ label.render ++ ":" ++ renderAll labels := by
  rw [renderAll, List.map_cons, String.join_cons, renderAll]

/-- The labels of a case group are read back. -/
theorem CaseLabel.readsBack_all (dialect : Dialect) (unit : String) (line : LineNumber)
    (labels : List CaseLabel) (h : ∀ label ∈ labels, label.WellFormed) :
    ReadsBack dialect unit line (Many (Between .caseWord .colon IsCaseLabel)) (fun _ => True)
      (renderAll labels) labels 0 := by
  induction labels with
  | nil => exact ⟨.nil _, .nil⟩
  | cons label labels ih =>
    have hlabel := h label List.mem_cons_self
    obtain @⟨ts, htext, hts⟩ := readsBack dialect unit line hlabel
    obtain ⟨hmore, hts'⟩ := ih fun label' h' => h label' (List.mem_cons_of_mem label h')
    have hword : Yields dialect unit line "case".toList _ _ := .reserved rfl
    have hword : Yields dialect unit line "case ".toList _ _ :=
      hword.append .space fun _ => stops_cons.2 rfl
    have htext := hword.append htext (detached hlabel).stops_isSpacing
    have htext := htext.append (.mark .colon rfl rfl) (stops_of_spelling .colon rfl)
    have htext := htext.append hmore fun _ => trivial
    rw [renderAll_cons]
    refine ⟨htext, ?_⟩
    have hbetween : Between .caseWord .colon IsCaseLabel
        (⟨.caseWord, "case", none, ⟨line, unit⟩⟩ :: (ts ++ [⟨.colon, ":", none, ⟨line, unit⟩⟩]))
        label 0 := .mk rfl hts rfl
    simpa using Many.cons hbetween hts'

end MiniC
