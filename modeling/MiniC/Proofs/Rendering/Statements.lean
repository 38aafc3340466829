import MiniC.Proofs.Rendering.Parts

/-!
# Rendered statements

The text of a well-formed statement reads back as the statement (`Stmt.readsBack`), and so does that
of a block. Statements end with a semicolon or a brace, so anything may follow them. They start with
a word, so they may follow a blank, which keeps two statements of a block apart.

There is one lemma for each form of statements: if its parts read back, then so does the statement.
-/

namespace MiniC

open Pattern Phrase

variable {dialect : Dialect} {unit : String} {line : LineNumber}

/-! ### Words and braces -/

/-- A reserved word before a parenthesis. -/
theorem Yields.call {kind : Kind} (word : String) (h : Kind.reserved? word = some kind) :
    Yields dialect unit line (word ++ "(").toList
      [⟨kind, word, none, ⟨line, unit⟩⟩, ⟨.openParen, "(", none, ⟨line, unit⟩⟩]
      (fun _ => True) := by
  have hword : Yields dialect unit line word.toList _ _ := .reserved h
  exact hword.append (.mark .openParen rfl rfl) fun rest =>
    stops_isWordRest (stops_of_spelling .openParen rfl rest)

/-- A condition in parentheses, after a reserved word. -/
private theorem Condition.readsBack_call {kind : Kind} {c : Condition} (word : String)
    (h : Kind.reserved? word = some kind) (hc : c.WellFormed dialect) :
    ReadsBack dialect unit line
      (After kind (Between .openParen .closeParen (IsCondition dialect))) (fun _ => True)
      (word ++ "(" ++ c.render ++ ")") c c.nesting := by
  obtain @⟨ts, htext, hcondition⟩ := Condition.readsBack unit line hc
  have hcall := (Yields.call word h).append htext fun _ => trivial
  have hcall := hcall.append (.mark .closeParen rfl rfl) (stops_of_spelling .closeParen rfl)
  refine ⟨hcall, ?_⟩
  have hderives : After kind (Between .openParen .closeParen (IsCondition dialect))
      (⟨kind, word, none, ⟨line, unit⟩⟩ ::
        ⟨.openParen, "(", none, ⟨line, unit⟩⟩ :: (ts ++ [⟨.closeParen, ")", none, ⟨line, unit⟩⟩]))
      c c.nesting := .mk rfl (.mk rfl hcondition rfl)
  simpa using hderives

/-- A brace goes on with no word. -/
private theorem stops_inBraces (texts : List String) (rest : List Char) :
    Stops isWordRest ((inBraces texts).toList ++ rest) := by
  rw [inBraces, String.toList_append, String.toList_append, List.append_assoc, List.append_assoc]
  exact stops_isWordRest (stops_of_spelling .openCurly rfl _)

/-- Well-formed statements are detached. -/
theorem Stmt.detached {s : Stmt} (h : s.WellFormed dialect) : Detached s.render.toList := by
  cases s with
  | declaration type declarators =>
    have htype : Detached type.word.toList := by cases type <;> exact ⟨_, _, rfl, rfl, rfl⟩
    simp only [render, String.toList_append, List.append_assoc]
    exact htype.append _
  | assignment a =>
    simp only [render, Assignment.render, String.toList_append, List.append_assoc]
    exact (IsName.detached h.1).append _
  | conditional | switch | whileLoop | forLoop | leave =>
    simp only [render, String.toList_append, List.append_assoc]
    exact ⟨_, _, rfl, rfl, rfl⟩

/-! ### Blocks -/

/-- That a statement reads back. -/
abbrev Stmt.SelfReadsBack (dialect : Dialect) (unit : String) (line : LineNumber) (s : Stmt) :
    Prop :=
  ReadsBack dialect unit line (IsStatement dialect) (fun _ => True) s.render s s.nesting

/-- That the statements of a block read back, one after the other. -/
abbrev Stmt.EachReadsBack (dialect : Dialect) (unit : String) (line : LineNumber)
    (block : Block) : Prop :=
  ReadsBack dialect unit line (Many (IsStatement dialect)) (fun _ => True)
    (String.intercalate " " (renderEach block)) block (nestingIn block)

/-- Statements in braces are a block. -/
theorem Stmt.EachReadsBack.inBraces {block : Block} (h : EachReadsBack dialect unit line block) :
    ReadsBack dialect unit line (IsBlock (IsStatement dialect)) (fun _ => True)
      (inBraces (renderEach block)) block (nestingIn block + 1) := by
  obtain ⟨htext, hblock⟩ := h
  have hopen : Yields dialect unit line "\x7b".toList _ _ := .mark .openCurly rfl rfl
  have hbraces := hopen.append htext fun _ => trivial
  have hbraces := hbraces.append (.mark .closeCurly rfl rfl) fun _ => trivial
  refine ⟨hbraces, ?_⟩
  exact .mk (.mk rfl hblock rfl)

/-- A statement before the other ones of a block. -/
theorem Stmt.EachReadsBack.cons {s : Stmt} {rest : Block}
    (hwell : Stmt.AllWellFormed dialect (s :: rest)) (h : SelfReadsBack dialect unit line s)
    (hrest : EachReadsBack dialect unit line rest) :
    EachReadsBack dialect unit line (s :: rest) := by
  obtain ⟨htext, hs⟩ := h
  obtain ⟨htext', hrest⟩ := hrest
  rw [EachReadsBack, renderEach, nestingIn]
  cases rest with
  | nil =>
    rw [renderEach, String.intercalate_singleton]
    refine ⟨htext, ?_⟩
    simpa [nestingIn] using Many.cons hs .nil
  | cons s' rest =>
    -- The blank between two statements takes nothing of the second one.
    have hdetached := (Stmt.detached hwell.2.1).intercalate " " (renderEach rest)
    have hblock := htext.append .space fun _ => trivial
    have hblock := hblock.append htext' hdetached.stops_isSpacing
    rw [renderEach, String.intercalate_cons_cons]
    refine ⟨hblock, ?_⟩
    simpa using Many.cons hs hrest

/-- A block after a word, if there is one. -/
private theorem Stmt.readsBack_after {word : String} {ts : List Token} {P : Phrase Block}
    {option : Option Block} (hword : Yields dialect unit line word.toList ts (Stops isWordRest))
    (hP : ∀ ts' block n, IsBlock (IsStatement dialect) ts' block n → P (ts ++ ts') block n)
    (h : ∀ block ∈ option, EachReadsBack dialect unit line block) :
    ReadsBack dialect unit line (Optional P) (fun _ => True) (renderAfter word option) option
      (nestingInOption option) := by
  cases option with
  | none => exact ⟨.nil _, .none⟩
  | some block =>
    obtain ⟨htext, hblock⟩ := (h block rfl).inBraces
    refine ⟨hword.append htext (stops_inBraces _), .some ?_⟩
    exact hP _ block _ hblock

/-! ### Forms of statements -/

namespace Stmt

theorem readsBack_declaration (type : TypeName) {declarators : List Declarator}
    (h : (declaration type declarators).WellFormed dialect) :
    SelfReadsBack dialect unit line (.declaration type declarators) := by
  obtain ⟨hne, hdeclarators⟩ := h
  obtain ⟨d, ds, rfl⟩ := List.exists_cons_of_ne_nil hne
  obtain ⟨ts, ts', htext, hd, hds⟩ := Declarator.yields_intercalate unit line d ds hdeclarators
  have hdetached := (Declarator.detached (hdeclarators d List.mem_cons_self)).intercalate ","
    (ds.map Declarator.render)
  -- The blank after the type takes nothing of the first name.
  have hreserved : Kind.reserved? type.word = some .type := by cases type <;> rfl
  have hword : Yields dialect unit line type.word.toList _ _ := .reserved hreserved
  have hstatement := hword.append .space fun _ => stops_cons.2 rfl
  have hstatement := hstatement.append htext hdetached.stops_isSpacing
  have hstatement := hstatement.append (.mark .semicolon rfl rfl) (stops_of_spelling .semicolon rfl)
  rw [SelfReadsBack, render, nesting]
  refine ⟨hstatement, ?_⟩
  have hderives : IsStatement dialect
      (⟨.type, type.word, none, ⟨line, unit⟩⟩ ::
        (ts ++ (ts' ++ [⟨.semicolon, ";", none, ⟨line, unit⟩⟩])))
      (declaration type (d :: ds)) (max d.nesting (Declarator.nestingIn ds)) :=
    .declaration rfl (TypeName.ofWord?_word type) hd hds rfl
  simpa [Declarator.nestingIn] using hderives

private theorem readsBack_assignment {a : Assignment} (h : a.WellFormed dialect) :
    SelfReadsBack dialect unit line (.assignment a) := by
  obtain ⟨htext, ha⟩ := Assignment.readsBack unit line h
  have hstatement := htext.append (.mark .semicolon rfl rfl) (stops_of_spelling .semicolon rfl)
  rw [SelfReadsBack, render, nesting]
  exact ⟨hstatement, .assignment ha rfl⟩

private theorem readsBack_conditional {condition : Condition} {thenBlock : Block}
    {elseBlock : Option Block} (hcondition : condition.WellFormed dialect)
    (hthen : EachReadsBack dialect unit line thenBlock)
    (helse : ∀ block ∈ elseBlock, EachReadsBack dialect unit line block) :
    SelfReadsBack dialect unit line (.conditional condition thenBlock elseBlock) := by
  have hif : ReadsBack dialect unit line _ _ ("if(" ++ condition.render ++ ")") _ _ :=
    Condition.readsBack_call "if" rfl hcondition
  obtain ⟨hif, ⟨hkind, hparens⟩⟩ := hif
  obtain ⟨hthen, hb⟩ := hthen.inBraces
  have hword : Yields dialect unit line "else".toList _ _ := .reserved rfl
  obtain ⟨helse, he⟩ := readsBack_after (P := After .elseWord (IsBlock _)) hword
    (fun _ _ _ hblock => .mk rfl hblock) helse
  have hstatement := hif.append hthen fun _ => trivial
  have hstatement := hstatement.append helse fun _ => trivial
  rw [SelfReadsBack, render, nesting]
  refine ⟨hstatement, ?_⟩
  simpa using IsStatement.conditional hkind hparens hb he

private theorem readsBack_switch {discriminant : String} {groups : List CaseGroup}
    {default : Option Block} (hname : IsName discriminant)
    (hgroups : ReadsBack dialect unit line (Many (IsCaseGroup (IsStatement dialect)))
      (fun _ => True) (CaseGroup.renderAll groups) groups (CaseGroup.nestingIn groups))
    (hdefault : ∀ block ∈ default, EachReadsBack dialect unit line block) :
    SelfReadsBack dialect unit line (.switch discriminant groups default) := by
  obtain @⟨ts, hgroups, hg⟩ := hgroups
  have hword : Yields dialect unit line "default".toList _ _ := .reserved rfl
  have hword : Yields dialect unit line "default:".toList _ _ :=
    hword.append (.mark .colon rfl rfl) fun rest =>
      stops_isWordRest (stops_of_spelling .colon rfl rest)
  obtain @⟨ts', hdefault, hd⟩ := readsBack_after
    (P := After .defaultWord (After .colon (IsBlock _))) (hword.mono fun _ _ => trivial)
    (fun _ _ _ hblock => .mk rfl (.mk rfl hblock)) hdefault
  have hswitch : Yields dialect unit line "switch(".toList _ _ := .call "switch" rfl
  have hclose : Yields dialect unit line ")".toList _ _ := .mark .closeParen rfl rfl
  have hopen : Yields dialect unit line ")\x7b".toList _ _ :=
    hclose.append (.mark .openCurly rfl rfl) fun _ => trivial
  have hstatement := hswitch.append (.name hname) fun _ => trivial
  have hstatement := hstatement.append hopen fun _ => stops_cons.2 (by decide)
  have hstatement := hstatement.append hgroups fun _ => trivial
  have hstatement := hstatement.append hdefault fun _ => trivial
  have hstatement := hstatement.append (.mark .closeCurly rfl rfl) fun _ => trivial
  rw [SelfReadsBack, render, nesting]
  refine ⟨hstatement, ?_⟩
  have hderives : IsStatement dialect
      (⟨.switchWord, "switch", none, ⟨line, unit⟩⟩ :: ⟨.openParen, "(", none, ⟨line, unit⟩⟩ ::
        ⟨.identifier, discriminant, none, ⟨line, unit⟩⟩ ::
        ⟨.closeParen, ")", none, ⟨line, unit⟩⟩ :: ⟨.openCurly, "\x7b", none, ⟨line, unit⟩⟩ ::
        (ts ++ (ts' ++ [⟨.closeCurly, "\x7d", none, ⟨line, unit⟩⟩])))
      (switch discriminant groups default)
      (max (CaseGroup.nestingIn groups) (nestingInOption default)) :=
    .switch rfl rfl rfl rfl rfl hg hd rfl
  simpa using hderives

private theorem readsBack_whileLoop {condition : Condition} {body : Block}
    (hcondition : condition.WellFormed dialect) (hbody : EachReadsBack dialect unit line body) :
    SelfReadsBack dialect unit line (.whileLoop condition body) := by
  have hwhile : ReadsBack dialect unit line _ _ ("while(" ++ condition.render ++ ")") _ _ :=
    Condition.readsBack_call "while" rfl hcondition
  obtain ⟨hwhile, ⟨hkind, hparens⟩⟩ := hwhile
  obtain ⟨hbody, hb⟩ := hbody.inBraces
  rw [SelfReadsBack, render, nesting]
  exact ⟨hwhile.append hbody fun _ => trivial, .whileLoop hkind hparens hb⟩

private theorem readsBack_forLoop {init step : Assignment} {condition : Condition} {body : Block}
    (hinit : init.WellFormed dialect) (hcondition : condition.WellFormed dialect)
    (hstep : step.WellFormed dialect) (hbody : EachReadsBack dialect unit line body) :
    SelfReadsBack dialect unit line (.forLoop init condition step body) := by
  obtain @⟨ts₁, hinit, hi⟩ := Assignment.readsBack unit line hinit
  obtain @⟨ts₂, hcondition, hc⟩ := Condition.readsBack unit line hcondition
  obtain @⟨ts₃, hstep, hs⟩ := Assignment.readsBack unit line hstep
  obtain @⟨ts₄, hbody, hb⟩ := hbody.inBraces
  have hfor : Yields dialect unit line "for(".toList _ _ := .call "for" rfl
  have hsemicolon : Yields dialect unit line ";".toList _ _ := .mark .semicolon rfl rfl
  have hstatement := hfor.append hinit fun _ => trivial
  have hstatement := hstatement.append hsemicolon (stops_of_spelling .semicolon rfl)
  have hstatement := hstatement.append hcondition fun _ => trivial
  have hstatement := hstatement.append hsemicolon (stops_of_spelling .semicolon rfl)
  have hstatement := hstatement.append hstep fun _ => trivial
  have hstatement := hstatement.append (.mark .closeParen rfl rfl)
    (stops_of_spelling .closeParen rfl)
  have hstatement := hstatement.append hbody fun _ => trivial
  rw [SelfReadsBack, render, nesting]
  refine ⟨hstatement, ?_⟩
  have hderives : IsStatement dialect
      (⟨.forWord, "for", none, ⟨line, unit⟩⟩ :: ⟨.openParen, "(", none, ⟨line, unit⟩⟩ ::
        (ts₁ ++ ⟨.semicolon, ";", none, ⟨line, unit⟩⟩ :: (ts₂ ++
          ⟨.semicolon, ";", none, ⟨line, unit⟩⟩ :: (ts₃ ++
            ⟨.closeParen, ")", none, ⟨line, unit⟩⟩ :: ts₄))))
      (forLoop init condition step body)
      (max init.nesting (max condition.nesting (max step.nesting (nestingIn body + 1)))) :=
    .forLoop rfl rfl hi rfl hc rfl hs rfl hb
  simpa using hderives

private theorem readsBack_leave : SelfReadsBack dialect unit line .leave := by
  have hword : Yields dialect unit line "break".toList _ _ := .reserved rfl
  have hstatement : Yields dialect unit line "break;".toList _ _ :=
    hword.append (.mark .semicolon rfl rfl) fun rest =>
      stops_isWordRest (stops_of_spelling .semicolon rfl rest)
  rw [SelfReadsBack, render, nesting]
  exact ⟨hstatement, .leave rfl rfl⟩

end Stmt

/-- A case group before others. -/
theorem CaseGroup.readsBack_cons {labels : List CaseLabel} {body : Block} {groups : List CaseGroup}
    (hne : labels ≠ []) (hlabels : ∀ label ∈ labels, label.WellFormed)
    (hbody : Stmt.EachReadsBack dialect unit line body)
    (hgroups : ReadsBack dialect unit line (Many (IsCaseGroup (IsStatement dialect)))
      (fun _ => True) (renderAll groups) groups (nestingIn groups)) :
    ReadsBack dialect unit line (Many (IsCaseGroup (IsStatement dialect)))
      (fun _ => True) (renderAll (.mk labels body :: groups)) (.mk labels body :: groups)
      (nestingIn (.mk labels body :: groups)) := by
  obtain ⟨hlabels, hl⟩ := CaseLabel.readsBack_all dialect unit line labels hlabels
  obtain ⟨hbody, hb⟩ := hbody.inBraces
  obtain ⟨hgroups, hg⟩ := hgroups
  have hgroup := hlabels.append hbody fun _ => trivial
  have htext := hgroup.append hgroups fun _ => trivial
  rw [renderAll, render, nestingIn, nesting]
  refine ⟨htext, ?_⟩
  have hderives := IsCaseGroup.mk hl hne hb
  rw [Nat.zero_max] at hderives
  exact .cons hderives hg

/-! ### Statements and blocks -/

mutual

/-- **Statements are read back.** -/
theorem Stmt.readsBack (unit : String) (line : LineNumber) :
    (s : Stmt) → s.WellFormed dialect → s.SelfReadsBack dialect unit line
  | .declaration type _, h => Stmt.readsBack_declaration type h
  | .assignment _, h => Stmt.readsBack_assignment h
  | .conditional _ thenBlock elseBlock, h =>
    Stmt.readsBack_conditional h.1 (Stmt.readsBack_each unit line thenBlock h.2.1)
      (Stmt.readsBack_option unit line elseBlock h.2.2)
  | .switch _ groups default, h =>
    Stmt.readsBack_switch h.1 (CaseGroup.readsBack_all unit line groups h.2.1)
      (Stmt.readsBack_option unit line default h.2.2)
  | .whileLoop _ body, h => Stmt.readsBack_whileLoop h.1 (Stmt.readsBack_each unit line body h.2)
  | .forLoop _ _ _ body, h =>
    Stmt.readsBack_forLoop h.1 h.2.1 h.2.2.1 (Stmt.readsBack_each unit line body h.2.2.2)
  | .leave, _ => Stmt.readsBack_leave

/-- The statements of a block are read back. -/
private theorem Stmt.readsBack_each (unit : String) (line : LineNumber) : (block : List Stmt) →
    Stmt.AllWellFormed dialect block → Stmt.EachReadsBack dialect unit line block
  | [], _ => ⟨.nil _, .nil⟩
  | s :: rest, h =>
    .cons h (Stmt.readsBack unit line s h.1) (Stmt.readsBack_each unit line rest h.2)

/-- The statements of a block that may be missing are read back. -/
private theorem Stmt.readsBack_option (unit : String) (line : LineNumber) :
    (option : Option (List Stmt)) →
    Stmt.OptionWellFormed dialect option →
      ∀ block ∈ option, Stmt.EachReadsBack dialect unit line block
  | none, _, _, h => nomatch h
  | some block, h, _, rfl => Stmt.readsBack_each unit line block h

/-- Case groups are read back. -/
theorem CaseGroup.readsBack_all (unit : String) (line : LineNumber) : (groups : List CaseGroup) →
    CaseGroup.AllWellFormed dialect groups →
      ReadsBack dialect unit line (Many (IsCaseGroup (IsStatement dialect))) (fun _ => True)
        (CaseGroup.renderAll groups) groups (CaseGroup.nestingIn groups)
  | [], _ => ⟨.nil _, .nil⟩
  | .mk _ body :: groups, h =>
    CaseGroup.readsBack_cons h.1.1 h.1.2.1 (Stmt.readsBack_each unit line body h.1.2.2)
      (CaseGroup.readsBack_all unit line groups h.2)

end

end MiniC
