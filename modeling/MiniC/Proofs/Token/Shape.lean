import MiniC.Parser.Stmt

/-!
# Shaped tokens

A token may have any kind, any text and any value, as far as its fields go. A token is **shaped** if
they fit (`Token.IsShaped`): it has a value if, and only if, it is a literal, the value is of the
sort that the kind says, and a token of a type names one.

A parser that takes a token for its kind looks at the value, or at the name of the type, only then.
If the token is shaped it finds what it looks for (`Token.IsShaped.exists_expr?`,
`Token.IsShaped.exists_caseLabel?`).
-/

namespace MiniC

/-- The kind of token that has a value. -/
def Literal.kind : Literal → Kind
  | int _ | float _ => .number
  | char _ => .char
  | str _ => .string

/-- The kinds of literals. -/
def Kind.literals : List Kind := [number, char, string]

/-- The value, the text and the kind of a **shaped** token fit. -/
structure Token.IsShaped (t : Token) : Prop where
  /-- The literals are the tokens that have a value. -/
  isSome_literal_iff : t.literal.isSome = true ↔ t.kind ∈ Kind.literals
  /-- The value is of the sort that the kind says. -/
  kind_eq : ∀ literal ∈ t.literal, t.kind = literal.kind
  /-- A type is one of those that there are. -/
  isSome_typeName : t.kind = .type → (TypeName.ofWord? t.value).isSome = true

private theorem Literal.kind_mem_literals (literal : Literal) : literal.kind ∈ Kind.literals := by
  cases literal <;> simp [kind, Kind.literals]

namespace Token.IsShaped

variable {kind : Kind} {text : String} {position : Position} {t : Token}

/-- A token of the kind of its value is shaped. -/
theorem of_literal {literal : Literal} (hkind : kind = literal.kind) :
    IsShaped ⟨kind, text, some literal, position⟩ := by
  have hmem : kind ∈ Kind.literals := hkind ▸ literal.kind_mem_literals
  refine ⟨iff_of_true rfl hmem, ?_, fun htype => ?_⟩
  · rintro _ ⟨⟩
    exact hkind
  · rw [show kind = .type from htype] at hmem
    exact absurd hmem (by decide)

/-- A token without a value is shaped if it is no literal, and names a type if it is one. -/
theorem of_none (hkind : kind ∉ Kind.literals)
    (htype : kind = .type → (TypeName.ofWord? text).isSome = true) :
    IsShaped ⟨kind, text, none, position⟩ :=
  ⟨iff_of_false nofun hkind, nofun, htype⟩

/-- A literal has a value of its own sort. -/
private theorem exists_literal (h : t.IsShaped) (hkind : t.kind ∈ Kind.literals) :
    ∃ literal, t.literal = some literal ∧ t.kind = literal.kind := by
  obtain ⟨literal, hliteral⟩ := Option.isSome_iff_exists.1 (h.isSome_literal_iff.2 hkind)
  exact ⟨literal, hliteral, h.kind_eq literal hliteral⟩

/-- An identifier or a literal is an expression by itself. -/
theorem exists_expr? (h : t.IsShaped) (hkind : t.kind ∈ Kind.identifier :: Kind.literals) :
    ∃ e, t.expr? = some e := by
  rcases List.mem_cons.1 hkind with hkind | hkind
  · exact ⟨.identifier t.value, by simp [Token.expr?, hkind]⟩
  · obtain ⟨literal, hliteral, hkind⟩ := h.exists_literal hkind
    cases literal <;> simp [Token.expr?, hliteral, hkind, Literal.kind]

/-- An identifier, a number or a character is a case label. -/
theorem exists_caseLabel? (h : t.IsShaped)
    (hkind : t.kind ∈ [Kind.identifier, Kind.number, Kind.char]) :
    ∃ label, t.caseLabel? = some label := by
  rcases List.mem_cons.1 hkind with hkind | hkind
  · exact ⟨.identifier t.value, by simp [Token.caseLabel?, hkind]⟩
  · have hliterals : ∀ k ∈ [Kind.number, Kind.char], k ∈ Kind.literals ∧ k ≠ .string := by decide
    obtain ⟨hmem, hne⟩ := hliterals t.kind hkind
    obtain ⟨literal, hliteral, hkind⟩ := h.exists_literal hmem
    cases literal with
    | str => exact absurd hkind hne
    | _ => simp [Token.caseLabel?, hliteral, hkind, Literal.kind]

end Token.IsShaped

end MiniC
