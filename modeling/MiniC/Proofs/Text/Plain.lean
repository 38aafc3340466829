import MiniC.Text.Quoted

/-!
# Plain characters

A character is **plain** between quotes if it is written there without its code point
(`Text.isPlain_iff`): by itself, or as a backslash and one more character (`Text.escape_cases`).
What is written between double quotes has the form of the inside of a literal, whether its
characters are plain or not (`Text.IsInside.escapes`). It is read back as the text that was written
if, and only if, all of them are (`Text.unescape_escapes_iff`): a code point is no escape of the
language, so its backslash stays.
-/

namespace MiniC.Text

/-- Whether a character is written between two `quote`s without its code point. -/
def IsPlain (quote c : Char) : Prop := escapeLetter? c ≠ none ∨ c = quote ∨ isGraphic c = true

instance (quote c : Char) : Decidable (IsPlain quote c) := inferInstanceAs (Decidable (_ ∨ _ ∨ _))

variable {quote c : Char}

/-- A plain character is written as a backslash and another character, or by itself. -/
theorem escape_cases (h : IsPlain quote c) (hquote : quote = '\'' ∨ quote = '"') :
    (∃ d, escape quote c = ['\\', d] ∧ d ≠ '\n') ∨
      (escape quote c = [c] ∧ c ≠ '\\' ∧ c ≠ quote ∧ c ≠ '\n') := by
  unfold escape
  split
  · rename_i letter hletter
    refine .inl ⟨letter, rfl, ?_⟩
    unfold escapeLetter? at hletter
    split at hletter <;> cases hletter <;> decide
  · rename_i hnone
    split
    · rename_i heq
      refine .inl ⟨c, rfl, ?_⟩
      rcases hquote with rfl | rfl <;> rw [heq] <;> decide
    · rename_i hne
      have hgraphic : isGraphic c = true := by
        rcases h with h | h | h
        · exact absurd hnone h
        · exact absurd h hne
        · exact h
      rw [if_pos hgraphic]
      refine .inr ⟨rfl, ?_, hne, ?_⟩
      · rintro rfl
        cases hnone
      · rintro rfl
        cases hnone

/-- Any other character is written by its code point. -/
theorem escape_of_not_isPlain (h : ¬IsPlain quote c) :
    escape quote c = '\\' :: 'u' :: '\x7b' :: (Nat.toDigits 16 c.toNat ++ ['\x7d']) := by
  simp only [IsPlain, not_or, Classical.not_not] at h
  obtain ⟨hletter, hne, hgraphic⟩ := h
  simp [escape, hletter, hne, hgraphic]

/-- The characters that are not plain are those that need their code point. -/
theorem isPlain_iff (hquote : quote = '\'' ∨ quote = '"') :
    IsPlain quote c ↔ ¬['\\', 'u', '\x7b'] <+: escape quote c := by
  constructor
  · intro h hcode
    rcases escape_cases h hquote with ⟨d, hd, -⟩ | ⟨hc, -⟩
    · rw [hd] at hcode
      exact absurd hcode.length_le (by simp)
    · rw [hc] at hcode
      exact absurd hcode.length_le (by simp)
  · intro h
    refine Decidable.byContradiction fun hplain => h ?_
    rw [escape_of_not_isPlain hplain]
    exact ⟨_, rfl⟩

/-! ### The inside of a string literal -/

/-- The **inside** of a string literal: a backslash stands before any character of the line, and a
double quote only after a backslash. -/
inductive IsInside : List Char → Prop
  | nil : IsInside []
  | plain {c : Char} {cs : List Char} :
      c ≠ '\\' → c ≠ '"' → c ≠ '\n' → IsInside cs → IsInside (c :: cs)
  | escaped {c : Char} {cs : List Char} : c ≠ '\n' → IsInside cs → IsInside ('\\' :: c :: cs)

theorem IsInside.append {cs ds : List Char} (h : IsInside cs) (h' : IsInside ds) :
    IsInside (cs ++ ds) := by
  induction h with
  | nil => exact h'
  | plain hslash hquote hfeed _ ih => exact .plain hslash hquote hfeed ih
  | escaped hfeed _ ih => exact .escaped hfeed ih

private theorem exists_of_mem_toDigits {n : Nat} {d : Char} (h : d ∈ Nat.toDigits 16 n) :
    ∃ k < 16, d = Nat.digitChar k := by
  induction n using Nat.strongRecOn with
  | ind n ih =>
    rw [Nat.toDigits_eq_if (by decide)] at h
    split at h
    · rename_i hn
      exact ⟨n, hn, List.mem_singleton.1 h⟩
    · rcases List.mem_append.1 h with h | h
      · exact ih (n / 16) (by omega) h
      · exact ⟨n % 16, Nat.mod_lt n (by decide), List.mem_singleton.1 h⟩

private theorem IsInside.codePoint (n : Nat) : IsInside (Nat.toDigits 16 n ++ ['\x7d']) := by
  have hdigit : ∀ k < 16, Nat.digitChar k ≠ '\\' ∧ Nat.digitChar k ≠ '"' ∧
      Nat.digitChar k ≠ '\n' := by decide
  have hall : ∀ d ∈ Nat.toDigits 16 n, d ≠ '\\' ∧ d ≠ '"' ∧ d ≠ '\n' := by
    intro d hd
    obtain ⟨k, hk, rfl⟩ := exists_of_mem_toDigits hd
    exact hdigit k hk
  refine .append ?_ (.plain (by decide) (by decide) (by decide) .nil)
  generalize Nat.toDigits 16 n = ds at hall
  induction ds with
  | nil => exact .nil
  | cons d ds ih =>
    obtain ⟨hslash, hquote, hfeed⟩ := hall d List.mem_cons_self
    exact .plain hslash hquote hfeed (ih fun e he => hall e (List.mem_cons_of_mem d he))

theorem IsInside.escape (c : Char) : IsInside (escape '"' c) := by
  by_cases h : IsPlain '"' c
  · rcases escape_cases h (.inr rfl) with ⟨d, hd, hfeed⟩ | ⟨hc, hslash, hne, hfeed⟩
    · rw [hd]
      exact .escaped hfeed .nil
    · rw [hc]
      exact .plain hslash hne hfeed .nil
  · rw [escape_of_not_isPlain h]
    refine .escaped (by decide) (.plain (by decide) (by decide) (by decide) ?_)
    exact .codePoint c.toNat

/-- A line feed is always escaped. -/
private theorem lineFeed_not_mem_escape (hquote : quote = '\'' ∨ quote = '"') :
    '\n' ∉ Text.escape quote c := by
  by_cases h : IsPlain quote c
  · rcases escape_cases h hquote with ⟨d, hd, hfeed⟩ | ⟨hc, -, -, hfeed⟩
    · rw [hd]
      simp [Ne.symm hfeed]
    · rw [hc]
      simp [Ne.symm hfeed]
  · have hdigits : '\n' ∉ Nat.toDigits 16 c.toNat := by
      intro hmem
      obtain ⟨k, hk, heq⟩ := exists_of_mem_toDigits hmem
      revert k
      decide
    rw [escape_of_not_isPlain h]
    simp [hdigits]

theorem lineFeed_not_mem_quotedChar (c : Char) : '\n' ∉ (quotedChar c).toList := by
  have hescape : '\n' ∉ Text.escape '\'' c := lineFeed_not_mem_escape (.inl rfl)
  rw [quotedChar, String.toList_ofList, List.mem_append, List.mem_append]
  rintro ((hmem | hmem) | hmem)
  · exact absurd hmem (by decide)
  · exact hescape hmem
  · exact absurd hmem (by decide)

/-- Whatever is written between double quotes is the inside of a literal. -/
theorem IsInside.escapes (cs : List Char) : IsInside (cs.flatMap (Text.escape '"')) := by
  induction cs with
  | nil => exact .nil
  | cons c cs ih =>
    rw [List.flatMap_cons]
    exact (IsInside.escape c).append ih

/-! ### Reading back -/

/-- A text without a backslash stands for itself. -/
theorem unescape_append {cs : List Char} (h : '\\' ∉ cs) (rest : List Char) :
    unescape (cs ++ rest) = cs ++ unescape rest := by
  induction cs with
  | nil => rfl
  | cons c cs ih =>
    rw [List.mem_cons, not_or] at h
    rw [List.cons_append, unescape, ih h.2, List.cons_append]
    rintro _ _ rfl -
    exact h.1 rfl

/-- A code point is not read back: it stands for its own text. -/
private theorem unescape_escape_of_not_isPlain (h : ¬IsPlain quote c) (rest : List Char) :
    unescape (escape quote c ++ rest) = escape quote c ++ unescape rest := by
  have hslash : '\\' ∉ '\x7b' :: (Nat.toDigits 16 c.toNat ++ ['\x7d']) := by
    simp only [List.mem_cons, List.mem_append, not_or]
    refine ⟨by decide, fun hd => ?_, by decide, nofun⟩
    obtain ⟨k, hk, heq⟩ := exists_of_mem_toDigits hd
    revert k
    decide
  rw [escape_of_not_isPlain h]
  change '\\' :: 'u' :: unescape (_ ++ rest) = _
  rw [unescape_append hslash]
  rfl

/-- What is read of a written text is no shorter than the text. -/
private theorem length_le_length_unescape_escapes (hquote : quote = '\'' ∨ quote = '"')
    (cs : List Char) : cs.length ≤ (unescape (cs.flatMap (escape quote))).length := by
  induction cs with
  | nil => exact Nat.le_refl _
  | cons c cs ih =>
    rw [List.flatMap_cons]
    by_cases h : IsPlain quote c
    · rw [unescape_escape _ hquote h, List.length_cons, List.length_cons]
      exact Nat.succ_le_succ ih
    · rw [unescape_escape_of_not_isPlain h, escape_of_not_isPlain h]
      simp only [List.length_cons, List.length_append]
      omega

/-- A text is read back if, and only if, all of its characters are plain. -/
theorem unescape_escapes_iff {cs : List Char} (hquote : quote = '\'' ∨ quote = '"') :
    unescape (cs.flatMap (escape quote)) = cs ↔ ∀ c ∈ cs, IsPlain quote c := by
  induction cs with
  | nil => simp [unescape]
  | cons c cs ih =>
    rw [List.flatMap_cons, List.forall_mem_cons]
    by_cases h : IsPlain quote c
    · rw [unescape_escape _ hquote h, List.cons_inj_right, ih]
      exact ⟨fun hcs => ⟨h, hcs⟩, And.right⟩
    -- A code point makes the text longer, and nothing makes it shorter again.
    · refine iff_of_false (fun heq => ?_) fun hplain => h hplain.1
      have hlength := congrArg List.length heq
      have hle := length_le_length_unescape_escapes hquote cs
      rw [unescape_escape_of_not_isPlain h, escape_of_not_isPlain h] at hlength
      simp only [List.length_cons, List.length_append] at hlength
      omega

end MiniC.Text
