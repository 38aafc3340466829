import MiniC.Lexer.Pattern.Lemmas
import MiniC.Prompt.LineBuffer

/-!
# Scanning a text by lines

The prompt scans line by line. `scanFrom` says what becomes of a whole text, from a place in its
first line on: the rest of that line is scanned by a given function, and all lines after it as the
prompt scans them. So a scan of a text moves on character by character, also over line ends, and
there is a lemma for everything that the scanner of the prompt tells apart: comments, literals, and
single characters.
-/

namespace MiniC

/-- Scans lines, one after the other. -/
def ScanState.scanLines (state : ScanState) (depth : Int) (lines : List (List Char)) :
    ScanState × Int :=
  lines.foldl (fun before line => before.1.scan before.2 line) (state, depth)

/-- Scans a text whose first line is scanned by the given function. -/
def scanFrom (first : List Char → ScanState × Int) (cs : List Char) : ScanState × Int :=
  match cs.splitOn '\n' with
  | [] => first []
  | line :: lines => (first line).1.scanLines (first line).2 lines

variable {first : List Char → ScanState × Int} {depth : Int} {c : Char} {cs : List Char}

@[simp] theorem scanFrom_nil : scanFrom first [] = first [] := rfl

theorem scanFrom_cons (h : c ≠ '\n') :
    scanFrom first (c :: cs) = scanFrom (fun line => first (c :: line)) cs := by
  unfold scanFrom
  rw [List.splitOn_cons_eq_if_modifyHead, if_neg (by simpa using h)]
  obtain ⟨line, lines, hlines⟩ := List.exists_cons_of_ne_nil (List.splitOn_ne_nil '\n' cs)
  rw [hlines]
  rfl

private theorem scanFrom_lineFeed :
    scanFrom first ('\n' :: cs) = scanFrom ((first []).1.scan (first []).2) cs := by
  unfold scanFrom
  rw [List.splitOn_cons_eq_if_modifyHead, if_pos (by simp)]
  obtain ⟨line, lines, hlines⟩ := List.exists_cons_of_ne_nil (List.splitOn_ne_nil '\n' cs)
  rw [hlines]
  rfl

/-- Only what the function answers for starts of the text matters. -/
private theorem scanFrom_congr {first' : List Char → ScanState × Int}
    (h : ∀ line, line <+: cs → first line = first' line) :
    scanFrom first cs = scanFrom first' cs := by
  unfold scanFrom
  obtain ⟨line, lines, hlines⟩ := List.exists_cons_of_ne_nil (List.splitOn_ne_nil '\n' cs)
  -- The first line is a start of the text, as the lines put together are the text.
  have hstart : line <+: cs := by
    have hjoined : ['\n'].intercalate (cs.splitOn '\n') = cs := List.intercalate_splitOn '\n'
    rw [hlines] at hjoined
    rw [← hjoined]
    cases lines with
    | nil => simp
    | cons line' lines =>
      rw [List.intercalate_cons_cons, List.append_assoc]
      exact List.prefix_append line _
  rw [hlines]
  dsimp only
  rw [h line hstart]

private theorem scanFrom_cons_eq {first' : List Char → ScanState × Int} (hc : c ≠ '\n')
    (h : ∀ line, line <+: cs → first (c :: line) = first' line) :
    scanFrom first (c :: cs) = scanFrom first' cs := by
  rw [scanFrom_cons hc]
  exact scanFrom_congr h

/-! ### Code -/

private theorem scanFrom_scanCode_lineFeed :
    scanFrom (scanCode depth) ('\n' :: cs) = scanFrom (scanCode depth) cs := scanFrom_lineFeed

/-- A character that starts neither a comment nor a literal counts with its weight. -/
theorem scanFrom_scanCode_cons (hslash : c ≠ '/') (hdouble : c ≠ '"') (hsingle : c ≠ '\'')  :
    scanFrom (scanCode depth) (c :: cs) = scanFrom (scanCode (depth + braceWeight c)) cs := by
  by_cases hc : c = '\n'
  · subst hc
    have hweight : depth + braceWeight '\n' = depth := Int.add_zero depth
    rw [scanFrom_scanCode_lineFeed, hweight]
  · refine scanFrom_cons_eq hc fun line _ => ?_
    rw [scanCode.eq_4 _ _ _ (fun _ h _ => hslash h) (fun _ h _ => hslash h), if_neg]
    simp [hdouble, hsingle]

/-- A slash that starts no comment does not count. -/
theorem scanFrom_scanCode_slash (h : ∀ d ∈ cs.head?, d ≠ '/' ∧ d ≠ '*') :
    scanFrom (scanCode depth) ('/' :: cs) = scanFrom (scanCode depth) cs := by
  refine scanFrom_cons_eq (by decide) fun line hline => ?_
  have hweight : depth + braceWeight '/' = depth := Int.add_zero depth
  rw [scanCode.eq_4, if_neg (by decide), hweight]
  -- The line could only start a comment with a character that the text goes on with.
  · rintro rest - rfl
    obtain ⟨more, rfl⟩ := hline
    exact (h '/' rfl).1 rfl
  · rintro rest - rfl
    obtain ⟨more, rfl⟩ := hline
    exact (h '*' rfl).2 rfl

/-- Whether a character stands for nothing but itself in code. -/
def isIdle (c : Char) : Bool :=
  c ≠ '/' && c ≠ '"' && c ≠ '\'' && c ≠ '\x7b' && c ≠ '\x7d'

/-- A text of such characters does not count. -/
theorem scanFrom_scanCode_append {text : List Char} (h : ∀ c ∈ text, isIdle c = true) :
    scanFrom (scanCode depth) (text ++ cs) = scanFrom (scanCode depth) cs := by
  induction text with
  | nil => rfl
  | cons c text ih =>
    have hidle := h c List.mem_cons_self
    simp only [isIdle, Bool.and_eq_true, decide_eq_true_eq] at hidle
    obtain ⟨⟨⟨⟨hslash, hdouble⟩, hsingle⟩, hopen⟩, hclose⟩ := hidle
    have hweight : braceWeight c = 0 := by rw [braceWeight, if_neg hopen, if_neg hclose]
    rw [List.cons_append, scanFrom_scanCode_cons hslash hdouble hsingle, hweight, Int.add_zero]
    exact ih fun d hd => h d (List.mem_cons_of_mem c hd)

/-! ### Comments -/

/-- A line comment goes to the end of its line. -/
theorem scanFrom_scanCode_lineComment :
    scanFrom (scanCode depth) ('/' :: '/' :: cs)
      = scanFrom (scanCode depth) (cs.dropWhile (· ≠ '\n')) := by
  rw [scanFrom_cons (by decide), scanFrom_cons (by decide)]
  simp only [scanCode]
  induction cs with
  | nil => rfl
  | cons c cs ih =>
    by_cases hc : c = '\n'
    · rw [hc, List.dropWhile_cons_of_neg (by simp), scanFrom_lineFeed, scanFrom_lineFeed]
      rfl
    · rw [List.dropWhile_cons_of_pos (by simpa using hc), scanFrom_cons hc, ih]

theorem scanFrom_scanCode_blockComment :
    scanFrom (scanCode depth) ('/' :: '*' :: cs) = scanFrom (scanComment depth) cs := by
  rw [scanFrom_cons (by decide)]
  exact scanFrom_cons_eq (by decide) fun line _ => by rw [scanCode]

/-- A character of a block comment that does not end it. -/
theorem scanFrom_scanComment_cons (h : ∀ rest, c = '*' → cs = '/' :: rest → False) :
    scanFrom (scanComment depth) (c :: cs) = scanFrom (scanComment depth) cs := by
  by_cases hc : c = '\n'
  · rw [hc]
    exact scanFrom_lineFeed
  · refine scanFrom_cons_eq hc fun line hline => ?_
    rw [scanComment.eq_3]
    rintro rest rfl rfl
    obtain ⟨more, rfl⟩ := hline
    exact h (rest ++ more) rfl rfl

/-- A block comment goes to the first `*/` after its start, over line ends. -/
theorem scanFrom_scanComment {n : Nat} (h : Pattern.throughCommentEnd? cs = some n) :
    scanFrom (scanComment depth) cs = scanFrom (scanCode depth) (cs.drop n) := by
  fun_induction Pattern.throughCommentEnd? cs generalizing n with
  | case1 => cases h
  | case2 rest =>
    cases h
    rw [scanFrom_cons (by decide)]
    exact scanFrom_cons_eq (by decide) fun line _ => by rw [scanComment]
  | case3 c cs hc ih =>
    obtain ⟨m, hm, rfl⟩ := Option.map_eq_some_iff.1 h
    rw [scanFrom_scanComment_cons hc, ih hm, List.drop_succ_cons]

/-- A block comment that does not end takes all of the text. -/
theorem scanFrom_scanComment_of_open (h : Pattern.throughCommentEnd? cs = none) :
    scanFrom (scanComment depth) cs = (.blockComment, depth) := by
  fun_induction Pattern.throughCommentEnd? cs with
  | case1 => rfl
  | case2 => cases h
  | case3 c cs hc ih =>
    rw [scanFrom_scanComment_cons hc, ih (by simpa using h)]

/-! ### Literals -/

variable {quote : Char}

/-- A quote starts a literal. -/
theorem scanFrom_scanCode_quote (h : quote = '"' ∨ quote = '\'') :
    scanFrom (scanCode depth) (quote :: cs) = scanFrom (scanLiteral depth quote) cs := by
  rcases h with rfl | rfl <;>
    exact scanFrom_cons_eq (by decide) fun line _ => by simp [scanCode]

/-- A backslash takes the next character along. -/
private theorem scanFrom_scanLiteral_escape (hc : c ≠ '\n') :
    scanFrom (scanLiteral depth quote) ('\\' :: c :: cs)
      = scanFrom (scanLiteral depth quote) cs := by
  rw [scanFrom_cons (by decide)]
  exact scanFrom_cons_eq hc fun line _ => by rw [scanLiteral]

/-- The quote that started a literal ends it. -/
private theorem scanFrom_scanLiteral_quote (h : quote = '"' ∨ quote = '\'') :
    scanFrom (scanLiteral depth quote) (quote :: cs) = scanFrom (scanCode depth) cs := by
  rcases h with rfl | rfl <;>
    exact scanFrom_cons_eq (by decide) fun line _ => by simp [scanLiteral]

theorem scanFrom_scanLiteral_cons (hslash : c ≠ '\\') (hquote : c ≠ quote) (hc : c ≠ '\n') :
    scanFrom (scanLiteral depth quote) (c :: cs) = scanFrom (scanLiteral depth quote) cs := by
  refine scanFrom_cons_eq hc fun line _ => ?_
  rw [scanLiteral.eq_3 _ _ _ _ (fun _ _ h _ => hslash h), if_neg hquote]

/-- A string literal goes to the quote that ends it. -/
theorem scanFrom_scanLiteral_string {n : Nat} (h : Pattern.throughStringEnd? cs = some n) :
    scanFrom (scanLiteral depth '"') cs = scanFrom (scanCode depth) (cs.drop n) := by
  fun_induction Pattern.throughStringEnd? cs generalizing n with
  | case1 => cases h
  | case2 rest =>
    cases h
    exact scanFrom_scanLiteral_quote (.inl rfl)
  | case3 => cases h
  | case4 c cs hc ih =>
    obtain ⟨m, hm, rfl⟩ := Option.map_eq_some_iff.1 h
    rw [scanFrom_scanLiteral_escape hc, ih hm]
    rfl
  | case5 => cases h
  | case6 c cs hquote _ hc ih =>
    obtain ⟨m, hm, rfl⟩ := Option.map_eq_some_iff.1 h
    simp only [Bool.or_eq_true, decide_eq_true_eq, not_or] at hc
    rw [scanFrom_scanLiteral_cons hc.1 hquote hc.2, ih hm]
    rfl

/-- A character literal goes to its second quote. -/
theorem scanFrom_scanCode_charLiteral {n : Nat} (h : Pattern.charLiteral? cs = some n) :
    scanFrom (scanCode depth) cs = scanFrom (scanCode depth) (cs.drop n) := by
  unfold Pattern.charLiteral? at h
  split at h
  · rename_i c rest
    split at h <;> simp only [Option.some.injEq, reduceCtorEq] at h
    rename_i hc
    subst h
    rw [scanFrom_scanCode_quote (.inr rfl), scanFrom_scanLiteral_escape hc,
      scanFrom_scanLiteral_quote (.inr rfl)]
    rfl
  · rename_i c rest _
    split at h <;> simp only [Option.some.injEq, reduceCtorEq] at h
    rename_i hc
    simp only [Bool.or_eq_true, decide_eq_true_eq, not_or] at hc
    subst h
    rw [scanFrom_scanCode_quote (.inr rfl), scanFrom_scanLiteral_cons hc.1.1 hc.1.2 hc.2,
      scanFrom_scanLiteral_quote (.inr rfl)]
    rfl
  · cases h

end MiniC
