import MiniC.Text.Graphic

/-!
# Quoted text

A listing writes a character or a text between quotes and **escapes** what would not be seen or
would end the quotes: the quote itself, the backslash, the usual control characters by a letter, and
every other character that is not graphic by its code point, `\u{…}`.

Literals of the language know fewer escapes: `unescape` undoes the letters, the backslash and both
quotes, and leaves any other backslash in place together with the character after it. So a literal
whose listing needs no code point is read back (`unescape_escape`), and one that needs a code point
is not.
-/

namespace MiniC.Text

/-! ### Writing -/

/-- The letter that stands for a character after a backslash. -/
def escapeLetter? : Char → Option Char
  | '\x00' => some '0'
  | '\t' => some 't'
  | '\n' => some 'n'
  | '\r' => some 'r'
  | '\\' => some '\\'
  | _ => none

/-- A character as a listing writes it between two `quote`s. -/
def escape (quote c : Char) : List Char :=
  match escapeLetter? c with
  | some letter => ['\\', letter]
  | none =>
    if c = quote then ['\\', c]
    else if isGraphic c then [c]
    else ['\\', 'u', '{'] ++ Nat.toDigits 16 c.toNat ++ ['}']

/-- A character between single quotes. -/
def quotedChar (c : Char) : String :=
  String.ofList (['\''] ++ escape '\'' c ++ ['\''])

/-- A text between double quotes. -/
def quoted (s : String) : String :=
  String.ofList (['"'] ++ s.toList.flatMap (escape '"') ++ ['"'])

/-! ### Reading -/

/-- The character that an escape of a literal stands for, by the character after the backslash. -/
def escapedChar? : Char → Option Char
  | 'n' => some '\n'
  | 't' => some '\t'
  | 'r' => some '\r'
  | '0' => some '\x00'
  | '\\' => some '\\'
  | '\'' => some '\''
  | '"' => some '"'
  | _ => none

/-- The text that the inside of a literal stands for. A backslash before a character that makes no
escape with it stays, and so does that character. -/
def unescape : List Char → List Char
  | [] => []
  | '\\' :: c :: rest =>
    match escapedChar? c with
    | some d => d :: unescape rest
    | none => '\\' :: c :: unescape rest
  | c :: rest => c :: unescape rest

/-- Every escape by a letter is known to `unescape`. -/
theorem escapedChar?_of_escapeLetter? {c letter : Char} (h : escapeLetter? c = some letter) :
    escapedChar? letter = some c := by
  unfold escapeLetter? at h
  split at h <;> cases h <;> rfl

/-- A character that a listing writes without its code point is read back. -/
theorem unescape_escape {quote c : Char} (rest : List Char) (hq : quote = '\'' ∨ quote = '"')
    (h : escapeLetter? c ≠ none ∨ c = quote ∨ isGraphic c) :
    unescape (escape quote c ++ rest) = c :: unescape rest := by
  unfold escape
  split
  · rename_i letter hl
    simp [unescape, escapedChar?_of_escapeLetter? hl]
  · rename_i hn
    split
    · subst c
      rcases hq with rfl | rfl <;> rfl
    · rename_i hne
      have hg : isGraphic c = true := by
        rcases h with h | h | h
        · exact absurd hn h
        · exact absurd h hne
        · exact h
      have hb : c ≠ '\\' := by rintro rfl; simp [escapeLetter?] at hn
      simp [hg, unescape, hb]

end MiniC.Text
