/-!
# Kinds of tokens

Every token has a `Kind`, and the grammar looks at kinds only. Three groups of kinds matter here.

* **Punctuators** are written in exactly one way, given by `Kind.spelling?`. `Kind.punctuators`
  lists them with the longer spellings first, so that the first one that starts a text is the
  longest one that does.
* **Reserved words** are words that never name a variable. `Kind.ofWord` gives the kind of a word:
  that of the reserved word, or `identifier`.
* The rest, whose text varies: identifiers and literals.

`endOfInput` is the kind of no token. It stands for what follows the last one.
-/

namespace MiniC

/-- The **kind** of a token. -/
inductive Kind where
  | endOfInput
  | type
  | identifier
  | number
  | char
  | string
  | openCurly
  | closeCurly
  | openParen
  | closeParen
  | equals
  | notEquals
  | less
  | lessEquals
  | greater
  | greaterEquals
  | assign
  | plusAssign
  | minusAssign
  | starAssign
  | slashAssign
  | plus
  | dash
  | star
  | slash
  | colon
  | comma
  | semicolon
  | ifWord
  | elseWord
  | switchWord
  | caseWord
  | defaultWord
  | breakWord
  | whileWord
  | forWord
  deriving DecidableEq, Repr, Inhabited

namespace Kind

/-- All kinds, in the order in which reports list them. -/
def all : List Kind :=
  [endOfInput, type, identifier, number, char, string, openCurly, closeCurly, openParen, closeParen,
    equals, notEquals, less, lessEquals, greater, greaterEquals, assign, plusAssign, minusAssign,
    starAssign, slashAssign, plus, dash, star, slash, colon, comma, semicolon, ifWord, elseWord,
    switchWord, caseWord, defaultWord, breakWord, whileWord, forWord]

theorem mem_all (k : Kind) : k ∈ all := by cases k <;> decide

/-- The name a kind has in listings. -/
def name : Kind → String
  | endOfInput => "EOF"
  | type => "Type"
  | identifier => "Identifier"
  | number => "Number"
  | char => "Char"
  | string => "String"
  | openCurly => "OpenCurly"
  | closeCurly => "CloseCurly"
  | openParen => "OpenParen"
  | closeParen => "CloseParen"
  | equals => "Equals"
  | notEquals => "NotEquals"
  | less => "Less"
  | lessEquals => "LessEquals"
  | greater => "Greater"
  | greaterEquals => "GreaterEquals"
  | assign => "Assignment"
  | plusAssign => "PlusEquals"
  | minusAssign => "MinusEquals"
  | starAssign => "StarEquals"
  | slashAssign => "SlashEquals"
  | plus => "Plus"
  | dash => "Dash"
  | star => "Star"
  | slash => "Slash"
  | colon => "Colon"
  | comma => "Comma"
  | semicolon => "Semicolon"
  | ifWord => "If"
  | elseWord => "Else"
  | switchWord => "Switch"
  | caseWord => "Case"
  | defaultWord => "Default"
  | breakWord => "Break"
  | whileWord => "While"
  | forWord => "For"

/-! ### Punctuators -/

/-- How a punctuator is written. Kinds whose text varies, and words, have no spelling here. -/
def spelling? : Kind → Option String
  | openCurly => some "\x7b"
  | closeCurly => some "\x7d"
  | openParen => some "("
  | closeParen => some ")"
  | equals => some "=="
  | notEquals => some "!="
  | less => some "<"
  | lessEquals => some "<="
  | greater => some ">"
  | greaterEquals => some ">="
  | assign => some "="
  | plusAssign => some "+="
  | minusAssign => some "-="
  | starAssign => some "*="
  | slashAssign => some "/="
  | plus => some "+"
  | dash => some "-"
  | star => some "*"
  | slash => some "/"
  | colon => some ":"
  | comma => some ","
  | semicolon => some ";"
  | _ => none

/-- The punctuators in the order in which the scanner tries them: those of two characters come
before those of one. -/
def punctuators : List Kind :=
  [equals, notEquals, lessEquals, greaterEquals, plusAssign, minusAssign, starAssign, slashAssign,
    assign, less, greater, plus, dash, star, slash, openCurly, closeCurly, openParen, closeParen,
    colon, comma, semicolon]

/-- The punctuators are the kinds that have a spelling. -/
theorem mem_punctuators_iff (k : Kind) : k ∈ punctuators ↔ k.spelling?.isSome := by
  cases k <;> decide

/-! ### Words -/

/-- The kind of a **reserved word**. The three type names share one kind. -/
def reserved? (word : String) : Option Kind :=
  match word with
  | "int" | "float" | "char" => some type
  | "if" => some ifWord
  | "else" => some elseWord
  | "switch" => some switchWord
  | "case" => some caseWord
  | "default" => some defaultWord
  | "break" => some breakWord
  | "while" => some whileWord
  | "for" => some forWord
  | _ => none

/-- The kind of a word: a word that is not reserved is an identifier. -/
def ofWord (word : String) : Kind := (reserved? word).getD identifier

/-- The kinds of words. -/
def words : List Kind :=
  [type, identifier, ifWord, elseWord, switchWord, caseWord, defaultWord, breakWord, whileWord,
    forWord]

theorem ofWord_mem_words (word : String) : ofWord word ∈ words := by
  rw [ofWord]
  unfold reserved?
  split <;> decide

theorem ofWord_ne {kind : Kind} (h : kind ∉ words) (word : String) : ofWord word ≠ kind := by
  intro heq
  exact h (heq ▸ ofWord_mem_words word)

end Kind

end MiniC
