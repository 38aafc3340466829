import MiniC.Dialect

/-!
# Arguments

The arguments of the program are read from left to right. An argument is a flag, or names the file
to read by the argument after it, or asks for help, or is a word of the source. Nothing else is
refused: an unknown option is a word.

Of several files the last one counts, and a file counts more than any words. Without a file and
without words the program prompts for its source.
-/

namespace MiniC

/-- What the arguments ask for. -/
structure Settings where
  /-- The dialect of the source. -/
  dialect : Dialect := {}
  /-- Whether to print the tokens. -/
  showTokens : Bool := false
  /-- Whether to print trees as listings. -/
  showTree : Bool := false
  /-- The path of the file to read. -/
  file : Option String := none
  /-- The words of the source. -/
  words : List String := []
  deriving DecidableEq, Repr

namespace Settings

/-- The name of a program that is called without one. -/
def programName : String := "c_analyzer"

/-- How the program is called, by the name that it is called by. -/
def usage (program : Option String) : String :=
  "Usage: " ++ program.getD programName
    ++ " [--tokens] [--tree] [--no-exponents] [--no-unary-minus] [-f <file> | <source>...]"

/-- Reads arguments on top of settings. There is no answer where help is asked for, or where the
last argument should be followed by the path of a file. -/
def read (s : Settings) : List String → Option Settings
  | [] => some s
  | argument :: rest =>
    if argument = "--tokens" then read { s with showTokens := true } rest
    else if argument = "--tree" then read { s with showTree := true } rest
    else if argument = "--no-exponents" then
      read { s with dialect := { s.dialect with exponents := false } } rest
    else if argument = "--no-unary-minus" then
      read { s with dialect := { s.dialect with unaryMinus := false } } rest
    else if argument = "-f" || argument = "--file" then
      match rest with
      | [] => none
      | path :: rest => read { s with file := some path } rest
    else if argument = "-h" || argument = "--help" then none
    else read { s with words := s.words ++ [argument] } rest

/-- The settings that arguments ask for. -/
def ofArguments? (arguments : List String) : Option Settings := read {} arguments

end Settings

/-- Where the source comes from. -/
inductive SourceOrigin where
  /-- From the file at a path. -/
  | file (path : String)
  /-- From the arguments. -/
  | text (source : String)
  /-- Line by line from the input. -/
  | prompt
  deriving DecidableEq, Repr

/-- Where settings take the source from. Words are joined by single spaces. -/
def Settings.origin (s : Settings) : SourceOrigin :=
  match s.file, s.words with
  | some path, _ => .file path
  | none, [] => .prompt
  | none, words => .text (String.intercalate " " words)

end MiniC
