import MiniC.CommandLine.Run

/-!
# A source among the arguments

Arguments are read from left to right, so once some of them have been read in full, what follows is
read on top of what they ask for (`Settings.read_append`). In particular, flags that are followed by
a single word make the program report on the word (`runProgram_word`), whatever the word is, unless
it is an option itself; and flags alone start a session (`runProgram_session`).
-/

namespace MiniC

namespace Settings

/-- Whether an argument is an **option**, and so no word of the source. -/
def isOption (argument : String) : Bool :=
  argument ∈ ["--tokens", "--tree", "--no-exponents", "--no-unary-minus", "-f", "--file", "-h",
    "--help"]

/-- That settings are those of **flags alone**: they name no file and hold no words. -/
def IsFlags (s : Settings) : Prop := s.file = none ∧ s.words = []

variable {s s' : Settings} {word : String}

/-- A word is put after the words before it. -/
private theorem read_cons_word (h : isOption word = false) (s : Settings) (rest : List String) :
    s.read (word :: rest) = read { s with words := s.words ++ [word] } rest := by
  simp only [isOption, List.mem_cons, List.not_mem_nil, or_false, decide_eq_false_iff_not,
    not_or] at h
  obtain ⟨h₁, h₂, h₃, h₄, h₅, h₆, h₇, h₈⟩ := h
  rw [read.eq_def]
  simp only [h₁, h₂, h₃, h₄, h₅, h₆, h₇, h₈, decide_false, Bool.or_self, if_false,
    Bool.false_eq_true]

/-- Arguments after others that were read in full are read on top of those. -/
theorem read_append {arguments : List String} (h : s.read arguments = some s')
    (rest : List String) : s.read (arguments ++ rest) = s'.read rest := by
  fun_induction read s arguments with
  | case1 => cases h; rfl
  | case6 | case8 => cases h
  | _ =>
    rw [List.cons_append, read.eq_def]
    simp [*]

private theorem origin_flags (h : s.IsFlags) : s.origin = .prompt := by
  rw [origin, h.1, h.2]

private theorem origin_word (hfile : s.file = none) (hwords : s.words = [word]) :
    s.origin = .text word := by
  rw [origin, hfile, hwords]
  exact congrArg _ String.intercalate_singleton

end Settings

variable {arguments : List String} {settings : Settings}

/-- Flags alone start a session. -/
theorem runProgram_session (h : Settings.ofArguments? arguments = some settings)
    (hflags : settings.IsFlags) (readFile : String → Except ReadFailure ByteArray)
    (input : List UInt8) (program : Option String) :
    runProgram arguments readFile input program = .ofSession settings input := by
  simp only [runProgram, h, Settings.origin_flags hflags]

/-- Flags and a single word make the program report on the word. -/
theorem runProgram_word (h : Settings.ofArguments? arguments = some settings)
    (hflags : settings.IsFlags) {word : String} (hword : Settings.isOption word = false)
    (readFile : String → Except ReadFailure ByteArray) (input : List UInt8)
    (program : Option String) :
    runProgram (arguments ++ [word]) readFile input program = .ofUnit settings none word := by
  have hsettings : Settings.ofArguments? (arguments ++ [word])
      = some { settings with words := [word] } := by
    rw [Settings.ofArguments?, Settings.read_append h, Settings.read_cons_word hword, hflags.2]
    rfl
  have horigin := Settings.origin_word (s := { settings with words := [word] }) hflags.1 rfl
  simp only [runProgram, hsettings, horigin]
  rfl

end MiniC
