import MiniC.CommandLine.Files
import MiniC.Prompt.Session

/-!
# The program as a function

`runProgram` is the program: from its arguments, a way to read files, its input, and the name that
it is called by, it gives the status it exits with and what it prints. The status is 0 if the source
could be read as a program, or if a session ended well; it is 1 if not, or if a file or a line of
the input is not to be had; it is 2 if the program was called in a way that it does not know.
-/

namespace MiniC

/-- What a run of the program leaves behind. -/
structure Outcome where
  /-- The exit status. -/
  status : UInt32
  /-- What was printed. -/
  output : String
  /-- What was printed as an error. -/
  errors : String
  deriving DecidableEq, Repr

namespace Outcome

/-- The status that says whether a run was a success. -/
def statusOf (good : Bool) : UInt32 := if good then 0 else 1

/-- The outcome of a call that the program does not know. -/
def misuse (program : Option String) : Outcome := ⟨2, "", asLine (Settings.usage program)⟩

/-- The outcome for a unit that was read in full. -/
def ofUnit (settings : Settings) (unit : Option String) (source : String) : Outcome :=
  let (output, good) := report settings unit source
  ⟨statusOf good, output, ""⟩

/-- The outcome for a file that was, or was not, read. Its unit is named for the file. -/
def ofFile (settings : Settings) (path : String) (content : Except ReadFailure ByteArray) :
    Outcome :=
  let source : Except ReadFailure String := do
    match String.fromUTF8? (← content) with
    | some source => pure source
    | none => throw .notText
  match source with
  | .ok source => ofUnit settings (Path.fileName? path) source
  | .error failure =>
    ⟨1, "", asLine ("Failed to read file " ++ path ++ ": " ++ failure.message)⟩

/-- What is printed as an error when a line of the input is not text. -/
def unreadableLine : String := asLine ("Failed to read input: " ++ ReadFailure.notText.message)

/-- The outcome of a session. -/
def ofSession (settings : Settings) (input : List UInt8) : Outcome :=
  let (output, good) := Session.run settings input
  ⟨statusOf good, output, if good then "" else unreadableLine⟩

end Outcome

/-- The **program**. The arguments are those after the name that it is called by, if it has one. -/
def runProgram (arguments : List String) (readFile : String → Except ReadFailure ByteArray)
    (input : List UInt8) (program : Option String := none) : Outcome :=
  match Settings.ofArguments? arguments with
  | none => .misuse program
  | some settings =>
    match settings.origin with
    | .file path => .ofFile settings path (readFile path)
    | .text source => .ofUnit settings none source
    | .prompt => .ofSession settings input

end MiniC
