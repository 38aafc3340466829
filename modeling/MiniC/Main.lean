import MiniC.CommandLine.Run

/-!
# The command line

The outer layer of the program: it reads the file, or the lines of a session, and prints what
`MiniC.CommandLine.Run` says. A session prints each reply before it reads the next line.
-/

namespace MiniC

/-- The content of the file at a path. -/
def readFile (path : String) : IO (Except ReadFailure ByteArray) := do
  try
    return .ok (← IO.FS.readBinFile path)
  catch
    | .noFileOrDirectory .. => return .error .notFound
    | .inappropriateType _ 20 _ => return .error .notDirectory
    | .inappropriateType .. => return .error .isDirectory
    | failure => return .error (.other (toString failure))

/-- Prints an outcome, and answers its status. -/
def finish (outcome : Outcome) : IO UInt32 := do
  IO.print outcome.output
  IO.eprint outcome.errors
  return outcome.status

/-- The bytes of a line of the input, up to and with its line feed. -/
partial def readLine (input : IO.FS.Stream) (seen : List UInt8) : IO (List UInt8) := do
  match (← input.read 1).toList with
  | [] => return seen.reverse
  | byte :: _ =>
    if byte = 0x0A then return (byte :: seen).reverse else readLine input (byte :: seen)

/-- A session at the prompt. -/
partial def converse (settings : Settings) (input output : IO.FS.Stream) (buffer : LineBuffer) :
    IO UInt32 := do
  output.putStr (Session.prompt buffer)
  output.flush
  match Text.byteLines (← readLine input []) with
  | [] => return 0
  | line :: _ =>
    match Session.reply settings buffer line with
    | .unreadable => IO.eprint Outcome.unreadableLine; return 1
    | .leave => return 0
    | .output text buffer =>
      output.putStr text
      converse settings input output buffer

/-- The program, with its input and its output. -/
def runCommandLine (arguments : List String) : IO UInt32 := do
  match Settings.ofArguments? arguments with
  | none => finish (.misuse none)
  | some settings =>
    match settings.origin with
    | .file path => finish (.ofFile settings path (← readFile path))
    | .text source => finish (.ofUnit settings none source)
    | .prompt =>
      let output ← IO.getStdout
      output.putStr Session.banner
      converse settings (← IO.getStdin) output .empty

end MiniC

/-- The program. -/
def main (arguments : List String) : IO UInt32 := MiniC.runCommandLine arguments
