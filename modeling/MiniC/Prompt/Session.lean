import MiniC.CommandLine.Report
import MiniC.Prompt.LineBuffer
import MiniC.Text.Blank

/-!
# A session at the prompt

Lines are read one by one and collected into units, and the report on each unit is printed as soon
as the unit is complete. A unit of blanks has no report. The line `exit`, in any mixture of cases
and with blanks around it, ends the session if no unit has been started, and so does the end of the
input. A line that is not text ends the session as a failure.

`Session.reply` answers a single line. `Session.run` is the whole session on the lines of an input.
-/

namespace MiniC.Session

/-- The text that greets the user. -/
def banner : String := "Analyzer ready. Type 'exit' to quit.\n"

/-- The text that asks for a line. -/
def prompt (buffer : LineBuffer) : String := if buffer.isPending then "... " else "> "

/-- Whether a line asks to end the session. -/
def asksToLeave (line : String) : Bool :=
  (Text.trimChars line.toList).map Char.toLower = ['e', 'x', 'i', 't']

/-- What is printed for a unit. -/
def unitOutput (settings : Settings) (unit : String) : String :=
  (if Text.isAllBlank unit then "" else (report settings none unit).1) ++ "\n"

/-- The text of a line, if its bytes are text. -/
def decode? (line : List UInt8) : Option String := String.fromUTF8? ⟨line.toArray⟩

/-- The answer to a line. -/
inductive Reply where
  /-- The session goes on, after some output. -/
  | output (text : String) (buffer : LineBuffer)
  /-- The session ends. -/
  | leave
  /-- The session ends, because the line is not text. -/
  | unreadable

/-- The answer to a line. -/
def reply (settings : Settings) (buffer : LineBuffer) (line : List UInt8) : Reply :=
  match decode? line with
  | none => .unreadable
  | some line =>
    if !buffer.isPending && asksToLeave line then .leave
    else
      match buffer.push line with
      | (some unit, buffer) => .output (unitOutput settings unit) buffer
      | (none, buffer) => .output "" buffer

/-- What a session prints after its greeting, and whether it ends well. -/
def runFrom (settings : Settings) (buffer : LineBuffer) : List (List UInt8) → String × Bool
  | [] => (prompt buffer, true)
  | line :: rest =>
    match reply settings buffer line with
    | .unreadable => (prompt buffer, false)
    | .leave => (prompt buffer, true)
    | .output text buffer' =>
      let (more, good) := runFrom settings buffer' rest
      (prompt buffer ++ text ++ more, good)

/-- What a session prints on an input, and whether it ends well. -/
def run (settings : Settings) (input : List UInt8) : String × Bool :=
  let (output, good) := runFrom settings .empty (Text.byteLines input)
  (banner ++ output, good)

end MiniC.Session
