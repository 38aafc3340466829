import MiniC.Proofs.CommandLine.Arguments
import MiniC.Proofs.Prompt.Conservation
import MiniC.Proofs.Text.Encoding

/-!
# Sessions are made of units

A session shows a marker before each line, and after a line that completes a unit it prints what the
program prints for the unit. Which units there are depends on the lines alone (`Session.turns`), and
what is printed for one depends on the unit and the flags alone, so nothing of one unit is carried
over to the next. Where no unit has been started a session is like a new one: what it shows on more
lines is what a new session shows on them (`runProgram_append`).

The reason is that a buffer without lines is the empty one. The units before it leave no trace in
it, and a session remembers nothing but its buffer.
-/

namespace MiniC

namespace Session

open LineBuffer (push_cases add_lines)

variable {b b' : LineBuffer} {lines : List String}

/-! ### Turns -/

/-- A **turn** of a session: how a line is asked for, and the unit that the line completes, if it
completes one. -/
structure Turn where
  /-- The text that asks for the line. -/
  marker : String
  /-- The unit that the line completes. -/
  unit : Option String

/-- What a turn shows, if the given text is printed for a unit. -/
def Turn.shown (printed : String → String) (t : Turn) : String :=
  match t.unit with
  | none => t.marker
  | some unit => t.marker ++ printed unit ++ "\n"

/-- The turns of a session on lines. In the last turn there is no line, or it ends the session. -/
def turns (b : LineBuffer) : List (List UInt8) → List Turn
  | [] => [⟨prompt b, none⟩]
  | line :: rest =>
    match decode? line with
    | none => [⟨prompt b, none⟩]
    | some line =>
      if !b.isPending && asksToLeave line then [⟨prompt b, none⟩]
      else ⟨prompt b, (b.push line).1⟩ :: turns (b.push line).2 rest

/-- What is printed for a unit, without the empty line after it. -/
def printed (settings : Settings) (unit : String) : String :=
  if Text.isAllBlank unit then "" else (report settings none unit).1

/-- The answer to a line that does not end the session. -/
theorem reply_of_decode? (settings : Settings) {bytes : List UInt8} {line : String}
    (hline : decode? bytes = some line) (hstay : (!b.isPending && asksToLeave line) = false) :
    ∃ text, reply settings b bytes = .output text (b.push line).2 ∧
      Turn.shown (printed settings) ⟨prompt b, (b.push line).1⟩ = prompt b ++ text := by
  rcases push_cases b line with hpush | ⟨hpush, -⟩
  · refine ⟨unitOutput settings (String.intercalate "\n" (b.lines ++ [line])), ?_, ?_⟩
    · simp only [reply, hline, hstay, hpush, Bool.false_eq_true, if_false]
    · rw [hpush]
      exact String.append_assoc
  · refine ⟨"", ?_, ?_⟩
    · simp only [reply, hline, hstay, hpush, Bool.false_eq_true, if_false]
    · rw [hpush]
      exact String.append_empty.symm

/-- A session shows its turns. -/
theorem runFrom_eq_turns (settings : Settings) (b : LineBuffer) (lines : List (List UInt8)) :
    (runFrom settings b lines).1
      = String.join ((turns b lines).map (Turn.shown (printed settings))) := by
  fun_induction turns b lines with
  | case1 b => simp [runFrom, Turn.shown]
  | case2 b line rest hline => simp [runFrom, reply, hline, Turn.shown]
  | case3 b line rest line hline hleave => simp [runFrom, reply, hline, hleave, Turn.shown]
  | case4 b line rest line hline hstay ih =>
    obtain ⟨text, hreply, hshown⟩ := reply_of_decode? settings hline (by simpa using hstay)
    simp only [runFrom, hreply]
    rw [List.map_cons, String.join_cons, hshown, ih]

/-! ### Sessions that go on -/

/-- That a session **goes on** through lines: a line that asks to leave belongs to a unit that has
been started. -/
inductive GoesOn : LineBuffer → List String → LineBuffer → Prop
  | nil (b : LineBuffer) : GoesOn b [] b
  | cons {b b' : LineBuffer} {line : String} {lines : List String} :
      (asksToLeave line = true → b.isPending = true) → GoesOn (b.push line).2 lines b' →
        GoesOn b (line :: lines) b'

/-- A session that goes on through lines shows something, and then what it shows on the lines after
them. -/
theorem GoesOn.runFrom (h : GoesOn b lines b') (settings : Settings) :
    ∃ shown, ∀ rest, runFrom settings b (lines.map Text.bytes ++ rest)
      = (shown ++ (runFrom settings b' rest).1, (runFrom settings b' rest).2) := by
  induction h with
  | nil b => exact ⟨"", fun rest => by rw [String.empty_append]; rfl⟩
  | @cons b b' line lines hline _ ih =>
    obtain ⟨shown, hshown⟩ := ih
    have hstay : (!b.isPending && asksToLeave line) = false := by
      cases hleave : asksToLeave line with
      | false => exact Bool.and_false _
      | true => rw [hline hleave]; rfl
    obtain ⟨text, hreply, -⟩ := reply_of_decode? settings (Text.fromUTF8?_bytes line) hstay
    refine ⟨prompt b ++ text ++ shown, fun rest => ?_⟩
    simp only [List.map_cons, List.cons_append, Session.runFrom, hreply, hshown rest,
      String.append_assoc]

/-- Where no unit has been started, the buffer is empty. -/
theorem GoesOn.eq_empty (h : GoesOn b lines b') (hb : b.isPending = false → b = .empty)
    (hb' : b'.isPending = false) : b' = .empty := by
  induction h with
  | nil b => exact hb hb'
  | @cons b b' line lines _ _ ih =>
    refine ih (fun hnext => ?_) hb'
    rcases push_cases b line with hpush | ⟨hpush, -⟩
    · rw [hpush]
    · rw [hpush, LineBuffer.isPending, add_lines] at hnext
      simp at hnext

end Session

variable {arguments : List String} {settings : Settings}

/-- **Sessions are made of units.** A session on lines that it goes on through and that leave no
unit started, followed by more input, shows what it shows on the lines up to the last marker, and
then what a new session shows on the more input after its greeting, and it ends in the same way.
What a session shows is its turns, and for a unit that is not blank and is no option it is what the
program prints for the unit as a word. -/
theorem runProgram_append (h : Settings.ofArguments? arguments = some settings)
    (hflags : settings.IsFlags) (readFile : String → Except ReadFailure ByteArray)
    (name : Option String) :
    (∀ first buffer, Text.EndsLine first →
      Session.GoesOn .empty (Text.linesOf first) buffer → buffer.isPending = false →
      ∀ second, ∃ shown after,
        (runProgram arguments readFile (Text.bytes first) name).output = shown ++ "> " ∧
        (runProgram arguments readFile second name).output = Session.banner ++ after ∧
        runProgram arguments readFile (Text.bytes first ++ second) name
          = { runProgram arguments readFile second name with output := shown ++ after }) ∧
    (∀ input, (runProgram arguments readFile input name).output = Session.banner ++ String.join
      ((Session.turns .empty (Text.byteLines input)).map
        (Session.Turn.shown (Session.printed settings)))) ∧
    ∀ unit, Text.isAllBlank unit = false → Settings.isOption unit = false →
      ∀ input, Session.printed settings unit
        = (runProgram (arguments ++ [unit]) readFile input name).output := by
  refine ⟨fun first buffer hfirst hgoes hpending second => ?_, fun input => ?_,
    fun unit hblank hunit input => ?_⟩
  · obtain ⟨shown, hshown⟩ := hgoes.runFrom settings
    obtain rfl := hgoes.eq_empty (fun _ => rfl) hpending
    have halone : Session.runFrom settings .empty (Text.byteLines (Text.bytes first))
        = (shown ++ "> ", true) := by
      have hrun := hshown []
      rwa [List.append_nil, ← Text.byteLines_bytes] at hrun
    -- The first lines are whole, and no unit is started after them.
    have hmore : Session.runFrom settings .empty (Text.byteLines (Text.bytes first ++ second))
        = (shown ++ (Session.runFrom settings .empty (Text.byteLines second)).1,
          (Session.runFrom settings .empty (Text.byteLines second)).2) := by
      rw [hfirst.byteLines_append, hshown]
    simp only [runProgram_session h hflags, Outcome.ofSession, Session.run, halone, hmore]
    refine ⟨Session.banner ++ shown, _, String.append_assoc.symm, rfl, ?_⟩
    rw [String.append_assoc]
    rfl
  · rw [runProgram_session h hflags]
    exact congrArg (Session.banner ++ ·) (Session.runFrom_eq_turns settings .empty _)
  · rw [runProgram_word h hflags hunit, Session.printed, hblank]
    rfl

/-- A unit with a line that asks to leave. -/
def Session.sampleUnit : String := "while (x < 3) \x7b\n  exit\n\x7d"

/-- The lines of the unit, and a line of blanks. -/
def Session.sample : String := sampleUnit ++ "\n \n"

/-- What is shown for the unit: an identifier alone is no statement. -/
def Session.sampleReport : String :=
  "Error: UnexpectedTokenDetailed (Unexpected token: `\x7d`, expected assignment operator)\n"
    ++ "-> shell\n   |\n 3 | \x7d\n   |\n"

/-- There are no files. -/
def noFiles : String → Except ReadFailure ByteArray := fun _ => .error .notFound

/-- The session goes on over the line in the unit, and ends at the same line by itself. -/
theorem runProgram_append_sample :
    Settings.ofArguments? ["--tree"] = some { showTree := true } ∧
      Text.EndsLine Session.sample ∧ Text.isAllBlank Session.sampleUnit = false ∧
      Session.GoesOn .empty (Text.linesOf Session.sample) .empty ∧
      runProgram ["--tree"] noFiles (Text.bytes Session.sample ++ Text.bytes "EXIT\n") none
        = ⟨0, Session.banner ++ "> ... ... " ++ Session.sampleReport ++ "\n> \n" ++ "> ", ""⟩ ∧
      Session.printed { showTree := true } Session.sampleUnit = Session.sampleReport := by
  have hsettings : Settings.ofArguments? ["--tree"] = some { showTree := true } := rfl
  have hfirst : Text.EndsLine Session.sample := by
    have hlast : Session.sample.toList.getLast? = some '\n' := by decide +kernel
    rw [Text.EndsLine, hlast]
    rintro _ ⟨⟩
    rfl
  have hblank : Text.isAllBlank Session.sampleUnit = false := by decide
  have hlines : Text.linesOf Session.sample = ["while (x < 3) \x7b", "  exit", "\x7d", " "] := by
    decide +kernel
  have hgoes : Session.GoesOn .empty (Text.linesOf Session.sample) .empty := by
    rw [hlines]
    exact .cons (by decide) (.cons (by decide) (.cons (by decide) (.cons (by decide) (.nil _))))
  obtain ⟨happend, -, hunit⟩ := runProgram_append hsettings ⟨rfl, rfl⟩ noFiles none
  obtain ⟨shown, after, hshown, hafter, hrun⟩ :=
    happend Session.sample .empty hfirst hgoes rfl (Text.bytes "EXIT\n")
  have hfirstRun : (runProgram ["--tree"] noFiles (Text.bytes Session.sample) none).output
      = Session.banner ++ "> ... ... " ++ Session.sampleReport ++ "\n> \n" ++ "> " := by
    decide +kernel
  have hsecondRun : runProgram ["--tree"] noFiles (Text.bytes "EXIT\n") none
      = ⟨0, Session.banner ++ "> ", ""⟩ := by
    decide +kernel
  rw [hsecondRun] at hafter hrun
  have hshown' := String.append_left_inj _ |>.1 (hshown.symm.trans hfirstRun)
  have hafter' := String.append_right_inj _ |>.1 hafter
  refine ⟨hsettings, hfirst, hblank, hgoes, ?_, (hunit _ hblank rfl []).trans (by decide +kernel)⟩
  rw [hrun, hshown', ← hafter']

end MiniC
