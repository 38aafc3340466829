import MiniC.Proofs.CommandLine.Arguments

/-!
# What the program does with its arguments

An argument after one that asks for a file is its operand, whatever it looks like, and no operand
asks for anything. `Argument.arrange` tells from left to right which arguments are operands. All
that the program takes from its arguments can be told from that (`Settings.read_eq`): which flags
are among the arguments that are no operands, which of those are words, and which operand comes
last. So it matters neither where a flag stands nor how often (`Settings.ofArguments?_eq`), and
`runProgram_dispatch` says for all arguments what the program does.

That a flag can be left out of account is not quite plain, for an operand might be awaited in its
place. But a flag that is no operand stands where none is awaited, and none is awaited after it
(`Argument.awaitsAfter_withoutFlags`).
-/

namespace MiniC

/-! ### Operands -/

/-- Whether an argument asks for a file, the path of which is its **operand**. -/
def asksForFile (text : String) : Bool := text ∈ ["-f", "--file"]

theorem asksForFile_iff {text : String} :
    asksForFile text = true ↔ text = "-f" ∨ text = "--file" := by simp [asksForFile]

/-- Whether an argument asks for help. -/
def asksForHelp (text : String) : Bool := text ∈ ["-h", "--help"]

/-- Whether an argument is a **flag**: it switches something on or off. -/
def isFlag (text : String) : Bool :=
  text ∈ ["--tokens", "--tree", "--no-exponents", "--no-unary-minus"]

/-- An argument in its place. -/
structure Argument where
  text : String
  /-- Whether it is the operand of the argument before it. -/
  isOperand : Bool
  deriving DecidableEq

namespace Argument

/-- Whether the argument after this one is its operand. -/
def awaitsOperand (a : Argument) : Bool := !a.isOperand && asksForFile a.text

/-- The arguments in their places, the first of which may be that of an operand. -/
def arrangeFrom (isOperand : Bool) : List String → List Argument
  | [] => []
  | text :: rest => ⟨text, isOperand⟩ :: arrangeFrom (awaitsOperand ⟨text, isOperand⟩) rest

/-- The arguments of the program in their places. -/
def arrange (arguments : List String) : List Argument := arrangeFrom false arguments

example : arrange ["-f", "--file", "--help"]
    = [⟨"-f", false⟩, ⟨"--file", true⟩, ⟨"--help", false⟩] := by decide

/-- The operands. -/
def operands (as : List Argument) : List String := (as.filter (·.isOperand)).map text

/-- The arguments that are no operands. -/
def others (as : List Argument) : List String := (as.filter (!·.isOperand)).map text

/-- The words of the source. -/
def words (as : List Argument) : List String := (others as).filter (!Settings.isOption ·)

/-- Whether the last argument asks for a file and has no operand. -/
def lacksOperand (as : List Argument) : Bool := as.getLast?.any awaitsOperand

/-- Whether the arguments are refused: help is asked for, or an operand is missing. -/
def isMisuse (as : List Argument) : Bool := (others as).any asksForHelp || lacksOperand as

/-- The dialect that the arguments ask for. -/
def dialect (as : List Argument) : Dialect where
  exponents := !(others as).contains "--no-exponents"
  unaryMinus := !(others as).contains "--no-unary-minus"

/-- The arguments without the flags. -/
def withoutFlags (as : List Argument) : List Argument :=
  as.filter fun a => a.isOperand || !isFlag a.text

/-- That the same flags are among the arguments that are no operands. -/
def SameFlags (as bs : List Argument) : Prop :=
  ∀ text, isFlag text = true → (text ∈ others as ↔ text ∈ others bs)

variable {text : String} {as bs : List Argument}

@[simp] theorem others_cons_other (text : String) (as : List Argument) :
    others (⟨text, false⟩ :: as) = text :: others as := rfl

@[simp] theorem others_cons_operand (text : String) (as : List Argument) :
    others (⟨text, true⟩ :: as) = others as := rfl

@[simp] theorem operands_cons_other (text : String) (as : List Argument) :
    operands (⟨text, false⟩ :: as) = operands as := rfl

@[simp] theorem operands_cons_operand (text : String) (as : List Argument) :
    operands (⟨text, true⟩ :: as) = text :: operands as := rfl

theorem others_append (as bs : List Argument) : others (as ++ bs) = others as ++ others bs := by
  rw [others, others, others, List.filter_append, List.map_append]

private theorem arrange_other (h : asksForFile text = false) (rest : List String) :
    arrange (text :: rest) = ⟨text, false⟩ :: arrange rest := by
  rw [arrange, arrangeFrom, awaitsOperand, h]
  rfl

/-- What comes after an argument that asks for a file is its operand. -/
private theorem arrange_file (h : asksForFile text = true) (path : String) (rest : List String) :
    arrange (text :: path :: rest) = ⟨text, false⟩ :: ⟨path, true⟩ :: arrange rest := by
  rw [arrange, arrangeFrom, awaitsOperand, h]
  rfl

/-- Whether an operand is awaited after arguments, if that is known of the place before them. -/
def awaitsAfter (awaits : Bool) : List Argument → Bool
  | [] => awaits
  | a :: as => awaitsAfter a.awaitsOperand as

/-- An operand is missing if one is awaited after all arguments. -/
private theorem lacksOperand_eq (as : List Argument) : lacksOperand as = awaitsAfter false as := by
  have hlast (awaits : Bool) (as : List Argument) :
      awaitsAfter awaits as = (as.getLast?.map awaitsOperand).getD awaits := by
    induction as generalizing awaits with
    | nil => rfl
    | cons a as ih => rw [awaitsAfter, ih, List.getLast?_cons]; cases as.getLast? <;> rfl
  rw [hlast, lacksOperand]
  cases as.getLast? <;> rfl

private theorem isMisuse_other (hfile : asksForFile text = false) (hhelp : asksForHelp text = false)
    (as : List Argument) : isMisuse (⟨text, false⟩ :: as) = isMisuse as := by
  have hawaits : awaitsOperand ⟨text, false⟩ = false := hfile
  rw [isMisuse, isMisuse, others_cons_other, List.any_cons, hhelp, Bool.false_or,
    lacksOperand_eq, lacksOperand_eq, awaitsAfter, hawaits]

private theorem isMisuse_help (h : asksForHelp text = true) (as : List Argument) :
    isMisuse (⟨text, false⟩ :: as) = true := by
  rw [isMisuse, others_cons_other, List.any_cons, h, Bool.true_or, Bool.true_or]

/-- A file that is asked for does not make a misuse if there is a path, whatever the path is. -/
private theorem isMisuse_file (h : asksForFile text = true) (path : String) (as : List Argument) :
    isMisuse (⟨text, false⟩ :: ⟨path, true⟩ :: as) = isMisuse as := by
  have hhelp : asksForHelp text = false := by
    rcases asksForFile_iff.1 h with rfl | rfl <;> decide
  rw [isMisuse, isMisuse, others_cons_other, others_cons_operand, List.any_cons, hhelp,
    Bool.false_or, lacksOperand_eq, lacksOperand_eq]
  rfl

theorem arrangeFrom_append (awaits : Bool) (before after : List String) :
    arrangeFrom awaits (before ++ after)
      = arrangeFrom awaits before
        ++ arrangeFrom (awaitsAfter awaits (arrangeFrom awaits before)) after := by
  induction before generalizing awaits with
  | nil => rfl
  | cons text before ih => exact congrArg (_ :: ·) (ih _)

/-! ### Flags -/

/-- A flag asks neither for a file nor for help, and it is no word. -/
private theorem of_isFlag (h : isFlag text = true) :
    asksForFile text = false ∧ asksForHelp text = false ∧ Settings.isOption text = true := by
  have hcases : text = "--tokens" ∨ text = "--tree" ∨ text = "--no-exponents" ∨
      text = "--no-unary-minus" := by simpa [isFlag] using h
  rcases hcases with rfl | rfl | rfl | rfl <;> decide

/-- Where no operand is awaited, none is awaited after a flag. -/
private theorem awaitsAfter_withoutFlags (awaits : Bool) (arguments : List String) :
    awaitsAfter awaits (withoutFlags (arrangeFrom awaits arguments))
      = awaitsAfter awaits (arrangeFrom awaits arguments) := by
  induction arguments generalizing awaits with
  | nil => rfl
  | cons text rest ih =>
    rw [arrangeFrom, withoutFlags, List.filter_cons]
    split
    · exact ih _
    · next hdropped =>
      obtain ⟨rfl, hflag⟩ : awaits = false ∧ isFlag text = true := by simpa using hdropped
      have hawaits : awaitsOperand ⟨text, false⟩ = false := (of_isFlag hflag).1
      rw [awaitsAfter, hawaits]
      exact ih false

/-- No operand is a flag, so all of them are kept. -/
private theorem operands_withoutFlags (as : List Argument) :
    operands (withoutFlags as) = operands as := by
  rw [operands, operands, withoutFlags, List.filter_filter]
  congr 2
  funext a
  cases a.isOperand <;> rfl

/-- The arguments that are no operands lose the flags among them. -/
private theorem others_withoutFlags (as : List Argument) :
    others (withoutFlags as) = (others as).filter (!isFlag ·) := by
  rw [others, others, withoutFlags, List.filter_filter, List.filter_map, List.filter_filter]
  congr 2
  funext a
  cases a.isOperand <;> simp

/-- A flag is no word, so all words are kept. -/
private theorem words_withoutFlags (as : List Argument) : words (withoutFlags as) = words as := by
  rw [words, words, others_withoutFlags, List.filter_filter]
  congr 1
  funext text
  cases hflag : isFlag text with
  | false => exact Bool.and_true _
  | true => rw [(of_isFlag hflag).2.2]; rfl

private theorem any_asksForHelp_withoutFlags (as : List Argument) :
    (others (withoutFlags as)).any asksForHelp = (others as).any asksForHelp := by
  rw [others_withoutFlags, List.any_filter]
  congr 1
  funext text
  cases hflag : isFlag text with
  | false => rfl
  | true => rw [(of_isFlag hflag).2.1]; rfl

/-- Flags matter not to what is refused. -/
private theorem isMisuse_withoutFlags (arguments : List String) :
    isMisuse (withoutFlags (arrange arguments)) = isMisuse (arrange arguments) := by
  rw [isMisuse, isMisuse, any_asksForHelp_withoutFlags, lacksOperand_eq, lacksOperand_eq, arrange,
    awaitsAfter_withoutFlags]

/-- Whether a flag is there is all that is asked of it. -/
theorem SameFlags.contains_eq (h : SameFlags as bs) (hflag : isFlag text = true) :
    (others as).contains text = (others bs).contains text := by
  rw [Bool.eq_iff_iff, List.contains_iff_mem, List.contains_iff_mem]
  exact h text hflag

theorem SameFlags.dialect_eq (h : SameFlags as bs) : dialect as = dialect bs := by
  rw [dialect, dialect, h.contains_eq (by decide), h.contains_eq (by decide)]

end Argument

namespace Settings

open Argument (arrange others operands isMisuse withoutFlags SameFlags)

variable {text : String} {as bs : List Argument}

/-! ### What the arguments ask for -/

/-- Settings with what arguments ask for on top of them. -/
def asked (s : Settings) (as : List Argument) : Settings where
  dialect := ⟨s.dialect.exponents && (Argument.dialect as).exponents,
    s.dialect.unaryMinus && (Argument.dialect as).unaryMinus⟩
  showTokens := s.showTokens || (others as).contains "--tokens"
  showTree := s.showTree || (others as).contains "--tree"
  file := (operands as).getLast?.or s.file
  words := s.words ++ Argument.words as

private theorem asked_nil (s : Settings) : s.asked [] = s := by
  simp [asked, Argument.dialect, others, operands, Argument.words]

/-- A file that is asked for later takes the place of an earlier one. -/
private theorem asked_file (h : asksForFile text = true) (path : String) (s : Settings)
    (as : List Argument) :
    s.asked (⟨text, false⟩ :: ⟨path, true⟩ :: as) = { s with file := some path }.asked as := by
  rcases asksForFile_iff.1 h with rfl | rfl <;>
    simp [asked, Argument.dialect, Argument.words, isOption, List.getLast?_cons]

private theorem asked_word (h : isOption text = false) (s : Settings) (as : List Argument) :
    s.asked (⟨text, false⟩ :: as) = { s with words := s.words ++ [text] }.asked as := by
  have hne : ∀ option ∈ ["--tokens", "--tree", "--no-exponents", "--no-unary-minus"],
      ¬option = text := by
    rintro option hoption rfl
    simp_all [isOption]
  simp only [List.mem_cons, List.not_mem_nil, or_false, forall_eq_or_imp, forall_eq] at hne
  simp [asked, Argument.dialect, Argument.words, h, hne]

/-- What is read off arguments, or why nothing is, can be told from their places. -/
private theorem read_eq (s : Settings) (arguments : List String) :
    s.read arguments
      = if isMisuse (arrange arguments) then none else some (s.asked (arrange arguments)) := by
  fun_induction read s arguments with
  | case1 s => exact congrArg some (asked_nil s).symm
  | case2 s rest ih | case3 s rest _ ih | case4 s rest _ _ ih | case5 s rest _ _ _ ih =>
    rw [ih, Argument.arrange_other (by decide), Argument.isMisuse_other (by decide) (by decide)]
    simp [asked, Argument.dialect, Argument.words, isOption]
  | case6 s text _ _ _ _ hfile =>
    have hawaits : asksForFile text = true := asksForFile_iff.2 (by simpa using hfile)
    simp [arrange, Argument.arrangeFrom, isMisuse, Argument.lacksOperand, Argument.awaitsOperand,
      hawaits]
  | case7 s text _ _ _ _ hfile path rest ih =>
    have hawaits : asksForFile text = true := asksForFile_iff.2 (by simpa using hfile)
    rw [ih, Argument.arrange_file hawaits, Argument.isMisuse_file hawaits, asked_file hawaits]
  | case8 s text rest _ _ _ _ hfile hhelp =>
    have hawaits : asksForFile text = false := by simpa [asksForFile] using hfile
    have hasks : asksForHelp text = true := by simpa [asksForHelp] using hhelp
    rw [Argument.arrange_other hawaits, Argument.isMisuse_help hasks, if_pos rfl]
  | case9 s text rest htokens htree hexponents hminus hfile hhelp ih =>
    have hword : isOption text = false := by simp_all [isOption]
    have hawaits : asksForFile text = false := by simpa [asksForFile] using hfile
    have hasks : asksForHelp text = false := by simpa [asksForHelp] using hhelp
    rw [ih, Argument.arrange_other hawaits, Argument.isMisuse_other hawaits hasks, asked_word hword]

/-- Settings depend on the arguments without the flags, and on which flags there are. -/
theorem asked_eq (hplain : withoutFlags as = withoutFlags bs) (hflags : SameFlags as bs)
    (s : Settings) : s.asked as = s.asked bs := by
  have hwords : Argument.words as = Argument.words bs := by
    rw [← Argument.words_withoutFlags as, hplain, Argument.words_withoutFlags]
  have hoperands : operands as = operands bs := by
    rw [← Argument.operands_withoutFlags as, hplain, Argument.operands_withoutFlags]
  rw [asked, asked, hflags.dialect_eq, hflags.contains_eq (by decide),
    hflags.contains_eq (by decide), hwords, hoperands]

/-- It matters neither where a flag stands nor how often. -/
private theorem ofArguments?_eq {arguments arguments' : List String}
    (hplain : withoutFlags (arrange arguments) = withoutFlags (arrange arguments'))
    (hflags : SameFlags (arrange arguments) (arrange arguments')) :
    ofArguments? arguments = ofArguments? arguments' := by
  rw [ofArguments?, ofArguments?, read_eq, read_eq, ← Argument.isMisuse_withoutFlags arguments,
    hplain, Argument.isMisuse_withoutFlags, asked_eq hplain hflags]

end Settings

/-! ### Outcomes -/

namespace Outcome

/-- Status two is kept for misuse. -/
theorem statusOf_ne_two (good : Bool) : statusOf good ≠ 2 := by cases good <;> decide

theorem statusOf_eq_zero_iff (good : Bool) : statusOf good = 0 ↔ good = true := by
  cases good <;> decide

/-- The outcome for a file depends neither on the words nor on what else is named as a file. -/
private theorem ofFile_congr {s s' : Settings} (hdialect : s.dialect = s'.dialect)
    (htokens : s.showTokens = s'.showTokens) (htree : s.showTree = s'.showTree) (path : String)
    (content : Except ReadFailure ByteArray) : ofFile s path content = ofFile s' path content := by
  simp only [ofFile, ofUnit, report, hdialect, htokens, htree]

/-- The text of a file, if it was read and is text. -/
def fileText? : Except ReadFailure ByteArray → Option String
  | .ok bytes => String.fromUTF8? bytes
  | .error _ => none

variable {content : Except ReadFailure ByteArray}

/-- A file that is read and is text is run as one unit, named by the last part of its path. -/
theorem ofFile_of_some (settings : Settings) (path : String) {source : String}
    (h : fileText? content = some source) :
    ofFile settings path content = ofUnit settings (Path.fileName? path) source := by
  cases content with
  | error failure => cases h
  | ok bytes =>
    replace h : String.fromUTF8? bytes = some source := h
    simp only [ofFile, bind, Except.bind, h]
    rfl

/-- A file that cannot be read, or is no text, prints nothing and fails. -/
theorem ofFile_of_none (settings : Settings) (path : String) (h : fileText? content = none) :
    (ofFile settings path content).status = 1 ∧ (ofFile settings path content).output = "" := by
  cases content with
  | error failure => exact ⟨rfl, rfl⟩
  | ok bytes =>
    replace h : String.fromUTF8? bytes = none := h
    simp only [ofFile, bind, Except.bind, h]
    exact ⟨rfl, rfl⟩

private theorem ofFile_status_ne_two (settings : Settings) (path : String)
    (content : Except ReadFailure ByteArray) : (ofFile settings path content).status ≠ 2 := by
  cases h : fileText? content with
  | none => rw [(ofFile_of_none settings path h).1]; decide
  | some source => rw [ofFile_of_some settings path h]; exact statusOf_ne_two _

end Outcome

open Argument (arrange operands words isMisuse dialect withoutFlags SameFlags)

variable {arguments : List String}

/-- Arguments that are refused are answered with how to call the program. -/
theorem runProgram_of_isMisuse (h : isMisuse (arrange arguments) = true)
    (readFile : String → Except ReadFailure ByteArray) (input : List UInt8)
    (program : Option String) :
    runProgram arguments readFile input program = .misuse program := by
  rw [runProgram, Settings.ofArguments?, Settings.read_eq, if_pos h]

/-- A file counts more than any words, and of several files the last one counts. -/
theorem runProgram_of_file (h : isMisuse (arrange arguments) = false) {path : String}
    (hpath : (operands (arrange arguments)).getLast? = some path)
    (readFile : String → Except ReadFailure ByteArray) (input : List UInt8)
    (program : Option String) :
    runProgram arguments readFile input program
      = .ofFile (Settings.asked {} (arrange arguments)) path (readFile path) := by
  simp only [runProgram, Settings.ofArguments?, Settings.read_eq, h, Settings.origin,
    Settings.asked, hpath, Option.or_none, Bool.false_eq_true, if_false]

/-- Words without a file are one unit without a name, with a blank between them. -/
theorem runProgram_of_words (h : isMisuse (arrange arguments) = false)
    (hnone : operands (arrange arguments) = []) (hwords : words (arrange arguments) ≠ [])
    (readFile : String → Except ReadFailure ByteArray) (input : List UInt8)
    (program : Option String) :
    runProgram arguments readFile input program
      = .ofUnit (Settings.asked {} (arrange arguments)) none
          (String.intercalate " " (words (arrange arguments))) := by
  obtain ⟨word, more, hmore⟩ := List.exists_cons_of_ne_nil hwords
  simp only [runProgram, Settings.ofArguments?, Settings.read_eq, h, Settings.origin,
    Settings.asked, hnone, hmore, List.getLast?_nil, Option.or_none, List.nil_append,
    Bool.false_eq_true, if_false]

/-- Only misuse ends with status two. -/
theorem runProgram_status_ne_two (h : isMisuse (arrange arguments) = false)
    (readFile : String → Except ReadFailure ByteArray) (input : List UInt8)
    (program : Option String) :
    (runProgram arguments readFile input program).status ≠ 2 := by
  simp only [runProgram, Settings.ofArguments?, Settings.read_eq, h, Bool.false_eq_true, if_false]
  cases (Settings.asked {} (arrange arguments)).origin with
  | file path => exact Outcome.ofFile_status_ne_two _ _ _
  | text source => exact Outcome.statusOf_ne_two _
  | prompt => exact Outcome.statusOf_ne_two _

/-- That a run ends as arguments in their places ask: it is refused, or it ends by what is known of
the text of a file, or of the words. -/
structure Dispatched (program : Option String) (as : List Argument)
    (readFile : String → Except ReadFailure ByteArray) (outcome : Outcome) : Prop where
  misuse_iff : outcome = ⟨2, "", asLine (Settings.usage program)⟩ ↔ isMisuse as = true
  status_eq_two_iff : outcome.status = 2 ↔ isMisuse as = true
  of_file : isMisuse as = false → ∀ path, (operands as).getLast? = some path →
    match Outcome.fileText? (readFile path) with
    | none => outcome.status = 1 ∧ outcome.output = ""
    | some source =>
      outcome.status = 0 ↔ (analyze (dialect as) (Path.fileName? path) source).program.isSome
  of_words : isMisuse as = false → operands as = [] → words as ≠ [] →
    (outcome.status = 0 ↔
      (analyze (dialect as) none (String.intercalate " " (words as))).program.isSome)

/-- A run ends as its arguments ask. -/
private theorem runProgram_dispatched (arguments : List String)
    (readFile : String → Except ReadFailure ByteArray) (input : List UInt8)
    (program : Option String) :
    Dispatched program (arrange arguments) readFile
      (runProgram arguments readFile input program) := by
  cases h : isMisuse (arrange arguments) with
  | true =>
    rw [runProgram_of_isMisuse h]
    exact ⟨iff_of_true rfl h, iff_of_true rfl h, fun h' => absurd (h.symm.trans h') (by decide),
      fun h' => absurd (h.symm.trans h') (by decide)⟩
  | false =>
    have hstatus := runProgram_status_ne_two h readFile input program
    have hmisuse : ¬isMisuse (arrange arguments) = true := by simp [h]
    refine ⟨iff_of_false (fun heq => hstatus (congrArg Outcome.status heq)) hmisuse,
      iff_of_false hstatus hmisuse, fun _ path hpath => ?_, fun _ hnone hwords => ?_⟩
    · rw [runProgram_of_file h hpath]
      split
      · next hsource => exact Outcome.ofFile_of_none _ _ hsource
      · next source hsource =>
        rw [Outcome.ofFile_of_some _ _ hsource]
        exact Outcome.statusOf_eq_zero_iff _
    · rw [runProgram_of_words h hnone hwords]
      exact Outcome.statusOf_eq_zero_iff _

/-- **Dispatch.** What a run does can be told from the arguments in their places. If a file is
named, then nothing counts but the file that is named last and the flags, so neither the words nor
the input nor another file, nor the name of the program. And arguments that are the same but for the
places and the numbers of their flags make the program do the same. -/
theorem runProgram_dispatch (arguments : List String)
    (readFile : String → Except ReadFailure ByteArray) (input : List UInt8)
    (program : Option String) :
    Dispatched program (arrange arguments) readFile
        (runProgram arguments readFile input program) ∧
      (isMisuse (arrange arguments) = false → ∀ path,
        (operands (arrange arguments)).getLast? = some path →
        ∀ arguments' readFile' input' program', isMisuse (arrange arguments') = false →
          (operands (arrange arguments')).getLast? = some path →
          SameFlags (arrange arguments) (arrange arguments') → readFile' path = readFile path →
            runProgram arguments' readFile' input' program'
              = runProgram arguments readFile input program) ∧
      ∀ arguments', withoutFlags (arrange arguments') = withoutFlags (arrange arguments) →
        SameFlags (arrange arguments') (arrange arguments) →
          runProgram arguments' readFile input program
            = runProgram arguments readFile input program := by
  refine ⟨runProgram_dispatched arguments readFile input program, ?_, ?_⟩
  · intro h path hpath arguments' readFile' input' program' h' hpath' hflags hread
    rw [runProgram_of_file h hpath, runProgram_of_file h' hpath', hread]
    exact Outcome.ofFile_congr hflags.dialect_eq.symm (hflags.contains_eq (by decide)).symm
      (hflags.contains_eq (by decide)).symm path _
  · intro arguments' hplain hflags
    rw [runProgram, runProgram, Settings.ofArguments?_eq hplain hflags]

/-- A flag that is among the arguments may stand anywhere else as well where no operand is
expected. -/
theorem runProgram_insert_flag {flag : String} (hflag : isFlag flag = true)
    {before after : List String}
    (hplace : Argument.lacksOperand (arrange before) = false)
    (hmem : flag ∈ Argument.others (arrange (before ++ after)))
    (readFile : String → Except ReadFailure ByteArray) (input : List UInt8)
    (program : Option String) :
    runProgram (before ++ flag :: after) readFile input program
      = runProgram (before ++ after) readFile input program := by
  have harrange (rest : List String) :
      arrange (before ++ rest) = arrange before ++ arrange rest := by
    rw [arrange, Argument.arrangeFrom_append, ← arrange, ← Argument.lacksOperand_eq, hplace]
    rfl
  have hinsert : arrange (before ++ flag :: after)
      = arrange before ++ ⟨flag, false⟩ :: arrange after := by
    rw [harrange, Argument.arrange_other (Argument.of_isFlag hflag).1]
  rw [harrange] at hmem
  rw [runProgram, runProgram, Settings.ofArguments?_eq]
  · simp [hinsert, harrange, withoutFlags, hflag]
  · intro text _
    rw [Argument.others_append] at hmem
    rw [hinsert, harrange, Argument.others_append, Argument.others_append,
      Argument.others_cons_other]
    grind

end MiniC
