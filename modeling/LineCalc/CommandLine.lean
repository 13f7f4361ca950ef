import LineCalc.Files
import LineCalc.HelpText
import LineCalc.Options
import LineCalc.Text.Utf8
import LineCalc.Transcript

/-!
The command line. The arguments tell which text to run (`CommandLine.plan`), and its bytes give
what the program writes and how it ends (`CommandLine.runBytes`, `CommandLine.runFile`).
-/
namespace LineCalc.CommandLine

def programName : Text := "formula".toList

def usage : Text := "usage: formula [-h] [-q] [-v] [--help-language] [--version] [source]\n".toList

/-- What the program tells about itself. -/
def helpPage : Text := usage ++ String.toList (
  "\n" ++
  "Formula line-oriented integer expression interpreter\n" ++
  "\n" ++
  "positional arguments:\n" ++
  "  source           Source file path; '-' or omitted reads standard input\n" ++
  "\n" ++
  "options:\n" ++
  "  -h, --help       show this help message and exit\n" ++
  "  -q, --quiet      Omit the executing/done banner\n" ++
  "  -v, --verbose    Log every processed line to stderr\n" ++
  "  --help-language  Print the language help and exit\n" ++
  "  --version        show program's version number and exit\n")

/-- What ends the program without a result of its own. -/
inductive Crash
  | undecodable
  | nullInPath
  | refused (refusal : Transcript.Refusal)
  deriving DecidableEq

/-- Some wordings hang on where the crash happened. -/
def Crash.message? : Crash → Option Text
  | undecodable => none
  | nullInPath => some "embedded null byte".toList
  | refused refusal => some refusal.message

inductive Ending
  | exit (code : Nat)
  | crash (crash : Crash)
  deriving DecidableEq

/-- Output, log, complaint, and how the program ends. -/
structure Outcome where
  output : Text
  log : List LogEntry
  complaint : Text
  ending : Ending
  deriving DecidableEq

/-- What the log is called, and how the time of a run is written in it. -/
structure LogStyle where
  name : Text
  elapsed : Text

/-- The level and the wording of an entry. -/
def entryText (style : LogStyle) : LogEntry → Text × Text
  | .passed lineNumber => ("DEBUG".toList, "line ".toList ++ Numeral.print lineNumber ++ ": comment".toList)
  | .assigned lineNumber name value =>
    ("DEBUG".toList,
      "line ".toList ++ Numeral.print lineNumber ++ ": ".toList ++ name ++ " := ".toList ++ Numeral.print value)
  | .evaluated lineNumber rendered value =>
    ("DEBUG".toList,
      "line ".toList ++ Numeral.print lineNumber ++ ": ".toList ++ rendered ++ " = ".toList ++ Numeral.print value)
  | .failed lineNumber kind message =>
    ("DEBUG".toList,
      "line ".toList ++ Numeral.print lineNumber ++ ": ".toList ++ kind.name ++ " error: ".toList ++ message)
  | .finished lines errors =>
    ("INFO".toList,
      "Executed ".toList ++ Numeral.print lines ++ " lines: ".toList ++ Numeral.print errors ++
        " errors in ".toList ++ style.elapsed ++ " ms".toList)

def logLine (style : LogStyle) (entry : LogEntry) : Text :=
  let (level, message) := entryText style entry
  level ++ ' ' :: style.name ++ ": ".toList ++ message ++ ['\n']

/-- What the program writes beside its output. -/
def Outcome.diagnostics (style : LogStyle) (outcome : Outcome) : Text :=
  outcome.log.flatMap (logLine style) ++ outcome.complaint

inductive Input
  | standard
  | file (path : Text)
  deriving DecidableEq

/-- What the arguments lead to: an outcome, or a text to run. -/
inductive Plan
  | done (outcome : Outcome)
  | run (input : Input) (settings : Options.Settings)
  deriving DecidableEq

def plan (arguments : List Text) : Plan :=
  match Options.interpret arguments with
  | .help => .done ⟨helpPage, [], [], .exit 0⟩
  | .version => .done ⟨programName ++ ' ' :: version ++ ['\n'], [], [], .exit 0⟩
  | .misuse misuse =>
    .done ⟨[], [], usage ++ programName ++ ": error: ".toList ++ misuse.message ++ ['\n'], .exit 2⟩
  | .run settings =>
    if settings.languageHelp then .done ⟨helpText, [], [], .exit 0⟩
    else if settings.source = ['-'] then .run .standard settings
    else if settings.source.contains '\x00' then .done ⟨[], [], [], .crash .nullInPath⟩
    else .run (.file settings.source) settings

/-- Ends every line with a line feed alone. -/
def unifyLineEnds : Text → Text
  | [] => []
  | '\r' :: '\n' :: rest => '\n' :: unifyLineEnds rest
  | '\r' :: rest => '\n' :: unifyLineEnds rest
  | c :: rest => c :: unifyLineEnds rest

def runText (settings : Options.Settings) (source : Text) : Outcome :=
  match Transcript.process (!settings.quiet) settings.verbose source with
  | .error refusal => ⟨[], [], [], .crash (.refused refusal)⟩
  | .ok run =>
    ⟨run.pieces.flatten, run.session.log, [], .exit (if run.session.report.success then 0 else 1)⟩

/-- The complaint about a file that cannot be read. -/
def readComplaint (path : Text) (error : ReadError) : Text :=
  "Failed to read ".toList ++ path ++ ": [Errno ".toList ++ Numeral.print error.number ++ "] ".toList ++
    error.message ++ ": ".toList ++ Text.quoted path ++ ['\n']

def runBytes (settings : Options.Settings) (bytes : ByteArray) : Outcome :=
  match Text.decodeUtf8? bytes with
  | none => ⟨[], [], [], .crash .undecodable⟩
  | some text => runText settings (unifyLineEnds text)

/-- Runs the text of a file, given what was read of it. -/
def runFile (settings : Options.Settings) (path : Text) : Except ReadError ByteArray → Outcome
  | .error error => ⟨[], [], readComplaint path error, .exit 1⟩
  | .ok bytes => runBytes settings bytes

def run (arguments : List Text) (standardInput : ByteArray) (files : Files) : Outcome :=
  match plan arguments with
  | .done outcome => outcome
  | .run .standard settings => runBytes settings standardInput
  | .run (.file path) settings => runFile settings path (files.read path)

end LineCalc.CommandLine
