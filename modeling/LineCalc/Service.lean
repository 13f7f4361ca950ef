import LineCalc.Artifact
import LineCalc.HelpText
import LineCalc.Transcript

/-!
The answers of the web service: a source is executed (`Service.execute`), or parsed line by line
without evaluating anything (`Service.parse`).
-/
namespace LineCalc.Service

structure ExecuteRequest where
  source : Text
  banner : Bool := false

structure ParseRequest where
  source : Text

structure ExecuteAnswer where
  success : Bool
  output : Text
  errorCount : Nat
  errors : List ErrorRecord
  results : List ResultRecord
  bindings : List (Text × Text)

def execute (request : ExecuteRequest) : Except Transcript.Refusal ExecuteAnswer :=
  match Transcript.process request.banner false request.source with
  | .error refusal => .error refusal
  | .ok run =>
    let report := run.session.report
    .ok ⟨report.success, run.pieces.flatten, report.errors.length, report.errors, report.results,
      run.session.environment.snapshot⟩

/-- The class of a statement, as answers show it. -/
def statementClass? : Statement → Option Text
  | .comment _ => some "comment".toList
  | .assignment _ _ _ => some "assignment".toList
  | .expression _ => some "expression".toList
  | .unsupported => none

/-- The class of a line and its parts, or its error. -/
structure LineAnswer where
  lineNumber : Nat
  line : Text
  kind : Option Text
  tokens : List Token
  ast : Option Json
  expression : Option Text
  error : Option LineError

/-- The text of the expression of a statement, if it has one. -/
def renderStatement : Statement → Except Failure (Option Text)
  | .expression tree =>
    match tree.render with
    | .error failure => .error failure
    | .ok text => .ok (some text)
  | _ => .ok none

/-- Parses a line that is no comment. -/
def parseStatement (lineNumber : Nat) (line : Text) : Except Failure LineAnswer :=
  match Scan.ofStatement line with
  | .error error => .ok ⟨lineNumber, line, none, [], none, none, some error⟩
  | .ok tokens =>
    let shown := tokens.filter fun token => token.kind ≠ .eof
    match (Statement.ofTokens line tokens).outcome with
    | .error (.line error) => .ok ⟨lineNumber, line, none, shown, none, none, some error⟩
    | .error failure => .error failure
    | .ok statement =>
      match renderStatement statement with
      | .error failure => .error failure
      | .ok expression =>
        let ast := (Artifact.ofStatement statement).view Artifact.defaultDepth
        .ok ⟨lineNumber, line, statementClass? statement, shown, some ast, expression, none⟩

/-- Of a comment, only its class is told. -/
def parseLine (lineNumber : Nat) (line : Text) : Except Failure LineAnswer :=
  if Statement.isComment line then .ok ⟨lineNumber, line, statementClass? (.comment line), [], none, none, none⟩
  else parseStatement lineNumber line

def parseLines : List (Nat × Text) → Except Failure (List LineAnswer)
  | [] => .ok []
  | (lineNumber, line) :: rest =>
    match parseLine lineNumber line with
    | .error failure => .error failure
    | .ok answer =>
      match parseLines rest with
      | .error failure => .error failure
      | .ok answers => .ok (answer :: answers)

def parse (request : ParseRequest) : Except Failure (List LineAnswer) :=
  parseLines (Lines.numbered (Lines.ofText request.source))

structure Offer where
  host : Text
  socket : Nat
  title : Text
  version : Text

/-- To programs on the same machine only. -/
def offer : Offer := ⟨"127.0.0.1".toList, 8000, "Formula Interpreter".toList, version⟩

/-- The page that is shown to a reader of the service. -/
def indexPage : Text := String.toList (
  "<h2>Formula Interpreter API</h2><p>POST <code>/api/execute</code> with JSON: " ++
  "<code>\x7b\"source\": \"x := 2\\nx * 21\"\x7d</code></p>")

def health : List (Text × Text) := [("status".toList, "ok".toList)]

def help : List (Text × Text) := [("help".toList, helpText)]

end LineCalc.Service
