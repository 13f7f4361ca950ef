import LineCalc.Evaluation
import LineCalc.Lines
import LineCalc.Report
import LineCalc.Statement

/-!
A run over the lines of a source text, one at a time (`Session.step`) or all that are left
(`Session.run`). Each line is read and carried out in the environment of the lines before it; an
error is recorded, and the session goes on.
-/
namespace LineCalc

inductive Phase
  | awaitingLine
  | comment
  | assigning
  | evaluating
  | done
  deriving DecidableEq

namespace Phase

/-- In the order of their numbers. -/
def all : List Phase := [awaitingLine, comment, assigning, evaluating, done]

def number : Phase → Nat
  | awaitingLine => 1
  | comment => 2
  | assigning => 3
  | evaluating => 4
  | done => 5

def name : Phase → Text
  | awaitingLine => "AWAITING_LINE".toList
  | comment => "COMMENT".toList
  | assigning => "ASSIGNING".toList
  | evaluating => "EVALUATING".toList
  | done => "DONE".toList

end Phase

/-- What a listener is told: an event, and the phase in which it arose. -/
structure Notice where
  event : Event
  phase : Phase
  deriving DecidableEq

/-- What a verbose session writes down. -/
inductive LogEntry
  | passed (lineNumber : Nat)
  | assigned (lineNumber : Nat) (name : Text) (value : Int)
  | evaluated (lineNumber : Nat) (rendered : Text) (value : Int)
  | failed (lineNumber : Nat) (kind : ErrorKind) (message : Text)
  | finished (lines errors : Nat)
  deriving DecidableEq

/-- How many lines are behind it, what they have bound and what is reported of them. -/
structure Session where
  lines : List Text
  cursor : Nat
  environment : Environment
  report : Report
  phase : Phase
  notices : List Notice
  verbose : Bool
  log : List LogEntry

namespace Session

def start (verbose : Bool) (source : Text) : Session :=
  ⟨Lines.ofText source, 0, .empty, .empty, .awaitingLine, [], verbose, []⟩

/-- Writes an entry down, if the session is verbose. -/
def note (session : Session) (entry : LogEntry) : Session :=
  if session.verbose then { session with log := session.log ++ [entry] } else session

/-- Reports an event and tells it to the listener. -/
def announce (session : Session) (event : Event) : Session :=
  { session with
    report := session.report.add event
    notices := session.notices ++ [⟨event, session.phase⟩] }

def announceResult (session : Session) (line : Text) (value : Int) : Session :=
  session.announce (.valued ⟨session.cursor, line, value⟩)

/-- On a failure the session is left in the phase in which it arose. -/
def execute (session : Session) (line : Text) : Statement → Session × Option Failure
  | .comment _ => (({ session with phase := .comment } : Session).note (.passed session.cursor), none)
  | .assignment name valueText _ =>
    let session := { session with phase := .assigning }
    match Numeral.read valueText with
    | .error error => (session, some (.line error))
    | .ok value =>
      match session.environment.define name value with
      | .error error => (session, some (.line error))
      | .ok environment =>
        (({ session with environment := environment } : Session).note (.assigned session.cursor name value), none)
  | .expression tree =>
    let session := { session with phase := .evaluating }
    match tree.evaluate session.environment with
    | .error failure => (session, some failure)
    | .ok value =>
      if session.verbose then
        match tree.render with
        | .error failure => (session, some failure)
        | .ok rendered =>
          ((session.note (.evaluated session.cursor rendered value)).announceResult line value, none)
      else (session.announceResult line value, none)
  | .unsupported => (session, some .unsupportedStatement)

def executeLine (session : Session) (line : Text) : Session × Option Failure :=
  match Statement.ofLine line with
  | .error failure => (session, some failure)
  | .ok statement => session.execute line statement

/-- Records an error of the line at the cursor. -/
def recover (session : Session) (line : Text) (error : LineError) : Session :=
  (session.note (.failed session.cursor error.kind error.message)).announce
    (.ofError session.cursor line error)

/-- Works on the next line, and tells whether there was one. A failure that is no error of the line
    is not recovered from. -/
def step (session : Session) : Except Failure (Bool × Session) :=
  match session.lines[session.cursor]? with
  | none => .ok (false, { session with phase := .done })
  | some line =>
    match ({ session with cursor := session.cursor + 1 } : Session).executeLine line with
    | (after, none) => .ok (true, { after with phase := .awaitingLine })
    | (after, some (.line error)) => .ok (true, { after.recover line error with phase := .awaitingLine })
    | (_, some failure) => .error failure

def advance : Nat → Session → Except Failure Session
  | 0, session => .ok session
  | count + 1, session =>
    match session.step with
    | .error failure => .error failure
    | .ok (_, after) => advance count after

/-- Works on every line that is left, and is done. -/
def run (session : Session) : Except Failure Session :=
  match advance (session.lines.length - session.cursor + 1) session with
  | .error failure => .error failure
  | .ok after => .ok (after.note (.finished after.lines.length after.report.errors.length))

end Session
end LineCalc
