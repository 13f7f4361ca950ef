import LineCalc.LineError

/-!
What is told of a run, in the order of the lines, and the block of text that shows an error
(`ErrorRecord.block`).
-/
namespace LineCalc

/-- An error with the line that it arose on. -/
structure ErrorRecord where
  lineNumber : Int
  line : Text
  kind : ErrorKind
  message : Text
  detail : Option Text
  deriving DecidableEq

/-- The value of an expression line. -/
structure ResultRecord where
  lineNumber : Int
  line : Text
  value : Int
  deriving DecidableEq

inductive Event
  | failed (record : ErrorRecord)
  | valued (record : ResultRecord)
  deriving DecidableEq

namespace Event

def lineNumber : Event → Int
  | failed record => record.lineNumber
  | valued record => record.lineNumber

def line : Event → Text
  | failed record => record.line
  | valued record => record.line

def error? : Event → Option ErrorRecord
  | failed record => some record
  | valued _ => none

def result? : Event → Option ResultRecord
  | failed _ => none
  | valued record => some record

def ofError (lineNumber : Int) (line : Text) (error : LineError) : Event :=
  failed ⟨lineNumber, line, error.kind, error.message, error.detail⟩

end Event

structure Report where
  events : List Event
  deriving DecidableEq

namespace Report

def empty : Report := ⟨[]⟩

def add (report : Report) (event : Event) : Report := ⟨report.events ++ [event]⟩

def errors (report : Report) : List ErrorRecord := report.events.filterMap Event.error?

def results (report : Report) : List ResultRecord := report.events.filterMap Event.result?

/-- A run succeeds when it has no errors. -/
def success (report : Report) : Bool := report.errors.isEmpty

/-- What a listener was told who was there from the start, if there was one. -/
def heard (listening : Bool) (report : Report) : List Event := if listening then report.events else []

end Report

/-- The space before the further lines of an error block. -/
def detailIndent : Text := List.replicate 7 ' '

/-- Indents each line. Only a line feed ends one here. -/
def indentDetail (detail : Text) : Text :=
  detailIndent ++ detail.flatMap fun c => if c = '\n' then c :: detailIndent else [c]

def ErrorRecord.block (record : ErrorRecord) : Text :=
  "Error: ".toList ++ record.message ++ '\n' :: detailIndent ++ "line ".toList ++
    Numeral.print record.lineNumber ++ ": \"".toList ++ record.line ++ "\"\n".toList ++
    match record.detail with
    | none => []
    | some detail => indentDetail detail ++ ['\n']

end LineCalc
