import LineCalc.Output
import LineCalc.Session

/-!
What a run writes for its user: an error block or a result for each event, between two banner
lines unless they are left out (`Transcript.ofSession`).
-/
namespace LineCalc.Transcript

def errorFormat : Text := "Error: %s\n".toList ++ detailIndent ++ "line %d: \"%s\"\n".toList

def detailFormat : Text := "%s\n".toList

def resultFormat : Text := "%s = %s\n".toList

def opening : Text := "executing...\n".toList

def closing : Text := "done!\n\n".toList

/-- What is written for an event, piece by piece. -/
def ofEvent : Event → Except Template.Fault (List Text)
  | .failed record =>
    match Output.printf errorFormat [.text record.message, .number record.lineNumber, .text record.line] with
    | .error fault => .error fault
    | .ok block =>
      match record.detail with
      | none => .ok [block]
      | some detail =>
        match Output.printf detailFormat [.text (indentDetail detail)] with
        | .error fault => .error fault
        | .ok more => .ok [block, more]
  | .valued record =>
    match Output.printf resultFormat [.text (Text.strip Text.isBlank record.line), .number record.value] with
    | .error fault => .error fault
    | .ok text => .ok [text]

def ofEvents : List Event → Except Template.Fault (List Text)
  | [] => .ok []
  | event :: rest =>
    match ofEvent event with
    | .error fault => .error fault
    | .ok pieces =>
      match ofEvents rest with
      | .error fault => .error fault
      | .ok more => .ok (pieces ++ more)

def ofSession (banner : Bool) (session : Session) : Except Template.Fault (List Text) :=
  match ofEvents (session.notices.map Notice.event) with
  | .error fault => .error fault
  | .ok pieces => .ok (if banner then opening :: pieces ++ [closing] else pieces)

inductive Sink
  | missing
  | unwritable
  | buffer
  deriving DecidableEq

/-- Why a transcript is not written. -/
inductive Refusal
  | missingSink
  | unwritableSink
  | stopped (failure : Failure)
  | layout (fault : Template.Fault)
  deriving DecidableEq

def Refusal.message : Refusal → Text
  | missingSink => "output must not be None".toList
  | unwritableSink => []
  | stopped failure => failure.message
  | layout fault => fault.message

/-- A finished run with the pieces that it wrote. -/
structure Run where
  session : Session
  pieces : List Text

def process (banner verbose : Bool) (source : Text) : Except Refusal Run :=
  match (Session.start verbose source).run with
  | .error failure => .error (.stopped failure)
  | .ok session =>
    match ofSession banner session with
    | .error fault => .error (.layout fault)
    | .ok pieces => .ok ⟨session, pieces⟩

/-- A sink that cannot be written to serves only runs that write nothing. -/
def execute (sink : Sink) (banner : Bool) (sources : List Text) : Except Refusal (List Run) :=
  match sink with
  | .missing => .error .missingSink
  | .unwritable => sources.mapM fun source => do
    let run ← process banner false source
    if run.pieces.isEmpty then .ok run else .error .unwritableSink
  | .buffer => sources.mapM (process banner false)

end LineCalc.Transcript
