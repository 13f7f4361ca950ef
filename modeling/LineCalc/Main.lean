import LineCalc.CommandLine

/-!
The program as it is started from a shell.
-/
namespace LineCalc.Main

def readErrorOf : IO.Error → ReadError
  | .inappropriateType _ number _ =>
    if number.toNat = ReadError.isADirectory.number then .isADirectory else .notADirectory
  | .permissionDenied .. => .notPermitted
  | .invalidArgument .. => .nameTooLong
  | _ => .notFound

def readFile (path : String) : IO (Except ReadError ByteArray) := do
  try
    return .ok (← IO.FS.readBinFile path)
  catch error =>
    return .error (readErrorOf error)

/-- A time in milliseconds, with two decimal places. -/
def millisecondsText (nanoseconds : Nat) : Text :=
  let hundredths := (nanoseconds + 5000) / 10000
  Numeral.padded (hundredths / 100) 0 ++ '.' :: Numeral.padded (hundredths % 100) 2

partial def readStream (stream : IO.FS.Stream) (bytes : ByteArray) : IO ByteArray := do
  let more ← stream.read 65536
  if more.isEmpty then return bytes else readStream stream (bytes ++ more)

/-- Writes an outcome out, and gives the exit code. -/
def deliver (startedAt : Nat) (outcome : CommandLine.Outcome) : IO UInt32 := do
  IO.print (String.ofList outcome.output)
  let elapsed := millisecondsText ((← IO.monoNanosNow) - startedAt)
  IO.eprint (String.ofList (outcome.diagnostics ⟨CommandLine.programName, elapsed⟩))
  match outcome.ending with
  | .exit code => return code.toUInt32
  | .crash crash =>
    IO.eprintln (String.ofList (crash.message?.getD "the text is not UTF-8".toList))
    return 1

end LineCalc.Main

def main (arguments : List String) : IO UInt32 := do
  match LineCalc.CommandLine.plan (arguments.map String.toList) with
  | .done outcome => LineCalc.Main.deliver 0 outcome
  | .run .standard settings =>
    let bytes ← LineCalc.Main.readStream (← IO.getStdin) ByteArray.empty
    LineCalc.Main.deliver (← IO.monoNanosNow) (LineCalc.CommandLine.runBytes settings bytes)
  | .run (.file path) settings =>
    let content ← LineCalc.Main.readFile (String.ofList path)
    LineCalc.Main.deliver (← IO.monoNanosNow) (LineCalc.CommandLine.runFile settings path content)
