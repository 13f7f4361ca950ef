import LineCalc.Text

/-!
What users are told in fixed words.
-/
namespace LineCalc

/-- The grammar of the language. -/
def helpText : Text := String.toList (
  "SOURCE\n" ++
  "------\n" ++
  "source: comment\n" ++
  "      | assignment\n" ++
  "      | expression\n" ++
  "comment: '#' text\n" ++
  "assignment: name ':=' value\n" ++
  "name: Alpha Alphanumeric...\n" ++
  "expression: additive\n" ++
  "additive: multiplicative\n" ++
  "        | additive + multiplicative\n" ++
  "        | additive - multiplicative\n" ++
  "multiplicative: unary\n" ++
  "              | multiplicative * unary\n" ++
  "              | multiplicative / unary\n" ++
  "              | multiplicative % unary\n" ++
  "unary: value\n" ++
  "     | name\n" ++
  "value: int\n")

def version : Text := "0.1.0".toList

/-- The version as a window title shows it. -/
def versionTitle : Text := "v ".toList ++ version

/-- On a machine without a window system the desktop front end does not start. -/
def desktopRefusal : Text := String.toList (
  "Tkinter is not available in this environment. " ++
  "Use the 'formula' command or the web app.")

end LineCalc
