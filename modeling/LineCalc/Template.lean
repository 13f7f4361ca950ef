import LineCalc.Numeral

/-!
Texts with places to fill in: `%s` for a text or a number, `%d` for a number, and `%%` for a
percent sign. Arguments are never read as templates themselves. Numbers of any length are filled
in, line numbers too, which never come near `Numeral.digitLimit` digits in a text.
-/
namespace LineCalc.Template

inductive Argument
  | text (content : Text)
  | number (n : Int)
  deriving DecidableEq

/-- Why a template cannot be filled. -/
inductive Fault
  | tooFew
  | tooMany
  | notANumber
  | unknownPlace
  deriving DecidableEq

def Fault.message : Fault → Text
  | tooFew => "not enough arguments for format string".toList
  | tooMany => "not all arguments converted during string formatting".toList
  | notANumber => "%d format: a real number is required, not str".toList
  | unknownPlace => "unsupported format character".toList

def Argument.print : Argument → Text
  | text content => content
  | number n => Numeral.print n

/-- Fills a template with arguments, all of which it has to use. -/
def fill : Text → List Argument → Except Fault Text
  | [], [] => .ok []
  | [], _ :: _ => .error .tooMany
  | '%' :: '%' :: rest, arguments => (fill rest arguments).map ('%' :: ·)
  | '%' :: 's' :: _, [] => .error .tooFew
  | '%' :: 's' :: rest, argument :: arguments => (fill rest arguments).map (argument.print ++ ·)
  | '%' :: 'd' :: _, [] => .error .tooFew
  | '%' :: 'd' :: _, .text _ :: _ => .error .notANumber
  | '%' :: 'd' :: rest, .number n :: arguments => (fill rest arguments).map (Numeral.print n ++ ·)
  | c :: rest, arguments => if c = '%' then .error .unknownPlace else (fill rest arguments).map (c :: ·)

end LineCalc.Template
