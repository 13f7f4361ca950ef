import LineCalc.Numeral
import LineCalc.Token

/-!
What can be wrong with a line, and how it is worded. Kind, message, detail and column of an error
are functions of its cause.
-/
namespace LineCalc

inductive ErrorKind
  | lexical
  | syntactic
  | numberFormat
  | redefinition
  | undefinedVariable
  | arithmetic
  deriving DecidableEq

namespace ErrorKind

/-- In the order of their numbers. -/
def all : List ErrorKind := [lexical, syntactic, numberFormat, redefinition, undefinedVariable, arithmetic]

def number : ErrorKind → Nat
  | lexical => 1
  | syntactic => 2
  | numberFormat => 3
  | redefinition => 4
  | undefinedVariable => 5
  | arithmetic => 6

def name : ErrorKind → Text
  | lexical => "LEX".toList
  | syntactic => "SYNTAX".toList
  | numberFormat => "NUMBER_FORMAT".toList
  | redefinition => "REDEFINITION".toList
  | undefinedVariable => "UNDEFINED_VARIABLE".toList
  | arithmetic => "ARITHMETIC".toList

def ofName? (text : Text) : Option ErrorKind := all.find? fun kind => kind.name == text

end ErrorKind

/-- What is wrong with the order of tokens. -/
inductive SyntaxFault
  | unrecognized
  | missingValue
  | missingOperand (after : Text)
  | unexpected (lexeme : Text) (column : Int)
  deriving DecidableEq

/-- Between single quotes, without escapes. -/
def inQuotes (text : Text) : Text := '\'' :: text ++ ['\'']

/-- A column of any length is told here (`LineError.isWritable`). -/
def SyntaxFault.message : SyntaxFault → Text
  | unrecognized => "unrecognized statement, expected comment, assignment or expression".toList
  | missingValue => "missing value after ':='".toList
  | missingOperand after => "missing operand after ".toList ++ inQuotes after
  | unexpected lexeme column =>
    "unexpected ".toList ++ inQuotes lexeme ++ " at column ".toList ++ Numeral.print column

/-- A host program may also state an error in its own words. -/
inductive LineError
  | invalidCharacter (character : Text) (column : Int)
  | malformed (fault : SyntaxFault) (column : Int)
  | badNumeral (text : Text)
  | redefinition (name : Text) (existing : Int)
  | undefinedVariable (name : Text)
  | divisionByZero
  | moduloByZero
  | stated (kind : ErrorKind) (message : Text) (detail : Option Text) (column : Option Int)
  deriving DecidableEq

namespace LineError

def kind : LineError → ErrorKind
  | invalidCharacter _ _ => .lexical
  | malformed _ _ => .syntactic
  | badNumeral _ => .numberFormat
  | redefinition _ _ => .redefinition
  | undefinedVariable _ => .undefinedVariable
  | divisionByZero | moduloByZero => .arithmetic
  | stated kind _ _ _ => kind

def message : LineError → Text
  | invalidCharacter character column =>
    "invalid character ".toList ++ inQuotes character ++ " at column ".toList ++ Numeral.print column
  | malformed fault _ => fault.message
  | badNumeral text => "invalid value: \"".toList ++ text ++ ['"']
  | redefinition name _ => "variable redefinition: ".toList ++ name
  | undefinedVariable name => "undefined variable: ".toList ++ name
  | divisionByZero => "division by zero".toList
  | moduloByZero => "modulo by zero".toList
  | stated _ message _ _ => message

/-- The value that a name already has. -/
def detail : LineError → Option Text
  | redefinition _ existing => some ("actual: ".toList ++ Numeral.print existing)
  | stated _ _ detail _ => detail
  | _ => none

/-- Where the error is, for those that have a place in the line. -/
def column : LineError → Option Int
  | invalidCharacter _ column => some column
  | malformed _ column => some column
  | stated _ _ _ column => column
  | _ => none

end LineError

/-- Whether the numbers that the message tells are short enough for a machine to write them. -/
def LineError.isWritable : LineError → Bool
  | .invalidCharacter _ column | .malformed (.unexpected _ column) _ => Numeral.isWritable column
  | _ => true

/-- Only an error of a line is reported and passed over; the other causes are mistakes of a host
    program. -/
inductive Failure
  | line (error : LineError)
  | outOfRange
  | noOperation (kind : TokenKind)
  | unsupportedExpression
  | unsupportedStatement
  | notAnInteger
  | noImplementation
  | unwritable
  deriving DecidableEq

def Failure.message : Failure → Text
  | line error => error.message
  | outOfRange => "list index out of range".toList
  | noOperation kind =>
    "<TokenKind.".toList ++ kind.name ++ ": ".toList ++ Numeral.print kind.number ++ ">".toList
  | unsupportedExpression => "Unsupported expression: Expression".toList
  | unsupportedStatement => "Unsupported statement: Statement".toList
  | notAnInteger => "Expected an integer value, got Value.".toList
  | noImplementation => []
  | unwritable => String.toList (
    "Exceeds the limit (4300 digits) for integer string conversion; " ++
    "use sys.set_int_max_str_digits() to increase the limit")

end LineCalc
