import LineCalc.LineError

/-!
The arithmetic of the language, on integers of any size. Division rounds toward zero, and the
remainder has the sign of the dividend (`Operation.apply`).
-/
namespace LineCalc

/-- What an operator does. -/
inductive Operation
  | add
  | sub
  | mul
  | div
  | rem
  deriving DecidableEq

namespace Operation

def ofKind? : TokenKind → Option Operation
  | .plus => some add
  | .minus => some sub
  | .star => some mul
  | .slash => some div
  | .percent => some rem
  | .ident | .int | .assign | .eof => none

def name : Operation → Text
  | add => "add".toList
  | sub => "sub".toList
  | mul => "mul".toList
  | div => "div".toList
  | rem => "rem".toList

def all : List Operation := [add, sub, mul, div, rem]

def ofName? (text : Text) : Option Operation := all.find? fun operation => operation.name == text

def apply : Operation → Int → Int → Except LineError Int
  | add, left, right => .ok (left + right)
  | sub, left, right => .ok (left - right)
  | mul, left, right => .ok (left * right)
  | div, left, right => if right = 0 then .error .divisionByZero else .ok (left.tdiv right)
  | rem, left, right => if right = 0 then .error .moduloByZero else .ok (left.tmod right)

end Operation

/-- Integers are the only values that a program can make. -/
inductive Value
  | integer (n : Int)
  | bare
  deriving DecidableEq

namespace Value

/-- The left value decides first: one that is no integer has no operations. -/
def apply (operation : Operation) : Value → Value → Except Failure Value
  | bare, _ => .error .noImplementation
  | integer _, bare => .error .notAnInteger
  | integer left, integer right =>
    match operation.apply left right with
    | .error error => .error (.line error)
    | .ok value => .ok (integer value)

/-- Two separate values are equal when they are the same integer. -/
def equal : Value → Value → Bool
  | integer left, integer right => left = right
  | _, _ => false

end Value

def Numeral.read (text : Text) : Except LineError Int :=
  match Numeral.parse? text with
  | some value => .ok value
  | none => .error (.badNumeral text)

end LineCalc
