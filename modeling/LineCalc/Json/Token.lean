import LineCalc.Json
import LineCalc.Json.Number

/-!
The words of the JSON notation. Besides its numbers, words for the infinities and for a number
that is none are read.
-/
namespace LineCalc.Json

inductive Token
  | leftBracket
  | rightBracket
  | leftBrace
  | rightBrace
  | comma
  | colon
  | null
  | bool (value : Bool)
  | int (value : Int)
  | real (value : Double)
  | str (units : Text.Units)
  deriving DecidableEq

/-- Only these characters may stand between words. -/
def isSpace (c : Char) : Bool := c = ' ' || c = '\t' || c = '\n' || c = '\r'

def hexValue? (c : Char) : Option Nat :=
  if c.isDigit then some (c.toNat - '0'.toNat)
  else if 'a' ≤ c ∧ c ≤ 'f' then some (c.toNat - 'a'.toNat + 10)
  else if 'A' ≤ c ∧ c ≤ 'F' then some (c.toNat - 'A'.toNat + 10)
  else none

def hexValue4? (a b c d : Char) : Option Nat := do
  let a ← hexValue? a
  let b ← hexValue? b
  let c ← hexValue? c
  let d ← hexValue? d
  return ((a * 16 + b) * 16 + c) * 16 + d

def escape? : Char → Option Char
  | '"' => some '"'
  | '\\' => some '\\'
  | '/' => some '/'
  | 'b' => some '\x08'
  | 'f' => some '\x0c'
  | 'n' => some '\n'
  | 'r' => some '\r'
  | 't' => some '\t'
  | _ => none

/-- The units up to the closing quote, and what stands behind it. -/
def readUnits : Text → Option (Text.Units × Text)
  | [] => none
  | '"' :: rest => some ([], rest)
  | '\\' :: 'u' :: a :: b :: c :: d :: rest =>
    match hexValue4? a b c d, readUnits rest with
    | some code, some (units, after) => some (code.toUInt16 :: units, after)
    | _, _ => none
  | '\\' :: c :: rest =>
    match escape? c, readUnits rest with
    | some c, some (units, after) => some (Text.unitsOf c ++ units, after)
    | _, _ => none
  | c :: rest =>
    if c.toNat < 0x20 then none
    else match readUnits rest with
      | some (units, after) => some (Text.unitsOf c ++ units, after)
      | none => none

/-- What stands behind a word at the start of a text. -/
def after? (word text : Text) : Option Text := if word.isPrefixOf text then some (text.drop word.length) else none

def words : List (Text × Token) :=
  [("null".toList, .null), ("true".toList, .bool true), ("false".toList, .bool false),
    (Number.nanWord, .real .nan), (Number.infinityWord, .real (.infinite false)),
    ('-' :: Number.infinityWord, .real (.infinite true))]

def readWord? (text : Text) : Option (Token × Text) :=
  words.findSome? fun (word, token) => (after? word text).map (token, ·)

/-- An integer has a bounded count of digits. -/
def readNumber? (text : Text) : Option (Token × Text) :=
  match Number.spelled? text with
  | none => none
  | some (spelling, after) =>
    if !spelling.isInteger then some (.real spelling.real, after)
    else if spelling.whole.length ≤ Numeral.digitLimit then some (.int spelling.integer, after)
    else none

def mark? : Char → Option Token
  | '[' => some .leftBracket
  | ']' => some .rightBracket
  | '\x7b' => some .leftBrace
  | '\x7d' => some .rightBrace
  | ',' => some .comma
  | ':' => some .colon
  | _ => none

/-- The text behind an opening quote. -/
def readText? (text : Text) : Option (Token × Text) := (readUnits text).map fun (units, after) => (.str units, after)

/-- The word at the start of a text that does not begin with a space. -/
def readToken? (c : Char) (rest : Text) : Option (Token × Text) :=
  match mark? c with
  | some token => some (token, rest)
  | none =>
    if c = '"' then readText? rest
    else (readNumber? (c :: rest)).or (readWord? (c :: rest))

end LineCalc.Json
