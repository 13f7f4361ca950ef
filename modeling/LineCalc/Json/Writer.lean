import LineCalc.Json.Token
import LineCalc.Text.Quoted

/-!
Writing the JSON notation over several lines, in ASCII characters alone.
-/
namespace LineCalc.Json

/-- The letter of a one-letter escape. -/
def letter? (unit : UInt16) : Option Char :=
  if unit = 0x22 then some '"'
  else if unit = 0x5c then some '\\'
  else if unit = 0x0a then some 'n'
  else if unit = 0x0d then some 'r'
  else if unit = 0x09 then some 't'
  else if unit = 0x0c then some 'f'
  else if unit = 0x08 then some 'b'
  else none

def writeUnit (unit : UInt16) : Text :=
  match letter? unit with
  | some letter => ['\\', letter]
  | none =>
    if 0x20 ≤ unit.toNat && unit.toNat ≤ 0x7e then [Char.ofNat unit.toNat]
    else '\\' :: 'u' :: Text.hexadecimal 4 unit.toNat

def writeText (units : Text.Units) : Text := '"' :: units.flatMap writeUnit ++ ['"']

def lineStart (depth : Nat) : Text := '\n' :: List.replicate (2 * depth) ' '

mutual

/-- A value inside of `depth` arrays and objects. -/
def writeAt (depth : Nat) : Json → Text
  | null => "null".toList
  | bool value => if value then "true".toList else "false".toList
  | int value => Numeral.print value
  | real value => Number.writeReal value
  | str units => writeText units
  | arr [] => ['[', ']']
  | arr (item :: rest) =>
    '[' :: lineStart (depth + 1) ++ writeAt (depth + 1) item ++ writeItems (depth + 1) rest ++ lineStart depth ++ [']']
  | obj [] => ['\x7b', '\x7d']
  | obj ((key, value) :: rest) =>
    '\x7b' :: lineStart (depth + 1) ++ writeText key ++ ':' :: ' ' :: writeAt (depth + 1) value ++
      writeFields (depth + 1) rest ++ lineStart depth ++ ['\x7d']

/-- The items behind the first one. -/
def writeItems (depth : Nat) : List Json → Text
  | [] => []
  | item :: rest => ',' :: lineStart depth ++ writeAt depth item ++ writeItems depth rest

/-- The fields behind the first one. -/
def writeFields (depth : Nat) : List (Text.Units × Json) → Text
  | [] => []
  | (key, value) :: rest =>
    ',' :: lineStart depth ++ writeText key ++ ':' :: ' ' :: writeAt depth value ++ writeFields depth rest

end

def write (value : Json) : Text := writeAt 0 value

end LineCalc.Json
