import LineCalc.Json.Token

/-!
Reading the JSON notation, with the arrays and objects that are still open on a stack.
-/
namespace LineCalc.Json

/-- The words of a text, at most `count` of them. -/
def readTokens : Nat → Text → Option (List Token)
  | 0, text => if (text.dropWhile isSpace).isEmpty then some [] else none
  | count + 1, text =>
    match text.dropWhile isSpace with
    | [] => some []
    | c :: rest =>
      match readToken? c rest with
      | none => none
      | some (token, after) => (readTokens count after).map (token :: ·)

/-- An open array with its items so far, the last one first, or an open object with its fields and
    the key of the next one. -/
inductive Frame
  | array (before : List Json)
  | field (before : List (Text.Units × Json)) (key : Text.Units)

mutual

def readValue (stack : List Frame) : List Token → Option Json
  | .null :: rest => settle stack null rest
  | .bool value :: rest => settle stack (bool value) rest
  | .int value :: rest => settle stack (int value) rest
  | .real value :: rest => settle stack (real value) rest
  | .str units :: rest => settle stack (str units) rest
  | .leftBracket :: .rightBracket :: rest => settle stack (arr []) rest
  | .leftBracket :: rest => readValue (.array [] :: stack) rest
  | .leftBrace :: .rightBrace :: rest => settle stack (obj []) rest
  | .leftBrace :: .str key :: .colon :: rest => readValue (.field [] key :: stack) rest
  | _ => none

/-- Puts a finished value into the innermost frame, and closes the frame or goes on with it. -/
def settle (stack : List Frame) (value : Json) : List Token → Option Json
  | [] => if stack.isEmpty then some value else none
  | .comma :: .str key :: .colon :: rest =>
    match stack with
    | .field before open_ :: outer => readValue (.field (putField open_ value before) key :: outer) rest
    | _ => none
  | .comma :: rest =>
    match stack with
    | .array before :: outer => readValue (.array (value :: before) :: outer) rest
    | _ => none
  | .rightBracket :: rest =>
    match stack with
    | .array before :: outer => settle outer (arr (value :: before).reverse) rest
    | _ => none
  | .rightBrace :: rest =>
    match stack with
    | .field before open_ :: outer => settle outer (obj (putField open_ value before)) rest
    | _ => none
  | _ => none

end

def read? (text : Text) : Option Json := (readTokens text.length text).bind (readValue [])

end LineCalc.Json
