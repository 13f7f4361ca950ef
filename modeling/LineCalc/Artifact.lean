import LineCalc.Arithmetic
import LineCalc.Json
import LineCalc.Report
import LineCalc.Statement

/-!
The things that a program is made of, as data that can be shown in JSON down to a depth
(`Artifact.view`).
-/
namespace LineCalc

/-- What JSON has itself, and besides it the value of a program, a named constant, a record with its
    type, and anything else by its text alone. -/
inductive Artifact
  | absent
  | truth (value : Bool)
  | integer (value : Int)
  | real (value : Double)
  | text (content : Text.Units)
  | numeral (value : Int)
  | constant (name : Text)
  | list (items : List Artifact)
  | dictionary (entries : List (Text.Units × Artifact))
  | record (type : Text) (fields : List (Text.Units × Artifact))
  | other (content : Text)

namespace Artifact

def typeKey : Text.Units := Text.units "_type".toList

/-- Stands for every part that lies too deep. -/
def truncated : Json := .obj [(Text.units "_truncated".toList, .bool true)]

mutual

/-- Shows an artifact that lies at `depth`, and of its parts those no deeper than `maxDepth`. -/
def viewAt (maxDepth : Int) (depth : Nat) : Artifact → Json
  | absent => if maxDepth < depth then truncated else .null
  | truth value => if maxDepth < depth then truncated else .bool value
  | integer value => if maxDepth < depth then truncated else .int value
  | real value => if maxDepth < depth then truncated else .real value
  | text content => if maxDepth < depth then truncated else .str content
  | numeral value => if maxDepth < depth then truncated else .ofText (Numeral.print value)
  | constant name => if maxDepth < depth then truncated else .ofText name
  | list items => if maxDepth < depth then truncated else .arr (viewItems maxDepth (depth + 1) items)
  | dictionary entries => if maxDepth < depth then truncated else .obj (viewFields maxDepth (depth + 1) entries)
  | record type fields =>
    if maxDepth < depth then truncated
    else .obj ((typeKey, .ofText type) :: viewFields maxDepth (depth + 1) fields)
  | other content => if maxDepth < depth then truncated else .ofText content

def viewItems (maxDepth : Int) (depth : Nat) : List Artifact → List Json
  | [] => []
  | item :: rest => viewAt maxDepth depth item :: viewItems maxDepth depth rest

def viewFields (maxDepth : Int) (depth : Nat) : List (Text.Units × Artifact) → List (Text.Units × Json)
  | [] => []
  | (key, value) :: rest => (key, viewAt maxDepth depth value) :: viewFields maxDepth depth rest

end

def defaultDepth : Int := 64

def view (maxDepth : Int) (artifact : Artifact) : Json := viewAt maxDepth 0 artifact

mutual

def ofJson : Json → Artifact
  | .null => absent
  | .bool value => truth value
  | .int value => integer value
  | .real value => real value
  | .str content => text content
  | .arr items => list (ofItems items)
  | .obj fields => dictionary (ofFields fields)

def ofItems : List Json → List Artifact
  | [] => []
  | item :: rest => ofJson item :: ofItems rest

def ofFields : List (Text.Units × Json) → List (Text.Units × Artifact)
  | [] => []
  | (key, value) :: rest => (key, ofJson value) :: ofFields rest

end

/-- A record with keys as they are written in a program. -/
def ofFieldList (type : String) (fields : List (String × Artifact)) : Artifact :=
  record type.toList (fields.map fun (key, value) => (Text.units key.toList, value))

def ofText (content : Text) : Artifact := text content.units

def ofOperand : Operand → Artifact
  | .literal digits => ofFieldList "Literal" [("text", ofText digits)]
  | .reference name => ofFieldList "Variable" [("name", ofText name)]
  | .unsupported => other "Expression".toList

def ofExpr : Expr → Artifact
  | .leaf operand => ofOperand operand
  | .binary operator left right =>
    ofFieldList "BinaryOp" [("operator", constant operator.name), ("left", ofExpr left), ("right", ofExpr right)]

def ofStatement : Statement → Artifact
  | .comment content => ofFieldList "Comment" [("text", ofText content)]
  | .assignment name valueText column =>
    ofFieldList "Assignment" [("name", ofText name), ("value_text", ofText valueText), ("column", integer column)]
  | .expression tree => ofFieldList "ExpressionStatement" [("expression", ofExpr tree)]
  | .unsupported => other "Statement".toList

def ofToken (token : Token) : Artifact :=
  ofFieldList "Token"
    [("kind", constant token.kind.name), ("lexeme", ofText token.lexeme), ("column", integer token.column)]

def ofResult (record : ResultRecord) : Artifact :=
  ofFieldList "ResultRecord"
    [("line_number", integer record.lineNumber), ("line", ofText record.line), ("value", numeral record.value)]

/-- An error shows its message alone. -/
def ofError (error : LineError) : Artifact := other error.message

end Artifact
end LineCalc
