import LineCalc.Expr
import LineCalc.Scan

/-!
Statements, and how a line is read as one. A statement is

    comment    := a blank line, or a line that begins with a number sign
    assignment := name ':=' text
    expression := term (('+' | '-') term)*
    term       := operand (('*' | '/' | '%') operand)*
    operand    := name | digits

`Statement.ofTokens` reads a list of tokens and tells which of them it left;
`Statement.ofLine` reads a line. The value of an assignment is whatever stands
after its sign, and is read as a numeral only when the assignment is carried
out.
-/
namespace LineCalc

/-- What a line says, or something that a host program put there and the language does not know. -/
inductive Statement
  | comment (text : Text)
  | assignment (name valueText : Text) (column : Int)
  | expression (tree : Expr)
  | unsupported
  deriving DecidableEq

/-- What was read from tokens, or why not, and the tokens that are left. -/
structure Parsed (α : Type) where
  outcome : Except Failure α
  rest : List Token

/-- The token at fault is left. -/
def Parsed.fault {α : Type} (fault : SyntaxFault) (token : Token) (rest : List Token) : Parsed α :=
  ⟨.error (.line (.malformed fault token.column)), token :: rest⟩

/-- Nothing is left where a token is needed. -/
def Parsed.exhausted {α : Type} : Parsed α := ⟨.error .outOfRange, []⟩

def Operand.ofToken? (token : Token) : Option Operand :=
  match token.kind with
  | .int => some (.literal token.lexeme)
  | .ident => some (.reference token.lexeme)
  | _ => none

namespace Expr

/-- The term that may still grow, and before it the finished sum with the operator that joins them. -/
structure Partial where
  sum : Option (Expr × TokenKind)
  term : Expr

def Partial.close : Partial → Expr
  | ⟨none, term⟩ => term
  | ⟨some (sum, operator), term⟩ => binary operator sum term

/-- A multiplicative operator extends the term; an additive one ends it. -/
def Partial.extend (part : Partial) (operator : TokenKind) (operand : Expr) : Partial :=
  if operator.isMultiplicative then { part with term := binary operator part.term operand }
  else ⟨some (part.close, operator), operand⟩

def isOperator (kind : TokenKind) : Bool := kind.isAdditive || kind.isMultiplicative

/-- Reads operators and operands after a first operand. -/
def continueTokens (part : Partial) : List Token → Parsed Expr
  | [] => .exhausted
  | [token] => if isOperator token.kind then .exhausted else ⟨.ok part.close, [token]⟩
  | token :: next :: rest =>
    if isOperator token.kind then
      match Operand.ofToken? next with
      | some operand => continueTokens (part.extend token.kind (leaf operand)) rest
      | none =>
        if next.kind = .eof then .fault (.missingOperand token.lexeme) next rest
        else .fault (.unexpected next.lexeme next.column) next rest
    else ⟨.ok part.close, token :: next :: rest⟩

end Expr

namespace Statement

def isComment (line : Text) : Bool := (Text.strip Text.isBlank line).isEmpty || line.head? == some '#'

/-- Reads the value of an assignment from the line after its sign. -/
def readAssignment (line : Text) (tokens : List Token) (name sign : Token) : Parsed Statement :=
  let rest := Text.fromIndex (sign.endColumn - 1) line
  let value := Text.strip Text.isGap rest
  if value.isEmpty then ⟨.error (.line (.malformed .missingValue sign.endColumn)), tokens.drop 2⟩
  else
    let gap := rest.length - (Text.stripLeft Text.isGap rest).length
    ⟨.ok (.assignment name.lexeme value (sign.endColumn + gap)), tokens.drop (tokens.length - 1)⟩

/-- Reads an expression that ends where the tokens do. -/
def readExpression (operand : Operand) (tokens : List Token) : Parsed Statement :=
  match Expr.continueTokens ⟨none, .leaf operand⟩ tokens with
  | ⟨.error failure, rest⟩ => ⟨.error failure, rest⟩
  | ⟨.ok _, []⟩ => .exhausted
  | ⟨.ok tree, last :: rest⟩ =>
    if last.kind = .eof then ⟨.ok (.expression tree), last :: rest⟩
    else .fault (.unexpected last.lexeme last.column) last rest

def ofTokens (line : Text) (tokens : List Token) : Parsed Statement :=
  match tokens with
  | [] => .exhausted
  | first :: rest =>
    match Scan.opensAssignment tokens, rest with
    | true, sign :: _ => readAssignment line tokens first sign
    | _, _ =>
      match Operand.ofToken? first with
      | some operand => readExpression operand rest
      | none => .fault .unrecognized first rest

/-- Reads tokens that a host program put together. Their columns may be too long to be told, and
    then a fault cannot be worded. -/
def ofHostTokens (line : Text) (tokens : List Token) : Parsed Statement :=
  match ofTokens line tokens with
  | ⟨.error (.line error), rest⟩ => ⟨.error (if error.isWritable then .line error else .unwritable), rest⟩
  | parsed => parsed

def ofLine (line : Text) : Except Failure Statement :=
  if isComment line then .ok (.comment line)
  else match Scan.ofStatement line with
    | .error error => .error (.line error)
    | .ok tokens => (ofTokens line tokens).outcome

end Statement
end LineCalc
