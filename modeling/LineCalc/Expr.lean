import LineCalc.LineError

/-!
Expression trees. A long line makes a tree that is deep on its left side only, so functions on
trees start at the bottom of that side (`Expr.first`) and go up its operations in a loop
(`Expr.steps`).
-/
namespace LineCalc

/-- A number, a name, or something that a host program put there and the language does not know. -/
inductive Operand
  | literal (digits : Text)
  | reference (name : Text)
  | unsupported
  deriving DecidableEq

def Operand.render : Operand → Except Failure Text
  | literal digits => .ok digits
  | reference name => .ok name
  | unsupported => .error .unsupportedExpression

/-- The operators may be tokens of any kind, though a line makes none but arithmetic ones. -/
inductive Expr
  | leaf (operand : Operand)
  | binary (operator : TokenKind) (left right : Expr)
  deriving DecidableEq

namespace Expr

/-- An operator with its right operand, as it follows on a left operand. -/
structure Step where
  operator : TokenKind
  right : Expr
  deriving DecidableEq

def first : Expr → Operand
  | leaf operand => operand
  | binary _ left _ => left.first

/-- The operations of the left side from the bottom up, before later ones. -/
def stepsBefore : Expr → List Step → List Step
  | leaf _, later => later
  | binary operator left right, later => stepsBefore left (⟨operator, right⟩ :: later)

def steps (expression : Expr) : List Step := stepsBefore expression []

/-- The count of operands and operations. -/
def nodes : Expr → Nat
  | leaf _ => 1
  | binary _ left right => left.nodes + right.nodes + 1

def nodesOf : List Step → Nat
  | [] => 0
  | step :: rest => step.right.nodes + 1 + nodesOf rest

theorem stepsBefore_eq (expression : Expr) (later : List Step) :
    stepsBefore expression later = steps expression ++ later := by
  induction expression generalizing later with
  | leaf => rfl
  | binary operator left right ihl _ => simp [steps, stepsBefore, ihl (_ :: _)]

theorem steps_leaf (operand : Operand) : steps (leaf operand) = [] := rfl

theorem steps_binary (operator : TokenKind) (left right : Expr) :
    steps (binary operator left right) = steps left ++ [⟨operator, right⟩] := stepsBefore_eq left _

theorem nodesOf_append (before after : List Step) : nodesOf (before ++ after) = nodesOf before + nodesOf after := by
  induction before with
  | nil => simp [nodesOf]
  | cons step rest ih => simp only [List.cons_append, nodesOf, ih]; omega

theorem nodesOf_steps (expression : Expr) : nodesOf expression.steps + 1 = expression.nodes := by
  induction expression with
  | leaf => rfl
  | binary operator left right ihl _ => simp only [steps_binary, nodesOf_append, nodesOf, nodes]; omega

mutual

/-- Each operation stands in parentheses. -/
def render (expression : Expr) : Except Failure Text :=
  match expression.first.render with
  | .error failure => .error failure
  | .ok text =>
    match renderSteps expression.steps with
    | .error failure => .error failure
    | .ok more => .ok (List.replicate expression.steps.length '(' ++ text ++ more)
termination_by expression.nodes
decreasing_by have := nodesOf_steps expression; omega

/-- The text behind the first operand. The symbol of an operator is looked up before its right
    operand is rendered. -/
def renderSteps : List Step → Except Failure Text
  | [] => .ok []
  | step :: rest =>
    match step.operator.operatorSymbol? with
    | none => .error (.noOperation step.operator)
    | some symbol =>
      match render step.right with
      | .error failure => .error failure
      | .ok text =>
        match renderSteps rest with
        | .error failure => .error failure
        | .ok more => .ok (' ' :: symbol ++ ' ' :: text ++ ')' :: more)
termination_by steps => nodesOf steps
decreasing_by all_goals simp only [nodesOf]; omega

end

end Expr
end LineCalc
