import LineCalc.Arithmetic
import LineCalc.Environment
import LineCalc.Expr

/-!
The value of an expression in an environment: of the first operand, and then step by step of the
operations of the left side. The first failure on that way ends it.
-/
namespace LineCalc

def Operand.evaluate (environment : Environment) : Operand → Except Failure Int
  | literal digits =>
    match Numeral.read digits with
    | .error error => .error (.line error)
    | .ok value => .ok value
  | reference name =>
    match environment.lookup name with
    | .error error => .error (.line error)
    | .ok value => .ok value
  | unsupported => .error .unsupportedExpression

def TokenKind.apply (operator : TokenKind) (left right : Int) : Except Failure Int :=
  match Operation.ofKind? operator with
  | none => .error (.noOperation operator)
  | some operation =>
    match operation.apply left right with
    | .error error => .error (.line error)
    | .ok value => .ok value

namespace Expr

mutual

def evaluate (environment : Environment) (expression : Expr) : Except Failure Int :=
  match expression.first.evaluate environment with
  | .error failure => .error failure
  | .ok value => evaluateSteps environment value expression.steps
termination_by expression.nodes
decreasing_by have := nodesOf_steps expression; omega

/-- What operations make of a value, in order. -/
def evaluateSteps (environment : Environment) (value : Int) : List Step → Except Failure Int
  | [] => .ok value
  | step :: rest =>
    match evaluate environment step.right with
    | .error failure => .error failure
    | .ok right =>
      match step.operator.apply value right with
      | .error failure => .error failure
      | .ok next => evaluateSteps environment next rest
termination_by steps => nodesOf steps
decreasing_by all_goals simp only [nodesOf]; omega

end

end Expr
end LineCalc
