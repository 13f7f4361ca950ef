import LineCalc.Proofs.Evaluation

/-!
Evaluation by recursion on both sides of a tree (`Expr.recursively`). It gives the same value or
the same first failure as the loop over the left side, also for trees that no line makes.
-/
namespace LineCalc
open Numeral

/-- Why a tree of any shape has no value: digits that are no numeral, a name without a value, a
    divisor that is zero, an operator without an operation, or an unknown operand. -/
inductive Failure.IsOfTree : Failure → Prop
  | badNumeral {text : Text} : ¬ IsNumeral text → IsOfTree (.line (.badNumeral text))
  | undefinedVariable {name : Text} : IsOfTree (.line (.undefinedVariable name))
  | divisionByZero : IsOfTree (.line .divisionByZero)
  | moduloByZero : IsOfTree (.line .moduloByZero)
  | noOperation {kind : TokenKind} : Operation.ofKind? kind = none → IsOfTree (.noOperation kind)
  | unsupportedExpression : IsOfTree .unsupportedExpression

/-- The value of an operand: of digits their integer, of a name what it is bound to. -/
def Operand.recursively (environment : Environment) : Operand → Except Failure Int
  | literal digits => if IsNumeral digits then .ok (integerOf digits) else .error (.line (.badNumeral digits))
  | reference name =>
    match environment.lookup? name with
    | some value => .ok value
    | none => .error (.line (.undefinedVariable name))
  | unsupported => .error .unsupportedExpression

/-- The left side, then the right side, and then the operation of the operator. -/
def Expr.recursively (environment : Environment) : Expr → Except Failure Int
  | leaf operand => operand.recursively environment
  | binary operator left right => do
    let leftValue ← left.recursively environment
    let rightValue ← right.recursively environment
    match Operation.ofKind? operator with
    | none => .error (.noOperation operator)
    | some operation => (operation.apply leftValue rightValue).mapError Failure.line

theorem Operand.evaluate_eq (environment : Environment) (operand : Operand) :
    operand.evaluate environment = operand.recursively environment := by
  cases operand with
  | literal digits =>
    rw [evaluate, recursively]
    by_cases numeral : IsNumeral digits
    · rw [if_pos numeral, read_eq_ok_iff.mpr ⟨numeral, rfl⟩]
    · rw [if_neg numeral, read_eq_error_iff.mpr ⟨numeral, rfl⟩]
  | reference name =>
    rw [evaluate, recursively, Environment.lookup]
    cases environment.lookup? name <;> rfl
  | unsupported => rfl

theorem TokenKind.apply_eq (operator : TokenKind) (left right : Int) :
    operator.apply left right =
      match Operation.ofKind? operator with
      | none => .error (.noOperation operator)
      | some operation => (operation.apply left right).mapError Failure.line := by
  rw [apply]
  cases Operation.ofKind? operator with
  | none => rfl
  | some operation =>
    dsimp only
    cases operation.apply left right <;> rfl

theorem Operation.isOfTree_of_apply {operation : Operation} {left right : Int} {error : LineError}
    (failed : operation.apply left right = .error error) : Failure.IsOfTree (.line error) := by
  cases Operation.apply_error failed with
  | undefinedVariable => exact .undefinedVariable
  | divisionByZero => exact .divisionByZero
  | moduloByZero => exact .moduloByZero

namespace Expr

/-- The failures of the recursion are those of the operands and the operators of the tree. -/
theorem recursively_failure {environment : Environment} {tree : Expr} {failure : Failure}
    (failed : tree.recursively environment = .error failure) : failure.IsOfTree := by
  induction tree generalizing failure with
  | leaf operand =>
    cases operand with
    | literal digits =>
      rw [recursively, Operand.recursively] at failed
      split at failed
      next => cases failed
      next noNumeral =>
        cases failed
        exact .badNumeral noNumeral
    | reference name =>
      rw [recursively, Operand.recursively] at failed
      split at failed <;> cases failed
      exact .undefinedVariable
    | unsupported =>
      cases failed
      exact .unsupportedExpression
  | binary operator left right ihl ihr =>
    rw [recursively] at failed
    rcases Failure.of_bind failed with leftFailed | ⟨leftValue, -, failed⟩
    · exact ihl leftFailed
    rcases Failure.of_bind failed with rightFailed | ⟨rightValue, -, failed⟩
    · exact ihr rightFailed
    split at failed
    next unknown =>
      cases failed
      exact .noOperation unknown
    next operation _ =>
      cases applied : operation.apply leftValue rightValue with
      | error error =>
        rw [applied] at failed
        cases failed
        exact Operation.isOfTree_of_apply applied
      | ok value =>
        rw [applied] at failed
        cases failed

/-- Loop and recursion agree on every tree, whatever its operators and operands are, and no tree
    fails in another way than those listed. -/
theorem evaluate_eq_recursively (environment : Environment) (tree : Expr) :
    tree.evaluate environment = tree.recursively environment ∧
      ∀ failure, tree.evaluate environment = .error failure → failure.IsOfTree := by
  have same : tree.evaluate environment = tree.recursively environment := by
    induction tree with
    | leaf operand => rw [evaluate_leaf, recursively, Operand.evaluate_eq]
    | binary operator left right ihl ihr =>
      rw [evaluate_binary, recursively, ihl, ihr]
      simp only [TokenKind.apply_eq]
  refine ⟨same, fun failure failed => ?_⟩
  rw [same] at failed
  exact recursively_failure failed

end Expr
end LineCalc
