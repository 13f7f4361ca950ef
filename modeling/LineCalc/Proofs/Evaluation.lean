import LineCalc.Evaluation
import LineCalc.Proofs.Chain

/-!
The value and the text of a tree from those of its sides. Both functions walk up the left side in
a loop; the loop does what recursion on the tree would do (`Expr.evaluate_binary`,
`Expr.render_binary`).
-/
namespace LineCalc
open Numeral

/-- A name is bound to no value, or a divisor is zero. -/
inductive LineError.IsOfValue : LineError → Prop
  | undefinedVariable {name : Text} : IsName name → IsOfValue (.undefinedVariable name)
  | divisionByZero : IsOfValue .divisionByZero
  | moduloByZero : IsOfValue .moduloByZero

/-- What fails in two parts fails in the first one, or in the second behind the value of the first. -/
theorem Failure.of_bind {α β : Type} {first : Except Failure α} {next : α → Except Failure β} {failure : Failure}
    (failed : first >>= next = .error failure) :
    first = .error failure ∨ ∃ value, first = .ok value ∧ next value = .error failure := by
  cases first with
  | error cause =>
    cases failed
    exact Or.inl rfl
  | ok value => exact Or.inr ⟨value, rfl, failed⟩

theorem Failure.values_of_bind {α β : Type} {first : Except Failure α} {next : α → Except Failure β} {result : β}
    (succeeded : first >>= next = .ok result) : ∃ value, first = .ok value ∧ next value = .ok result := by
  cases first with
  | error cause => cases succeeded
  | ok value => exact ⟨value, rfl, succeeded⟩

theorem Operation.apply_error {operation : Operation} {left right : Int} {error : LineError}
    (failed : operation.apply left right = .error error) : error.IsOfValue := by
  cases operation with
  | add | sub | mul => cases failed
  | div =>
    rw [apply] at failed
    split at failed <;> cases failed
    exact .divisionByZero
  | rem =>
    rw [apply] at failed
    split at failed <;> cases failed
    exact .moduloByZero

/-- Where an operator of expressions gives no value, its right operand is zero. -/
theorem TokenKind.apply_error {operator : TokenKind} (arithmetic : Expr.isOperator operator = true) {left right : Int}
    {failure : Failure} (failed : operator.apply left right = .error failure) :
    ∃ error, failure = .line error ∧ error.IsOfValue := by
  rw [apply] at failed
  split at failed
  next none => cases operator <;> first | exact absurd arithmetic (by decide) | cases none
  next operation _ =>
    split at failed
    next error applied =>
      cases failed
      exact ⟨error, rfl, Operation.apply_error applied⟩
    next => cases failed

theorem Operand.evaluate_cause {operand : Operand} (proper : operand.IsProper) {environment : Environment}
    {failure : Failure} (failed : operand.evaluate environment = .error failure) :
    ∃ error, failure = .line error ∧ error.IsOfValue := by
  cases operand with
  | literal digits =>
    have written : IsDigits digits := proper
    rw [evaluate, read_eq_ok_iff.mpr ⟨written.isNumeral, rfl⟩] at failed
    cases failed
  | reference name =>
    rw [evaluate, Environment.lookup] at failed
    cases bound : environment.lookup? name with
    | some value =>
      rw [bound] at failed
      cases failed
    | none =>
      rw [bound] at failed
      cases failed
      exact ⟨_, rfl, .undefinedVariable proper⟩
  | unsupported => exact proper.elim

namespace Expr

theorem evaluate_leaf (environment : Environment) (operand : Operand) :
    (leaf operand).evaluate environment = operand.evaluate environment := by
  rw [evaluate, first, steps_leaf]
  cases operand.evaluate environment with
  | error => rfl
  | ok value => exact evaluateSteps.eq_1 environment value

theorem evaluateSteps_append (environment : Environment) (value : Int) (before after : List Step) :
    evaluateSteps environment value (before ++ after) =
      evaluateSteps environment value before >>= fun next => evaluateSteps environment next after := by
  induction before generalizing value with
  | nil => rw [List.nil_append, evaluateSteps.eq_1]; rfl
  | cons step rest ih =>
    rw [List.cons_append, evaluateSteps, evaluateSteps]
    cases step.right.evaluate environment with
    | error => rfl
    | ok right =>
      dsimp only
      cases step.operator.apply value right with
      | error => rfl
      | ok next => exact ih next

/-- The left side is evaluated, then the right side, and then the operator is applied. -/
theorem evaluate_binary (environment : Environment) (operator : TokenKind) (left right : Expr) :
    (binary operator left right).evaluate environment = (do
      let leftValue ← left.evaluate environment
      let rightValue ← right.evaluate environment
      operator.apply leftValue rightValue) := by
  rw [evaluate, first, steps_binary, evaluate.eq_1 environment left]
  cases left.first.evaluate environment with
  | error => rfl
  | ok value =>
    dsimp only
    rw [evaluateSteps_append]
    congr 1
    funext next
    rw [evaluateSteps]
    cases right.evaluate environment with
    | error => rfl
    | ok rightValue =>
      show _ = operator.apply next rightValue
      dsimp only
      cases operator.apply next rightValue with
      | error => rfl
      | ok result => exact evaluateSteps.eq_1 environment result

theorem render_leaf (operand : Operand) : (leaf operand).render = operand.render := by
  rw [render, first, steps_leaf]
  cases operand.render with
  | error => rfl
  | ok text => simp [renderSteps]

theorem renderSteps_append (before after : List Step) :
    renderSteps (before ++ after) = (do
      let front ← renderSteps before
      let back ← renderSteps after
      return front ++ back) := by
  induction before with
  | nil =>
    rw [List.nil_append, renderSteps.eq_1]
    cases renderSteps after <;> rfl
  | cons step rest ih =>
    rw [List.cons_append, renderSteps, renderSteps.eq_2 step rest]
    cases step.operator.operatorSymbol? with
    | none => rfl
    | some symbol =>
      dsimp only
      cases step.right.render with
      | error => rfl
      | ok text =>
        rw [ih]
        cases renderSteps rest with
        | error => rfl
        | ok front => cases renderSteps after <;> simp [bind, Except.bind, pure, Except.pure]

theorem render_binary (operator : TokenKind) (left right : Expr) :
    (binary operator left right).render = (do
      let front ← left.render
      match operator.operatorSymbol? with
      | none => .error (.noOperation operator)
      | some symbol => do
        let back ← right.render
        return '(' :: front ++ ' ' :: symbol ++ ' ' :: back ++ [')']) := by
  rw [render, first, steps_binary, renderSteps_append, render.eq_1 left]
  cases left.first.render with
  | error => rfl
  | ok text =>
    dsimp only
    cases renderSteps left.steps with
    | error => rfl
    | ok front =>
      rw [renderSteps.eq_2]
      cases operator.operatorSymbol? with
      | none => rfl
      | some symbol =>
        dsimp only
        cases right.render with
        | error => rfl
        | ok back => simp [renderSteps, bind, Except.bind, pure, Except.pure, List.replicate_succ]

/-! ## Canonical trees -/

/-- A canonical tree has a text. -/
theorem Canonical.render {tree : Expr} (canonical : tree.Canonical) : ∃ text, tree.render = .ok text := by
  induction tree with
  | leaf operand =>
    rw [render_leaf]
    cases operand with
    | literal digits => exact ⟨digits, rfl⟩
    | reference name => exact ⟨name, rfl⟩
    | unsupported => exact canonical.elim
  | binary operator left right ihl ihr =>
    obtain ⟨front, leftText⟩ := ihl canonical.1
    obtain ⟨back, rightText⟩ := ihr canonical.2.1
    have arithmetic := canonical.arithmetic
    rw [render_binary, leftText, rightText]
    cases operator <;> first | exact ⟨_, rfl⟩ | exact absurd arithmetic (by decide)

theorem Canonical.evaluate_cause {tree : Expr} (canonical : tree.Canonical) {environment : Environment} {failure : Failure}
    (failed : tree.evaluate environment = .error failure) : ∃ error, failure = .line error ∧ error.IsOfValue := by
  induction tree generalizing failure with
  | leaf operand =>
    rw [evaluate_leaf] at failed
    exact Operand.evaluate_cause canonical failed
  | binary operator left right ihl ihr =>
    have arithmetic := canonical.arithmetic
    rw [evaluate_binary] at failed
    rcases Failure.of_bind failed with leftFailed | ⟨leftValue, -, failed⟩
    · exact ihl canonical.1 leftFailed
    rcases Failure.of_bind failed with rightFailed | ⟨rightValue, -, failed⟩
    · exact ihr canonical.2.1 rightFailed
    exact TokenKind.apply_error arithmetic failed

theorem Canonical.evaluate_error {tree : Expr} (canonical : tree.Canonical) {environment : Environment} {failure : Failure}
    (failed : tree.evaluate environment = .error failure) : ∃ error, failure = .line error := by
  obtain ⟨error, cause, -⟩ := canonical.evaluate_cause failed
  exact ⟨error, cause⟩

end Expr
end LineCalc
