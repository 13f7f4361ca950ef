import LineCalc.Evaluation
import LineCalc.Proofs.Grammar

/-!
How deep the work on an expression goes. Only right operands are worked on by a call inside of a
call. With as many levels as a tree is nested to the right, a cap on these calls is not met
(`Expr.evaluateWithin_eq`, `Expr.renderWithin_eq`), and three levels are enough for every line
(`Statement.expression_nesting`).
-/
namespace LineCalc

namespace Expr

/-- The right operands are evaluated by another function, which may give up. -/
def evaluateStepsBy (inner : Expr → Option (Except Failure Int)) (value : Int) :
    List Step → Option (Except Failure Int)
  | [] => some (.ok value)
  | step :: rest =>
    match inner step.right with
    | none => none
    | some (.error failure) => some (.error failure)
    | some (.ok right) =>
      match step.operator.apply value right with
      | .error failure => some (.error failure)
      | .ok next => evaluateStepsBy inner next rest

/-- At most `levels` evaluations stand inside of one another; it gives up where more would be
    needed. -/
def evaluateWithin (environment : Environment) : Nat → Expr → Option (Except Failure Int)
  | 0, _ => none
  | levels + 1, expression =>
    match expression.first.evaluate environment with
    | .error failure => some (.error failure)
    | .ok value => evaluateStepsBy (evaluateWithin environment levels) value expression.steps

/-- The right operands are rendered by another function, which may give up. -/
def renderStepsBy (inner : Expr → Option (Except Failure Text)) : List Step → Option (Except Failure Text)
  | [] => some (.ok [])
  | step :: rest =>
    match step.operator.operatorSymbol? with
    | none => some (.error (.noOperation step.operator))
    | some symbol =>
      match inner step.right with
      | none => none
      | some (.error failure) => some (.error failure)
      | some (.ok text) =>
        match renderStepsBy inner rest with
        | none => none
        | some (.error failure) => some (.error failure)
        | some (.ok more) => some (.ok (' ' :: symbol ++ ' ' :: text ++ ')' :: more))

/-- As `evaluateWithin`, for the text of an expression. -/
def renderWithin : Nat → Expr → Option (Except Failure Text)
  | 0, _ => none
  | levels + 1, expression =>
    match expression.first.render with
    | .error failure => some (.error failure)
    | .ok text =>
      match renderStepsBy (renderWithin levels) expression.steps with
      | none => none
      | some (.error failure) => some (.error failure)
      | some (.ok more) => some (.ok (List.replicate expression.steps.length '(' ++ text ++ more))

/-- How many calls stand inside of one another on the way down the right sides. -/
def nesting : Expr → Nat
  | leaf _ => 1
  | binary _ left right => max left.nesting (right.nesting + 1)

/-! ## Trees that are nested within the cap -/

theorem nesting_pos (tree : Expr) : 0 < tree.nesting := by
  cases tree <;> simp only [nesting] <;> omega

theorem nesting_lt_of_step {tree : Expr} {step : Step} (member : step ∈ tree.steps) :
    step.right.nesting < tree.nesting := by
  induction tree with
  | leaf operand => cases member
  | binary operator left right ihl _ =>
    rw [steps_binary, List.mem_append, List.mem_singleton] at member
    simp only [nesting]
    rcases member with before | rfl
    · have inner := ihl before
      omega
    · show right.nesting < _
      omega

theorem evaluateStepsBy_eq {inner : Expr → Option (Except Failure Int)} {environment : Environment} {steps : List Step}
    (sameRight : ∀ step ∈ steps, inner step.right = some (step.right.evaluate environment)) (value : Int) :
    evaluateStepsBy inner value steps = some (evaluateSteps environment value steps) := by
  induction steps generalizing value with
  | nil => rw [evaluateStepsBy, evaluateSteps]
  | cons step rest ih =>
    rw [evaluateStepsBy, evaluateSteps, sameRight step (by simp)]
    cases step.right.evaluate environment with
    | error failure => rfl
    | ok right =>
      dsimp only
      cases step.operator.apply value right with
      | error failure => rfl
      | ok next => exact ih (fun step member => sameRight step (by simp [member])) next

theorem renderStepsBy_eq {inner : Expr → Option (Except Failure Text)} {steps : List Step}
    (sameRight : ∀ step ∈ steps, inner step.right = some step.right.render) :
    renderStepsBy inner steps = some (renderSteps steps) := by
  induction steps with
  | nil => rw [renderStepsBy, renderSteps]
  | cons step rest ih =>
    rw [renderStepsBy, renderSteps]
    cases step.operator.operatorSymbol? with
    | none => rfl
    | some symbol =>
      dsimp only
      rw [sameRight step (by simp), ih fun step member => sameRight step (by simp [member])]
      cases step.right.render with
      | error failure => rfl
      | ok text =>
        dsimp only
        cases renderSteps rest <;> rfl

/-- The cap is not met by a tree that is nested no deeper. -/
theorem evaluateWithin_eq (environment : Environment) {levels : Nat} {tree : Expr} (fits : tree.nesting ≤ levels) :
    tree.evaluateWithin environment levels = some (tree.evaluate environment) := by
  induction levels generalizing tree with
  | zero => exact absurd fits (Nat.not_le_of_lt tree.nesting_pos)
  | succ levels ih =>
    have sameRight : ∀ step ∈ tree.steps,
        step.right.evaluateWithin environment levels = some (step.right.evaluate environment) := by
      intro step member
      have less := nesting_lt_of_step member
      exact ih (by omega)
    rw [evaluateWithin, evaluate]
    cases tree.first.evaluate environment with
    | error failure => rfl
    | ok value => exact evaluateStepsBy_eq sameRight value

theorem renderWithin_eq {levels : Nat} {tree : Expr} (fits : tree.nesting ≤ levels) :
    tree.renderWithin levels = some tree.render := by
  induction levels generalizing tree with
  | zero => exact absurd fits (Nat.not_le_of_lt tree.nesting_pos)
  | succ levels ih =>
    have sameRight : ∀ step ∈ tree.steps, step.right.renderWithin levels = some step.right.render := by
      intro step member
      have less := nesting_lt_of_step member
      exact ih (by omega)
    rw [renderWithin, render, renderStepsBy_eq sameRight]
    cases tree.first.render with
    | error failure => rfl
    | ok text =>
      dsimp only
      cases renderSteps tree.steps <;> rfl

/-! ## Canonical trees -/

theorem IsLeaf.nesting_eq {tree : Expr} (isLeaf : tree.IsLeaf) : tree.nesting = 1 := by
  cases tree with
  | leaf operand => rfl
  | binary => exact isLeaf.elim

/-- A term has its operands on its left side alone. -/
theorem Canonical.nesting_term {tree : Expr} (canonical : tree.Canonical) (term : tree.IsLeaf ∨ tree.IsProduct) :
    tree.nesting ≤ 2 := by
  induction tree with
  | leaf operand => exact Nat.le_succ 1
  | binary operator left right ihl _ =>
    obtain ⟨leftCanonical, -, ⟨-, leftTerm, rightLeaf⟩ | ⟨additive, -⟩⟩ := canonical
    · have inner := ihl leftCanonical leftTerm
      rw [nesting, rightLeaf.nesting_eq]
      omega
    · exact absurd additive (not_isSum_of_factor term)

/-- A sum has nothing but terms on its right sides. -/
theorem Canonical.nesting_le {tree : Expr} (canonical : tree.Canonical) : tree.nesting ≤ 3 := by
  induction tree with
  | leaf operand => exact Nat.le_add_left 1 2
  | binary operator left right ihl _ =>
    have inner := ihl canonical.1
    have rightTerm : right.IsLeaf ∨ right.IsProduct := by
      rcases canonical.2.2 with ⟨-, -, rightLeaf⟩ | ⟨-, notSum⟩
      · exact .inl rightLeaf
      · exact factor_of_not_isSum canonical.2.1 notSum
    have behind := canonical.2.1.nesting_term rightTerm
    rw [nesting]
    omega

end Expr

namespace Statement

/-- With three calls inside of one another, the tree of a line of any length is evaluated in every
    environment, and rendered, as without a cap. -/
theorem expression_nesting {line : Text} {tree : Expr} (accepted : ofLine line = .ok (.expression tree)) :
    (∀ environment, tree.evaluateWithin environment 3 = some (tree.evaluate environment)) ∧
      tree.renderWithin 3 = some tree.render := by
  have nested := (canonical_of_expression accepted).1.nesting_le
  exact ⟨fun environment => Expr.evaluateWithin_eq environment nested, Expr.renderWithin_eq nested⟩

/-- A sum with a product on its right, which two calls would not do for. -/
theorem expression_nesting_product :
    ∃ tree, ofLine "1 - 2 * 3".toList = .ok (.expression tree) ∧
      (∀ environment, tree.evaluateWithin environment 3 = some (tree.evaluate environment)) ∧
      tree.renderWithin 3 = some tree.render ∧
      tree.evaluateWithin .empty 2 = none ∧ tree.renderWithin 2 = none := by
  have accepted : ofLine "1 - 2 * 3".toList =
      .ok (.expression (.binary .minus (.leaf (.literal ['1']))
        (.binary .star (.leaf (.literal ['2'])) (.leaf (.literal ['3']))))) := by decide +kernel
  obtain ⟨evaluated, rendered⟩ := expression_nesting accepted
  exact ⟨_, accepted, evaluated, rendered, by decide +kernel, by decide +kernel⟩

end Statement
end LineCalc
