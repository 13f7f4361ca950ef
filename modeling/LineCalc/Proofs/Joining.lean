import Mathlib.Control.Monad.Basic
import LineCalc.Proofs.Evaluation
import LineCalc.Proofs.Grammar

/-!
Two expressions in one line. A plus sign between them joins the terms of the second one to the
first one, one after the other from the left (`Expr.joinSum`). As sums are associative, the line
has the sum of the two values, and the first failure of the two in their order
(`Expr.evaluate_joinSum`).
-/
namespace LineCalc

theorem Spells.append {first second : List Text} {front back : Text} (spelled : Spells first front)
    (behind : Spells second back) : Spells (first ++ second) (front ++ back) := by
  induction spelled with
  | @nil gap isGap =>
    induction gap with
    | nil => exact behind
    | cons c gap ih =>
      obtain ⟨blank, rest⟩ := isGap_cons.mp isGap
      exact (ih rest).gap_cons (isGap_iff.mpr blank)
  | @cons gap lexeme rest lexemes isGap _ ih =>
    rw [List.append_assoc]
    exact Spells.cons isGap ih

theorem TokenKind.apply_add {operator : TokenKind} (additive : operator.isAdditive = true) (total left right : Int) :
    operator.apply (total + left) right = (operator.apply left right).map (total + ·) := by
  cases operator with
  | plus => exact congrArg Except.ok (Int.add_assoc total left right)
  | minus => exact congrArg Except.ok (Int.add_sub_assoc total left right)
  | _ => exact absurd additive (by decide)

namespace Expr

/-- The terms of the second tree follow on the first tree from the left. -/
def joinSum (before : Expr) : Expr → Expr
  | leaf operand => binary .plus before (leaf operand)
  | binary operator left right =>
    if operator.isAdditive then binary operator (before.joinSum left) right
    else binary .plus before (binary operator left right)

variable {before : Expr} {operator : TokenKind} {left right : Expr}

theorem joinSum_sum (sum : (binary operator left right).IsSum) :
    before.joinSum (binary operator left right) = binary operator (before.joinSum left) right := by
  rw [joinSum]
  exact if_pos sum

theorem joinSum_term {term : Expr} (notSum : ¬ term.IsSum) : before.joinSum term = binary .plus before term := by
  cases term with
  | leaf => rfl
  | binary operator left right =>
    rw [joinSum]
    exact if_neg notSum

theorem lexemes_joinSum (before tree : Expr) :
    (before.joinSum tree).lexemes = before.lexemes ++ ['+'] :: tree.lexemes := by
  induction tree with
  | leaf => rfl
  | binary operator left right ihl _ =>
    by_cases sum : (binary operator left right).IsSum
    · rw [joinSum_sum sum, lexemes, ihl, lexemes, List.append_assoc]
      rfl
    · rw [joinSum_term sum]
      rfl

/-- The sum of canonical trees is canonical. -/
theorem Canonical.joinSum {tree : Expr} (first : before.Canonical) (second : tree.Canonical) :
    (before.joinSum tree).Canonical := by
  induction tree with
  | leaf => exact ⟨first, second, Or.inr ⟨rfl, id⟩⟩
  | binary operator left right ihl _ =>
    by_cases sum : (binary operator left right).IsSum
    · rw [joinSum_sum sum]
      obtain ⟨leftCanonical, rightCanonical, ⟨product, -⟩ | additive⟩ := second
      · exact absurd sum (not_isSum_of_factor (Or.inr product))
      · exact ⟨ihl leftCanonical, rightCanonical, Or.inr additive⟩
    · rw [joinSum_term sum]
      exact ⟨first, second, Or.inr ⟨rfl, sum⟩⟩

/-- The sum of trees has the sum of their values; the first tree is evaluated first. -/
theorem evaluate_joinSum (environment : Environment) (before tree : Expr) :
    (before.joinSum tree).evaluate environment = (do
      let total ← before.evaluate environment
      let value ← tree.evaluate environment
      return total + value) := by
  have term : ∀ {term : Expr}, ¬ term.IsSum → (before.joinSum term).evaluate environment = (do
      let total ← before.evaluate environment
      let value ← term.evaluate environment
      return total + value) := by
    intro term notSum
    rw [joinSum_term notSum, evaluate_binary]
    rfl
  induction tree with
  | leaf => exact term id
  | binary operator left right ihl _ =>
    by_cases sum : (binary operator left right).IsSum
    · rw [joinSum_sum sum, evaluate_binary, ihl, evaluate_binary]
      cases before.evaluate environment with
      | error => rfl
      | ok total =>
        cases left.evaluate environment with
        | error => rfl
        | ok leftValue =>
          cases right.evaluate environment with
          | error => rfl
          | ok rightValue => exact TokenKind.apply_add sum total leftValue rightValue
    · exact term sum

end Expr

namespace Statement

/-- Two lines that are expressions, with a plus sign between them, are an expression. In every
    environment it has the sum of the two values; where the first line has none it fails
    as that line does, and else, where the second one has none, as the second one. -/
theorem ofLine_plus {first second : Text} {before after : Expr} (acceptedFirst : ofLine first = .ok (.expression before))
    (acceptedSecond : ofLine second = .ok (.expression after)) :
    ∃ tree, ofLine (first ++ " + ".toList ++ second) = .ok (.expression tree) ∧
      ∀ environment, tree.evaluate environment = (do
        let total ← before.evaluate environment
        let value ← after.evaluate environment
        return total + value) := by
  obtain ⟨canonicalFirst, spelledFirst⟩ := canonical_of_expression acceptedFirst
  obtain ⟨canonicalSecond, spelledSecond⟩ := canonical_of_expression acceptedSecond
  refine ⟨before.joinSum after, ?_, fun environment => Expr.evaluate_joinSum environment before after⟩
  refine expression_of_spells (canonicalFirst.joinSum canonicalSecond) ?_
  have sign : Spells [['+']] " + ".toList :=
    Spells.cons_iff.mpr ⟨[' '], [' '], rfl, by simp [IsGap], .nil (by simp [IsGap])⟩
  rw [Expr.lexemes_joinSum]
  have whole := (spelledFirst.append sign).append spelledSecond
  rw [List.append_assoc] at whole
  exact whole

theorem ofLine_plus_difference :
    ∃ before after tree, ofLine "x*2".toList = .ok (.expression before) ∧
      ofLine "3 - y%z".toList = .ok (.expression after) ∧
      ofLine "x*2 + 3 - y%z".toList = .ok (.expression tree) ∧
      tree.evaluate ⟨[("x".toList, 5), ("y".toList, -7), ("z".toList, 4)]⟩ = .ok 16 ∧
      tree.evaluate ⟨[("x".toList, 5), ("y".toList, -7), ("z".toList, 0)]⟩ = .error (.line .moduloByZero) ∧
      tree.evaluate ⟨[("y".toList, -7), ("z".toList, 0)]⟩ = .error (.line (.undefinedVariable "x".toList)) := by
  have acceptedFirst : ofLine "x*2".toList =
      .ok (.expression (.binary .star (.leaf (.reference ['x'])) (.leaf (.literal ['2'])))) := by decide +kernel
  have acceptedSecond : ofLine "3 - y%z".toList =
      .ok (.expression (.binary .minus (.leaf (.literal ['3']))
        (.binary .percent (.leaf (.reference ['y'])) (.leaf (.reference ['z']))))) := by decide +kernel
  obtain ⟨tree, accepted, evaluates⟩ := ofLine_plus acceptedFirst acceptedSecond
  refine ⟨_, _, tree, acceptedFirst, acceptedSecond, accepted, ?_, ?_, ?_⟩
  all_goals
    rw [evaluates]
    simp only [Expr.evaluate_binary, Expr.evaluate_leaf]
    decide +kernel

end Statement
end LineCalc
