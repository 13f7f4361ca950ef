import LineCalc.Proofs.Evaluation
import LineCalc.Proofs.Grammar
import Mathlib.Control.Monad.Basic

/-!
The value of an expression without its tree. One scan over the tokens of a line, from left to
right, keeps the total of the terms that are complete and the value of the term that may still
grow (`Tally.ofTokens`). What has been read of an expression has such a tally too
(`Expr.Partial.tally`), and a link changes both alike (`Expr.Partial.tally_extend`).
-/
namespace LineCalc
open Scan

/-- The total of the complete terms, whether the term behind it is taken from it, and the value of
    that term. -/
structure Tally where
  total : Int
  subtracts : Bool
  term : Int

namespace Tally

def value (tally : Tally) : Int := if tally.subtracts then tally.total - tally.term else tally.total + tally.term

/-- The value of an operand: of digits their number, of a name what it is bound to. -/
def operand (environment : Environment) (word : Token) : Except LineError Int :=
  if word.kind = .int then .ok (Numeral.integerOf word.lexeme)
  else match environment.lookup? word.lexeme with
    | some value => .ok value
    | none => .error (.undefinedVariable word.lexeme)

/-- A term with one more operand, which multiplies or divides it. -/
def factor (operator : TokenKind) (term operand : Int) : Except LineError Int :=
  match operator with
  | .slash => if operand = 0 then .error .divisionByZero else .ok (term.tdiv operand)
  | .percent => if operand = 0 then .error .moduloByZero else .ok (term.tmod operand)
  | _ => .ok (term * operand)

/-- Plus and minus complete the term and begin another one. -/
def link (tally : Tally) (operator : TokenKind) (operand : Int) : Except LineError Tally :=
  match operator with
  | .plus => .ok ⟨tally.value, false, operand⟩
  | .minus => .ok ⟨tally.value, true, operand⟩
  | _ => (factor operator tally.term operand).map fun term => { tally with term }

/-- Scans the operators and operands behind an operand, up to the first error. -/
def scan (environment : Environment) (tally : Tally) : List Token → Except LineError Int
  | sign :: word :: rest => do
    let value ← operand environment word
    let next ← tally.link sign.kind value
    scan environment next rest
  | _ => .ok tally.value

def ofTokens (environment : Environment) : List Token → Except LineError Int
  | [] => .ok 0
  | word :: rest => do
    let first ← operand environment word
    scan environment ⟨0, false, first⟩ rest

theorem mapError_bind {α β : Type} (first : Except LineError α) (next : α → Except LineError β) :
    (first >>= next).mapError Failure.line = first.mapError Failure.line >>= fun a => (next a).mapError Failure.line := by
  cases first <;> rfl

end Tally

theorem Operand.evaluate_of_token {word : Token} (lexeme : word.kind.IsLexeme word.lexeme) {operand : Operand}
    (isOperand : Operand.ofToken? word = some operand) (environment : Environment) :
    operand.evaluate environment = (Tally.operand environment word).mapError Failure.line := by
  obtain ⟨proper, -⟩ := proper_of_token lexeme isOperand
  rcases ofToken?_eq_some_iff.mp isOperand with ⟨kind, rfl⟩ | ⟨kind, rfl⟩
  · have digits : Numeral.IsDigits word.lexeme := proper
    rw [evaluate, Numeral.read_eq_ok_iff.mpr ⟨digits.isNumeral, rfl⟩, Tally.operand, if_pos kind]
    rfl
  · rw [evaluate, Environment.lookup, Tally.operand, kind, if_neg (by decide)]
    cases environment.lookup? word.lexeme <;> rfl

namespace Expr

/-- The tally of what has been read: the finished sum is evaluated, then the term. -/
def Partial.tally (environment : Environment) : Partial → Except Failure Tally
  | ⟨none, term⟩ => do
    let value ← term.evaluate environment
    return ⟨0, false, value⟩
  | ⟨some (sum, operator), term⟩ => do
    let total ← sum.evaluate environment
    let value ← term.evaluate environment
    return ⟨total, operator = .minus, value⟩

end Expr

namespace TokenKind

theorem apply_additive {operator : TokenKind} (additive : operator.isAdditive = true) (total term : Int) :
    operator.apply total term = .ok (Tally.value ⟨total, operator = .minus, term⟩) := by
  cases operator <;> first | rfl | exact absurd additive (by decide)

theorem link_additive {operator : TokenKind} (additive : operator.isAdditive = true) (tally : Tally) (operand : Int) :
    tally.link operator operand = .ok ⟨tally.value, operator = .minus, operand⟩ := by
  cases operator <;> first | rfl | exact absurd additive (by decide)

theorem link_multiplicative {operator : TokenKind} (product : operator.isMultiplicative = true) (tally : Tally)
    (operand : Int) :
    (tally.link operator operand).mapError Failure.line =
      (operator.apply tally.term operand).map fun term => { tally with term } := by
  by_cases zero : operand = 0
  · subst zero
    cases operator <;> first | rfl | exact absurd product (by decide)
  · cases operator with
    | star => rfl
    | slash | percent =>
      simp only [Tally.link, Tally.factor, apply, Operation.ofKind?, Operation.apply, if_neg zero]
      rfl
    | _ => exact absurd product (by decide)

end TokenKind

namespace Expr.Partial

/-- What has been read has the value of its tally. -/
theorem evaluate_close {part : Partial} (canonical : part.Canonical) (environment : Environment) :
    part.close.evaluate environment = Tally.value <$> part.tally environment := by
  obtain ⟨_ | ⟨sum, operator⟩, term⟩ := part
  · rw [close, tally]
    cases term.evaluate environment with
    | error => rfl
    | ok value => simp [Tally.value]
  · rw [close, evaluate_binary, tally]
    cases sum.evaluate environment with
    | error => rfl
    | ok total =>
      cases term.evaluate environment with
      | error => rfl
      | ok value => exact TokenKind.apply_additive (canonical.sum sum operator rfl).2 total value

/-- A link changes the tally of what has been read as it changes any tally. -/
theorem tally_extend {part : Partial} (canonical : part.Canonical) {operator : TokenKind}
    (arithmetic : isOperator operator = true) (environment : Environment) (operand : Operand) :
    (part.extend operator (leaf operand)).tally environment = (do
      let tally ← part.tally environment
      let value ← operand.evaluate environment
      (tally.link operator value).mapError Failure.line) := by
  rcases Bool.or_eq_true_iff.mp arithmetic with additive | product
  · rw [extend_sum additive, tally, evaluate_close canonical, evaluate_leaf]
    cases part.tally environment with
    | error => rfl
    | ok tally =>
      cases operand.evaluate environment with
      | error => rfl
      | ok value =>
        show _ = (tally.link operator value).mapError Failure.line
        rw [TokenKind.link_additive additive]
        rfl
  · rw [extend_product product]
    obtain ⟨_ | ⟨sum, sign⟩, term⟩ := part
    all_goals
      simp only [tally, evaluate_binary, evaluate_leaf, TokenKind.link_multiplicative product, bind_assoc, pure_bind]
      rfl

theorem scan_written {tokens : List Token} {links : List Link} (written : Written tokens links)
    (isLexeme : ∀ token ∈ tokens, token.kind.IsLexeme token.lexeme) (environment : Environment) {part : Partial}
    (canonical : part.Canonical) :
    (part.extendAll links).close.evaluate environment = (do
      let tally ← part.tally environment
      (tally.scan environment tokens).mapError Failure.line) := by
  induction written generalizing part with
  | nil =>
    rw [extendAll, List.foldl_nil, evaluate_close canonical]
    cases part.tally environment <;> rfl
  | @cons sign word operand tokens links operator isOperand _ ih =>
    obtain ⟨proper, -⟩ := Operand.proper_of_token (isLexeme word (by simp)) isOperand
    have properLink : Link.IsProper ⟨sign.kind, operand⟩ := ⟨operator, proper⟩
    -- The first link goes from the scan to what has been read.
    have behind := ih (fun token member => isLexeme token (by simp [member])) (canonical.extend properLink)
    rw [tally_extend canonical operator] at behind
    refine behind.trans ?_
    simp only [bind_assoc, Tally.scan, Tally.mapError_bind, Operand.evaluate_of_token (isLexeme word (by simp)) isOperand]

end Expr.Partial

/-- The tree of a line and the scan of its tokens have one value, or fail with one error. -/
theorem Expr.evaluate_eq_scan {line : Text} {tree : Expr} (accepted : Statement.ofLine line = .ok (.expression tree))
    (environment : Environment) :
    tree.evaluate environment = (Tally.ofTokens environment (ofText none line).tokens).mapError Failure.line := by
  obtain ⟨reads, first, operand, rest, links, tokens, isOperand, written, rfl⟩ := Statement.tokens_of_expression accepted
  have isLexeme := reads.isLexeme
  rw [tokens] at isLexeme ⊢
  have lexeme := isLexeme first (by simp)
  obtain ⟨proper, -⟩ := Operand.proper_of_token lexeme isOperand
  have start : Partial.Canonical ⟨none, leaf operand⟩ := ⟨proper, id, by rintro _ _ ⟨⟩⟩
  have scanned := Partial.scan_written written (fun token member => isLexeme token (by simp [member])) environment start
  rw [ofChain, scanned, Partial.tally, evaluate_leaf, Operand.evaluate_of_token lexeme isOperand, Tally.ofTokens,
    Tally.mapError_bind]
  simp only [bind_assoc, pure_bind]

/-- The division by zero is met before the unbound name behind it. -/
theorem Expr.evaluate_eq_scan_zero_divisor :
    ∃ tree, Statement.ofLine "1 + 2*x/0 - y".toList = .ok (.expression tree) ∧
      tree.evaluate ⟨[("x".toList, 5)]⟩ = .error (.line .divisionByZero) := by
  have accepted : Statement.ofLine "1 + 2*x/0 - y".toList =
      .ok (.expression (.binary .minus
        (.binary .plus (.leaf (.literal ['1']))
          (.binary .slash (.binary .star (.leaf (.literal ['2'])) (.leaf (.reference ['x']))) (.leaf (.literal ['0']))))
        (.leaf (.reference ['y'])))) := by decide +kernel
  refine ⟨_, accepted, (Expr.evaluate_eq_scan accepted _).trans ?_⟩
  decide +kernel

end LineCalc
