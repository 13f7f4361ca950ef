import LineCalc.Proofs.Grammar

/-!
Why a line is no statement. Where an end token is among the tokens, reading never runs out of
them, and what it finds is an assignment, an expression or a syntax fault
(`Statement.ofTokens_outcome`). The tokens of a line have such an end
(`Statement.ofLine_outcome`).
-/
namespace LineCalc
open Scan

/-- An end token is among the tokens. -/
def HasEnd (tokens : List Token) : Prop := ∃ token ∈ tokens, token.kind = .eof

theorem HasEnd.tail {first : Token} {rest : List Token} (ends : HasEnd (first :: rest)) (differs : first.kind ≠ .eof) :
    HasEnd rest := by
  obtain ⟨token, member, eof⟩ := ends
  rcases List.mem_cons.mp member with rfl | later
  · exact absurd eof differs
  · exact ⟨token, later, eof⟩

theorem Expr.ne_eof_of_isOperator {kind : TokenKind} (operator : isOperator kind = true) : kind ≠ .eof := by
  rintro rfl
  exact absurd operator (by decide)

theorem Operand.ne_eof_of_token {token : Token} {operand : Operand} (isOperand : ofToken? token = some operand) :
    token.kind ≠ .eof := by
  intro eof
  rcases ofToken?_eq_some_iff.mp isOperand with ⟨kind, -⟩ | ⟨kind, -⟩ <;> cases eof.symm.trans kind

namespace Scan

theorem tokenize_outcome (limit : Option Int) (line : Text) :
    (∃ tokens, tokenize limit line = .ok tokens ∧ HasEnd tokens) ∨
      ∃ character column, tokenize limit line = .error (.invalidCharacter character column) := by
  rw [tokenize, result]
  split
  · exact Or.inr ⟨_, _, rfl⟩
  · exact Or.inl ⟨_, rfl, _, List.mem_append_right _ (List.mem_singleton_self _), rfl⟩

theorem ofStatement_outcome (line : Text) :
    (∃ tokens, ofStatement line = .ok tokens ∧ HasEnd tokens) ∨
      ∃ character column, ofStatement line = .error (.invalidCharacter character column) := by
  rw [ofStatement_eq]
  split <;> exact tokenize_outcome _ line

end Scan

theorem Expr.continueTokens_outcome {tokens : List Token} (ends : HasEnd tokens) (part : Partial) :
    (∃ tree last rest, continueTokens part tokens = ⟨.ok tree, last :: rest⟩) ∨
      ∃ fault column rest, fault ≠ .missingValue ∧
        continueTokens part tokens = ⟨.error (.line (.malformed fault column)), rest⟩ := by
  fun_induction continueTokens part tokens with
  | case1 =>
    obtain ⟨_, member, -⟩ := ends
    cases member
  | case2 part token operator =>
    obtain ⟨_, member, -⟩ := ends.tail (ne_eof_of_isOperator operator)
    cases member
  | case3 part token | case7 part token => exact Or.inl ⟨_, _, _, rfl⟩
  | case4 part sign word rest operator operand isOperand ih =>
    exact ih ((ends.tail (ne_eof_of_isOperator operator)).tail (Operand.ne_eof_of_token isOperand))
  | case5 | case6 => exact Or.inr ⟨_, _, _, SyntaxFault.noConfusion, rfl⟩

namespace Statement

theorem readExpression_outcome {tokens : List Token} (ends : HasEnd tokens) (operand : Operand) :
    (∃ tree, (readExpression operand tokens).outcome = .ok (.expression tree)) ∨
      ∃ fault column, fault ≠ .missingValue ∧
        (readExpression operand tokens).outcome = .error (.line (.malformed fault column)) := by
  rcases Expr.continueTokens_outcome ends ⟨none, .leaf operand⟩ with
    ⟨tree, last, rest, read⟩ | ⟨fault, column, rest, other, read⟩
  · rw [readExpression, read]
    dsimp only
    split
    · exact Or.inl ⟨tree, rfl⟩
    · exact Or.inr ⟨_, _, SyntaxFault.noConfusion, rfl⟩
  · rw [readExpression, read]
    exact Or.inr ⟨fault, column, other, rfl⟩

/-- Tokens that open no assignment are an expression, or malformed for another reason than that
    a value is missing. -/
theorem ofTokens_of_closed {tokens : List Token} (ends : HasEnd tokens) (closed : opensAssignment tokens = false)
    (line : Text) :
    (∃ tree, (ofTokens line tokens).outcome = .ok (.expression tree)) ∨
      ∃ fault column, fault ≠ .missingValue ∧ (ofTokens line tokens).outcome = .error (.line (.malformed fault column)) := by
  cases tokens with
  | nil =>
    obtain ⟨_, member, -⟩ := ends
    cases member
  | cons first rest =>
    rw [ofTokens_of_not_opensAssignment closed]
    cases isOperand : Operand.ofToken? first with
    | none => exact Or.inr ⟨_, _, SyntaxFault.noConfusion, rfl⟩
    | some operand => exact readExpression_outcome (ends.tail (Operand.ne_eof_of_token isOperand)) operand

/-- Tokens with an end are an assignment, an expression or malformed. -/
theorem ofTokens_outcome {tokens : List Token} (ends : HasEnd tokens) (line : Text) :
    (∃ name value column, (ofTokens line tokens).outcome = .ok (.assignment name value column)) ∨
      (∃ tree, (ofTokens line tokens).outcome = .ok (.expression tree)) ∨
      ∃ fault column, (ofTokens line tokens).outcome = .error (.line (.malformed fault column)) := by
  cases opens : opensAssignment tokens with
  | false =>
    rcases ofTokens_of_closed ends opens line with expression | ⟨fault, column, -, malformed⟩
    · exact Or.inr (Or.inl expression)
    · exact Or.inr (Or.inr ⟨fault, column, malformed⟩)
  | true =>
    rcases tokens with _ | ⟨first, _ | ⟨sign, rest⟩⟩
    · cases opens
    · cases opens
    · rw [ofTokens_of_opensAssignment opens]
      rcases readAssignment_outcome line (first :: sign :: rest) first sign with ⟨value, column, found⟩ | malformed
      · exact Or.inl ⟨_, value, column, found⟩
      · exact Or.inr (Or.inr malformed)

/-- A line is a comment, an assignment or an expression, or it has a lexical or a
    syntactic error. -/
theorem ofLine_outcome (line : Text) :
    ofLine line = .ok (.comment line) ∨ (∃ name value column, ofLine line = .ok (.assignment name value column)) ∨
      (∃ tree, ofLine line = .ok (.expression tree)) ∨
      ∃ error : LineError, ofLine line = .error (.line error) ∧ (error.kind = .lexical ∨ error.kind = .syntactic) := by
  rw [ofLine]
  split
  · exact Or.inl rfl
  · rcases ofStatement_outcome line with ⟨tokens, scanned, ends⟩ | ⟨character, column, refused⟩
    · rw [scanned]
      rcases ofTokens_outcome ends line with assignment | expression | ⟨fault, column, malformed⟩
      · exact Or.inr (Or.inl assignment)
      · exact Or.inr (Or.inr (Or.inl expression))
      · exact Or.inr (Or.inr (Or.inr ⟨_, malformed, Or.inr rfl⟩))
    · rw [refused]
      exact Or.inr (Or.inr (Or.inr ⟨_, rfl, Or.inl rfl⟩))

theorem ofLine_eq_comment_iff {line text : Text} :
    ofLine line = .ok (.comment text) ↔ isComment line = true ∧ text = line := by
  constructor
  · intro accepted
    by_cases comment : isComment line = true
    · rw [ofLine, if_pos comment] at accepted
      cases accepted
      exact ⟨comment, rfl⟩
    · rw [ofLine, if_neg comment] at accepted
      rcases ofStatement_outcome line with ⟨tokens, scanned, ends⟩ | ⟨character, column, refused⟩
      · rw [scanned] at accepted
        rcases ofTokens_outcome ends line with ⟨_, _, _, other⟩ | ⟨_, other⟩ | ⟨_, _, other⟩ <;>
          cases accepted.symm.trans other
      · rw [refused] at accepted
        cases accepted
  · rintro ⟨comment, rfl⟩
    rw [ofLine, if_pos comment]

theorem ofLine_error {line : Text} {failure : Failure} (refused : ofLine line = .error failure) :
    ∃ error : LineError, failure = .line error ∧ (error.kind = .lexical ∨ error.kind = .syntactic) := by
  rcases ofLine_outcome line with comment | ⟨_, _, _, assignment⟩ | ⟨_, accepted⟩ | ⟨error, rejected, kind⟩
  · cases refused.symm.trans comment
  · cases refused.symm.trans assignment
  · cases refused.symm.trans accepted
  · cases refused.symm.trans rejected
    exact ⟨error, rfl, kind⟩

end Statement
end LineCalc
