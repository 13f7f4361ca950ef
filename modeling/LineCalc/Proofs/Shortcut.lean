import Mathlib.Control.Monad.Basic
import LineCalc.Proofs.Rejection

/-!
The two readings of a line that is no comment: from all of its tokens, or as it is read, from the
first two alone when they open an assignment. They agree wherever the whole line can be scanned,
and where it cannot they differ for assignments only (`Statement.ofLine_of_tokenize`).
-/
namespace LineCalc
open Scan

namespace Scan

theorem opensAssignment_iff {tokens : List Token} :
    opensAssignment tokens = true ↔
      ∃ name sign rest, tokens = name :: sign :: rest ∧ name.kind = .ident ∧ sign.kind = .assign := by
  constructor
  · intro opens
    rcases tokens with _ | ⟨name, _ | ⟨sign, rest⟩⟩
    · cases opens
    · cases opens
    · simp only [opensAssignment, Bool.and_eq_true, decide_eq_true_eq] at opens
      exact ⟨name, sign, rest, rfl, opens⟩
  · rintro ⟨name, sign, rest, rfl, isName, isSign⟩
    simp [opensAssignment, isName, isSign]

/-- The scan of the first two tokens accepts them when they open an assignment, whatever stands
    behind them. -/
theorem tokenize_of_opens {line : Text} (opens : opensAssignment (ofText none line).tokens = true) :
    ∃ name sign rest column, (ofText none line).tokens = name :: sign :: rest ∧ name.kind = .ident ∧
      sign.kind = .assign ∧ tokenize (some 2) line = .ok [name, sign, Token.atEnd column] := by
  obtain ⟨name, sign, rest, whole, isName, isSign⟩ := opensAssignment_iff.mp opens
  obtain ⟨taken, refusal⟩ := limited 2 0 line
  have head : (ofText (some 2) line).tokens = [name, sign] := by
    refine Eq.trans taken ?_
    show (ofText none line).tokens.take 2 = _
    rw [whole]
    rfl
  have accepted : (ofText (some 2) line).refused = none := by
    cases refused : (ofText (some 2) line).refused with
    | none => rfl
    | some c =>
      have fewer : (ofText (some 2) line).tokens.length < 2 := (refusal c refused).2.2
      rw [head] at fewer
      exact absurd fewer (Nat.lt_irrefl 2)
  refine ⟨name, sign, rest, (ofText (some 2) line).stop + 1, whole, isName, isSign, ?_⟩
  rw [tokenize, result, accepted, head]
  rfl

end Scan

namespace Statement

/-- The tokens behind a name and an assignment sign have no part in what is read. -/
theorem ofTokens_of_opens {line : Text} {name sign : Token} (isName : name.kind = .ident) (isSign : sign.kind = .assign)
    (rest other : List Token) :
    (ofTokens line (name :: sign :: rest)).outcome = (ofTokens line (name :: sign :: other)).outcome := by
  have opens : ∀ behind, opensAssignment (name :: sign :: behind) = true := fun behind =>
    opensAssignment_iff.mpr ⟨name, sign, behind, rfl, isName, isSign⟩
  rw [ofTokens_of_opensAssignment (opens rest), ofTokens_of_opensAssignment (opens other), readAssignment, readAssignment]
  dsimp only
  split <;> rfl

theorem ofLine_of_ofStatement {line : Text} (wordy : isComment line = false) {tokens : List Token}
    (scanned : ofStatement line = .ok tokens) : ofLine line = (ofTokens line tokens).outcome := by
  rw [ofLine, wordy, if_neg Bool.false_ne_true, scanned]

theorem ofLine_of_opens {line : Text} (wordy : isComment line = false)
    (opens : opensAssignment (Scan.ofText none line).tokens = true) :
    (∃ name value column, ofLine line = .ok (.assignment name value column)) ∨
      ∃ fault column, ofLine line = .error (.line (.malformed fault column)) := by
  obtain ⟨name, sign, rest, column, -, isName, isSign, head⟩ := tokenize_of_opens opens
  have scanned : ofStatement line = .ok [name, sign, Token.atEnd column] := by rw [ofStatement_eq, if_pos opens, head]
  have closed : opensAssignment [name, sign, Token.atEnd column] = true :=
    opensAssignment_iff.mpr ⟨name, sign, _, rfl, isName, isSign⟩
  rw [ofLine_of_ofStatement wordy scanned, ofTokens_of_opensAssignment closed]
  rcases readAssignment_outcome line [name, sign, Token.atEnd column] name sign with ⟨value, place, read⟩ | malformed
  · exact Or.inl ⟨_, value, place, read⟩
  · exact Or.inr malformed

theorem ofLine_of_tokens {line : Text} (wordy : isComment line = false) {tokens : List Token}
    (scanned : tokenize none line = .ok tokens) : ofLine line = (ofTokens line tokens).outcome := by
  cases opens : opensAssignment (Scan.ofText none line).tokens with
  | false =>
    refine ofLine_of_ofStatement wordy ?_
    rw [ofStatement_eq, opens, if_neg Bool.false_ne_true, scanned]
  | true =>
    obtain ⟨name, sign, rest, column, whole, isName, isSign, head⟩ := tokenize_of_opens opens
    obtain ⟨-, last, all⟩ := tokenize_eq_ok scanned
    have first : ofStatement line = .ok [name, sign, Token.atEnd column] := by rw [ofStatement_eq, if_pos opens, head]
    rw [ofLine_of_ofStatement wordy first, all, whole]
    exact ofTokens_of_opens isName isSign _ _

/-- A line that is no comment and can be scanned to its end is read as from all of its tokens. Where
    the scan refuses a character, the line has this error, unless the tokens before it open an
    assignment; such a line has no lexical error. -/
theorem ofLine_of_tokenize {line : Text} (wordy : isComment line = false) :
    (∀ tokens, tokenize none line = .ok tokens → (ofTokens line tokens).outcome = ofLine line ∧
      ((∃ statement, ofLine line = .ok statement) ∨
        ∃ fault column, ofLine line = .error (.line (.malformed fault column)))) ∧
    ∀ error, tokenize none line = .error error →
      (∃ character column, error = .invalidCharacter character column) ∧
      (opensAssignment (Scan.ofText none line).tokens = false → ofLine line = .error (.line error)) ∧
      (opensAssignment (Scan.ofText none line).tokens = true →
        ∀ other, ofLine line = .error (.line other) → other.kind ≠ .lexical) := by
  refine ⟨fun tokens scanned => ⟨(ofLine_of_tokens wordy scanned).symm, ?_⟩, fun error refused => ⟨?_, ?_, ?_⟩⟩
  · have ends : HasEnd tokens := by
      rcases tokenize_outcome none line with ⟨other, found, ends⟩ | ⟨_, _, found⟩
      · cases scanned.symm.trans found
        exact ends
      · cases scanned.symm.trans found
    rw [ofLine_of_tokens wordy scanned]
    rcases ofTokens_outcome ends line with ⟨name, value, column, read⟩ | ⟨tree, read⟩ | malformed
    · exact Or.inl ⟨_, read⟩
    · exact Or.inl ⟨_, read⟩
    · exact Or.inr malformed
  · rcases tokenize_outcome none line with ⟨tokens, found, -⟩ | ⟨character, column, found⟩
    · cases refused.symm.trans found
    · cases refused.symm.trans found
      exact ⟨character, column, rfl⟩
  · intro closed
    rw [ofLine, wordy, if_neg Bool.false_ne_true, ofStatement_eq, closed, if_neg Bool.false_ne_true, refused]
  · intro opens other failed
    rcases ofLine_of_opens wordy opens with ⟨name, value, column, read⟩ | ⟨fault, column, read⟩
    · cases failed.symm.trans read
    · cases failed.symm.trans read
      exact ErrorKind.noConfusion

/-- Behind an assignment sign any token is part of the value, and so is a character that is
    refused anywhere else. -/
theorem ofLine_of_tokenize_behind_sign :
    (isComment "x := 2 := 3".toList = false ∧
      ∃ tokens, tokenize none "x := 2 := 3".toList = .ok tokens ∧ tokens.length = 6 ∧
        (ofTokens "x := 2 := 3".toList tokens).outcome = ofLine "x := 2 := 3".toList) ∧
    (isComment "x + 2 ? 3".toList = false ∧
      tokenize none "x + 2 ? 3".toList = .error (.invalidCharacter ['?'] 7) ∧
      ofLine "x + 2 ? 3".toList = .error (.line (.invalidCharacter ['?'] 7))) ∧
    (isComment "x := 2 ? 3".toList = false ∧
      tokenize none "x := 2 ? 3".toList = .error (.invalidCharacter ['?'] 8) ∧
      ∀ error, ofLine "x := 2 ? 3".toList = .error (.line error) → error.kind ≠ .lexical) := by
  refine ⟨?_, ?_, ?_⟩
  · have wordy : isComment "x := 2 := 3".toList = false := by decide +kernel
    have scanned : tokenize none "x := 2 := 3".toList =
        .ok [⟨.ident, ['x'], 1⟩, ⟨.assign, [':', '='], 3⟩, ⟨.int, ['2'], 6⟩, ⟨.assign, [':', '='], 8⟩,
          ⟨.int, ['3'], 11⟩, Token.atEnd 12] := by decide +kernel
    exact ⟨wordy, _, scanned, rfl, ((ofLine_of_tokenize wordy).1 _ scanned).1⟩
  · have wordy : isComment "x + 2 ? 3".toList = false := by decide +kernel
    have refused : tokenize none "x + 2 ? 3".toList = .error (.invalidCharacter ['?'] 7) := by decide +kernel
    exact ⟨wordy, refused, ((ofLine_of_tokenize wordy).2 _ refused).2.1 (by decide +kernel)⟩
  · have wordy : isComment "x := 2 ? 3".toList = false := by decide +kernel
    have refused : tokenize none "x := 2 ? 3".toList = .error (.invalidCharacter ['?'] 8) := by decide +kernel
    exact ⟨wordy, refused, ((ofLine_of_tokenize wordy).2 _ refused).2.2 (by decide +kernel)⟩

end Statement
end LineCalc
